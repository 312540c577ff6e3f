import RequestLine.Proofs.EntryPoints
import RequestLine.Proofs.Json.Indented
import RequestLine.Proofs.Statement.RoundTrip

/-!
# Printed requests read back

The command `parse` prints the request of a statement as an indented object. What it prints is read
as that object again. A text that cannot be encoded is not printed at all.

* `Request.printable_toJson`: the request of a statement can be printed, infinite numbers apart.
* `report_of_parse_ok`: what the command does with a statement that describes a request.
* `indented_reads_back`: the indented texts of all printable values, and so the output of the
  command, read back.
-/

namespace RequestLine

/-! ## Printable requests -/

theorem Effective.printable {s : Text} {ps : List Text} {ss : List Section}
    (ha : Accepted s ps ss) {k : Keyword} (hk : k ∉ Keyword.required) {v : Json}
    (h : Effective ss k v) (hfinite : v.Everywhere fun x => ¬ x.IsInfinite) : v.Printable := by
  cases h with
  | filled hlast _ =>
    obtain ⟨t, -, hvalue⟩ := ha.exists_value hk hlast.mem
    have hanyText : ∀ u s, Json.Grammar.StringText u s → (∀ c ∈ u, True) → True :=
      fun _ _ _ _ => trivial
    exact hvalue.everywhere_writable hanyText (fun _ _ => trivial) hfinite
  | emptied | absent => exact Json.writable_emptyObject _

theorem Request.printable_toJson {s : Text} {r : Request} (h : Request.parse s = .ok r)
    (hr : r.FiniteNumbers) : r.toJson.Printable := by
  obtain ⟨ps, ss, ha, hd⟩ := parse_eq_ok_iff_describes.1 h
  have htext : ∀ t, (Json.str t).Printable := fun t => (Json.everywhere_scalar rfl).2 trivial
  have hnames : (Dictionary.keys [(Text.ofString "method", Json.str r.method.name),
      (Text.ofString "url", .str r.url), (Text.ofString "headers", r.headers),
      (Text.ofString "query", r.query), (Text.ofString "body", r.body),
      (Text.ofString "fullUrl", .str r.fullUrl)]).Nodup := by
    simp only [Dictionary.keys, List.map_cons, List.map_nil]
    decide
  refine Json.everywhere_obj.2 ⟨⟨hnames, fun _ _ => trivial⟩, ?_⟩
  simp only [List.forall_mem_cons, List.not_mem_nil, false_implies, implies_true, and_true]
  exact ⟨htext _, htext _, hd.headers.printable ha (by decide) hr.headers,
    hd.query.printable ha (by decide) hr.query, hd.body.printable ha (by decide) hr.body,
    htext _⟩

/-! ## The command -/

open CommandLine

theorem blank_lineFeed : Json.Grammar.Blank "\n" := by
  intro c hc
  rw [List.mem_singleton.1 hc]
  decide

theorem report_of_parse_ok {s : Text} {r : Request} (h : Request.parse s = .ok r)
    {env : Environment} {args : List Text} {verbose : Bool} {format : Format}
    (hread : Invocation.read env args = .ok ⟨verbose, .parse s format⟩) (session : Session) :
    Report.ofArguments env args session =
      if (line (format.render (membersOf r.toJson))).hasSurrogate then
        ⟨[], logLines verbose [.parsed r.method r.fullUrl], [], .unprintable⟩
      else
        ⟨line (format.render (membersOf r.toJson)), logLines verbose [.parsed r.method r.fullUrl],
          [], .exit 0⟩ := by
  simp only [Report.ofArguments, hread, Report.ofInvocation, Report.ofParse, h]

/-- The output of a command is a text and a line feed, and is read as a value. A text with a
surrogate is not printed. -/
inductive PrintsReadable (text : Text) (v : Json) (report : Report) : Prop
  | printed : text.hasSurrogate = false → report.ending = .exit 0 →
      report.stdout = text ++ Text.ofString "\n" → Json.parse? .strict report.stdout = some v →
      PrintsReadable text v report
  | unprintable : text.hasSurrogate = true → report.ending = .unprintable → report.stdout = [] →
      PrintsReadable text v report

theorem hasSurrogate_line (t : Text) : (line t).hasSurrogate = t.hasSurrogate := by
  have hfeed : CodePoint.isSurrogate (CodePoint.ofChar '\n') = false := by decide
  simp [line, Text.hasSurrogate, Text.ofString, hfeed]

theorem printsReadable_of_parse {s : Text} {r : Request} (h : Request.parse s = .ok r)
    (hr : r.FiniteNumbers) {env : Environment} {args : List Text} {verbose : Bool}
    (hread : Invocation.read env args = .ok ⟨verbose, .parse s .json⟩) (session : Session) :
    PrintsReadable (Format.json.render (membersOf r.toJson)) r.toJson
      (Report.ofArguments env args session) := by
  rw [report_of_parse_ok h hread, hasSurrogate_line]
  split
  · rename_i hs
    exact .unprintable hs rfl rfl
  · rename_i hs
    have hvalue := Json.value_indentedAt (d := .strict) (Request.printable_toJson h hr) 0
    exact .printed (Bool.not_eq_true _ ▸ hs) rfl rfl
      (Json.parse?_of_value_append hvalue blank_lineFeed)

/-- **Indented texts read back.** The indented text of every printable value is read as that value.
So the text that the command `parse` makes of a statement is read as the members of its request, and
what the command prints is this text, unless it holds a surrogate. -/
theorem indented_reads_back :
    (∀ v : Json, v.Printable → Json.parse? .strict v.indented = some v) ∧
      ∀ (s : Text) (r : Request), Request.parse s = .ok r → r.FiniteNumbers →
        Json.parse? .strict (Format.json.render (membersOf r.toJson)) =
            some (.obj [("method", .str r.method.name), ("url", .str r.url),
              ("headers", r.headers), ("query", r.query), ("body", r.body),
              ("fullUrl", .str r.fullUrl)]) ∧
          ∀ (env : Environment) (args : List Text) (verbose : Bool) (session : Session),
            Invocation.read env args = .ok ⟨verbose, .parse s .json⟩ →
              PrintsReadable (Format.json.render (membersOf r.toJson)) r.toJson
                (Report.ofArguments env args session) := by
  refine ⟨fun v hv => Json.parse?_indented hv, fun s r h hr => ⟨?_, ?_⟩⟩
  · exact Json.parse?_indented (Request.printable_toJson h hr)
  · exact fun env args verbose session hread => printsReadable_of_parse h hr hread session

end RequestLine
