import RequestLine.Proofs.CommandLine.Batch
import RequestLine.Proofs.CommandLine.PrintedRequest
import RequestLine.Proofs.Json.RepeatedNames
import RequestLine.Proofs.Statement.Rebuilding
import RequestLine.Proofs.Yaml.LastValue

/-!
# Printed YAML

The program trims the YAML document that it prints and adds the line feed again. That changes the
document if and only if its last value frays. The last value of a request is its full URL, which
never does; the messages of the program itself never do. What comes from the transport may: the data
of a response, and the message of a failure.

* `fullUrl_endsSolid`, `StatementError.not_frays_message`, `Response.not_frays_complaint`: values
  that do not fray.
* `Client.Frays`: the outcomes that make an answer fray; `Answers.frays_data_iff`.
* `KeepsData`: both formats print the same data.
* `yaml_keeps_data`: what the command line prints as YAML.
-/

namespace RequestLine

open CommandLine

/-! ## Texts that do not fray -/

namespace Text

theorem endsSolid_iff_getLast? {t : Text} : t.EndsSolid ↔ ∃ c ∈ t.getLast?, c.isBlank = false := by
  constructor
  · rintro ⟨r, c, rfl, hc⟩
    exact ⟨c, by rw [List.getLast?_concat, Option.mem_some_iff], hc⟩
  · rintro ⟨c, hc, hblank⟩
    obtain ⟨r, rfl⟩ := List.getLast?_eq_some_iff.1 hc
    exact ⟨r, c, rfl, hblank⟩

end Text

namespace Yaml.Scalar

theorem not_frays_of_endsSolid {t : Text} (h : t.EndsSolid) : ¬ Frays t :=
  fun hfrays => hfrays.2.not_endsSolid h

theorem not_frays_nil : ¬ Frays [] := fun hfrays => hfrays.2.ne_nil rfl

theorem hasNeighbours_of_append {p : CodePoint → CodePoint → Bool} {c d : CodePoint}
    (h : p c d = true) (a b : Text) : hasNeighbours p (a ++ c :: d :: b) = true := by
  induction a with
  | nil => simp [hasNeighbours, h]
  | cons x a ih =>
    cases a <;>
      · simp only [hasNeighbours, List.cons_append, List.nil_append, List.drop_succ_cons,
          List.drop_zero, List.zip_cons_cons, List.any_cons, Bool.or_eq_true] at ih ⊢
        exact .inr ih

/-- A text with a colon before a space is quoted. -/
theorem not_frays_of_colon (a b : Text) :
    ¬ Frays (a ++ CodePoint.ofChar ':' :: CodePoint.ofChar ' ' :: b) := by
  rintro ⟨hplain, -⟩
  have hallows := allowsPlain_of_plain hplain
  have hcolon : holdsIndicator (a ++ CodePoint.ofChar ':' :: CodePoint.ofChar ' ' :: b) = true := by
    rw [holdsIndicator, hasNeighbours_of_append (by decide), Bool.true_or]
  simp [allowsPlain, hcolon] at hallows

end Yaml.Scalar

open Yaml (Frays)
open Yaml.Scalar (not_frays_of_endsSolid not_frays_of_colon)

theorem StatementError.not_frays_message (e : StatementError) : ¬ Yaml.Scalar.Frays e.message := by
  cases e with
  | unknownKeyword word => exact not_frays_of_colon (Text.ofString "Unknown keyword") word
  | malformedJson k | missingKeyword k =>
    refine not_frays_of_endsSolid (Text.endsSolid_iff_getLast?.2 ?_)
    cases k <;> decide
  | _ => exact not_frays_of_endsSolid (Text.endsSolid_iff_getLast?.2 (by decide))

theorem Response.not_frays_complaint {r : Response} {url m : Text}
    (h : r.complaint? url = some m) : ¬ Yaml.Scalar.Frays m := by
  obtain ⟨side, -, rfl⟩ := Option.map_eq_some_iff.1 h
  have hcolon := not_frays_of_colon (integerText r.status ++ " " ++ side ++ " Error")
    (r.reason ++ " for url: " ++ r.origin url)
  have htext : integerText r.status ++ " " ++ side ++ Text.ofString " Error: " ++ r.reason ++
        " for url: " ++ r.origin url =
      (integerText r.status ++ " " ++ side ++ " Error") ++
        CodePoint.ofChar ':' :: CodePoint.ofChar ' ' :: (r.reason ++ " for url: " ++ r.origin url) := by
    have herror : Text.ofString " Error: " =
        Text.ofString " Error" ++ [CodePoint.ofChar ':', CodePoint.ofChar ' '] := by decide
    rw [herror]
    simp only [List.append_assoc, List.cons_append, List.nil_append]
  rwa [htext]

/-- An empty message is replaced by one that does not fray. -/
theorem ExecutionError.frays_message_ofMessage {m : Text} {r : Option Response} :
    Yaml.Scalar.Frays (ofMessage m r).message ↔ Yaml.Scalar.Frays m := by
  cases m with
  | nil =>
    have hcode : code.EndsSolid := Text.endsSolid_iff_getLast?.2 (by decide)
    exact iff_of_false (not_frays_of_endsSolid hcode) Yaml.Scalar.not_frays_nil
  | cons => rfl

/-! ## Requests -/

theorem Percent.not_isBlank_of_isUnreserved {c : CodePoint} (h : isUnreserved c = true) :
    c.isBlank = false := by
  have hmarks : ∀ c ∈ marks, c.isBlank = false := by decide
  simp only [isUnreserved, Bool.or_eq_true, List.contains_iff_mem] at h
  rcases h with (h | h) | h
  · simp only [CodePoint.isLetter, Bool.or_eq_true, Bool.and_eq_true, decide_eq_true_eq] at h
    simp only [CodePoint.isBlank, ← Bool.not_eq_true, Bool.or_eq_true, Bool.and_eq_true,
      decide_eq_true_eq, beq_iff_eq]
    omega
  · exact not_isBlank_of_isDigit h
  · exact hmarks c h

theorem Describes.fullUrl_endsSolid {ss : List Section} {r : Request} (h : Describes ss r)
    (hurl : PlainUrl r.url) : r.fullUrl.EndsSolid := by
  have hfull := h.fullUrl
  by_cases hq : r.query.keys = []
  · rw [fullUrl?_of_keys_eq_nil hq] at hfull
    rw [← Option.some.inj hfull]
    exact hurl.last
  · rw [fullUrl?_of_keys_ne_nil hq, Option.map_eq_some_iff] at hfull
    obtain ⟨t, ht, hurl⟩ := hfull
    rw [← hurl]
    rcases List.eq_nil_or_concat t with rfl | ⟨u, c, rfl⟩
    · rw [List.append_nil]
      exact ⟨r.url, CodePoint.ofChar '?', rfl, by decide⟩
    · rw [List.concat_eq_append] at ht ⊢
      refine ⟨r.url ++ "?" ++ u, c, (List.append_assoc _ _ _).symm, ?_⟩
      have hmarks : ∀ c ∈ Text.ofString "%=&", c.isBlank = false := by decide
      have hc : c ∈ u ++ [c] := List.mem_append_right _ (List.mem_singleton_self c)
      exact (mem_of_queryText? ht hc).elim Percent.not_isBlank_of_isUnreserved (hmarks c)

theorem Request.not_frays_toJson {s : Text} {r : Request} (h : Request.parse s = .ok r) :
    ¬ Frays r.toJson := by
  obtain ⟨ps, ss, ha, hd⟩ := parse_eq_ok_iff_describes.1 h
  have hlast : r.toJson = .obj ([(Text.ofString "method", Json.str r.method.name),
      (Text.ofString "url", .str r.url), (Text.ofString "headers", r.headers),
      (Text.ofString "query", r.query), (Text.ofString "body", r.body)] ++
        [(Text.ofString "fullUrl", .str r.fullUrl)]) := rfl
  rw [hlast, Yaml.frays_obj_append, Yaml.frays_str]
  exact not_frays_of_endsSolid (hd.fullUrl_endsSolid (ha.plainUrl hd.url.mem))

/-! ## Answers -/

theorem Answer.frays_badRequest {m : Text} :
    Frays (badRequest m).data ↔ Yaml.Scalar.Frays m := by
  have hlast : (badRequest m).data =
      .obj ([(Text.ofString "error", Json.bool true)] ++ [(Text.ofString "message", .str m)]) := rfl
  rw [hlast, Yaml.frays_obj_append, Yaml.frays_str]

theorem Answer.frays_created {e : Envelope} : Frays (created e).data ↔ Frays e.data := by
  obtain ⟨request, response, hdata⟩ : ∃ request response : List (Text × Json),
      (created e).data = .obj (request ++
        [(Text.ofString "response", .obj (response ++ [(Text.ofString "response_data", e.data)]))]) :=
    ⟨[(_, _)], [(_, _), (_, _), (_, _), (_, _)], rfl⟩
  rw [hdata, Yaml.frays_obj_append, Yaml.frays_obj_append]

/-- The outcomes that a client answers with data that fray. -/
inductive Client.Frays (c : Client) : Outcome → Prop
  | response {r : Response} : c.Accepts r.status → Yaml.Frays r.data → Frays c (.response r)
  | failed {m : Text} : Yaml.Scalar.Frays m → Frays c (.failed m)
  | refused {m : Text} {r : Response} : Yaml.Scalar.Frays m → Frays c (.refused m r)

theorem Client.frays_message_iff {c : Client} {url : Text} {o : Outcome} {e : ExecutionError}
    (h : c.judge url o = .error (.execution e)) : Yaml.Scalar.Frays e.message ↔ c.Frays o := by
  cases o with
  | response r =>
    have hrefused : ¬ c.Frays (.response r) := by
      rintro (⟨haccepts, -⟩ | _ | _)
      cases h.symm.trans (judge_eq_ok_iff.2 ⟨rfl, haccepts⟩)
    refine iff_of_false ?_ hrefused
    simp only [judge] at h
    split at h
    · rename_i m hm
      cases h
      rw [ExecutionError.frays_message_ofMessage]
      split at hm
      · exact Response.not_frays_complaint hm
      · cases hm
    · cases h
  | failed m =>
    cases h
    rw [ExecutionError.frays_message_ofMessage]
    refine ⟨.failed, fun hfrays => ?_⟩
    cases hfrays with
    | failed hm => exact hm
  | refused m r =>
    cases h
    rw [ExecutionError.frays_message_ofMessage]
    refine ⟨.refused, fun hfrays => ?_⟩
    cases hfrays with
    | refused hm => exact hm
  | broken fault => cases h

/-- The data of an answer fray just because of what the transport did. -/
theorem Answers.frays_data_iff {c : Client} {payload : Dictionary Text Json} {s : Session}
    {step : Step (Except Interruption Answer)} (h : Answers c payload s step) {a : Answer}
    (ha : step.result = .ok a) : Frays a.data ↔ step.calls ≠ [] ∧ c.Frays s.outcomes.first := by
  cases h with
  | missing =>
    cases ha
    rw [Answer.frays_badRequest]
    exact iff_of_false (not_frays_of_endsSolid (Text.endsSolid_iff_getLast?.2 (by decide)))
      fun hsent => hsent.1 rfl
  | @rejected e =>
    cases ha
    rw [Answer.frays_badRequest]
    exact iff_of_false e.not_frays_message fun hsent => hsent.1 rfl
  | unencodable | stopped | broken | unfinished => cases ha
  | failed _ hjudge =>
    cases ha
    rw [Answer.frays_badRequest, Client.frays_message_iff hjudge]
    exact (and_iff_right (List.cons_ne_nil _ _)).symm
  | created _ hresponse haccepts =>
    cases ha
    rw [Answer.frays_created, hresponse, and_iff_right (List.cons_ne_nil _ _)]
    refine ⟨.response haccepts, fun hfrays => ?_⟩
    cases hfrays with
    | response _ hdata => exact hdata

/-! ## Printable answers -/

namespace Json

/-- The names of every object in the value are distinct. -/
def DistinctNames (v : Json) : Prop :=
  v.Everywhere fun x => ∀ ms, x = .obj ms → (Dictionary.keys ms).Nodup

theorem distinctNames_scalar {v : Json} (hv : v.isScalar = true) : v.DistinctNames := by
  refine (everywhere_scalar hv).2 ?_
  rintro ms rfl
  cases hv

theorem distinctNames_obj {ms : List (Text × Json)} :
    (Json.obj ms).DistinctNames ↔
      (Dictionary.keys ms).Nodup ∧ ∀ m ∈ ms, m.2.DistinctNames := by
  unfold DistinctNames
  rw [everywhere_obj]
  exact and_congr_left' ⟨fun h => h ms rfl, fun h _ heq => Json.obj.inj heq ▸ h⟩

theorem distinctNames_of_value {d : Dialect} {t : Text} {v : Json} (h : Grammar.Value d t v) :
    v.DistinctNames := by
  rintro _ hms ms rfl
  exact (value_iff_merged.1 h).nodup_of_inside hms

/-- A value can be printed if its numbers can and its names are distinct. -/
theorem printable_of_readable {v : Json} (hnames : v.DistinctNames)
    (hnumbers : ∀ n, Inside (.num n) v → n.Readable) : v.Printable := by
  intro x hx
  cases x with
  | num n => exact hnumbers n hx
  | obj ms => exact ⟨hnames _ hx ms rfl, fun _ _ => trivial⟩
  | null | bool | str | arr => trivial

end Json

theorem Effective.distinctNames {s : Text} {ps : List Text} {ss : List Section}
    (ha : Accepted s ps ss) {k : Keyword} (hk : k ∉ Keyword.required) {v : Json}
    (h : Effective ss k v) : v.DistinctNames := by
  cases h with
  | filled hlast _ =>
    obtain ⟨t, -, hvalue⟩ := ha.exists_value hk hlast.mem
    exact Json.distinctNames_of_value hvalue
  | emptied | absent =>
    exact Json.distinctNames_obj.2 ⟨List.nodup_nil, fun m hm => absurd hm List.not_mem_nil⟩

theorem Response.distinctNames_data (r : Response) : r.data.DistinctNames := by
  unfold data
  cases h : Json.parse? .withConstants r.body with
  | some v =>
    rintro _ hms ms rfl
    exact Json.nodup_of_parse? h hms
  | none => exact Json.distinctNames_scalar rfl

theorem distinctNames_envelopeOf {v : Json} {r : Request} (h : Request.ofJson v = .ok r)
    (response : Response) (start stop : Int) :
    (envelopeOf r response start stop).toJson.DistinctNames := by
  obtain ⟨s, ps, ss, ha, hd⟩ : ∃ s ps ss, Accepted s ps ss ∧ Describes ss r := by
    cases v with
    | str s => exact ⟨s, parse_eq_ok_iff_describes.1 h⟩
    | null | bool | num | arr | obj => cases h
  have hrequest := hd.query.distinctNames ha (by decide)
  have hbody := hd.body.distinctNames ha (by decide)
  have hheaders := hd.headers.distinctNames ha (by decide)
  simp only [Envelope.toJson, envelopeOf, Json.object, Json.distinctNames_obj, Dictionary.keys,
    List.map_cons, List.map_nil, List.forall_mem_cons, List.not_mem_nil, false_implies,
    implies_true, and_true]
  refine ⟨by decide, ⟨by decide, hrequest, hbody, hheaders, Json.distinctNames_scalar rfl⟩,
    by decide, Json.distinctNames_scalar rfl, Json.distinctNames_scalar rfl,
    Json.distinctNames_scalar rfl, Json.distinctNames_scalar rfl, response.distinctNames_data⟩

theorem distinctNames_badRequest (m : Text) : (Answer.badRequest m).data.DistinctNames := by
  simp only [Answer.data, Json.object, Json.distinctNames_obj, Dictionary.keys, List.map_cons,
    List.map_nil, List.forall_mem_cons, List.not_mem_nil, false_implies, implies_true, and_true]
  exact ⟨by decide, Json.distinctNames_scalar rfl, Json.distinctNames_scalar rfl⟩

theorem Answers.distinctNames_data {c : Client} {payload : Dictionary Text Json} {s : Session}
    {step : Step (Except Interruption Answer)} (h : Answers c payload s step) {a : Answer}
    (ha : step.result = .ok a) : a.data.DistinctNames := by
  cases h with
  | missing | rejected | failed =>
    cases ha
    exact distinctNames_badRequest _
  | unencodable | stopped | broken | unfinished => cases ha
  | created hsends =>
    cases ha
    exact distinctNames_envelopeOf hsends.request _ _ _

/-! ## Printed documents -/

namespace CommandLine

theorem exists_render_yaml (members : Dictionary Text Json) :
    ∃ b : Text, (∀ c ∈ b, c.isBlank = true) ∧
      Yaml.render members = Format.yaml.render members ++ (b ++ "\n") ∧
      (b = [] ↔ ¬ Frays (.obj members)) := by
  obtain ⟨b, hb, hrender⟩ := Yaml.exists_render_trimEnd members
  refine ⟨b, hb, hrender, ?_⟩
  rw [← Yaml.trimEnd_render_eq_iff]
  constructor
  · rintro rfl
    exact hrender.symm
  · intro h
    have hlength := congrArg List.length (h.trans hrender)
    simp only [List.length_append] at hlength
    exact List.eq_nil_of_length_eq_zero (by omega)

/-- Both formats print the value: the line that the program prints as YAML is the document of the
value, so whatever reads the value from the document reads in it what the JSON line says. -/
structure KeepsData (v : Json) : Prop where
  document : line (Format.yaml.render (membersOf v)) = Yaml.render (membersOf v)
  reads : ∀ read : Text → Option Json, read (Yaml.render (membersOf v)) = some v →
    read (line (Format.yaml.render (membersOf v))) =
      Json.parse? .strict (line (Format.json.render (membersOf v)))

theorem keepsData_of_not_frays {v : Json} (hv : v.Printable) (hobject : Json.object (membersOf v) = v)
    (h : ¬ Frays v) : KeepsData v := by
  have hdocument : line (Format.yaml.render (membersOf v)) = Yaml.render (membersOf v) := by
    refine Yaml.trimEnd_render_eq_iff.2 ?_
    rwa [← Json.object, hobject]
  refine ⟨hdocument, fun read hread => ?_⟩
  rw [hdocument, hread]
  refine (Json.parse?_of_value_append ?_ blank_lineFeed).symm
  rw [Format.render, hobject]
  exact Json.value_indentedAt hv 0

/-- What is printed for a statement and its answer, with the whole document. -/
def documentOf (titled : Bool) (statement : Text) (a : Answer) : Text :=
  (if titled then titleLine statement else []) ++ Yaml.render (membersOf a.data)

theorem blockOf_yaml_eq_iff {titled : Bool} {statement : Text} {a : Answer} :
    blockOf .yaml titled statement a = documentOf titled statement a ↔ ¬ Frays a.data := by
  have hobject : Json.obj (membersOf a.data) = a.data := object_membersOf_data a
  rw [blockOf, documentOf, titleLine_eq, List.append_cancel_left_eq, ← hobject]
  exact Yaml.trimEnd_render_eq_iff

theorem blocksOf_yaml {titled : Bool} {statements : List Text} {answers : List Answer}
    (h : ∀ a ∈ answers, ¬ Frays a.data) :
    blocksOf .yaml titled statements answers =
      List.zipWith (documentOf titled) statements answers := by
  rw [blocksOf]
  induction statements generalizing answers with
  | nil => rfl
  | cons t statements ih =>
    cases answers with
    | nil => rfl
    | cons a answers =>
      obtain ⟨ha, hlater⟩ := List.forall_mem_cons.1 h
      rw [List.zipWith_cons_cons, List.zipWith_cons_cons, ih hlater, blockOf_yaml_eq_iff.2 ha]

theorem stdout_ofRun {c : Client} {statements : List Text} {s : Session} {answers : List Answer}
    (h : AnsweredBy c statements s answers) (hfrays : ∀ a ∈ answers, ¬ Frays a.data)
    {documents : List Text}
    (hdocuments : documents =
      List.zipWith (documentOf (1 < statements.length)) statements answers)
    (hprint : ∀ d ∈ documents, d.hasSurrogate = false) (verbose : Bool) :
    (Report.ofRun verbose c .yaml statements s).stdout = documents.flatten := by
  rw [hdocuments, ← blocksOf_yaml hfrays] at hprint ⊢
  simp only [Report.ofRun, Progress.ofStatements_eq h hprint]
  split <;> rfl

/-- The report of the command `parse` prints the document of a request, unless it holds a
surrogate. -/
theorem stdout_of_parse {s : Text} {r : Request} (h : Request.parse s = .ok r)
    {env : Environment} {args : List Text} {verbose : Bool}
    (hread : Invocation.read env args = .ok ⟨verbose, .parse s .yaml⟩) (session : Session) :
    (Report.ofArguments env args session).stdout =
      if (Yaml.render (membersOf r.toJson)).hasSurrogate then []
      else Yaml.render (membersOf r.toJson) := by
  have hdocument : line (Format.yaml.render (membersOf r.toJson)) =
      Yaml.render (membersOf r.toJson) :=
    Yaml.trimEnd_render_eq_iff.2 (Request.not_frays_toJson h)
  rw [report_of_parse_ok h hread, hdocument]
  split <;> rfl

/-- **YAML keeps the data but for white space at their end.** Trimming takes white space from a
document, and more than its line feed if and only if its last value is a text that is written
without quotes although it ends with white space. No request ends so. An answer ends so if and only
if its outcome does: a response with such data that the client accepts, or a failure with such a
message. In all other cases the program prints the document, and what is read in it is what the JSON
text says. -/
theorem yaml_keeps_data (c : Client) (session : Session) :
    (∀ members : Dictionary Text Json, ∃ b : Text, (∀ c ∈ b, c.isBlank = true) ∧
      Yaml.render members = Format.yaml.render members ++ (b ++ "\n") ∧
      (b = [] ↔ ¬ ∃ t, Yaml.EndsWith (.str t) (.obj members) ∧
        Yaml.Scalar.styleOf t = .plain ∧ t.EndsBlank)) ∧
    (∀ (s : Text) (r : Request), Request.parse s = .ok r →
      (r.FiniteNumbers → KeepsData r.toJson) ∧
        ∀ (env : Environment) (args : List Text) (verbose : Bool),
          Invocation.read env args = .ok ⟨verbose, .parse s .yaml⟩ →
            (Report.ofArguments env args session).stdout =
              if (Yaml.render (membersOf r.toJson)).hasSurrogate then []
              else Yaml.render (membersOf r.toJson)) ∧
    (∀ (payload : Dictionary Text Json) (a : Answer), (c.answer payload session).result = .ok a →
      (Frays a.data ↔ (c.answer payload session).calls ≠ [] ∧ c.Frays session.outcomes.first) ∧
      (¬ Frays a.data → (∀ n, Json.Inside (.num n) a.data → n.Readable) → KeepsData a.data)) ∧
    ∀ (statements : List Text) (answers : List Answer),
      AnsweredBy c statements session answers → (∀ a ∈ answers, ¬ Frays a.data) →
        ∀ documents, documents =
            List.zipWith (documentOf (1 < statements.length)) statements answers →
          (∀ d ∈ documents, d.hasSurrogate = false) → ∀ verbose,
            (Report.ofRun verbose c .yaml statements session).stdout = documents.flatten := by
  refine ⟨exists_render_yaml, fun s r h => ⟨fun hr => ?_, ?_⟩, fun payload a ha => ?_, ?_⟩
  · exact keepsData_of_not_frays (Request.printable_toJson h hr) rfl (Request.not_frays_toJson h)
  · exact fun env args verbose hread => stdout_of_parse h hread session
  · have hanswers := c.answers_answer payload session
    refine ⟨hanswers.frays_data_iff ha, fun hfrays hnumbers => ?_⟩
    exact keepsData_of_not_frays
      (Json.printable_of_readable (hanswers.distinctNames_data ha) hnumbers)
      (object_membersOf_data a) hfrays
  · exact fun statements answers h hfrays documents hdocuments hprint verbose =>
      stdout_ofRun h hfrays hdocuments hprint verbose

/-- A session in which the transport answers with a body, and the clock stands still. -/
def bodySession (body : Text) : Session :=
  ⟨⟨.response ⟨200, "OK", body, id⟩, []⟩, ⟨Double.zero false, []⟩⟩

theorem answer_of_body (body : Text) :
    ((Client.mk none true).answer (payloadOf "HTTP GET | URL u") (bodySession body)).result =
      .ok (.created ⟨.obj [], .obj [], .obj [], "u", 200, 0, 0,
        (Response.mk 200 "OK" body id).data⟩) := by
  have hrequest : Request.ofJson (.str "HTTP GET | URL u") =
      .ok ⟨.get, "u", .obj [], .obj [], .obj [], "u"⟩ := by
    rfl
  have htime := Client.milliseconds?_zero
  have hstatement : ((payloadOf "HTTP GET | URL u").get? "reqline").getD .null =
      .str "HTTP GET | URL u" := rfl
  have hclock : (bodySession body).clock.rest.first = Double.zero false := rfl
  simp only [Client.answer, hstatement, Client.run, hrequest, Client.send]
  rw [if_neg (by decide), show (bodySession body).clock.first = Double.zero false from rfl, htime,
    hclock, htime]
  rfl

/-- Two bodies that differ in a no-break space at their end make other data but the same YAML. -/
theorem yaml_drops_no_break_space :
    ∃ e₁ e₂ : Envelope,
      ((Client.mk none true).answer (payloadOf "HTTP GET | URL u")
        (bodySession "x\u00a0")).result = .ok (.created e₁) ∧
      ((Client.mk none true).answer (payloadOf "HTTP GET | URL u")
        (bodySession "x")).result = .ok (.created e₂) ∧
      e₁.data = .str "x\u00a0" ∧ e₂.data = .str "x" ∧
      Format.yaml.render (membersOf e₁.toJson) = Format.yaml.render (membersOf e₂.toJson) ∧
      Format.json.render (membersOf e₁.toJson) ≠ Format.json.render (membersOf e₂.toJson) := by
  refine ⟨_, _, answer_of_body _, answer_of_body _, rfl, rfl, ?_, ?_⟩
  · decide +kernel
  · decide +kernel

end CommandLine

end RequestLine
