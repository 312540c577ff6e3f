import RequestLine.CommandLine.Report
import RequestLine.Proofs.Exchange.Answers
import RequestLine.Proofs.Statement.Classification
import RequestLine.Proofs.Statement.Order
import RequestLine.Proofs.Statement.Precedence
import RequestLine.Statement.Verdict

/-!
# The entry points agree

A statement that is rejected is rejected alike by everything that reads statements: the parser, the
verdict, the command line and the inbound boundary. The command line takes the control sequences out
of what it prints, so there the message is whole only if the statement has no escape character.

* `mem_of_parse_unknownKeyword`: the word in an error is taken from the statement.
* `read_parse_of_separator`: after `--` any argument is a statement.
* `entryPoints_agree`: what each entry point makes of a value.
-/

namespace RequestLine

/-! ## Messages -/

namespace Text

theorem plainFrom_append_of_not_escape {start : Text} (h : ∀ c ∈ start, c.isEscape = false)
    (t : Text) : plainFrom 0 (start ++ t) = start ++ plainFrom 0 t := by
  induction start with
  | nil => rfl
  | cons c start ih =>
    have hc := h c List.mem_cons_self
    have htail := ih fun d hd => h d (List.mem_cons_of_mem c hd)
    simp [plainFrom, hc, htail]

end Text

namespace Section

theorem mem_of_read_unknownKeyword {t word : Text}
    (h : read t = .error (.unknownKeyword word)) {c : CodePoint} (hc : c ∈ word) : c ∈ t := by
  cases faulty_of_read h with
  | unknown => exact List.mem_append_left _ hc

end Section

theorem SpacingFault.ne_unknownKeyword {n i : Nat} {p : Text} {e : StatementError}
    (h : SpacingFault n i p e) (word : Text) : e ≠ .unknownKeyword word := by
  rcases h with h | ⟨-, h⟩ <;> cases h <;> simp

/-- The word in an error is taken from the statement. -/
theorem mem_of_parse_unknownKeyword {s word : Text}
    (h : Request.parse s = .error (.unknownKeyword word)) {c : CodePoint} (hc : c ∈ word) :
    c ∈ s := by
  have hs : s ≠ [] := by
    rintro rfl
    cases h
  rcases (parse_eq_error_iff hs).1 h with hread | ⟨ss, hread, hmake⟩
  · rcases readSections_eq_error_iff.1 hread with ⟨i, p, -, hfault, -⟩ | ⟨-, i, p, hp, hsection, -⟩
    · exact absurd rfl (hfault.ne_unknownKeyword word)
    · have htrim := Section.mem_of_read_unknownKeyword hsection hc
      exact ((cut_pieces s).spec (List.mem_of_getElem? hp)).2 c (Text.mem_of_mem_trim htrim)
  · have hall := allWritten_of_readAs (readSections_eq_ok_iff.1 hread).2
    rcases Request.ofReadSections_error hall hmake with he | he | he <;> cases he

/-- A message has an escape character only from the statement. -/
theorem plain_message {s : Text} {e : StatementError} (h : Request.parse s = .error e)
    (hs : ∀ c ∈ s, c.isEscape = false) : e.message.plain = e.message := by
  refine Text.plain_of_not_escape ?_
  cases e with
  | unknownKeyword word =>
    intro c hc
    rcases List.mem_append.1 hc with hc | hc
    · have hfixed : ∀ d ∈ Text.ofString "Unknown keyword: ", d.isEscape = false := by decide
      exact hfixed c hc
    · exact hs c (mem_of_parse_unknownKeyword h hc)
  | malformedJson k | missingKeyword k => cases k <;> decide
  | _ => decide

namespace CommandLine

theorem errorLine_eq (m : Text) : errorLine m = line ("Error: " ++ m.plain) := by
  rw [errorLine, Text.plain, Text.plainFrom_append_of_not_escape (by decide)]
  rfl

/-! ## Command lines -/

namespace Invocation

theorem read_parse {env : Environment} {args : List Text} {command : Command}
    (h : readParse env args = .ok command) :
    Invocation.read env ("parse" :: args) = .ok ⟨false, command⟩ := by
  have htop : Arguments.read .top false ("parse" :: args) = .ok ⟨[], "parse" :: args⟩ := by
    rw [Arguments.read, if_neg (by decide), if_neg (by decide), if_neg (by decide)]
  simp only [Invocation.read, htop, bind, Except.bind, h]
  rfl

theorem readParse_of_positional {env : Environment} {args : List Text} {s : Text}
    (h : Arguments.read .parse true args = .ok ⟨[], [s]⟩) :
    readParse env args = .ok (.parse s .json) := by
  rw [readParse, h]
  rfl

/-- After two dashes any argument is a statement. -/
theorem read_parse_of_separator (env : Environment) (s : Text) :
    Invocation.read env ["parse", "--", s] = .ok ⟨false, .parse s .json⟩ := by
  refine read_parse (readParse_of_positional ?_)
  rw [Arguments.read, if_pos rfl]

theorem read_parse_of_not_isSwitch (env : Environment) {s : Text}
    (hs : Arguments.isSwitch s = false) :
    Invocation.read env ["parse", s] = .ok ⟨false, .parse s .json⟩ := by
  have hne : s ≠ "--" := by
    rintro rfl
    cases hs
  refine read_parse (readParse_of_positional ?_)
  rw [Arguments.read, if_neg hne, if_neg (by simp [hs])]
  rfl

end Invocation

end CommandLine

/-! ## All entry points -/

open CommandLine

theorem report_of_parse_error {s : Text} {e : StatementError} (h : Request.parse s = .error e)
    {env : Environment} {args : List Text} {verbose : Bool} {format : Format}
    (hread : Invocation.read env args = .ok ⟨verbose, .parse s format⟩) (session : Session) :
    Report.ofArguments env args session =
      ⟨[], line ("Error: " ++ e.message.plain), [], .exit 1⟩ := by
  simp only [Report.ofArguments, hread, Report.ofInvocation, Report.ofParse, h, errorLine_eq]

theorem answer_of_parse_error {s : Text} (hs : s ≠ []) {e : StatementError}
    (h : Request.parse s = .error e) (c : Client) {payload : Dictionary Text Json}
    (hpayload : payload.get? "reqline" = some (.str s)) (session : Session) :
    c.answer payload session = ⟨.ok (.badRequest e.message), [], [], session⟩ := by
  have hstatement : statementOf payload = .str s := by
    rw [statementOf, hpayload]
    rfl
  have hrequest : Request.ofJson (statementOf payload) = .error e := by
    rw [hstatement]
    exact h
  have hanswers := c.answers_answer payload session
  generalize c.answer payload session = step at hanswers
  cases hanswers with
  | missing hmissing =>
    rw [hstatement] at hmissing
    exact absurd (List.isEmpty_iff.1 hmissing) hs
  | rejected he =>
    cases hrequest.symm.trans he
    rfl
  | unencodable hr | stopped hr => cases hrequest.symm.trans hr
  | failed hsends | broken hsends | unfinished hsends | created hsends =>
    cases hrequest.symm.trans hsends.request

/-- A statement ends its command with the message of an error, without control sequences, and is a
bad request with the message; nothing is sent and no time is read. Only a statement without
surrogates has a message that can be printed as it is. -/
structure RejectedEverywhere (s : Text) (e : StatementError) : Prop where
  report : s.hasSurrogate = false → ∀ (env : Environment) (args : List Text) (verbose : Bool)
    (format : Format) (session : Session),
    Invocation.read env args = .ok ⟨verbose, .parse s format⟩ →
    Report.ofArguments env args session = ⟨[], line ("Error: " ++ e.message.plain), [], .exit 1⟩
  command : ∀ env : Environment,
    Invocation.read env ["parse", "--", s] = .ok ⟨false, .parse s .json⟩ ∧
      (Arguments.isSwitch s = false →
        Invocation.read env ["parse", s] = .ok ⟨false, .parse s .json⟩)
  plain : (∀ c ∈ s, c.isEscape = false) → e.message.plain = e.message
  answer : ∀ (c : Client) (payload : Dictionary Text Json) (session : Session),
    payload.get? "reqline" = some (.str s) →
    c.answer payload session = ⟨.ok (.badRequest e.message), [], [], session⟩

theorem rejectedEverywhere {s : Text} (hs : s ≠ []) {e : StatementError}
    (h : Request.parse s = .error e) : RejectedEverywhere s e where
  report _ _ _ _ _ session hread := report_of_parse_error h hread session
  command env := ⟨Invocation.read_parse_of_separator env s,
    Invocation.read_parse_of_not_isSwitch env⟩
  plain := plain_message h
  answer c _ session hpayload := answer_of_parse_error hs h c hpayload session

/-- **The entry points agree.** As long as its JSON texts are nested within the limit, and fields hold
the values that they are given, a value describes a request or breaks a rule, and no operation on the
way is used outside its domain. The verdict is the request alone, or the code and the message of the
error alone. Statements that break a rule are rejected everywhere. -/
theorem entryPoints_agree {l : Partial.Limits} (hl : l.Lossless) {v : Json}
    (hnesting : ∀ s, v = .str s → l.Admits s)
    (hlength : ∀ s, v = .str s → s.length ≤ 10 ^ digitLimit) :
    Partial.ofJson l v = (Request.ofJson v).mapError .rule ∧
      (∀ r, Request.ofJson v = .ok r → Verdict.ofJson v = ⟨some r, none, none⟩) ∧
      (∀ e, Request.ofJson v = .error e →
        Verdict.ofJson v = ⟨none, some e.code, some e.message⟩) ∧
      ∀ s e, v = .str s → s ≠ [] → Request.parse s = .error e → RejectedEverywhere s e := by
  refine ⟨Partial.ofJson_eq hl hnesting hlength, fun r hr => ?_, fun e he => ?_,
    fun s e _ hs h => ?_⟩
  · rw [Verdict.ofJson, hr]
  · rw [Verdict.ofJson, he]
  · exact rejectedEverywhere hs h

/-- A query without a URL, where texts may have two hundred brackets open. -/
theorem entryPoints_agree_missing_url :
    (Partial.Limits.upTo 200).Lossless ∧
      (∀ s, Json.str "HTTP GET | QUERY []" = .str s → (Partial.Limits.upTo 200).Admits s) ∧
      (∀ s, Json.str "HTTP GET | QUERY []" = .str s → s.length ≤ 10 ^ digitLimit) ∧
      Partial.ofJson (.upTo 200) (.str "HTTP GET | QUERY []") =
        .error (.rule (.missingKeyword .url)) ∧
      ∀ env session,
        Report.ofArguments env ["parse", "--", "HTTP GET | QUERY []"] session =
          ⟨[], "Error: Missing required URL keyword\n", [], .exit 1⟩ := by
  have hlossless := Partial.Limits.lossless_upTo 200
  have hnesting : ∀ s, Json.str "HTTP GET | QUERY []" = .str s →
      (Partial.Limits.upTo 200).Admits s := by
    intro s hs
    rw [← Json.str.inj hs]
    exact Partial.Limits.admits_of_length_le (by decide)
  have hlength : ∀ s, Json.str "HTTP GET | QUERY []" = .str s → s.length ≤ 10 ^ digitLimit := by
    intro s hs
    have hlimit : 19 ≤ digitLimit := by
      rw [digitLimit]
      decide
    rw [← Json.str.inj hs]
    exact Nat.le_trans hlimit (Nat.lt_pow_self (by decide)).le
  obtain ⟨hpartial, -, -, hreject⟩ := entryPoints_agree hlossless hnesting hlength
  have hparse : Request.parse "HTTP GET | QUERY []" = .error (.missingKeyword .url) := by
    rfl
  have hall := hreject _ _ rfl (by decide) hparse
  refine ⟨hlossless, hnesting, hlength, ?_, fun env session => ?_⟩
  · rw [hpartial, Request.ofJson, hparse]
    rfl
  · exact hall.report (by decide) env _ _ _ session (hall.command env).1

/-- The message of an unknown keyword that turns a terminal red, and what is printed of it. -/
theorem stderr_ne_message_of_control :
    Request.parse "FOO\x1b[31mx y" = .error (.unknownKeyword "FOO\x1b[31mx") ∧
      ∀ env session,
        (Report.ofArguments env ["parse", "--", "FOO\x1b[31mx y"] session).stderr =
            "Error: Unknown keyword: FOOx\n" ∧
          (Report.ofArguments env ["parse", "--", "FOO\x1b[31mx y"] session).stderr ≠
            line ("Error: " ++ (StatementError.unknownKeyword "FOO\x1b[31mx").message) := by
  have hparse : Request.parse "FOO\x1b[31mx y" = .error (.unknownKeyword "FOO\x1b[31mx") := by
    rfl
  refine ⟨hparse, fun env session => ?_⟩
  rw [report_of_parse_error hparse (Invocation.read_parse_of_separator env _) session]
  decide

end RequestLine
