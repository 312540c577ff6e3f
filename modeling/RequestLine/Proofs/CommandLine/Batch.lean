import RequestLine.Proofs.CommandLine.RunOptions
import RequestLine.Proofs.EntryPoints
import RequestLine.Proofs.Exchange.Runs

/-!
# Batches

A run handles its statements one after the other with one client. As long as every statement has an
answer and every answer can be printed, nothing that a statement does keeps the run from the next
one, and the report is made of all answers.

* `Session.Reliable`: a transport and a clock that let every statement have its answer.
* `exists_answers`: each statement of a run has an answer.
* `Progress.ofStatements_eq`: what has been done for the statements, in terms of the answers.
* `run_reports_all`: the reports of runs.
-/

namespace RequestLine

/-! ## Reliable sessions -/

/-- The transport never breaks, and the clock only shows times that have milliseconds. -/
structure Session.Reliable (s : Session) : Prop where
  transport : ∀ o ∈ s.outcomes.values, ∀ fault, o ≠ .broken fault
  clock : s.Timed

namespace Session.Reliable

variable {s : Session}

theorem after (h : s.Reliable) (u : Use) : (s.after u).Reliable where
  transport o ho := h.transport o (Script.mem_values_of_mem_skip ho)
  clock := h.clock.after u

/-- A clock that shows readings is reliable. -/
theorem of_readings (ho : ∀ o ∈ s.outcomes.values, ∀ fault, o ≠ .broken fault)
    (ht : ∀ t ∈ s.clock.values, IsReading t) : s.Reliable where
  transport := ho
  clock := .of_readings ht

/-- A transport with one outcome and a clock that stands still at the epoch. -/
theorem of_constant {o : Outcome} (ho : ∀ fault, o ≠ .broken fault) :
    Session.Reliable ⟨⟨o, []⟩, ⟨.zero false, []⟩⟩ :=
  .of_readings (List.forall_mem_singleton.2 ho) (List.forall_mem_singleton.2 (Nat.zero_le _))

theorem dependable (h : s.Reliable) : s.Dependable where
  transport := h.transport _ List.mem_cons_self
  start := h.clock.first
  stop := h.clock.second

end Session.Reliable

/-! ## Answers to statements -/

/-- The payload that holds a statement. -/
def payloadOf (statement : Text) : Dictionary Text Json := [("reqline", .str statement)]

/-- The steps that a client takes for statements, each in the session that the one before it left. -/
def stepsOf (c : Client) (statements : List Text) (s : Session) :
    List (Step (Except Interruption Answer)) :=
  runAll c.answer (statements.map payloadOf) s

/-- The statement is no POST whose body is a text with a surrogate. -/
def Encodable (statement : Text) : Prop :=
  ∀ r, Request.parse statement = .ok r → ¬ r.UnencodableBody

/-- What the steps for statements result in. -/
def AnsweredBy (c : Client) (statements : List Text) (s : Session) (answers : List Answer) : Prop :=
  (stepsOf c statements s).map Step.result = answers.map .ok

section

variable {c : Client} {s : Session} {t : Text} {statements : List Text}

theorem stepsOf_cons :
    stepsOf c (t :: statements) s =
      c.answer (payloadOf t) s :: stepsOf c statements (c.answer (payloadOf t) s).session :=
  rfl

theorem answeredBy_cons_iff {answers : List Answer} :
    AnsweredBy c (t :: statements) s answers ↔
      ∃ a later, answers = a :: later ∧ (c.answer (payloadOf t) s).result = .ok a ∧
        AnsweredBy c statements (c.answer (payloadOf t) s).session later := by
  unfold AnsweredBy
  rw [stepsOf_cons, List.map_cons]
  cases answers with
  | nil => simp
  | cons a later =>
    rw [List.map_cons, List.cons.injEq]
    constructor
    · exact fun ⟨ha, hlater⟩ => ⟨a, later, rfl, ha, hlater⟩
    · rintro ⟨a', later', hanswers, ha, hlater⟩
      cases hanswers
      exact ⟨ha, hlater⟩

theorem AnsweredBy.nil (c : Client) (s : Session) : AnsweredBy c [] s [] := rfl

theorem AnsweredBy.unique {answers others : List Answer} (h : AnsweredBy c statements s answers)
    (hothers : AnsweredBy c statements s others) : answers = others :=
  List.map_injective_iff.2 (fun _ _ hab => Except.ok.inj hab) (h.symm.trans hothers)

/-- A statement that is rejected leaves the session as it is. -/
theorem AnsweredBy.cons_of_parse_error {answers : List Answer}
    (h : AnsweredBy c statements s answers) (ht : t ≠ []) {e : StatementError}
    (he : Request.parse t = .error e) :
    AnsweredBy c (t :: statements) s (.badRequest e.message :: answers) := by
  have hpayload : (payloadOf t).get? "reqline" = some (.str t) := rfl
  have hstep := answer_of_parse_error ht he c hpayload s
  refine answeredBy_cons_iff.2 ⟨_, answers, rfl, ?_, ?_⟩ <;> rw [hstep]
  exact h

theorem AnsweredBy.length_eq {answers : List Answer} (h : AnsweredBy c statements s answers) :
    answers.length = statements.length := by
  induction statements generalizing s answers with
  | nil =>
    cases answers with
    | nil => rfl
    | cons => cases h
  | cons t statements ih =>
    obtain ⟨a, later, rfl, -, hlater⟩ := answeredBy_cons_iff.1 h
    rw [List.length_cons, List.length_cons, ih hlater]

theorem exists_answer (hs : s.Reliable) (ht : Encodable t) :
    ∃ a, (c.answer (payloadOf t) s).result = .ok a := by
  cases hresult : (c.answer (payloadOf t) s).result with
  | ok a => exact ⟨a, rfl⟩
  | error i =>
    obtain ⟨-, r, hr, hbody⟩ := (hs.dependable.interrupted_iff i).1 hresult
    exact absurd hbody (ht r hr)

/-- Every statement has its answer, whatever became of the statements before it. -/
theorem exists_answers (hs : s.Reliable) (h : ∀ t ∈ statements, Encodable t) :
    ∃ answers, AnsweredBy c statements s answers := by
  induction statements generalizing s with
  | nil => exact ⟨[], .nil c s⟩
  | cons t statements ih =>
    obtain ⟨ht, htail⟩ := List.forall_mem_cons.1 h
    obtain ⟨a, ha⟩ := exists_answer (c := c) hs ht
    have hleft : (c.answer (payloadOf t) s).session.Reliable := by
      rw [c.session_answer]
      exact hs.after _
    obtain ⟨later, hlater⟩ := ih hleft htail
    exact ⟨a :: later, answeredBy_cons_iff.2 ⟨a, later, rfl, ha, hlater⟩⟩

end

/-! ## Blocks -/

namespace CommandLine

/-- What is printed for a statement and its answer. -/
def blockOf (format : Format) (titled : Bool) (statement : Text) (a : Answer) : Text :=
  (if titled then "# " ++ statement.plain ++ "\n" else []) ++
    (format.render (membersOf a.data) ++ "\n")

/-- What is printed for statements and their answers. -/
def blocksOf (format : Format) (titled : Bool) (statements : List Text) (answers : List Answer) :
    List Text :=
  List.zipWith (blockOf format titled) statements answers

theorem titleLine_eq (t : Text) : titleLine t = "# " ++ t.plain ++ "\n" := by
  rw [titleLine, Text.plain, Text.plainFrom_append_of_not_escape (by decide)]
  rfl

theorem block_eq (format : Format) (titled : Bool) (t : Text) (a : Answer) :
    Progress.block format titled t a.data = blockOf format titled t a := by
  rw [Progress.block, blockOf, titleLine_eq, line]

/-- The members of the data of an answer are all that there is to print. -/
theorem object_membersOf_data (a : Answer) : Json.object (membersOf a.data) = a.data := by
  cases a <;> rfl

/-! ## The progress of a run -/

/-- How many answers have another status than 201. -/
def failures (answers : List Answer) : Nat := answers.countP (·.status ≠ 201)

theorem failures_cons (a : Answer) (answers : List Answer) :
    failures (a :: answers) = (if a.succeeded then 0 else 1) + failures answers := by
  rw [failures, List.countP_cons, Nat.add_comm]
  cases a <;> rfl

section

variable {c : Client} {format : Format} {titled : Bool} {s : Session}

/-- One statement that has an answer: the run prints it, counts it and goes on. -/
theorem Progress.ofStatements_cons {t : Text} {a : Answer}
    (ha : (c.answer (payloadOf t) s).result = .ok a)
    (hprint : (blockOf format titled t a).hasSurrogate = false) (statements : List Text) :
    let step := c.answer (payloadOf t) s
    let rest := Progress.ofStatements c format titled statements step.session
    Progress.ofStatements c format titled (t :: statements) s =
      ⟨blockOf format titled t a ++ rest.stdout, step.log ++ rest.log, step.calls ++ rest.calls,
        (if a.succeeded then 0 else 1) + rest.failed, rest.stopped⟩ := by
  have hpayload : [(Text.ofString "reqline", Json.str t)] = payloadOf t := rfl
  simp only [Progress.ofStatements, hpayload, ha, block_eq]
  rw [if_neg (by simp [hprint])]

theorem Progress.ofStatements_eq {statements : List Text} {answers : List Answer}
    (h : AnsweredBy c statements s answers)
    (hprint : ∀ b ∈ blocksOf format titled statements answers, b.hasSurrogate = false) :
    Progress.ofStatements c format titled statements s =
      ⟨(blocksOf format titled statements answers).flatten,
        (stepsOf c statements s).flatMap Step.log, (stepsOf c statements s).flatMap Step.calls,
        failures answers, .none⟩ := by
  induction statements generalizing s answers with
  | nil =>
    cases answers with
    | nil => rfl
    | cons => cases h
  | cons t statements ih =>
    obtain ⟨a, later, rfl, ha, hlater⟩ := answeredBy_cons_iff.1 h
    obtain ⟨hfirst, hrest⟩ := List.forall_mem_cons.1 hprint
    rw [ofStatements_cons ha hfirst, ih hlater hrest, failures_cons]
    rfl

end

/-! ## Reports -/

/-- The line about a run some of whose statements failed. -/
def failureLine (failed total : Nat) : Text :=
  "Error: " ++ decimalDigits failed ++ " of " ++ decimalDigits total ++ " statements failed.\n"

/-- The report of a run with an answer to each of its statements. -/
structure ReportsAll (o : RunOptions) (statements : List Text) (s : Session)
    (answers : List Answer) (report : Report) : Prop where
  stdout : report.stdout =
    (blocksOf o.format (1 < statements.length) statements answers).flatten
  stderr : report.stderr =
    if failures answers = 0 then [] else failureLine (failures answers) statements.length
  ending : report.ending = .exit (if failures answers = 0 then 0 else 1)
  calls : report.calls = (stepsOf o.client statements s).flatMap Step.calls
  /-- Each statement that describes a request makes its call, once and in its place. -/
  sent : report.calls = statements.filterMap fun t => o.client.callOf? (payloadOf t)

theorem errorLine_failureMessage (failed total : Nat) :
    errorLine (Report.failureMessage failed total) = failureLine failed total := by
  have hdigits : ∀ n, ∀ c ∈ decimalDigits n, c.isEscape = false := by
    intro n c hc
    have hdigit := isDigit_iff.1 (isDigit_of_mem_decimalDigits hc)
    rw [CodePoint.isEscape, beq_eq_false_iff_ne]
    omega
  have hof : ∀ c ∈ Text.ofString " of ", c.isEscape = false := by decide
  have hend : ∀ c ∈ Text.ofString " statements failed.", c.isEscape = false := by decide
  have hmessage : ∀ c ∈ Report.failureMessage failed total, c.isEscape = false := by
    simp only [Report.failureMessage, List.forall_mem_append]
    exact ⟨⟨⟨hdigits failed, hof⟩, hdigits total⟩, hend⟩
  rw [errorLine_eq, Text.plain_of_not_escape hmessage]
  simp only [line, Report.failureMessage, failureLine, List.append_assoc]
  rfl

theorem reportsAll_of_answeredBy {o : RunOptions} {statements : List Text} {s : Session}
    (hs : s.Reliable) {answers : List Answer} (h : AnsweredBy o.client statements s answers)
    (hprint : ∀ b ∈ blocksOf o.format (1 < statements.length) statements answers,
      b.hasSurrogate = false) :
    ReportsAll o statements s answers (Report.ofRun false o.client o.format statements s) := by
  have hprogress := Progress.ofStatements_eq h hprint
  have hsent : (stepsOf o.client statements s).flatMap Step.calls =
      statements.filterMap fun t => o.client.callOf? (payloadOf t) := by
    rw [stepsOf, flatMap_calls_runAll hs.clock, List.filterMap_map]
    rfl
  have hreport : Report.ofRun false o.client o.format statements s =
      ⟨(blocksOf o.format (1 < statements.length) statements answers).flatten,
        if failures answers = 0 then [] else failureLine (failures answers) statements.length,
        (stepsOf o.client statements s).flatMap Step.calls,
        .exit (if failures answers = 0 then 0 else 1)⟩ := by
    simp only [Report.ofRun, hprogress, logLines, errorLine_failureMessage]
    by_cases hfailed : failures answers = 0 <;> simp [hfailed]
  rw [hreport]
  exact ⟨rfl, rfl, rfl, rfl, hsent⟩

/-- **Runs.** A run with no or two things to run is a usage error, whatever the file and the session
hold: nothing is printed but the error, and nothing is sent. In a reliable session, as any is whose
transport does not break and whose clock shows readings, every statement has its answer, given by one client in order, and unless
a block cannot be printed, the report consists of all of them: the blocks with the data of the
answers, under titles if there are several statements, and the number of failures. A title is the
statement without control sequences. -/
theorem run_reports_all {o : RunOptions} {env : Environment} {args : List Text}
    (h : o.GivenBy env args) :
    (((∃ t, o.statement = some t ∧ t ≠ []) ↔ o.file.isSome = true) → ∀ s,
      (Report.ofArguments env args s).stdout = [] ∧ (Report.ofArguments env args s).calls = [] ∧
        (Report.ofArguments env args s).ending = .exit 2) ∧
      ∀ statements, o.Loads env statements →
        (∀ t ∈ statements, (∀ c ∈ t, c.isEscape = false) → t.plain = t) ∧
        ∀ s : Session, s.Reliable → (∀ t ∈ statements, Encodable t) →
          ∃ answers, AnsweredBy o.client statements s answers ∧
            answers.length = statements.length ∧
            (∀ a ∈ answers, Json.object (membersOf a.data) = a.data) ∧
            ((∀ b ∈ blocksOf o.format (1 < statements.length) statements answers,
                b.hasSurrogate = false) →
              ReportsAll o statements s answers (Report.ofArguments env args s)) := by
  refine ⟨fun hone s => ?_, fun statements hl => ⟨fun t _ => Text.plain_of_not_escape, ?_⟩⟩
  · rw [← RunOptions.isSome_filled_iff, Bool.eq_iff_iff.symm] at hone
    exact h.report_of_isSome_eq hone s
  · intro s hs hencodable
    obtain ⟨answers, hanswers⟩ := exists_answers (c := o.client) hs hencodable
    refine ⟨answers, hanswers, hanswers.length_eq, fun a _ => object_membersOf_data a, ?_⟩
    intro hprint
    rw [h.report_of_loads hl]
    exact reportsAll_of_answeredBy hs hanswers hprint

/-! ## Two runs -/

/-- An environment in which every path names the file with a text. -/
def fileOf (t : Text) : Environment :=
  ⟨none, none, fun _ => some (.file (t.flatMap Utf8.encodePoint)), .written⟩

/-- The options of a run of the file with a text. -/
def fileOptions (t : Text) : RunOptions :=
  ⟨none, some (.file (t.flatMap Utf8.encodePoint)), none, true, .json⟩

theorem givenBy_fileOptions (t path : Text) :
    (fileOptions t).GivenBy (fileOf t) ["run", "-f", path] :=
  RunOptions.givenBy_of_file rfl rfl rfl

theorem loads_fileOptions {t : Text} (ht : t.hasSurrogate = false) {statements : List Text}
    (h : Source.ofText .written t.unifyBreaks = .ok statements) :
    (fileOptions t).Loads (fileOf t) statements := by
  have hload : Source.load .written (t.flatMap Utf8.encodePoint) = .ok statements := by
    rw [Source.load, Utf8.decode?_flatMap_encodePoint ht]
    exact h
  exact .file rfl rfl hload

/-- Of two statements the second has no URL. An empty statement is nothing to run. -/
theorem run_reports_all_of_two_statements :
    (fileOptions "HTTP GET | URL u\nHTTP GET\n").GivenBy (fileOf "HTTP GET | URL u\nHTTP GET\n")
        ["run", "-f", "s.txt"] ∧
      (∃ report, Report.ofArguments (fileOf "HTTP GET | URL u\nHTTP GET\n")
            ["run", "-f", "s.txt"] ⟨⟨.response ⟨204, [], [], id⟩, []⟩, ⟨.zero false, []⟩⟩ = report ∧
          report.stdout = Text.ofString "# HTTP GET | URL u\n" ++
            "\x7b\n  \"request\": \x7b\n    \"query\": \x7b\x7d,\n    \"body\": \x7b\x7d,\n" ++
            "    \"headers\": \x7b\x7d,\n    \"full_url\": \"u\"\n  \x7d,\n" ++
            "  \"response\": \x7b\n    \"http_status\": 204,\n    \"duration\": 0,\n" ++
            "    \"request_start_timestamp\": 0,\n    \"request_stop_timestamp\": 0,\n" ++
            "    \"response_data\": \"\"\n  \x7d\n\x7d\n" ++
            "# HTTP GET\n" ++
            "\x7b\n  \"error\": true,\n  \"message\": \"Missing required URL keyword\"\n\x7d\n" ∧
          report.stderr = "Error: 1 of 2 statements failed.\n" ∧
          report.calls = [⟨.get, "u", [], none, .none⟩] ∧ report.ending = .exit 1) ∧
      (Report.ofArguments (fileOf "HTTP GET | URL u\nHTTP GET\n") ["run", ""]
          ⟨⟨.response ⟨204, [], [], id⟩, []⟩, ⟨.zero false, []⟩⟩).ending = .exit 2 := by
  have hgiven := givenBy_fileOptions "HTTP GET | URL u\nHTTP GET\n" "s.txt"
  have hnone : RunOptions.GivenBy ⟨some [], none, none, true, .json⟩
      (fileOf "HTTP GET | URL u\nHTTP GET\n") ["run", ""] :=
    RunOptions.givenBy_of_statement rfl rfl rfl
  refine ⟨hgiven, ?_, ((run_reports_all hnone).1 (by simp) _).2.2⟩
  have hloads : (fileOptions "HTTP GET | URL u\nHTTP GET\n").Loads
      (fileOf "HTTP GET | URL u\nHTTP GET\n")
      ["HTTP GET | URL u", "HTTP GET"] :=
    loads_fileOptions (by decide) (by decide +kernel)
  have htime := Client.milliseconds?_zero
  have hreliable : Session.Reliable ⟨⟨.response ⟨204, [], [], id⟩, []⟩, ⟨.zero false, []⟩⟩ :=
    .of_constant fun _ h => by cases h
  have hparse : Request.parse "HTTP GET | URL u" =
      .ok ⟨.get, "u", .obj [], .obj [], .obj [], "u"⟩ := by rfl
  have herror : Request.parse "HTTP GET" = .error (.missingKeyword .url) := by rfl
  have hencodable : ∀ t ∈ [Text.ofString "HTTP GET | URL u", Text.ofString "HTTP GET"],
      Encodable t := by
    refine List.forall_mem_cons.2 ⟨?_, List.forall_mem_singleton.2 ?_⟩
    · rintro r hr ⟨hpost, -⟩
      cases hparse.symm.trans hr
      cases hpost
    · intro r hr
      cases herror.symm.trans hr
  have hrequest : Request.ofJson (statementOf (payloadOf "HTTP GET | URL u")) =
      .ok ⟨.get, "u", .obj [], .obj [], .obj [], "u"⟩ := hparse
  have hfirst := (hreliable.dependable.created_iff (c := ⟨none, true⟩) _).2
    ⟨_, _, 0, _, 0, ⟨hrequest, rfl, htime⟩, rfl, fun _ => .inl (by decide), htime, rfl⟩
  obtain ⟨answers, hanswers, -, -, hreport⟩ :=
    ((run_reports_all hgiven).2 _ hloads).2 _ hreliable hencodable
  have hboth := answeredBy_cons_iff.2
    ⟨_, _, rfl, hfirst, (AnsweredBy.nil _ _).cons_of_parse_error (by decide) herror⟩
  cases hanswers.unique hboth
  have hall := hreport (by decide +kernel)
  have hcall : (Client.mk none true).callOf? (payloadOf "HTTP GET | URL u") =
      some ⟨.get, "u", [], none, .none⟩ := by
    rw [callOf?_of_ofJson_ok hrequest]
    rfl
  have hnoCall : (Client.mk none true).callOf? (payloadOf "HTTP GET") = none :=
    callOf?_of_ofJson_error herror
  have hsent : [Text.ofString "HTTP GET | URL u", "HTTP GET"].filterMap
      (fun t => (Client.mk none true).callOf? (payloadOf t)) = [⟨.get, "u", [], none, .none⟩] := by
    simp only [List.filterMap_cons, hcall, hnoCall, List.filterMap_nil]
  exact ⟨_, rfl, hall.stdout.trans (by decide +kernel), hall.stderr.trans (by decide),
    hall.sent.trans hsent, hall.ending⟩

/-- A statement that turns a terminal red is not its own title. -/
theorem run_differs_of_control :
    (fileOptions "FOO\x1b[31mx y\nHTTP GET\n").GivenBy
        (fileOf "FOO\x1b[31mx y\nHTTP GET\n") ["run", "-f", "s.txt"] ∧
      (fileOptions "FOO\x1b[31mx y\nHTTP GET\n").Loads (fileOf "FOO\x1b[31mx y\nHTTP GET\n")
        ["FOO\x1b[31mx y", "HTTP GET"] ∧
      ∃ report, Report.ofArguments (fileOf "FOO\x1b[31mx y\nHTTP GET\n")
            ["run", "-f", "s.txt"] ⟨⟨.failed "down", []⟩, ⟨.zero false, []⟩⟩ = report ∧
        Text.ofString "# FOOx y\n" <+: report.stdout ∧
        ¬ Text.ofString "# FOO\x1b[31mx y\n" <+: report.stdout := by
  have hfile := givenBy_fileOptions "FOO\x1b[31mx y\nHTTP GET\n" "s.txt"
  have hloads : (fileOptions "FOO\x1b[31mx y\nHTTP GET\n").Loads
      (fileOf "FOO\x1b[31mx y\nHTTP GET\n") ["FOO\x1b[31mx y", "HTTP GET"] :=
    loads_fileOptions (by decide) (by decide +kernel)
  have hunknown : Request.parse "FOO\x1b[31mx y" =
      .error (.unknownKeyword "FOO\x1b[31mx") := by rfl
  have herror : Request.parse "HTTP GET" = .error (.missingKeyword .url) := by rfl
  have hreliable : Session.Reliable ⟨⟨.failed "down", []⟩, ⟨.zero false, []⟩⟩ :=
    .of_constant fun _ h => by cases h
  have hanswers := ((AnsweredBy.nil (fileOptions []).client
    ⟨⟨.failed "down", []⟩, ⟨.zero false, []⟩⟩).cons_of_parse_error (by decide)
      herror).cons_of_parse_error (by decide) hunknown
  have hall := reportsAll_of_answeredBy (o := fileOptions "FOO\x1b[31mx y\nHTTP GET\n")
    hreliable hanswers (by decide +kernel)
  refine ⟨hfile, hloads, _, rfl, ?_⟩
  rw [hfile.report_of_loads hloads, hall.stdout]
  decide +kernel

end CommandLine

end RequestLine
