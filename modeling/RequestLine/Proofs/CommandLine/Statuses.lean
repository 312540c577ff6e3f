import RequestLine.Proofs.CommandLine.Batch
import RequestLine.Proofs.Exchange.Outcomes

/-!
# Statuses

A client that counts statuses refuses those from 400 to 599. A refused response is a bad request and
a failed statement of its run; every other one makes an envelope, whatever class it belongs to.

* `FollowsStatus`: what a step makes of the status of its response.
* `answeredBy_of_stopped_eq_none`: a run that reaches its end has counted its failed answers.
* `run_follows_statuses`: the steps and the exit code of a run.
* `created_of_notModified`: a redirection that leads nowhere is no failure.
-/

namespace RequestLine

/-! ## Steps -/

/-- A step answers with an envelope of a response that is not refused, and with a complaint about
one that is. Only a clock without a time keeps other responses from being answered. -/
structure FollowsStatus (payload : Dictionary Text Json) (s : Session)
    (step : Step (Except Interruption Answer)) : Prop where
  created : ∀ e, step.result = .ok (.created e) →
    ∃ r, s.outcomes.first = .response r ∧ e.status = r.status ∧ ¬ Refused r.status
  refused : ∀ r, step.calls ≠ [] → s.outcomes.first = .response r → Refused r.status →
    ∃ request m, Request.ofJson (statementOf payload) = .ok request ∧
      r.complaint? request.url = some m ∧ step.result = .ok (.badRequest m)
  accepted : ∀ r, step.calls ≠ [] → s.outcomes.first = .response r → ¬ Refused r.status →
    (∃ e, step.result = .ok (.created e) ∧ e.status = r.status) ∨ step.result = .error .endlessTime

section

variable {c : Client} {payload : Dictionary Text Json} {s : Session}
  {step : Step (Except Interruption Answer)}

theorem Answers.followsStatus (h : Answers c payload s step) (hc : c.raiseForStatus = true) :
    FollowsStatus payload s step where
  created e he := by
    cases h with
    | created _ hresponse haccepts _ =>
      cases he
      exact ⟨_, hresponse, rfl, (Client.accepts_iff hc).1 haccepts⟩
    | missing | rejected | unencodable | stopped | failed | broken | unfinished => cases he
  refused r hcalls hr hrefused := by
    cases h with
    | @failed request call start e hsends hjudge _ =>
      obtain ⟨m, hm, hexpected⟩ := Client.judge_of_refused hc hrefused request.url
      rw [hr, hexpected] at hjudge
      cases hjudge
      refine ⟨request, m, hsends.request, hm, ?_⟩
      rw [Response.message_of_complaint hm]
    | broken _ hbroken => cases hbroken.symm.trans hr
    | unfinished _ hresponse haccepts _ | created _ hresponse haccepts _ =>
      cases hresponse.symm.trans hr
      exact absurd hrefused ((Client.accepts_iff hc).1 haccepts)
    | missing | rejected | unencodable | stopped => exact absurd rfl hcalls
  accepted r hcalls hr hrefused := by
    cases h with
    | @failed request _ _ _ _ hjudge _ =>
      have haccepts : c.judge request.url s.outcomes.first = .ok r :=
        Client.judge_eq_ok_iff.2 ⟨hr, (Client.accepts_iff hc).2 hrefused⟩
      rw [haccepts] at hjudge
      cases hjudge
    | broken _ hbroken => cases hbroken.symm.trans hr
    | unfinished => exact .inr rfl
    | created _ hresponse _ _ =>
      cases hresponse.symm.trans hr
      exact .inl ⟨_, rfl, rfl⟩
    | missing | rejected | unencodable | stopped => exact absurd rfl hcalls

end

/-! ## Runs of the program -/

namespace CommandLine

section

variable {c : Client} {format : Format} {titled : Bool} {s : Session} {statements : List Text}

/-- What stops a run before its last statement is no exit code. -/
theorem Progress.stopped_ne_exit (code : Nat) :
    (Progress.ofStatements c format titled statements s).stopped ≠ some (.exit code) := by
  intro h
  induction statements generalizing s with
  | nil => cases h
  | cons t statements ih =>
    rw [Progress.ofStatements] at h
    split at h
    · cases h
    · dsimp only at h
      split at h
      · cases h
      · exact ih h

/-- A run that reaches its end has an answer to each statement, and has counted those that failed. -/
theorem Progress.answeredBy_of_stopped_eq_none
    (h : (Progress.ofStatements c format titled statements s).stopped = .none) :
    ∃ answers, AnsweredBy c statements s answers ∧
      (Progress.ofStatements c format titled statements s).failed = failures answers := by
  induction statements generalizing s with
  | nil => exact ⟨[], .nil c s, rfl⟩
  | cons t statements ih =>
    have hpayload : [(Text.ofString "reqline", Json.str t)] = payloadOf t := rfl
    rw [Progress.ofStatements, hpayload] at h ⊢
    cases hresult : (c.answer (payloadOf t) s).result with
    | error i =>
      simp only [hresult] at h
      cases h
    | ok a =>
      simp only [hresult] at h ⊢
      split at h
      · cases h
      · rename_i hprint
        obtain ⟨later, hlater, hfailed⟩ := ih h
        rw [if_neg hprint]
        refine ⟨a :: later, answeredBy_cons_iff.2 ⟨a, later, rfl, hresult, hlater⟩, ?_⟩
        rw [failures_cons, hfailed]

/-- The exit code says whether a statement failed, and the last line how many did. -/
theorem Report.exists_answers_of_exit {verbose : Bool} {code : Nat}
    (h : (Report.ofRun verbose c format statements s).ending = .exit code) :
    ∃ answers log, AnsweredBy c statements s answers ∧
      code = (if failures answers = 0 then 0 else 1) ∧
      (Report.ofRun verbose c format statements s).stderr = logLines verbose log ++
        if failures answers = 0 then [] else failureLine (failures answers) statements.length := by
  simp only [Report.ofRun] at h ⊢
  generalize hp : Progress.ofStatements c format (1 < statements.length) statements s = p at h ⊢
  cases hstopped : p.stopped with
  | some e =>
    rw [hstopped] at h
    dsimp only at h
    rw [h, ← hp] at hstopped
    exact absurd hstopped (Progress.stopped_ne_exit code)
  | none =>
    rw [← hp] at hstopped
    obtain ⟨answers, hanswers, hfailed⟩ := Progress.answeredBy_of_stopped_eq_none hstopped
    rw [hp] at hstopped hfailed
    refine ⟨answers, p.log, hanswers, ?_⟩
    simp only [hstopped, hfailed] at h ⊢
    by_cases hnone : failures answers = 0
    · simp only [if_pos hnone] at h ⊢
      exact ⟨(Ending.exit.inj h).symm, (List.append_nil _).symm⟩
    · simp only [if_neg hnone, errorLine_failureMessage] at h ⊢
      exact ⟨(Ending.exit.inj h).symm, trivial⟩

end

/-- **Statuses.** With a client that counts statuses, each step of a run follows the status of its
response: an envelope carries a status below 400 or from 600 on, and a status in between is a bad
request. The program counts the bad requests among the answers to the statements it runs, and its
exit code and its last line tell of them. -/
theorem run_follows_statuses {c : Client} (hc : c.raiseForStatus = true) (s : Session) :
    (∀ payloads i p step, payloads[i]? = some p →
        (runAll c.answer payloads s)[i]? = some step →
        FollowsStatus p (s.after (usedBy ((runAll c.answer payloads s).take i))) step) ∧
      ∀ (o : RunOptions) env args verbose statements code, o.client = c →
        Invocation.read env args = .ok ⟨verbose, o.command⟩ → o.Loads env statements →
        (Report.ofArguments env args s).ending = .exit code →
        ∃ (answers : List Answer) (log : List LogEntry),
          (runAll c.answer (statements.map payloadOf) s).map Step.result = answers.map .ok ∧
          code = (if answers.countP (·.status ≠ 201) = 0 then 0 else 1) ∧
          (Report.ofArguments env args s).stderr = logLines verbose log ++
            if answers.countP (·.status ≠ 201) = 0 then []
            else failureLine (answers.countP (·.status ≠ 201)) statements.length := by
  constructor
  · intro payloads i p step hp hstep
    rw [runAll_answer_getElem?, hp] at hstep
    cases hstep
    exact (c.answers_answer p _).followsStatus hc
  · rintro o env args verbose statements code rfl hread hl hexit
    rw [hl.report_eq hread] at hexit ⊢
    exact Report.exists_answers_of_exit hexit

/-! ## One response -/

/-- A transport with one response, and a clock that stands still. -/
def stillSession (r : Response) : Session := ⟨⟨.response r, []⟩, ⟨.zero false, []⟩⟩

theorem reliable_stillSession (r : Response) : (stillSession r).Reliable :=
  .of_constant fun _ h => by cases h

theorem sends_stillSession (r : Response) : Sends ⟨none, true⟩ (payloadOf "HTTP GET | URL u")
    (stillSession r) ⟨.get, "u", .obj [], .obj [], .obj [], "u"⟩
      ⟨.get, "u", [], none, .none⟩ 0 :=
  ⟨rfl, rfl, Client.milliseconds?_zero⟩

/-- A page that is not found is a bad request. -/
theorem run_follows_statuses_not_found :
    (Client.mk none true).raiseForStatus = true ∧
      ((Client.mk none true).answer (payloadOf "HTTP GET | URL u")
          (stillSession ⟨404, "Not Found", [], id⟩)).result =
        .ok (.badRequest "404 Client Error: Not Found for url: u") := by
  have hsends := sends_stillSession ⟨404, "Not Found", [], id⟩
  have hfollows := (run_follows_statuses (c := ⟨none, true⟩) rfl
    (stillSession ⟨404, "Not Found", [], id⟩)).1 [payloadOf "HTTP GET | URL u"] 0 _ _ rfl rfl
  have hcalls := (Client.counted ⟨none, true⟩ (payloadOf "HTTP GET | URL u")
    (reliable_stillSession ⟨404, "Not Found", [], id⟩).clock).calls
  rw [hsends.callOf?] at hcalls
  have hne : ((Client.mk none true).answer (payloadOf "HTTP GET | URL u")
      (stillSession ⟨404, "Not Found", [], id⟩)).calls ≠ [] := by
    rw [hcalls]
    exact List.cons_ne_nil _ _
  obtain ⟨request, m, hrequest, hm, hresult⟩ := hfollows.refused _ hne rfl ⟨by decide, by decide⟩
  cases hsends.request.symm.trans hrequest
  have hmessage : m = "404 Client Error: Not Found for url: u" := by
    have hcomplaint : Response.complaint? ⟨404, "Not Found", [], id⟩ "u" =
        some "404 Client Error: Not Found for url: u" := by decide
    exact Option.some.inj (hm.symm.trans hcomplaint)
  rw [hmessage] at hresult
  exact ⟨rfl, hresult⟩

/-- A page that did not change is answered with an envelope although its status is no success, and
the program ends as if nothing had failed. -/
theorem created_of_notModified :
    (∃ e, ((Client.mk none true).answer (payloadOf "HTTP GET | URL u")
        (stillSession ⟨304, "Not Modified", [], id⟩)).result = .ok (.created e) ∧
          (Answer.created e).status = 201 ∧ e.status = 304) ∧
      (Report.ofArguments (fileOf []) ["run", "HTTP GET | URL u"]
        (stillSession ⟨304, "Not Modified", [], id⟩)).ending = .exit 0 := by
  have hgiven : RunOptions.GivenBy ⟨some "HTTP GET | URL u", none, none, true, .json⟩ (fileOf [])
      ["run", "HTTP GET | URL u"] :=
    RunOptions.givenBy_of_statement rfl rfl rfl
  have hone : RunOptions.Loads ⟨some "HTTP GET | URL u", none, none, true, .json⟩ (fileOf [])
      ["HTTP GET | URL u"] :=
    .single rfl rfl
  have hcreated := ((reliable_stillSession ⟨304, "Not Modified", [], id⟩).dependable.created_iff
    (c := ⟨none, true⟩) _).2 ⟨_, _, _, _, 0, sends_stillSession _, rfl, fun _ => .inl (by decide),
      Client.milliseconds?_zero, rfl⟩
  have hanswers := answeredBy_cons_iff.2 ⟨_, _, rfl, hcreated, .nil _ _⟩
  have hall := reportsAll_of_answeredBy (o := ⟨some "HTTP GET | URL u", none, none, true, .json⟩)
    (reliable_stillSession ⟨304, "Not Modified", [], id⟩) hanswers (by decide +kernel)
  refine ⟨⟨_, hcreated, rfl, rfl⟩, ?_⟩
  rw [hgiven.report_of_loads hone]
  exact hall.ending

end CommandLine

end RequestLine
