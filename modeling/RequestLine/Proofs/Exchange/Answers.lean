import RequestLine.Exchange.Answer
import RequestLine.Proofs.Text.Utf8

/-!
# What an answer takes

A payload can be answered in eight ways. Each fixes the calls made, the log, and how much of the
session is used up.

* `Answers`: the eight ways; `Client.answers_answer`: every answer is given in one of them.
* `Step.use`: the transport outcomes and the clock times that a step used, read off its result and
  its calls.
* `Call.ofRequest?_eq_none_iff`: only a raw body with a surrogate keeps a request from being sent.
* `answer_of_dependable`: with a transport that answers or fails as requests do, and a clock that
  shows finite times, every other payload has an answer with status 201 or 400.
-/

namespace RequestLine

/-! ## Use of a session -/

namespace Script

variable {α : Type}

/-- The script after its first `n` values have been used. -/
def skip : Nat → Script α → Script α
  | 0, s => s
  | n + 1, s => skip n s.rest

theorem skip_add (m n : Nat) (s : Script α) : s.skip (m + n) = (s.skip m).skip n := by
  induction m generalizing s with
  | zero => rw [Nat.zero_add, skip]
  | succ m ih =>
    rw [Nat.succ_add, skip, skip]
    exact ih s.rest

end Script

/-- How many outcomes of the transport and how many times of the clock were used. -/
structure Use where
  sends : Nat
  readings : Nat
  deriving DecidableEq

/-- The session after some use. -/
def Session.after (s : Session) (u : Use) : Session :=
  ⟨s.outcomes.skip u.sends, s.clock.skip u.readings⟩

/-- How often the clock was read: twice for a response that was accepted, once for a request that
failed, never for a payload without a call. A time that has no milliseconds ends the step, the first
before there is a call. -/
def Step.readings (step : Step (Except Interruption Answer)) : Nat :=
  match step.result, step.calls with
  | .ok (.created _), _ => 2
  | .ok (.badRequest _), [] => 0
  | .ok (.badRequest _), _ :: _ => 1
  | .error .unencodableBody, _ => 0
  | .error (.broken _), _ => 1
  | .error .endlessTime, [] => 1
  | .error .endlessTime, _ :: _ => 2

/-- Each call uses one outcome. -/
def Step.use (step : Step (Except Interruption Answer)) : Use := ⟨step.calls.length, step.readings⟩

/-! ## Statements and calls -/

/-- The value that a payload has for its statement. -/
def statementOf (payload : Dictionary Text Json) : Json := (payload.get? "reqline").getD .null

/-- The call for a payload whose statement describes a request that can be sent. -/
def Client.callOf? (c : Client) (payload : Dictionary Text Json) : Option Call :=
  match Request.ofJson (statementOf payload) with
  | .ok r => Call.ofRequest? c.timeout r
  | .error _ => none

theorem ofJson_of_isMissing {v : Json} (h : isMissing v = true) :
    Request.ofJson v = .error .notAStatement := by
  cases v with
  | str s =>
    rw [Request.ofJson, Request.parse]
    exact if_pos h
  | _ => rfl

theorem callOf?_of_ofJson_error {c : Client} {payload : Dictionary Text Json} {e : StatementError}
    (h : Request.ofJson (statementOf payload) = .error e) : c.callOf? payload = none := by
  rw [Client.callOf?, h]

theorem callOf?_of_ofJson_ok {c : Client} {payload : Dictionary Text Json} {r : Request}
    (h : Request.ofJson (statementOf payload) = .ok r) :
    c.callOf? payload = Call.ofRequest? c.timeout r := by
  rw [Client.callOf?, h]

/-- The body of a POST is a text that has no bytes. -/
def Request.UnencodableBody (r : Request) : Prop :=
  r.method = .post ∧ ∃ t, r.body = .str t ∧ t.hasSurrogate = true

theorem Call.payload?_eq_none_iff {r : Request} : payload? r = none ↔ r.UnencodableBody := by
  unfold payload? Request.UnencodableBody
  cases hm : r.method with
  | get => simp
  | post =>
    cases hb : r.body with
    | str t =>
      have hkeys : (Json.str t).keys.isEmpty = t.isEmpty := by
        cases t <;> rfl
      simp only [hkeys, List.isEmpty_iff, true_and, Json.str.injEq, exists_eq_left']
      split
      · rename_i hnil
        subst hnil
        simp [Text.hasSurrogate]
      · rw [Option.map_eq_none_iff, Utf8.encode?_eq_none_iff]
    | _ =>
      simp only [true_and, reduceCtorEq, false_and, exists_false, iff_false]
      split <;> exact Option.some_ne_none _

theorem Call.ofRequest?_eq_none_iff (timeout : Option Number) {r : Request} :
    ofRequest? timeout r = none ↔ r.UnencodableBody := by
  rw [ofRequest?, Option.map_eq_none_iff, payload?_eq_none_iff]

/-! ## Judging an outcome -/

theorem StatementError.message_ne_nil (e : StatementError) : e.message ≠ [] := by
  cases e with
  | unknownKeyword => exact List.append_ne_nil_of_left_ne_nil (by decide) _
  | malformedJson k | missingKeyword k => cases k <;> decide
  | _ => decide

theorem ExecutionError.message_ofMessage_ne_nil (m : Text) (r : Option Response) :
    (ofMessage m r).message ≠ [] := by
  change (if m.isEmpty then code else m) ≠ []
  split
  · decide
  · rename_i h
    exact fun hnil => h (List.isEmpty_iff.2 hnil)

/-- A status that a client does not take for a failure. -/
def Client.Accepts (c : Client) (status : Int) : Prop :=
  c.raiseForStatus = true → status < 400 ∨ 600 ≤ status

theorem Response.complaint?_eq_none_iff (r : Response) (url : Text) :
    r.complaint? url = none ↔ r.status < 400 ∨ 600 ≤ r.status := by
  rw [complaint?, Option.map_eq_none_iff]
  split_ifs with hclient hserver
  · exact iff_of_false id (by omega)
  · exact iff_of_false id (by omega)
  · exact iff_of_true rfl (by omega)

theorem Client.judge_eq_ok_iff {c : Client} {url : Text} {o : Outcome} {r : Response} :
    c.judge url o = .ok r ↔ o = .response r ∧ c.Accepts r.status := by
  cases o with
  | response r' =>
    have haccepts : (if c.raiseForStatus then r'.complaint? url else none) = none ↔
        c.Accepts r'.status := by
      rw [Accepts, ← r'.complaint?_eq_none_iff url]
      split <;> simp [*]
    simp only [judge]
    cases hjudge : (if c.raiseForStatus then r'.complaint? url else none) with
    | none =>
      rw [hjudge] at haccepts
      constructor
      · intro h
        cases h
        exact ⟨rfl, haccepts.1 rfl⟩
      · rintro ⟨h, -⟩
        cases h
        rfl
    | some m =>
      rw [hjudge] at haccepts
      refine iff_of_false (fun h => by cases h) ?_
      rintro ⟨h, hr⟩
      cases h
      cases haccepts.2 hr
  | failed | refused | broken =>
    refine iff_of_false (fun h => by cases h) ?_
    rintro ⟨h, -⟩
    cases h

/-- What is no accepted response is a failure that has a message, unless the transport broke. -/
theorem Client.judge_error_cases {c : Client} {url : Text} {o : Outcome} {f : Failure}
    (h : c.judge url o = .error f) :
    (∃ e, f = .execution e ∧ e.message ≠ []) ∨
      ∃ fault, o = .broken fault ∧ f = .interrupted (.broken fault) := by
  cases o with
  | response r =>
    simp only [judge] at h
    split at h
    · cases h
      exact .inl ⟨_, rfl, ExecutionError.message_ofMessage_ne_nil _ _⟩
    · cases h
  | failed m =>
    cases h
    exact .inl ⟨_, rfl, ExecutionError.message_ofMessage_ne_nil _ _⟩
  | refused m r =>
    cases h
    exact .inl ⟨_, rfl, ExecutionError.message_ofMessage_ne_nil _ _⟩
  | broken fault =>
    cases h
    exact .inr ⟨fault, rfl, rfl⟩

/-! ## The ways to answer -/

section

variable (c : Client) (payload : Dictionary Text Json) (s : Session)

/-- The envelope of a request and its response. -/
def envelopeOf (r : Request) (response : Response) (start stop : Int) : Envelope :=
  ⟨r.query, r.body, r.headers, r.fullUrl, response.status, start, stop, response.data⟩

/-- The request of a payload, the call for it, and the time at which it is sent. -/
structure Sends (r : Request) (call : Call) (start : Int) : Prop where
  request : Request.ofJson (statementOf payload) = .ok r
  call : Call.ofRequest? c.timeout r = some call
  start : Client.milliseconds? s.clock.first = some start

/-- How a payload is answered. -/
inductive Answers : Step (Except Interruption Answer) → Prop
  | missing : isMissing (statementOf payload) = true →
      Answers ⟨.ok (.badRequest "Missing reqline parameter"), [], [], s⟩
  | rejected {e : StatementError} : Request.ofJson (statementOf payload) = .error e →
      Answers ⟨.ok (.badRequest e.message), [], [], s⟩
  | unencodable {r : Request} : Request.ofJson (statementOf payload) = .ok r →
      Call.ofRequest? c.timeout r = none →
      Answers ⟨.error .unencodableBody, [], [.parsed r.method r.fullUrl], s⟩
  /-- The time before sending has no milliseconds. -/
  | stopped {r : Request} {call : Call} : Request.ofJson (statementOf payload) = .ok r →
      Call.ofRequest? c.timeout r = some call → Client.milliseconds? s.clock.first = none →
      Answers ⟨.error .endlessTime, [], [.parsed r.method r.fullUrl, .sending r.method r.url],
        s.after ⟨0, 1⟩⟩
  /-- The transport fails, or the client does not accept the status. -/
  | failed {r : Request} {call : Call} {start : Int} {e : ExecutionError} :
      Sends c payload s r call start → c.judge r.url s.outcomes.first = .error (.execution e) →
      e.message ≠ [] →
      Answers ⟨.ok (.badRequest e.message), [call],
        [.parsed r.method r.fullUrl, .sending r.method r.url], s.after ⟨1, 1⟩⟩
  | broken {r : Request} {call : Call} {start : Int} {fault : Text} :
      Sends c payload s r call start → s.outcomes.first = .broken fault →
      Answers ⟨.error (.broken fault), [call],
        [.parsed r.method r.fullUrl, .sending r.method r.url], s.after ⟨1, 1⟩⟩
  /-- The time after the response has no milliseconds. -/
  | unfinished {r : Request} {call : Call} {start : Int} {response : Response} :
      Sends c payload s r call start → s.outcomes.first = .response response →
      c.Accepts response.status → Client.milliseconds? s.clock.rest.first = none →
      Answers ⟨.error .endlessTime, [call],
        [.parsed r.method r.fullUrl, .sending r.method r.url], s.after ⟨1, 2⟩⟩
  | created {r : Request} {call : Call} {start stop : Int} {response : Response} :
      Sends c payload s r call start → s.outcomes.first = .response response →
      c.Accepts response.status → Client.milliseconds? s.clock.rest.first = some stop →
      Answers ⟨.ok (.created (envelopeOf r response start stop)), [call],
        [.parsed r.method r.fullUrl, .sending r.method r.url,
          .received response.status (stop - start)], s.after ⟨1, 2⟩⟩

theorem Client.answers_answer : Answers c payload s (c.answer payload s) := by
  have hstatement : (payload.get? "reqline").getD .null = statementOf payload := rfl
  unfold answer
  simp only [hstatement]
  split
  · exact .missing ‹_›
  cases hr : Request.ofJson (statementOf payload) with
  | error e =>
    simp only [run, hr]
    exact .rejected hr
  | ok r =>
    simp only [run, send, hr]
    cases hcall : Call.ofRequest? c.timeout r with
    | none => exact .unencodable hr hcall
    | some call =>
      cases hstart : milliseconds? s.clock.first with
      | none => exact .stopped hr hcall hstart
      | some start =>
        have hsends : Sends c payload s r call start := ⟨hr, hcall, hstart⟩
        cases hjudge : c.judge r.url s.outcomes.first with
        | error f =>
          rcases judge_error_cases hjudge with ⟨e, rfl, hmessage⟩ | ⟨fault, hfault, rfl⟩
          · exact .failed hsends hjudge hmessage
          · exact .broken hsends hfault
        | ok response =>
          obtain ⟨hresponse, haccepts⟩ := judge_eq_ok_iff.1 hjudge
          cases hstop : milliseconds? s.clock.rest.first with
          | none => exact .unfinished hsends hresponse haccepts hstop
          | some stop => exact .created hsends hresponse haccepts hstop

end

namespace Answers

variable {c : Client} {payload : Dictionary Text Json} {s : Session}
  {step : Step (Except Interruption Answer)}

theorem session_eq (h : Answers c payload s step) : step.session = s.after step.use := by
  cases h <;> rfl

/-- A payload makes its call, if it has one and the clock shows a time. -/
theorem calls_eq (h : Answers c payload s step) :
    step.calls = if Client.milliseconds? s.clock.first = none then []
      else (c.callOf? payload).toList := by
  cases h with
  | missing hmissing => simp [callOf?_of_ofJson_error (ofJson_of_isMissing hmissing)]
  | rejected he => simp [callOf?_of_ofJson_error he]
  | unencodable hr hcall => simp [callOf?_of_ofJson_ok hr, hcall]
  | stopped _ _ hstart => rw [if_pos hstart]
  | failed hsends | broken hsends | unfinished hsends | created hsends =>
    simp [callOf?_of_ofJson_ok hsends.request, hsends.call, hsends.start]

theorem status_cases (h : Answers c payload s step) {a : Answer} (ha : step.result = .ok a) :
    (a.status = 201 ∧ ∃ e, a = .created e) ∨
      a.status = 400 ∧
        ∃ m, m ≠ [] ∧ a.data = .object [("error", .bool true), ("message", .str m)] := by
  cases h with
  | missing =>
    cases ha
    exact .inr ⟨rfl, _, by decide, rfl⟩
  | rejected =>
    cases ha
    exact .inr ⟨rfl, _, StatementError.message_ne_nil _, rfl⟩
  | failed _ _ hmessage =>
    cases ha
    exact .inr ⟨rfl, _, hmessage, rfl⟩
  | created =>
    cases ha
    exact .inl ⟨rfl, _, rfl⟩
  | unencodable | stopped | broken | unfinished => cases ha

end Answers

/-! ## The inbound boundary -/

/-- The transport answers or fails as requests do, and the clock shows times that have
milliseconds. -/
structure Session.Dependable (s : Session) : Prop where
  transport : ∀ fault, s.outcomes.first ≠ .broken fault
  start : Client.milliseconds? s.clock.first ≠ none
  stop : Client.milliseconds? s.clock.rest.first ≠ none

theorem Client.milliseconds?_zero : milliseconds? (.zero false) = some 0 := by decide +kernel

variable {c : Client} {payload : Dictionary Text Json} {s : Session}

theorem Session.Dependable.interrupted_iff (hs : s.Dependable) (i : Interruption) :
    (c.answer payload s).result = .error i ↔
      i = .unencodableBody ∧
        ∃ r, Request.ofJson (statementOf payload) = .ok r ∧ r.UnencodableBody := by
  have hanswers := c.answers_answer payload s
  generalize c.answer payload s = step at hanswers
  constructor
  · intro h
    cases hanswers with
    | unencodable hr hcall =>
      cases h
      exact ⟨rfl, _, hr, (Call.ofRequest?_eq_none_iff c.timeout).1 hcall⟩
    | stopped _ _ hstart => exact absurd hstart hs.start
    | broken _ hfault => exact absurd hfault (hs.transport _)
    | unfinished _ _ _ hstop => exact absurd hstop hs.stop
    | missing | rejected | failed | created => cases h
  · -- every other way has no such request, or a call for it
    rintro ⟨rfl, r, hr, hbody⟩
    have hcall := (Call.ofRequest?_eq_none_iff c.timeout).2 hbody
    cases hanswers with
    | missing hmissing => cases hr.symm.trans (ofJson_of_isMissing hmissing)
    | rejected he => cases hr.symm.trans he
    | unencodable => rfl
    | stopped hr' hcall' =>
      cases hr.symm.trans hr'
      cases hcall.symm.trans hcall'
    | failed hsends | broken hsends | unfinished hsends | created hsends =>
      cases hr.symm.trans hsends.request
      cases hcall.symm.trans hsends.call

theorem Session.Dependable.created_iff (hs : s.Dependable) (e : Envelope) :
    (c.answer payload s).result = .ok (.created e) ↔
      ∃ r call start response stop, Sends c payload s r call start ∧
        s.outcomes.first = .response response ∧ c.Accepts response.status ∧
        Client.milliseconds? s.clock.rest.first = some stop ∧
        e = envelopeOf r response start stop := by
  have hanswers := c.answers_answer payload s
  generalize c.answer payload s = step at hanswers
  constructor
  · intro h
    cases hanswers with
    | created hsends hresponse haccepts hstop =>
      cases h
      exact ⟨_, _, _, _, _, hsends, hresponse, haccepts, hstop, rfl⟩
    | missing | rejected | unencodable | stopped | failed | broken | unfinished => cases h
  · -- every other way fails before a response, or has another one
    rintro ⟨r, call, start, response, stop, hsends, hresponse, haccepts, hstop, rfl⟩
    cases hanswers with
    | missing hmissing => cases hsends.request.symm.trans (ofJson_of_isMissing hmissing)
    | rejected he => cases hsends.request.symm.trans he
    | unencodable hr hcall =>
      cases hsends.request.symm.trans hr
      cases hsends.call.symm.trans hcall
    | stopped _ _ hstart => exact absurd hstart hs.start
    | failed _ hjudge =>
      rw [Client.judge_eq_ok_iff.2 ⟨hresponse, haccepts⟩] at hjudge
      cases hjudge
    | broken _ hfault => exact absurd hfault (hs.transport _)
    | unfinished _ _ _ hstop => exact absurd hstop hs.stop
    | created hsends' hresponse' _ hstop' =>
      cases hsends.request.symm.trans hsends'.request
      cases hsends.start.symm.trans hsends'.start
      cases hresponse.symm.trans hresponse'
      cases hstop.symm.trans hstop'
      rfl

/-- **The inbound boundary.** A payload is interrupted only if it is a POST whose text has no
bytes. It is answered with an envelope exactly if its statement describes a request that can be sent
and the response is accepted, and otherwise with a message that is not empty. -/
theorem answer_of_dependable (hs : s.Dependable) :
    (∀ i, (c.answer payload s).result = .error i ↔
        i = .unencodableBody ∧
          ∃ r, Request.ofJson (statementOf payload) = .ok r ∧ r.UnencodableBody) ∧
      (∀ e, (c.answer payload s).result = .ok (.created e) ↔
        ∃ r call start response stop, Sends c payload s r call start ∧
          s.outcomes.first = .response response ∧ c.Accepts response.status ∧
          Client.milliseconds? s.clock.rest.first = some stop ∧
          e = envelopeOf r response start stop) ∧
      ∀ a, (c.answer payload s).result = .ok a →
        (a.status = 201 ∧ ∃ e, a = .created e) ∨
          a.status = 400 ∧
            ∃ m, m ≠ [] ∧ a.data = .object [("error", .bool true), ("message", .str m)] :=
  ⟨hs.interrupted_iff, hs.created_iff, fun _ ha => (c.answers_answer payload s).status_cases ha⟩

/-- A transport that finds nothing, and a clock that stands still. -/
def emptySession : Session := ⟨⟨.response ⟨404, "Not Found", "", id⟩, []⟩, ⟨Double.zero false, []⟩⟩

/-- A status that the client refuses makes a message. -/
theorem answer_of_dependable_refused :
    emptySession.Dependable ∧
      ∃ m, m ≠ [] ∧ ((Client.mk none true).answer [("reqline", .str "HTTP GET | URL u")]
        emptySession).result = .ok (.badRequest m) := by
  have hclock : Client.milliseconds? (Double.zero false) ≠ none := by
    rw [Client.milliseconds?_zero]
    exact Option.some_ne_none 0
  have hs : emptySession.Dependable := ⟨fun _ => Outcome.noConfusion, hclock, hclock⟩
  have hr : Request.ofJson (statementOf [("reqline", .str "HTTP GET | URL u")]) =
      .ok ⟨.get, "u", .obj [], .obj [], .obj [], "u"⟩ := by
    rfl
  obtain ⟨hinterrupted, hcreated, hstatus⟩ := @answer_of_dependable (Client.mk none true)
    [("reqline", .str "HTTP GET | URL u")] emptySession hs
  refine ⟨hs, ?_⟩
  cases hresult : ((Client.mk none true).answer [("reqline", .str "HTTP GET | URL u")]
      emptySession).result with
  | error i =>
    obtain ⟨-, r, hr', hpost, -⟩ := (hinterrupted i).1 hresult
    cases hr.symm.trans hr'
    cases hpost
  | ok a =>
    rcases hstatus a hresult with ⟨-, e, rfl⟩ | ⟨hrefused, m, hm, hdata⟩
    · obtain ⟨_, _, _, response, _, -, hresponse, haccepts, -, -⟩ := (hcreated e).1 hresult
      cases hresponse
      exact absurd (haccepts rfl) (by decide)
    · cases a with
      | created => cases hrefused
      | badRequest =>
        cases hdata
        exact ⟨_, hm, rfl⟩

/-- The text of a POST is no answer but an interruption, although nothing fails outside. -/
theorem interrupted_of_raw_surrogate :
    ((Client.mk none true).answer
        [("reqline", .str "HTTP POST | URL u | BODY \"\\ud800\"")] emptySession).result =
      .error .unencodableBody := by
  rfl

end RequestLine
