import RequestLine.Proofs.Exchange.Bodies
import RequestLine.Proofs.Exchange.Calls

/-!
# Outcomes of a request

A request that is sent fails in two ways, with a response or without one. A client that counts
statuses refuses some responses itself; what the transport refuses it cannot accept.

* `Refused`: the statuses that count as failures.
* `Client.Refuses`: a failure that carries a response; `Client.judge_cases`: what becomes of an
  outcome.
* `Envelope.Reports`: the envelope of a request, its response and two times.
* `result_of_sent`: how a request ends that was sent.
-/

namespace RequestLine

/-- The statuses that count as failures. -/
def Refused (status : Int) : Prop := 400 ≤ status ∧ status < 600

/-- The transport fails as requests do, with a response or without one. -/
inductive Outcome.Fails : Outcome → Prop
  | failed (message : Text) : Fails (.failed message)
  | refused (message : Text) (r : Response) : Fails (.refused message r)

/-! ## Judging an outcome -/

theorem Response.message_of_complaint {r : Response} {url m : Text}
    (h : r.complaint? url = some m) : (ExecutionError.ofMessage m (some r)).message = m := by
  have hne : m ≠ [] := by
    obtain ⟨side, -, rfl⟩ := Option.map_eq_some_iff.1 h
    simp [Text.ofString]
  unfold ExecutionError.ofMessage
  exact if_neg fun hempty => hne (List.isEmpty_iff.1 hempty)

namespace Client

/-- The outcome is a failure about the response `r`: the transport refuses it, or the client does
for its status. -/
inductive Refuses (c : Client) : Outcome → Response → Prop
  | transport (message : Text) (r : Response) : Refuses c (.refused message r) r
  | status {r : Response} : c.raiseForStatus = true → Refused r.status → Refuses c (.response r) r

theorem accepts_iff {c : Client} (hc : c.raiseForStatus = true) {status : Int} :
    c.Accepts status ↔ ¬ Refused status := by
  unfold Accepts Refused
  constructor
  · intro h
    have := h hc
    omega
  · intro h _
    omega

theorem judge_of_refused {c : Client} (hc : c.raiseForStatus = true) {r : Response}
    (hr : Refused r.status) (url : Text) : ∃ m, r.complaint? url = some m ∧
      c.judge url (.response r) = .error (.execution (.ofMessage m (some r))) := by
  cases hm : r.complaint? url with
  | none =>
    have hstatus := (r.complaint?_eq_none_iff url).1 hm
    unfold Refused at hr
    omega
  | some m =>
    refine ⟨m, rfl, ?_⟩
    simp only [judge, hc, if_true, hm]

theorem judge_of_not_refused {c : Client} {r : Response}
    (hr : ¬ (c.raiseForStatus = true ∧ Refused r.status)) (url : Text) :
    c.judge url (.response r) = .ok r :=
  judge_eq_ok_iff.2 ⟨rfl, fun hc => (accepts_iff hc).2 (fun hrefused => hr ⟨hc, hrefused⟩) hc⟩

/-- What becomes of an outcome: a response that is accepted, a failure with a response or without
one, or a fault of the transport. -/
theorem judge_cases (c : Client) (url : Text) (o : Outcome) :
    (∃ r, o = .response r ∧ ¬ (c.raiseForStatus = true ∧ Refused r.status) ∧
        c.judge url o = .ok r) ∨
      (∃ m r, c.Refuses o r ∧ c.judge url o = .error (.execution (.ofMessage m (some r)))) ∨
      (∃ m, o = .failed m ∧ c.judge url o = .error (.execution (.ofMessage m none))) ∨
      ∃ fault, o = .broken fault ∧ c.judge url o = .error (.interrupted (.broken fault)) := by
  cases o with
  | response r =>
    by_cases hr : c.raiseForStatus = true ∧ Refused r.status
    · obtain ⟨m, -, hjudge⟩ := judge_of_refused hr.1 hr.2 url
      exact .inr (.inl ⟨m, r, .status hr.1 hr.2, hjudge⟩)
    · exact .inl ⟨r, rfl, hr, judge_of_not_refused hr url⟩
  | refused m r => exact .inr (.inl ⟨m, r, .transport m r, rfl⟩)
  | failed m => exact .inr (.inr (.inl ⟨m, rfl, rfl⟩))
  | broken fault => exact .inr (.inr (.inr ⟨fault, rfl, rfl⟩))

/-- A failure carries one response at most. -/
theorem Refuses.unique {c : Client} {o : Outcome} {r r₂ : Response} (h : c.Refuses o r)
    (h₂ : c.Refuses o r₂) : r₂ = r := by
  cases h <;> cases h₂ <;> rfl

theorem Refuses.fails {c : Client} {o : Outcome} {r : Response} (h : c.Refuses o r) :
    o.Fails ∨ c.raiseForStatus = true ∧ ∃ r, o = .response r ∧ Refused r.status := by
  cases h with
  | transport m r => exact .inl (.refused m r)
  | status hc hr => exact .inr ⟨hc, r, rfl, hr⟩

theorem exists_judge_eq_execution_iff (c : Client) (url : Text) (o : Outcome) :
    (∃ e, c.judge url o = .error (.execution e)) ↔
      o.Fails ∨ c.raiseForStatus = true ∧ ∃ r, o = .response r ∧ Refused r.status := by
  constructor
  · rintro ⟨e, he⟩
    rcases c.judge_cases url o with ⟨_, -, -, hj⟩ | ⟨_, _, hrefuses, -⟩ | ⟨m, rfl, -⟩ | ⟨_, -, hj⟩
    · cases he.symm.trans hj
    · exact hrefuses.fails
    · exact .inl (.failed m)
    · cases he.symm.trans hj
  · rintro ((⟨m⟩ | ⟨m, r⟩) | ⟨hc, r, rfl, hr⟩)
    · exact ⟨_, rfl⟩
    · exact ⟨_, rfl⟩
    · obtain ⟨m, -, hjudge⟩ := judge_of_refused hc hr url
      exact ⟨_, hjudge⟩

/-- A failure has a message, and the status and the data of the response that it carries. -/
structure Tells (c : Client) (o : Outcome) (e : ExecutionError) : Prop where
  message : e.message ≠ []
  response : ∀ r, c.Refuses o r →
    e.status = some r.status ∧ ∃ v, e.data = some v ∧ r.Decodes v
  alone : (∀ r, ¬ c.Refuses o r) → e.status = none ∧ e.data = none

theorem tells_of_judge {c : Client} {url : Text} {o : Outcome} {e : ExecutionError}
    (he : c.judge url o = .error (.execution e)) : c.Tells o e := by
  rcases c.judge_cases url o with ⟨_, -, -, hj⟩ | ⟨m, r, hr, hj⟩ | ⟨m, rfl, hj⟩ | ⟨_, -, hj⟩ <;>
    cases he.symm.trans hj
  · refine ⟨ExecutionError.message_ofMessage_ne_nil m _, fun r₂ hr₂ => ?_, fun h => absurd hr (h r)⟩
    rw [hr.unique hr₂]
    exact ⟨rfl, r.data, rfl, Response.decodes_iff.2 rfl⟩
  · exact ⟨ExecutionError.message_ofMessage_ne_nil m _, (fun _ hr => by cases hr), fun _ => ⟨rfl, rfl⟩⟩

end Client

/-! ## Sent requests -/

/-- The envelope holds what was asked, what was answered, and the times before and after. -/
structure Envelope.Reports (e : Envelope) (r : Request) (response : Response)
    (before after : Int) : Prop where
  query : e.query = r.query
  body : e.body = r.body
  headers : e.headers = r.headers
  fullUrl : e.fullUrl = r.fullUrl
  status : e.status = response.status
  start : e.start = before
  stop : e.stop = after
  duration : e.duration = after - before
  data : response.Decodes e.data

theorem reports_envelopeOf (r : Request) (response : Response) (start stop : Int) :
    (envelopeOf r response start stop).Reports r response start stop where
  query := rfl
  body := rfl
  headers := rfl
  fullUrl := rfl
  status := rfl
  start := rfl
  stop := rfl
  duration := rfl
  data := Response.decodes_iff.2 rfl

variable {c : Client} {r : Request} {s : Session}

/-- Once a request is sent, its result follows from what the transport does and from the time after
that. -/
theorem Client.exists_start_of_sent (h : (c.send r s).calls ≠ []) :
    ∃ start, milliseconds? s.clock.first = some start ∧ (c.send r s).result =
      match c.judge r.url s.outcomes.first with
      | .error e => .error e
      | .ok response =>
        match milliseconds? s.clock.rest.first with
        | none => .error (.interrupted .endlessTime)
        | some stop => .ok (envelopeOf r response start stop) := by
  unfold send at h ⊢
  cases hcall : Call.ofRequest? c.timeout r with
  | none => exact absurd (by rw [hcall]) h
  | some call =>
    cases hstart : milliseconds? s.clock.first with
    | none => exact absurd (by rw [hcall, hstart]) h
    | some start =>
      refine ⟨start, rfl, ?_⟩
      dsimp only
      cases c.judge r.url s.outcomes.first with
      | error e => rfl
      | ok response =>
        dsimp only
        cases milliseconds? s.clock.rest.first <;> rfl

/-- **Outcomes of a request.** A request that is sent fails exactly if the transport fails or the
client refuses the status. The failure has a message, and the status and the data of a response if
it is about one. A response that is accepted makes an envelope, with the time before sending and the
time after it. Nothing else ends a request but a fault of the transport that is no failure of a
request, and a clock that shows no second time. -/
theorem result_of_sent (h : (c.send r s).calls ≠ []) :
    ((∃ e, (c.send r s).result = .error (.execution e)) ↔
        s.outcomes.first.Fails ∨ c.raiseForStatus = true ∧
          ∃ response, s.outcomes.first = .response response ∧ Refused response.status) ∧
      (∀ e, (c.send r s).result = .error (.execution e) → c.Tells s.outcomes.first e) ∧
      (∀ response, s.outcomes.first = .response response →
        ¬ (c.raiseForStatus = true ∧ Refused response.status) →
        ∀ stop, Client.milliseconds? s.clock.rest.first = some stop →
          ∃ start e, Client.milliseconds? s.clock.first = some start ∧
            (c.send r s).result = .ok e ∧ e.Reports r response start stop) ∧
      ∀ f, (c.send r s).result = .error f → (∃ e, f = .execution e) ∨
        (∃ fault, s.outcomes.first = .broken fault) ∨
          Client.milliseconds? s.clock.rest.first = none := by
  obtain ⟨start, hstart, hresult⟩ := Client.exists_start_of_sent h
  have hexecution : ∀ e, (c.send r s).result = .error (.execution e) ↔
      c.judge r.url s.outcomes.first = .error (.execution e) := by
    intro e
    rw [hresult]
    cases c.judge r.url s.outcomes.first with
    | error f => simp
    | ok response => cases Client.milliseconds? s.clock.rest.first <;> simp
  refine ⟨?_, fun e he => Client.tells_of_judge ((hexecution e).1 he),
    fun response hresponse hr stop hstop => ?_, fun f hf => ?_⟩
  · rw [← c.exists_judge_eq_execution_iff r.url]
    exact exists_congr hexecution
  · rw [hresponse, Client.judge_of_not_refused hr, hstop] at hresult
    exact ⟨start, _, hstart, hresult, reports_envelopeOf r response start stop⟩
  · rcases c.judge_cases r.url s.outcomes.first with ⟨_, -, -, hj⟩ | ⟨_, _, -, hj⟩ | ⟨_, -, hj⟩ |
      ⟨fault, hbroken, -⟩
    · cases hstop : Client.milliseconds? s.clock.rest.first with
      | none => exact .inr (.inr rfl)
      | some stop =>
        rw [hresult, hj, hstop] at hf
        cases hf
    · rw [hresult, hj] at hf
      cases hf
      exact .inl ⟨_, rfl⟩
    · rw [hresult, hj] at hf
      cases hf
      exact .inl ⟨_, rfl⟩
    · exact .inr (.inl ⟨fault, hbroken⟩)

/-- A transport that refuses what it is asked for, and a clock that stands still. -/
def refusingSession : Session :=
  ⟨⟨.refused "gone" ⟨404, "Not Found", "[true]", id⟩, []⟩, ⟨Double.zero false, []⟩⟩

/-- A client that counts no statuses cannot accept what the transport refuses. -/
theorem result_of_sent_refused :
    ((Client.mk none false).send ⟨.get, "u", .obj [], .obj [], .obj [], "u"⟩
        refusingSession).calls ≠ [] ∧
      ∃ e, ((Client.mk none false).send ⟨.get, "u", .obj [], .obj [], .obj [], "u"⟩
          refusingSession).result = .error (.execution e) ∧
        e.message ≠ [] ∧ e.status = some 404 ∧ e.data = some (.arr [.bool true]) := by
  have hsent : ((Client.mk none false).send ⟨.get, "u", .obj [], .obj [], .obj [], "u"⟩
      refusingSession).calls ≠ [] := by
    rw [Ne, Client.calls_send_eq_nil_iff]
    rintro (⟨hpost, -⟩ | htime)
    · cases hpost
    · cases Client.milliseconds?_zero.symm.trans htime
  obtain ⟨hfails, htells, -, -⟩ := result_of_sent hsent
  obtain ⟨e, he⟩ := hfails.2 (.inl (.refused _ _))
  obtain ⟨hstatus, v, hv, hdecodes⟩ := (htells e he).response _ (.transport _ _)
  have hdata : Response.data ⟨404, "Not Found", "[true]", id⟩ = .arr [.bool true] := rfl
  rw [Response.decodes_iff, hdata] at hdecodes
  exact ⟨hsent, e, he, (htells e he).message, hstatus, hdecodes ▸ hv⟩

end RequestLine
