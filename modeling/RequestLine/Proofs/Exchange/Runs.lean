import Mathlib.Algebra.GroupWithZero.Nat
import RequestLine.Proofs.Exchange.Answers
import RequestLine.Proofs.Number.Nearest

/-!
# Runs

Payloads that one client answers one after the other. Each step uses up its share of the session,
and the next one starts where it ended.

* `IsReading.milliseconds?_ne_none`: the times that a clock can show have milliseconds.
* `Counted`: what a step sends and how often it reads the clock.
* `runAll_answer_getElem?`: a step of a run is the step in the session after all earlier use.
* `runAll_answer_filter`: payloads without a call can be left out.
* `flatMap_calls_runAll`: the calls of a run are those of its payloads.
-/

namespace RequestLine

/-! ## Readings of the clock -/

theorem ofInt_thousand :
    Double.ofInt 1000 = .finite false ⟨1000 * unitsOfOne, by decide +kernel⟩ := by
  decide +kernel

/-- A thousand times a reading is far from the end of the doubles. -/
theorem IsReading.milliseconds?_ne_none {t : Double} (h : IsReading t) :
    Client.milliseconds? t ≠ none := by
  cases t with
  | infinite | nan => exact h.elim
  | finite negative m =>
    have hthousand : 1000 * unitsOfOne ≤ 2 ^ 10 * unitsOfOne :=
      Nat.mul_le_mul_right _ (by decide)
    have hrange : 63 + 10 + unitExponent < rangeExponent := by
      rw [unitExponent, rangeExponent]
      decide
    have hfinite := Double.isFinite_mul (s := negative) (t := false)
      (n := ⟨1000 * unitsOfOne, by decide +kernel⟩) h hthousand hrange
    rw [Client.milliseconds?, ofInt_thousand]
    simp only [hfinite, if_true]
    exact Option.some_ne_none _

/-! ## Use of a run -/

/-- The use of several steps. -/
def usedBy (steps : List (Step (Except Interruption Answer))) : Use :=
  ⟨(steps.map fun t => t.use.sends).sum, (steps.map fun t => t.use.readings).sum⟩

theorem Session.after_usedBy_cons (s : Session) (t : Step (Except Interruption Answer))
    (steps : List (Step (Except Interruption Answer))) :
    s.after (usedBy (t :: steps)) = (s.after t.use).after (usedBy steps) := by
  simp only [after, usedBy, List.map_cons, List.sum_cons, Script.skip_add]

namespace Script

variable {α : Type}

/-- The values of a script. -/
def values (s : Script α) : List α := s.first :: s.later

theorem mem_values_of_mem_rest {s : Script α} {x : α} (h : x ∈ s.rest.values) : x ∈ s.values := by
  obtain ⟨first, later⟩ := s
  cases later with
  | nil => exact h
  | cons y later => exact List.mem_cons_of_mem first h

theorem mem_values_of_mem_skip {s : Script α} {n : Nat} {x : α} (h : x ∈ (s.skip n).values) :
    x ∈ s.values := by
  induction n generalizing s with
  | zero => exact h
  | succ n ih => exact mem_values_of_mem_rest (ih h)

end Script

/-- The clock only shows times that have milliseconds. -/
def Session.Timed (s : Session) : Prop := ∀ t ∈ s.clock.values, Client.milliseconds? t ≠ none

namespace Session.Timed

variable {s : Session}

theorem of_readings (h : ∀ t ∈ s.clock.values, IsReading t) : s.Timed :=
  fun t ht => (h t ht).milliseconds?_ne_none

theorem after (h : s.Timed) (u : Use) : (s.after u).Timed :=
  fun t ht => h t (Script.mem_values_of_mem_skip ht)

theorem first (h : s.Timed) : Client.milliseconds? s.clock.first ≠ none := h _ List.mem_cons_self

theorem second (h : s.Timed) : Client.milliseconds? s.clock.rest.first ≠ none :=
  h _ (Script.mem_values_of_mem_rest List.mem_cons_self)

end Session.Timed

/-! ## Steps -/

/-- What a step sends and reads in a session. -/
structure Counted (c : Client) (payload : Dictionary Text Json) (s : Session)
    (step : Step (Except Interruption Answer)) : Prop where
  /-- The call of the payload is made once, and nothing else is sent. -/
  calls : step.calls = (c.callOf? payload).toList
  session : step.session = s.after step.use
  created : ∀ e, step.result = .ok (.created e) → step.use = ⟨1, 2⟩
  failed : ∀ m, step.result = .ok (.badRequest m) → c.callOf? payload ≠ none → step.use = ⟨1, 1⟩
  broken : ∀ fault, step.result = .error (.broken fault) → step.use = ⟨1, 1⟩
  unsent : c.callOf? payload = none → step.use = ⟨0, 0⟩
  timed : step.result ≠ .error .endlessTime

section

variable {c : Client} {payload : Dictionary Text Json} {s : Session}
  {step : Step (Except Interruption Answer)}

/-- A payload has a call unless its statement breaks a rule or its body has no bytes. -/
theorem Client.callOf?_eq_none_iff : c.callOf? payload = none ↔
    ∀ r, Request.ofJson (statementOf payload) = .ok r → r.UnencodableBody := by
  rw [callOf?]
  cases Request.ofJson (statementOf payload) with
  | error e => simp
  | ok r => simp [Call.ofRequest?_eq_none_iff]

theorem Sends.callOf? {r : Request} {call : Call} {start : Int}
    (h : Sends c payload s r call start) : c.callOf? payload = some call := by
  rw [callOf?_of_ofJson_ok h.request, h.call]

theorem Answers.use_of_unsent (h : Answers c payload s step) (hcall : c.callOf? payload = none) :
    step.use = ⟨0, 0⟩ := by
  cases h with
  | missing | rejected | unencodable => rfl
  | stopped hr hsome =>
    rw [callOf?_of_ofJson_ok hr, hsome] at hcall
    cases hcall
  | failed hsends | broken hsends | unfinished hsends | created hsends =>
    cases hcall.symm.trans hsends.callOf?

theorem Answers.use_of_badRequest (h : Answers c payload s step) {m : Text}
    (hm : step.result = .ok (.badRequest m)) (hcall : c.callOf? payload ≠ none) :
    step.use = ⟨1, 1⟩ := by
  cases h with
  | missing hmissing =>
    exact absurd (callOf?_of_ofJson_error (ofJson_of_isMissing hmissing)) hcall
  | rejected he => exact absurd (callOf?_of_ofJson_error he) hcall
  | failed => rfl
  | unencodable | stopped | broken | unfinished | created => cases hm

theorem Answers.counted (h : Answers c payload s step) (hs : s.Timed) :
    Counted c payload s step where
  calls := by rw [h.calls_eq, if_neg hs.first]
  session := h.session_eq
  created e he := by
    cases h with
    | created => rfl
    | missing | rejected | unencodable | stopped | failed | broken | unfinished => cases he
  failed m hm hcall := h.use_of_badRequest hm hcall
  broken fault hfault := by
    cases h with
    | broken => rfl
    | missing | rejected | unencodable | stopped | failed | unfinished | created => cases hfault
  unsent hcall := h.use_of_unsent hcall
  timed hendless := by
    cases h with
    | stopped _ _ hstart => exact hs.first hstart
    | unfinished _ _ _ hstop => exact hs.second hstop
    | missing | rejected | unencodable | failed | broken | created => cases hendless

end

theorem Client.counted (c : Client) (payload : Dictionary Text Json) {s : Session} (hs : s.Timed) :
    Counted c payload s (c.answer payload s) := (c.answers_answer payload s).counted hs

theorem Client.session_answer (c : Client) (payload : Dictionary Text Json) (s : Session) :
    (c.answer payload s).session = s.after (c.answer payload s).use :=
  (c.answers_answer payload s).session_eq

theorem Client.session_of_unsent {c : Client} {payload : Dictionary Text Json}
    (h : c.callOf? payload = none) (s : Session) : (c.answer payload s).session = s := by
  rw [c.session_answer, (c.answers_answer payload s).use_of_unsent h]
  rfl

/-! ## Runs -/

section

variable {c : Client}

theorem runAll_answer_getElem? (payloads : List (Dictionary Text Json)) (s : Session) (i : Nat) :
    (runAll c.answer payloads s)[i]? =
      payloads[i]?.map fun p =>
        c.answer p (s.after (usedBy ((runAll c.answer payloads s).take i))) := by
  induction payloads generalizing s i with
  | nil => rfl
  | cons p payloads ih =>
    cases i with
    | zero => rfl
    | succ i =>
      -- the rest of the run starts in the session that the first step left
      have hsession := c.session_answer p s
      rw [runAll, List.getElem?_cons_succ, List.getElem?_cons_succ, List.take_succ_cons,
        Session.after_usedBy_cons, ← hsession]
      exact ih _ i

/-- Payloads without a call can be left out of a run: the other steps stay as they are. -/
theorem runAll_answer_filter {payloads : List (Dictionary Text Json)}
    {keep : Dictionary Text Json → Bool}
    (h : ∀ p ∈ payloads, keep p = false → c.callOf? p = none) (s : Session) :
    runAll c.answer (payloads.filter keep) s =
      ((payloads.zip (runAll c.answer payloads s)).filter (keep ·.1)).map Prod.snd := by
  induction payloads generalizing s with
  | nil => rfl
  | cons p payloads ih =>
    have htail := fun s => ih (fun q hq => h q (List.mem_cons_of_mem p hq)) s
    rw [runAll, List.zip_cons_cons]
    cases hkeep : keep p with
    | true =>
      rw [List.filter_cons_of_pos hkeep, List.filter_cons_of_pos (by simpa using hkeep),
        List.map_cons, runAll, htail]
    | false =>
      have hsession := Client.session_of_unsent (h p List.mem_cons_self hkeep) s
      rw [List.filter_cons_of_neg (by simp [hkeep]), List.filter_cons_of_neg (by simp [hkeep]),
        hsession, htail]

/-- The calls of a run are those of its payloads in order, if the clock shows times. -/
theorem flatMap_calls_runAll {payloads : List (Dictionary Text Json)} {s : Session}
    (hs : s.Timed) :
    (runAll c.answer payloads s).flatMap Step.calls = payloads.filterMap c.callOf? := by
  induction payloads generalizing s with
  | nil => rfl
  | cons p payloads ih =>
    have hrest : (c.answer p s).session.Timed := by
      rw [c.session_answer]
      exact hs.after _
    rw [runAll, List.flatMap_cons, ih hrest, List.filterMap_cons, (c.counted p hs).calls]
    cases c.callOf? p <;> rfl

end

/-- **Whole runs.** Only a payload whose statement breaks a rule or whose body has no bytes has no
call. A run has a step for each payload, in the session that all earlier steps left. As long as the
clock shows readings, each step sends and reads what `Counted` says, and the calls of the run are
those of its payloads, each once and in order. Payloads without a call can be left out. -/
theorem runAll_answer (c : Client) (payloads : List (Dictionary Text Json)) {s : Session}
    (hclock : ∀ t ∈ s.clock.values, IsReading t) :
    (∀ p, c.callOf? p = none ↔
        ∀ r, Request.ofJson (statementOf p) = .ok r → r.UnencodableBody) ∧
      (∀ i, (runAll c.answer payloads s)[i]? =
        payloads[i]?.map fun p =>
          c.answer p (s.after (usedBy ((runAll c.answer payloads s).take i)))) ∧
      (∀ i p step, payloads[i]? = some p → (runAll c.answer payloads s)[i]? = some step →
        Counted c p (s.after (usedBy ((runAll c.answer payloads s).take i))) step) ∧
      (runAll c.answer payloads s).flatMap Step.calls = payloads.filterMap c.callOf? ∧
      ∀ keep : Dictionary Text Json → Bool,
        (∀ p ∈ payloads, keep p = false → c.callOf? p = none) →
          runAll c.answer (payloads.filter keep) s =
            ((payloads.zip (runAll c.answer payloads s)).filter (keep ·.1)).map Prod.snd := by
  have hs := Session.Timed.of_readings hclock
  refine ⟨fun _ => Client.callOf?_eq_none_iff, runAll_answer_getElem? payloads s,
    fun i p step hp hstep => ?_, flatMap_calls_runAll hs, fun keep h => runAll_answer_filter h s⟩
  rw [runAll_answer_getElem?, hp] at hstep
  cases hstep
  exact c.counted p (hs.after _)

/-- Of two payloads the first has no URL: the second one makes the only call. -/
theorem runAll_answer_of_two_payloads :
    (∀ t ∈ (Script.mk (Double.zero false) [Double.ofInt 1]).values, IsReading t) ∧
      (runAll (Client.mk none true).answer
        [[("reqline", .str "HTTP GET")], [("reqline", .str "HTTP GET | URL u")]]
        ⟨⟨.failed "down", []⟩, ⟨Double.zero false, [Double.ofInt 1]⟩⟩).flatMap Step.calls =
          [⟨.get, "u", [], none, .none⟩] := by
  have hone : Double.ofInt 1 = .finite false ⟨unitsOfOne, by decide +kernel⟩ := by decide +kernel
  have hclock : ∀ t ∈ (Script.mk (Double.zero false) [Double.ofInt 1]).values, IsReading t := by
    refine List.forall_mem_cons.2 ⟨Nat.zero_le _, List.forall_mem_singleton.2 ?_⟩
    rw [hone]
    exact Nat.le_mul_of_pos_left _ (by decide)
  exact ⟨hclock, (runAll_answer ⟨none, true⟩ _
    (s := ⟨⟨.failed "down", []⟩, ⟨Double.zero false, [Double.ofInt 1]⟩⟩) hclock).2.2.2.1⟩

end RequestLine
