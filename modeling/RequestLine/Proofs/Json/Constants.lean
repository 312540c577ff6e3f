import RequestLine.Proofs.Json.Strict

/-!
# Constants outside of strings

The dialect with constants differs from the strict one in `NaN` and `Infinity` alone, and only where
these stand outside of strings. A string that mentions them is the same in both.

* `Quoting`: whether a text leaves a string open, read off its quotation marks and backslashes.
* `Place.quoting_run`: the places of a text say the same.
* `closed_value`: no value leaves a string open.
* `strict_or_bare`: a value with constants is strict, or one of them stands in it outside of strings.
* `parse?_strict_eq_none_iff_bare`: among the texts with a value these are the ones that the strict
  reader refuses.
-/

namespace RequestLine.Json

open Grammar

/-! ## Open strings -/

/-- Where the end of a text stands: outside of strings, in one, or behind a backslash in one. -/
inductive Quoting
  | outside
  | inside
  | escaped
  deriving DecidableEq

namespace Quoting

def step : Quoting → CodePoint → Quoting
  | outside, c => if c = quotationMark then inside else outside
  | inside, c => if c = quotationMark then outside else if c = backslash then escaped else inside
  | escaped, _ => inside

def run (q : Quoting) (t : Text) : Quoting := t.foldl step q

theorem run_append (q : Quoting) (t u : Text) : q.run (t ++ u) = (q.run t).run u :=
  List.foldl_append

end Quoting

namespace Place

/-- What a place says about strings. -/
def quoting : Place → Quoting
  | string => .inside
  | escape => .escaped
  | value _ | after | word | minusSign | zero | whole | point | fraction | mark | sign | exponent =>
    .outside

theorem quoting_step {p q : Place} {c : CodePoint} (h : p.step c = some q) :
    q.quoting = p.quoting.step c := by
  by_cases hc : c = quotationMark
  · subst hc
    -- a quotation mark begins a value, ends a string or is escaped
    cases p with
    | value closable => cases h; rfl
    | string | escape => cases h; rfl
    | _ => cases h
  · cases p with
    | string =>
      simp only [step, if_neg hc] at h
      simp only [quoting, Quoting.step, if_neg hc]
      split_ifs at h ⊢ <;> cases h <;> rfl
    | escape =>
      simp only [step] at h
      split_ifs at h
      cases h
      rfl
    | value closable =>
      simp only [step, stepValue, if_neg hc] at h
      simp only [quoting, Quoting.step, if_neg hc]
      split_ifs at h <;> cases h <;> rfl
    | _ =>
      simp only [step, stepExponent, stepAfter] at h
      simp only [quoting, Quoting.step, if_neg hc]
      split_ifs at h <;> cases h <;> rfl

theorem quoting_run {p q : Place} {t : Text} (h : p.run t = some q) :
    q.quoting = p.quoting.run t := by
  induction t generalizing p with
  | nil =>
    cases h
    rfl
  | cons c t ih =>
    rw [run_cons, Option.bind_eq_some_iff] at h
    obtain ⟨m, hstep, hrun⟩ := h
    rw [ih hrun, quoting_step hstep]
    rfl

theorem Complete.quoting {p : Place} (h : p.Complete) : p.quoting = .outside := by
  rcases h with rfl | rfl | rfl | rfl | rfl | rfl <;> rfl

end Place

/-- A text that begins outside of strings ends there. -/
def Closed (t : Text) : Prop := Quoting.run .outside t = .outside

instance (t : Text) : Decidable (Closed t) :=
  inferInstanceAs (Decidable (Quoting.run .outside t = .outside))

theorem Closed.append {t u : Text} (ht : Closed t) (hu : Closed u) : Closed (t ++ u) := by
  rw [Closed, Quoting.run_append, ht]
  exact hu

theorem Closed.cons {c : CodePoint} {t : Text} (hc : c ≠ quotationMark) (ht : Closed t) :
    Closed (c :: t) :=
  Closed.append (t := [c]) (if_neg hc) ht

theorem Place.Fits.closed {t : Text} (h : Place.Fits t) : Closed t := by
  obtain ⟨q, hq, hcomplete⟩ := h false
  exact (quoting_run hq).symm.trans hcomplete.quoting

theorem closed_blank {b : Text} (hb : Blank b) : Closed b :=
  (Place.quoting_run (Place.run_value_blank false hb)).symm

theorem closed_string {t s : Text} (h : StringText t s) : Closed t :=
  (Place.quoting_run (Place.run_stringText h false)).symm

theorem closed_items {ps : List Text} {t : Text} (h : Items ps t) (hps : ∀ p ∈ ps, Closed p) :
    Closed t := by
  induction h with
  | last hbefore hafter =>
    have hpiece := hps _ List.mem_cons_self
    exact (closed_blank hbefore).append (hpiece.append (closed_blank hafter))
  | @cons before p after t ps hbefore hafter _ ih =>
    have hpiece := hps p List.mem_cons_self
    have hrest := ih fun q hq => hps q (List.mem_cons_of_mem p hq)
    have hcomma : Closed (CodePoint.ofChar ',' :: t) := hrest.cons (by decide)
    exact (closed_blank hbefore).append (hpiece.append ((closed_blank hafter).append hcomma))

theorem closed_separated {ps : List Text} {t : Text} (h : Separated ps t)
    (hps : ∀ p ∈ ps, Closed p) : Closed t := by
  cases h with
  | none hb => exact closed_blank hb
  | some h => exact closed_items h hps

theorem closed_member {m : Member} (hm : m.Spelled) (hv : Closed m.valueText) : Closed m.text := by
  have hcolon : Closed (CodePoint.ofChar ':' :: (m.afterColon ++ m.valueText)) :=
    ((closed_blank hm.after).append hv).cons (by decide)
  exact (closed_string hm.name).append ((closed_blank hm.before).append hcolon)

theorem closed_value {d : Dialect} {t : Text} {v : Json} (h : Value d t v) : Closed t := by
  induction h with
  | @constant t v hmem =>
    have hall : ∀ p ∈ Reader.constants d, Closed p.1 := by
      cases d <;> decide
    exact hall _ hmem
  | number hn => exact Place.Fits.closed (Place.run_number hn)
  | string hs => exact closed_string hs
  | @array items t _ hseparated ih =>
    have hinner : Closed t := closed_separated hseparated fun p hp => by
      obtain ⟨i, hi, rfl⟩ := List.mem_map.1 hp
      exact ih i hi
    exact (hinner.append (u := [CodePoint.ofChar ']']) (by decide)).cons (by decide)
  | @object members t hspelled _ hseparated ih =>
    have hinner : Closed t := closed_separated hseparated fun p hp => by
      obtain ⟨m, hm, rfl⟩ := List.mem_map.1 hp
      exact closed_member (hspelled m hm) (ih m hm)
    exact (hinner.append (u := [CodePoint.ofChar '\x7d']) (by decide)).cons (by decide)

/-! ## Bare constants -/

/-- The constants that strict texts do not know. `-Infinity` has one of them in it. -/
def bareNames : List Text := ["NaN", "Infinity"]

/-- One of these constants stands in the text outside of strings. -/
def Bare (t : Text) : Prop := ∃ name ∈ bareNames, ∃ a b, t = a ++ (name ++ b) ∧ Closed a

theorem Bare.append {t : Text} (h : Bare t) (u : Text) : Bare (t ++ u) := by
  obtain ⟨name, hname, a, b, rfl, ha⟩ := h
  exact ⟨name, hname, a, b ++ u, by simp, ha⟩

theorem Closed.append_bare {t u : Text} (ht : Closed t) (h : Bare u) : Bare (t ++ u) := by
  obtain ⟨name, hname, a, b, rfl, ha⟩ := h
  exact ⟨name, hname, t ++ a, b, by simp, ht.append ha⟩

theorem Bare.cons {c : CodePoint} {t : Text} (hc : c ≠ quotationMark) (h : Bare t) :
    Bare (c :: t) :=
  Closed.append_bare (t := [c]) (if_neg hc) h

theorem bare_items {ps : List Text} {t : Text} (h : Items ps t) (hps : ∀ p ∈ ps, Closed p)
    (hbare : ∃ p ∈ ps, Bare p) : Bare t := by
  induction h with
  | last hbefore hafter =>
    obtain ⟨q, hq, hbare⟩ := hbare
    rw [List.mem_singleton.1 hq] at hbare
    exact (closed_blank hbefore).append_bare (hbare.append _)
  | @cons before p after t ps hbefore hafter _ ih =>
    obtain ⟨q, hq, hbare⟩ := hbare
    refine (closed_blank hbefore).append_bare ?_
    rcases List.mem_cons.1 hq with rfl | hq
    · exact hbare.append _
    · have hrest := ih (fun q hq => hps q (List.mem_cons_of_mem p hq)) ⟨q, hq, hbare⟩
      have hcomma : Bare (CodePoint.ofChar ',' :: t) := hrest.cons (by decide)
      exact (hps p List.mem_cons_self).append_bare ((closed_blank hafter).append_bare hcomma)

theorem bare_separated {ps : List Text} {t : Text} (h : Separated ps t)
    (hps : ∀ p ∈ ps, Closed p) (hbare : ∃ p ∈ ps, Bare p) : Bare t := by
  cases h with
  | none =>
    obtain ⟨p, hp, -⟩ := hbare
    cases hp
  | some h => exact bare_items h hps hbare

theorem bare_member {m : Member} (hm : m.Spelled) (hv : Bare m.valueText) : Bare m.text := by
  have hcolon : Bare (CodePoint.ofChar ':' :: (m.afterColon ++ m.valueText)) :=
    ((closed_blank hm.after).append_bare hv).cons (by decide)
  exact (closed_string hm.name).append_bare ((closed_blank hm.before).append_bare hcolon)

/-- A constant is a strict one or bare. -/
theorem strict_or_bare_constant : ∀ p ∈ Reader.constants .withConstants,
    p ∈ Reader.constants .strict ∨ Bare p.1 := by
  have hnan : Bare "NaN" := ⟨"NaN", by decide, [], [], rfl, rfl⟩
  have hinfinity : Bare "Infinity" := ⟨"Infinity", by decide, [], [], rfl, rfl⟩
  have hnegative : Bare "-Infinity" := hinfinity.cons (c := '-') (by decide)
  intro p hp
  simp only [Reader.constants, List.mem_cons, List.not_mem_nil, or_false] at hp ⊢
  rcases hp with rfl | rfl | rfl | rfl | rfl | rfl
  · exact .inl (.inl rfl)
  · exact .inl (.inr (.inl rfl))
  · exact .inl (.inr (.inr rfl))
  · exact .inr hnan
  · exact .inr hinfinity
  · exact .inr hnegative

/-- The constants are the only difference between the dialects: a value without a bare one is
strict. -/
theorem strict_or_bare {t : Text} {v : Json} (h : Value .withConstants t v) :
    Value .strict t v ∨ Bare t := by
  induction h with
  | constant hmem => exact (strict_or_bare_constant _ hmem).imp_left .constant
  | number hn => exact .inl (.number hn)
  | string hs => exact .inl (.string hs)
  | @array items t hitems hseparated ih =>
    by_cases hbare : ∃ p ∈ items, Bare p.1
    · obtain ⟨p, hp, hbare⟩ := hbare
      have hclosed : ∀ q ∈ items.map Prod.fst, Closed q := fun q hq => by
        obtain ⟨i, hi, rfl⟩ := List.mem_map.1 hq
        exact closed_value (hitems i hi)
      have hinner := bare_separated hseparated hclosed ⟨p.1, List.mem_map_of_mem hp, hbare⟩
      exact .inr ((hinner.append _).cons (by decide))
    · have hstrict : ∀ p ∈ items, Value .strict p.1 p.2 := fun p hp =>
        (ih p hp).resolve_right fun h => hbare ⟨p, hp, h⟩
      exact .inl (.array hstrict hseparated)
  | @object members t hspelled hvalues hseparated ih =>
    by_cases hbare : ∃ m ∈ members, Bare m.valueText
    · obtain ⟨m, hm, hbare⟩ := hbare
      have hclosed : ∀ q ∈ members.map Member.text, Closed q := fun q hq => by
        obtain ⟨m, hm, rfl⟩ := List.mem_map.1 hq
        exact closed_member (hspelled m hm) (closed_value (hvalues m hm))
      have hinner := bare_separated hseparated hclosed
        ⟨m.text, List.mem_map_of_mem hm, bare_member (hspelled m hm) hbare⟩
      exact .inr ((hinner.append _).cons (by decide))
    · have hstrict : ∀ m ∈ members, Value .strict m.valueText m.value := fun m hm =>
        (ih m hm).resolve_right fun h => hbare ⟨m, hm, h⟩
      exact .inl (.object hspelled hstrict hseparated)

/-- What is a strict value is one with the constants too. -/
theorem withConstants_of_strict {t : Text} {v : Json} (h : Value .strict t v) :
    Value .withConstants t v := by
  induction h with
  | constant hmem => exact .constant (List.mem_append_left _ hmem)
  | number hn => exact .number hn
  | string hs => exact .string hs
  | array _ hseparated ih => exact .array ih hseparated
  | object hspelled _ hseparated ih => exact .object hspelled ih hseparated

/-! ## The two readers -/

theorem parse?_withConstants_of_strict {t : Text} {v : Json} (h : parse? .strict t = some v) :
    parse? .withConstants t = some v := by
  rw [parse?_eq_some_iff] at h ⊢
  cases h with
  | framed hbefore hafter hvalue => exact .framed hbefore hafter (withConstants_of_strict hvalue)

/-- A text with a bare constant is refused, wherever the constant stands. -/
theorem parse?_of_bare {t : Text} (h : Bare t) : parse? .strict t = none := by
  obtain ⟨name, hname, a, b, rfl, ha⟩ := h
  have hstring : ¬ InString a := by
    rintro (hplace | hplace) <;> have hquoting := Place.quoting_run hplace <;>
      cases hquoting.trans ha
  have hnumber : ∀ n ∈ bareNames, n ∈ numberNames := by decide
  exact parse?_of_constant hstring (hnumber name hname) b

/-- Among the texts with a value, those with a bare constant are the ones that the strict reader
refuses. -/
theorem parse?_strict_eq_none_iff_bare {t : Text} {v : Json}
    (h : parse? .withConstants t = some v) : parse? .strict t = none ↔ Bare t := by
  refine ⟨fun hnone => ?_, parse?_of_bare⟩
  rw [parse?_eq_some_iff] at h
  cases h with
  | @framed before u after _ hbefore hafter hvalue =>
    rcases strict_or_bare hvalue with hstrict | hbare
    · rw [parse?_eq_some_iff.2 (.framed hbefore hafter hstrict)] at hnone
      cases hnone
    · exact (closed_blank hbefore).append_bare (hbare.append after)

end RequestLine.Json
