import RequestLine.Proofs.Json.DecimalTexts
import RequestLine.Proofs.Json.Escapes
import RequestLine.Proofs.Json.Places
import RequestLine.Proofs.Json.Values

/-!
# Strict JSON

The strict reader accepts the texts of the grammar, with the values that these stand for, and no
others. What the grammar leaves out is refused wherever it stands.

* `parse?_eq_none_of_leaves`: a text that leaves its places has no value.
* `parse?_of_constant`, `parse?_of_control`, `parse?_of_leadingZero`, `parse?_of_trailingComma`,
  `parse?_append`: constants, control characters, leading zeros, trailing commas, trailing text.
* `parse?_strict`: the reader and the grammar, with what its parts mean.
-/

namespace RequestLine.Json

open Grammar

/-! ## Refused texts -/

/-- The place that the beginning of a text leads to. -/
def placeAfter (t : Text) : Option Place := Place.run (.value false) t

/-- The beginning of a text leaves a string open. -/
def InString (t : Text) : Prop := placeAfter t = some .string ∨ placeAfter t = some .escape

/-- A text that leaves its places somewhere has no value. -/
theorem parse?_eq_none_of_leaves {a u : Text} (h : ∀ p, placeAfter a = some p → p.run u = none)
    (b : Text) : parse? .strict (a ++ (u ++ b)) = none := by
  cases hparse : parse? .strict (a ++ (u ++ b)) with
  | none => rfl
  | some v =>
    obtain ⟨q, hq, -⟩ := Place.fits_document (parse?_eq_some_iff.1 hparse) false
    rw [Place.run_append] at hq
    cases ha : placeAfter a with
    | none =>
      rw [placeAfter] at ha
      rw [ha] at hq
      cases hq
    | some p =>
      have hu := h p ha
      rw [placeAfter] at ha
      rw [ha, Option.bind_some, Place.run_append, hu] at hq
      cases hq

/-- The names of the numbers that other readers accept. -/
def numberNames : List Text := ["NaN", "Infinity", "-Infinity"]

theorem run_numberNames {p : Place} (hs : p ≠ .string) (he : p ≠ .escape) :
    ∀ name ∈ numberNames, p.run name = none := by
  cases p with
  | string => exact absurd rfl hs
  | escape => exact absurd rfl he
  | value closable => cases closable <;> decide
  | _ => decide

theorem parse?_of_constant {a : Text} (ha : ¬ InString a) {name : Text} (h : name ∈ numberNames)
    (b : Text) : parse? .strict (a ++ (name ++ b)) = none := by
  apply parse?_eq_none_of_leaves
  intro p hp
  apply run_numberNames _ _ name h
  · rintro rfl
    exact ha (.inl hp)
  · rintro rfl
    exact ha (.inr hp)

theorem parse?_of_control {a : Text} (ha : InString a) {c : CodePoint} (hc : c.val < 0x20)
    (b : Text) : parse? .strict (a ++ ([c] ++ b)) = none := by
  apply parse?_eq_none_of_leaves
  intro p hp
  have hstep : p.step c = none := by
    rcases ha with ha | ha
    · obtain rfl := Option.some.inj (hp.symm.trans ha)
      have hq : c ≠ quotationMark := by
        rintro rfl
        exact absurd hc (by decide)
      have hb : c ≠ backslash := by
        rintro rfl
        exact absurd hc (by decide)
      rw [Place.step, if_neg hq, if_neg hb, if_pos hc]
    · obtain rfl := Option.some.inj (hp.symm.trans ha)
      exact if_pos hc
  rw [Place.run_cons, hstep, Option.bind_none]

theorem parse?_of_leadingZero {a : Text} {closable : Bool}
    (ha : placeAfter a = some (.value closable)) (negative : Bool) {d : CodePoint}
    (hd : d.isDigit = true) (b : Text) :
    parse? .strict (a ++ (minus negative ++ [CodePoint.ofChar '0', d] ++ b)) = none := by
  apply parse?_eq_none_of_leaves
  intro p hp
  obtain rfl := Option.some.inj (hp.symm.trans ha)
  have hzero : Place.run (.value closable) (minus negative ++ [CodePoint.ofChar '0']) =
      some .zero := by
    cases negative <;> cases closable <;> rfl
  have hstep : Place.step .zero d = none := by
    have hbegins := begins_of_isDigit hd
    have hpoint : d ≠ CodePoint.ofChar '.' := ne_of_isDigit hd (by decide)
    have hmark : ¬ (d = CodePoint.ofChar 'e' ∨ d = CodePoint.ofChar 'E') := by
      rintro (rfl | rfl) <;> exact absurd hd (by decide)
    have hblank : ¬ Reader.isBlank d = true := by
      rw [hbegins.solid]
      exact Bool.false_ne_true
    have hseparator : ¬ (d = CodePoint.ofChar ',' ∨ d = CodePoint.ofChar ':') := by
      rintro (rfl | rfl) <;> exact absurd hd (by decide)
    have hclose : ¬ (d = CodePoint.ofChar ']' ∨ d = CodePoint.ofChar '\x7d') := by
      rintro (rfl | rfl) <;> exact absurd hd (by decide)
    rw [Place.step, if_neg hpoint, Place.stepExponent, if_neg hmark, Place.stepAfter,
      if_neg hblank, if_neg hseparator, if_neg hclose]
  have hsplit : minus negative ++ [CodePoint.ofChar '0', d] =
      (minus negative ++ [CodePoint.ofChar '0']) ++ [d] := by
    rw [List.append_assoc]
    rfl
  rw [hsplit, Place.run_append_of hzero, Place.run_cons, hstep, Option.bind_none]

theorem parse?_of_trailingComma {a w : Text} (ha : ¬ InString a) (hw : Blank w) {close : CodePoint}
    (hclose : close = ']' ∨ close = '\x7d') (b : Text) :
    parse? .strict (a ++ (CodePoint.ofChar ',' :: (w ++ [close]) ++ b)) = none := by
  apply parse?_eq_none_of_leaves
  intro p hp
  have hcomma : p.step ',' = none ∨ p.step ',' = some (.value false) := by
    cases p with
    | string => exact absurd (.inl hp) ha
    | escape => exact absurd (.inr hp) ha
    | value closable => cases closable <;> exact .inl rfl
    | minusSign | point | mark | sign => exact .inl rfl
    | after | word | zero | whole | fraction | exponent => exact .inr rfl
  rcases hcomma with hcomma | hcomma
  · rw [Place.run_cons, hcomma, Option.bind_none]
  · rw [Place.run_cons_of hcomma, Place.run_append_of (Place.run_value_blank false hw)]
    rcases hclose with rfl | rfl <;> rfl

/-- Behind a whole text nothing may follow but white space. -/
theorem parse?_append {d : Dialect} {t r : Text} {v : Json} (h : parse? d t = some v)
    (hends : Reader.NumberEnds r) (hr : ¬ Blank r) : parse? d (t ++ r) = none := by
  obtain @⟨before, u, after, _, hbefore, hafter, hvalue⟩ := parse?_eq_some_iff.1 h
  have hassoc : before ++ (u ++ after) ++ r = before ++ (u ++ (after ++ r)) := by
    rw [List.append_assoc, List.append_assoc]
  have hskip : Reader.skipBlank (before ++ (u ++ (after ++ r))) = u ++ (after ++ r) :=
    Reader.skipBlank_append hbefore (hvalue.solid.append _)
  have hlength : u.length ≤ (before ++ (u ++ (after ++ r))).length := by
    simp only [List.length_append]
    omega
  have hread := Reader.readValue_append hvalue hlength (Reader.numberEnds_of_blank hafter hends)
  have hrest : Reader.skipBlank (after ++ r) ≠ [] := by
    intro hnil
    apply hr
    intro c hc
    exact Reader.blank_of_skipBlank hnil c (List.mem_append_right after hc)
  rw [hassoc, parse?, hskip, hread]
  exact if_neg hrest

/-! ## The strict reader -/

theorem mem_constants_strict_iff {t : Text} {v : Json} : (t, v) ∈ Reader.constants .strict ↔
    t = "null" ∧ v = .null ∨ t = "true" ∧ v = .bool true ∨ t = "false" ∧ v = .bool false := by
  simp only [Reader.constants, List.mem_cons, Prod.mk.injEq, List.not_mem_nil, or_false]

/-- **Strict JSON.** A text has a value if and only if it is one value of the grammar with white
space around it, and then it has that value. Integers have at most 4300 digits and are exact, other
numbers are the nearest doubles, and a pair of surrogates is one code point. -/
theorem parse?_strict :
    (∀ t v, parse? .strict t = some v ↔ Document .strict t v) ∧
      (∀ t v, (t, v) ∈ Reader.constants .strict ↔
        t = "null" ∧ v = .null ∨ t = "true" ∧ v = .bool true ∨ t = "false" ∧ v = .bool false) ∧
      (∀ c : CodePoint, Reader.isBlank c = true ↔ c = ' ' ∨ c = '\t' ∨ c = '\n' ∨ c = '\r') ∧
      (∀ t i, NumberText t (.int i) ↔ ∃ negative whole, IntegerText t negative whole ∧
        whole.length ≤ 4300 ∧ i = signed negative (digitsValue whole)) ∧
      (∀ t x, NumberText t (.double x) ↔ ∃ negative q, DecimalText t negative q ∧
        (∀ whole, ¬ IntegerText t negative whole) ∧ Double.Nearest negative q x) ∧
      (∀ high low, IsHigh high → IsLow low → (Reader.joinSurrogates high low).val =
        0x10000 + (high - 0xD800) * 0x400 + (low - 0xDC00)) ∧
      (∀ a b name, ¬ InString a → name ∈ numberNames →
        parse? .strict (a ++ (name ++ b)) = none) ∧
      (∀ a b (c : CodePoint), InString a → c.val < 0x20 →
        parse? .strict (a ++ ([c] ++ b)) = none) ∧
      (∀ a b closable negative (d : CodePoint), placeAfter a = some (.value closable) →
        d.isDigit = true →
        parse? .strict (a ++ (minus negative ++ [CodePoint.ofChar '0', d] ++ b)) = none) ∧
      (∀ a b w (close : CodePoint), ¬ InString a → Blank w → close = ']' ∨ close = '\x7d' →
        parse? .strict (a ++ (CodePoint.ofChar ',' :: (w ++ [close]) ++ b)) = none) ∧
      (∀ t r v, parse? .strict t = some v → Reader.NumberEnds r → ¬ Blank r →
        parse? .strict (t ++ r) = none) ∧
      ∀ t, parse? .strict (CodePoint.ofChar '\ufeff' :: t) = none := by
  have hlimit : digitLimit = 4300 := by rw [digitLimit]
  refine ⟨fun _ _ => parse?_eq_some_iff, fun _ _ => mem_constants_strict_iff,
    fun _ => Place.isBlank_iff, fun t i => ?_, fun _ _ => numberText_double_iff,
    fun _ _ => val_joinSurrogates, fun _ b _ ha h => parse?_of_constant ha h b,
    fun _ b _ ha hc => parse?_of_control ha hc b,
    fun _ b _ negative _ ha hd => parse?_of_leadingZero ha negative hd b,
    fun _ b _ _ ha hw h => parse?_of_trailingComma ha hw h b, fun _ _ _ => parse?_append,
    fun t => ?_⟩
  · rw [numberText_int_iff, hlimit]
  · have hleaves : ∀ p, placeAfter [] = some p →
        p.run [CodePoint.ofChar '\ufeff'] = none := by
      intro p hp
      obtain rfl := Option.some.inj hp
      decide
    exact parse?_eq_none_of_leaves hleaves t

end RequestLine.Json
