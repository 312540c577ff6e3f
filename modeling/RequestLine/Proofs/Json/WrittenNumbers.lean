import RequestLine.Proofs.Number.Layout
import RequestLine.Proofs.Number.Rounding

/-!
# Written numbers

The digits of a double are those of a decimal that reads back as it, without the zeros at their
end.

* `toDouble_significand`: the significand of a decimal stands for the same double.
* `numberText_writeNumber`: the JSON text of a number is a number of the grammar, and that one.
-/

namespace RequestLine

open Json.Grammar

/-! ## Integers -/

theorem numberText_integerText {i : Int}
    (hi : (decimalDigits i.natAbs).length ≤ digitLimit) : NumberText (integerText i) (.int i) := by
  have hwhole := whole_decimalDigits i.natAbs
  cases i with
  | ofNat n =>
    have htext := NumberText.integer false hwhole hi
    rwa [digitsValue_decimalDigits] at htext
  | negSucc n =>
    have htext := NumberText.integer true hwhole hi
    rwa [digitsValue_decimalDigits] at htext

/-! ## Significands -/

/-- The double that is nearest to a significand. -/
def Significand.toDouble (negative : Bool) (s : Significand) : Double :=
  .ofDecimal negative ⟨digitsValue s.digits, s.point - s.digits.length⟩

/-- The significand of a decimal stands for the same double. -/
theorem Decimal.toDouble_significand (negative : Bool) (d : Decimal) :
    d.significand.toDouble negative = Double.ofDecimal negative d := by
  obtain ⟨z, hz, hpoint⟩ := d.exists_significand
  have hplace : d.significand.point - d.significand.digits.length = d.exponent + z := by omega
  rw [Significand.toDouble, hplace, ← Double.ofDecimal_shift, ← coefficient_eq_of_digits hz]

section

variable {s : Significand}

/-- Digits with a point and a power of ten are a number when these make up for the place of the
digits. -/
theorem Layout.Places.numberText {l : Layout} (hl : l.Places s) {width : Nat}
    (hne : l.fractionText ++ powerText width l.power ≠ []) (negative : Bool) :
    NumberText (minus negative ++ l.padded width) (.double (s.toDouble negative)) := by
  obtain ⟨j, hdigits, hplace⟩ := hl.digits
  have htext := NumberText.decimal negative hl.whole (fraction_fractionText hl.fraction)
    (exponent_powerText width l.power) hne
  rwa [hdigits, Double.ofDecimal_shift, hplace] at htext

/-- In a JSON text a point or an exponent tells a double from an integer. -/
theorem layout_json_ne_nil (hs : s.Proper) (width : Nat) :
    (NumberStyle.json.layout s).fractionText ++
      Layout.powerText width (NumberStyle.json.layout s).power ≠ [] := by
  intro hnil
  obtain ⟨hfraction, hpower⟩ := List.append_eq_nil_iff.1 hnil
  rw [Layout.fractionText_eq_nil_iff] at hfraction
  rw [Layout.powerText_eq_nil_iff] at hpower
  exact NumberStyle.layout_fraction_ne_nil rfl hs hpower hfraction

theorem numberText_writeSignificand (hs : s.Proper) (negative : Bool) :
    NumberText (minus negative ++ NumberStyle.json.writeSignificand s)
      (.double (s.toDouble negative)) := by
  rw [← NumberStyle.padded_layout _ hs]
  exact (NumberStyle.layout_places _ hs).numberText (layout_json_ne_nil hs _) negative

end

/-! ## Numbers -/

theorem Magnitude.eq_zero {m : Magnitude} (h : m.units = 0) : m = .zero := by
  obtain ⟨units, hr⟩ := m
  dsimp only at h
  subst h
  rfl

theorem Magnitude.shortest_ne_zero {m : Magnitude} (h : m.units ≠ 0) :
    m.shortest.coefficient ≠ 0 := by
  intro hzero
  have hread := Magnitude.ofDecimal_shortest h
  have heq : m.shortest = ⟨0, m.shortest.exponent⟩ := by rw [← hzero]
  rw [heq, Double.ofDecimal_zero] at hread
  obtain ⟨-, hm⟩ := Double.finite.inj hread
  rw [← hm] at h
  exact h rfl

theorem zero_text_ne_nil : Text.replicate 1 '0' ≠ [] := List.cons_ne_nil _ _

theorem numberText_write {x : Double} (hx : x.isFinite = true) :
    NumberText (NumberStyle.json.write x) (.double x) := by
  cases x with
  | infinite | nan => cases hx
  | finite negative m =>
    by_cases hm : m.units = 0
    · obtain rfl := Magnitude.eq_zero hm
      have hfraction := Fraction.point zero_text_ne_nil (allDigits_zeros 1)
      have htext := NumberText.decimal negative .zero hfraction .absent (List.cons_ne_nil _ _)
      have hvalue : digitsValue ([CodePoint.ofChar '0'] ++ Text.replicate 1 '0') = 0 :=
        digitsValue_zeros 2
      rw [hvalue, Double.ofDecimal_zero] at htext
      cases negative <;> exact htext
    · have hproper := Decimal.significand_proper (Magnitude.shortest_ne_zero hm)
      have hread : m.shortest.significand.toDouble negative = .finite negative m := by
        rw [Decimal.toDouble_significand, Double.ofDecimal_eq_finite_iff]
        exact Magnitude.ofDecimal_shortest hm
      have htext := numberText_writeSignificand hproper negative
      rw [hread] at htext
      rw [NumberStyle.write, if_neg hm]
      cases negative <;> exact htext

/-- The number can be written and read again. -/
def Number.Readable : Number → Prop
  | .int i => (decimalDigits i.natAbs).length ≤ digitLimit
  | .double x => x.isFinite = true

/-- The JSON text of a number is a number of the grammar, and that one. -/
theorem numberText_writeNumber {n : Number} (hn : n.Readable) :
    NumberText (NumberStyle.json.writeNumber n) n := by
  cases n with
  | int i => exact numberText_integerText hn
  | double x => exact numberText_write hn

end RequestLine
