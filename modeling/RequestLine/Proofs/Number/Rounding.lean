import Mathlib.Tactic.Ring
import RequestLine.Number.Shortest

/-!
# Doubles of equal decimals

A double depends on the number that a decimal stands for and not on how many zeros its coefficient
ends with.

* `ofDecimal_eq_ofUnits`: the range of exponents that is computed decides nothing.
* `ofDecimal_shift`: zeros at the end of a coefficient count as a power of ten.
* `ofDecimal_eq_finite_iff`: the sign is carried along.
-/

namespace RequestLine

/-! ## Rounding a quotient -/

theorem div_le_roundHalfEven (num den : Nat) : num / den ≤ roundHalfEven num den := by
  unfold roundHalfEven
  dsimp only
  split
  · exact le_refl _
  · split
    · exact Nat.le_succ _
    · split
      · exact le_refl _
      · exact Nat.le_succ _

theorem roundHalfEven_eq_zero {num den : Nat} (h : 2 * num < den) : roundHalfEven num den = 0 := by
  have hlt : num < den := by omega
  simp only [roundHalfEven, Nat.div_eq_of_lt hlt, Nat.mod_eq_of_lt hlt, if_pos h]

theorem roundHalfEven_mul_right (num den : Nat) {k : Nat} (hk : 0 < k) :
    roundHalfEven (num * k) (den * k) = roundHalfEven num den := by
  have hdiv : num * k / (den * k) = num / den := Nat.mul_div_mul_right num den hk
  have hmod : num * k % (den * k) = num % den * k := Nat.mul_mod_mul_right k num den
  have hdouble : 2 * (num % den * k) = 2 * (num % den) * k := (Nat.mul_assoc 2 _ k).symm
  simp only [roundHalfEven, hdiv, hmod, hdouble, Nat.mul_lt_mul_right hk]

/-- Equal quotients are rounded to the same number. -/
theorem roundHalfEven_congr {num den num₁ den₁ : Nat} (hden : 0 < den) (hden₁ : 0 < den₁)
    (h : num * den₁ = num₁ * den) : roundHalfEven num den = roundHalfEven num₁ den₁ := by
  rw [← roundHalfEven_mul_right num den hden₁, h, Nat.mul_comm den den₁,
    roundHalfEven_mul_right num₁ den₁ hden]

theorem div_congr {num den num₁ den₁ : Nat} (hden : 0 < den) (hden₁ : 0 < den₁)
    (h : num * den₁ = num₁ * den) : num / den = num₁ / den₁ := by
  rw [← Nat.mul_div_mul_right num den hden₁, h, Nat.mul_comm den den₁,
    Nat.mul_div_mul_right num₁ den₁ hden]

theorem nearestUnits_congr {num den num₁ den₁ : Nat} (hden : 0 < den) (hden₁ : 0 < den₁)
    (h : num * den₁ = num₁ * den) : nearestUnits num den = nearestUnits num₁ den₁ := by
  unfold nearestUnits
  rw [div_congr hden hden₁ h]
  have hscale : 0 < Nat.pow 2 ((num₁ / den₁).log2 - 52) := Nat.two_pow_pos _
  dsimp only
  rw [roundHalfEven_congr (Nat.mul_pos hden hscale) (Nat.mul_pos hden₁ hscale)]
  rw [← Nat.mul_assoc, h, Nat.mul_assoc]

/-- Rounding to units never goes below a power of two. -/
theorem le_nearestUnits {num k : Nat} (h : 2 ^ k ≤ num) : 2 ^ k ≤ nearestUnits num 1 := by
  have hnum : num ≠ 0 := Nat.ne_of_gt (Nat.lt_of_lt_of_le (Nat.two_pow_pos k) h)
  have hlog : k ≤ num.log2 := (Nat.le_log2 hnum).2 h
  have hsplit : 2 ^ (num.log2 - (num.log2 - 52)) * 2 ^ (num.log2 - 52) = 2 ^ num.log2 := by
    rw [← Nat.pow_add]
    congr 1
    omega
  have hquotient : 2 ^ (num.log2 - (num.log2 - 52)) ≤ num / 2 ^ (num.log2 - 52) := by
    rw [Nat.le_div_iff_mul_le (Nat.two_pow_pos _), hsplit]
    exact Nat.log2_self_le hnum
  simp only [nearestUnits, Nat.div_one, Nat.one_mul, Nat.pow_eq]
  calc 2 ^ k ≤ 2 ^ num.log2 := Nat.pow_le_pow_right (by decide) hlog
    _ = 2 ^ (num.log2 - (num.log2 - 52)) * 2 ^ (num.log2 - 52) := hsplit.symm
    _ ≤ _ := Nat.mul_le_mul_right _ (hquotient.trans (div_le_roundHalfEven _ _))

theorem nearestUnits_eq_zero {num den : Nat} (h : 2 * num < den) : nearestUnits num den = 0 := by
  have hdiv : num / den = 0 := Nat.div_eq_of_lt (by omega)
  have hscale : Nat.pow 2 ((0 : Nat).log2 - 52) = 1 := by decide
  simp only [nearestUnits, hdiv, hscale, Nat.mul_one, roundHalfEven_eq_zero h]

/-! ## Doubles of decimals -/

namespace Double

theorem ofUnits_congr (negative : Bool) {num den num₁ den₁ : Nat} (hden : 0 < den)
    (hden₁ : 0 < den₁) (h : num * den₁ = num₁ * den) :
    ofUnits negative num den = ofUnits negative num₁ den₁ := by
  rw [ofUnits, ofUnits, nearestUnits_congr hden hden₁ h]

theorem ofUnits_of_large (negative : Bool) {num : Nat} (h : 2 ^ rangeExponent ≤ num) :
    ofUnits negative num 1 = .infinite negative := by
  have hno : ¬ Representable (nearestUnits num 1) := fun hr =>
    Nat.not_lt.2 (le_nearestUnits h) hr.below
  rw [ofUnits, Magnitude.ofUnits?, dif_neg hno]

theorem ofUnits_of_small (negative : Bool) {num den : Nat} (h : 2 * num < den) :
    ofUnits negative num den = zero negative := by
  rw [ofUnits, nearestUnits_eq_zero h, Magnitude.ofUnits?, dif_pos Magnitude.representable_zero]
  rfl

theorem two_pow_le_ten_pow (k : Nat) : 2 ^ (3 * k) ≤ 10 ^ k := by
  rw [Nat.pow_mul]
  exact Nat.pow_le_pow_left (by decide) k

/-- A power of ten past the four hundredth is out of range. -/
theorem le_of_large {c e : Nat} (hc : c ≠ 0) (he : 400 < e) :
    2 ^ rangeExponent ≤ c * 10 ^ e * unitsOfOne := by
  have hrange : rangeExponent ≤ 3 * e + unitExponent := by
    rw [rangeExponent, unitExponent]
    omega
  calc 2 ^ rangeExponent ≤ 2 ^ (3 * e + unitExponent) := Nat.pow_le_pow_right (by decide) hrange
    _ = 2 ^ (3 * e) * unitsOfOne := Nat.pow_add 2 _ _
    _ ≤ 10 ^ e * unitsOfOne := Nat.mul_le_mul_right _ (two_pow_le_ten_pow e)
    _ ≤ c * 10 ^ e * unitsOfOne :=
        Nat.mul_le_mul_right _ (Nat.le_mul_of_pos_left _ (Nat.pos_of_ne_zero hc))

/-- A decimal whose first digit stands behind the four hundredth place is nearest to zero. -/
theorem lt_of_small {c e : Nat} (he : 400 + (c.log2 + 1) < e) : 2 * (c * unitsOfOne) < 10 ^ e := by
  have hunit : 1 + unitExponent + (c.log2 + 1) ≤ 3 * e := by
    rw [unitExponent]
    omega
  calc 2 * (c * unitsOfOne) = 2 ^ (1 + unitExponent) * c := by
        rw [Nat.pow_add 2 1, Nat.mul_comm c, ← Nat.mul_assoc]
        rfl
    _ < 2 ^ (1 + unitExponent) * 2 ^ (c.log2 + 1) :=
        Nat.mul_lt_mul_of_pos_left Nat.lt_log2_self (Nat.two_pow_pos _)
    _ ≤ 2 ^ (3 * e) := by
        rw [← Nat.pow_add]
        exact Nat.pow_le_pow_right (by decide) hunit
    _ ≤ 10 ^ e := two_pow_le_ten_pow e

/-- The double of a decimal other than zero is the one nearest to its quotient, whatever its
exponent. -/
theorem ofDecimal_eq_ofUnits (negative : Bool) {d : Decimal} (hd : d.coefficient ≠ 0) :
    ofDecimal negative d =
      ofUnits negative (d.coefficient * 10 ^ d.exponent.toNat * unitsOfOne)
        (10 ^ (-d.exponent).toNat) := by
  obtain ⟨c, e⟩ := d
  dsimp only at hd ⊢
  unfold ofDecimal
  rw [if_neg hd]
  cases e with
  | ofNat e =>
    dsimp only
    have hneg : (-(Int.ofNat e)).toNat = 0 := by
      simp
    have hpos : (Int.ofNat e).toNat = e := rfl
    rw [hneg, hpos, Nat.pow_zero]
    split
    · rename_i he
      have he₁ : 400 < e := by
        have : (400 : Int) < (e : Int) := he
        omega
      rw [ofUnits_of_large negative (le_of_large hd he₁)]
    · rw [if_neg]
      · rfl
      · have : (0 : Int) ≤ Int.ofNat e := Int.natCast_nonneg e
        omega
  | negSucc e =>
    dsimp only
    have hneg : (-(Int.negSucc e)).toNat = e + 1 := rfl
    have hpos : (Int.negSucc e).toNat = 0 := rfl
    rw [hneg, hpos, Nat.pow_zero, Nat.mul_one, if_neg (by omega)]
    split
    · rename_i he
      rw [ofUnits_of_small negative (lt_of_small (by omega))]
    · rfl

/-- Zeros at the end of a coefficient count as a power of ten. -/
theorem ofDecimal_shift (negative : Bool) (c k : Nat) (e : Int) :
    ofDecimal negative ⟨c * 10 ^ k, e⟩ = ofDecimal negative ⟨c, e + k⟩ := by
  by_cases hc : c = 0
  · simp [ofDecimal, hc]
  have hck : c * 10 ^ k ≠ 0 := Nat.mul_ne_zero hc (Nat.pow_pos (by decide)).ne'
  rw [ofDecimal_eq_ofUnits negative (d := ⟨c * 10 ^ k, e⟩) hck,
    ofDecimal_eq_ofUnits negative (d := ⟨c, e + k⟩) hc]
  refine ofUnits_congr negative (Nat.pow_pos (by decide)) (Nat.pow_pos (by decide)) ?_
  dsimp only
  have hexponent : k + e.toNat + (-(e + k)).toNat = (e + k).toNat + (-e).toNat := by omega
  have hpowers : 10 ^ k * 10 ^ e.toNat * 10 ^ (-(e + k)).toNat
      = 10 ^ (e + k).toNat * 10 ^ (-e).toNat := by
    rw [← Nat.pow_add, ← Nat.pow_add, ← Nat.pow_add, hexponent]
  calc c * 10 ^ k * 10 ^ e.toNat * unitsOfOne * 10 ^ (-(e + k)).toNat
      = c * unitsOfOne * (10 ^ k * 10 ^ e.toNat * 10 ^ (-(e + k)).toNat) := by ring
    _ = c * 10 ^ (e + k).toNat * unitsOfOne * 10 ^ (-e).toNat := by rw [hpowers]; ring

theorem ofUnits_eq_finite_iff {negative : Bool} {num den : Nat} {m : Magnitude} :
    ofUnits negative num den = .finite negative m ↔
      Magnitude.ofUnits? (nearestUnits num den) = some m := by
  unfold ofUnits
  cases Magnitude.ofUnits? (nearestUnits num den) <;> simp

/-- The sign of a decimal is the sign of its double. -/
theorem ofDecimal_eq_finite_iff {negative : Bool} {d : Decimal} {m : Magnitude} :
    ofDecimal negative d = .finite negative m ↔ ofDecimal false d = .finite false m := by
  by_cases hd : d.coefficient = 0
  · simp [ofDecimal, hd, zero]
  · rw [ofDecimal_eq_ofUnits negative hd, ofDecimal_eq_ofUnits false hd, ofUnits_eq_finite_iff,
      ofUnits_eq_finite_iff]

theorem ofDecimal_zero (negative : Bool) (e : Int) : ofDecimal negative ⟨0, e⟩ = zero negative :=
  if_pos rfl

/-- A decimal is a number. -/
theorem ofDecimal_ne_nan (negative : Bool) (d : Decimal) : ofDecimal negative d ≠ .nan := by
  by_cases hd : d.coefficient = 0
  · simp [ofDecimal, hd, zero]
  · rw [ofDecimal_eq_ofUnits negative hd, ofUnits]
    split <;> simp

end Double

end RequestLine
