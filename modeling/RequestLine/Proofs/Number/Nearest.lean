import Mathlib.Algebra.Order.Field.Power
import Mathlib.Algebra.Order.Field.Rat
import Mathlib.Data.Nat.Cast.Order.Field
import Mathlib.Tactic.FieldSimp
import Mathlib.Tactic.Linarith
import Mathlib.Tactic.LinearCombination
import Mathlib.Tactic.Positivity
import RequestLine.Proofs.Number.Rounding

/-!
# Nearest doubles

Rounding to nearest without a word about how it is computed: among all numbers with 53 significant
bits, whatever their size, the nearest one is taken, and of two equally near ones the one whose last
bit is zero. Only then the range is looked at.

* `NearestTo`: the units nearest to a rational number; `NearestTo.unique`, `NearestTo.le_of_le`:
  there is one choice, and it does not decrease.
* `nearestTo_nearestUnits`: the computed units are the nearest ones.
* `Double.Nearest`: the double nearest to a rational number; `Double.nearest_iff`: the double of a
  decimal is the one nearest to its value.
* `Double.isFinite_mul`: products in range are finite.
-/

namespace RequestLine

/-! ## Aligned units -/

/-- The distance from aligned units to the next greater ones. -/
def gap (u : Nat) : Nat := 2 ^ (u.log2 - 52)

/-- Units with 53 significant bits, in range or not. -/
def Aligned (u : Nat) : Prop := gap u ∣ u

/-- Units whose last significant bit is zero. -/
def EndsEven (u : Nat) : Prop := 2 * gap u ∣ u

theorem log2_mono {u v : Nat} (h : u ≤ v) : u.log2 ≤ v.log2 := by
  by_cases hu : u = 0
  · rw [hu]
    exact Nat.zero_le _
  · rw [Nat.le_log2 (by omega)]
    exact (Nat.log2_self_le hu).trans h

theorem gap_pos (u : Nat) : 0 < gap u := Nat.two_pow_pos _

theorem gap_two_pow (k : Nat) : gap (2 ^ k) = 2 ^ (k - 52) := by
  rw [gap, Nat.log2_two_pow]

theorem gap_dvd_gap {u v : Nat} (h : u ≤ v) : gap u ∣ gap v :=
  Nat.pow_dvd_pow 2 (Nat.sub_le_sub_right (log2_mono h) 52)

theorem lt_gap_mul (u : Nat) : u < 2 ^ 53 * gap u := by
  calc u < 2 ^ (u.log2 + 1) := Nat.lt_log2_self
    _ ≤ 2 ^ (53 + (u.log2 - 52)) := Nat.pow_le_pow_right (by decide) (by omega)
    _ = 2 ^ 53 * gap u := Nat.pow_add 2 _ _

theorem gap_mul_dvd {a : Nat} (ha : a < 2 ^ 53) (k : Nat) : gap (a * 2 ^ k) ∣ 2 ^ k := by
  apply Nat.pow_dvd_pow
  by_cases h0 : a = 0
  · simp [h0]
  · have hne : a * 2 ^ k ≠ 0 := Nat.mul_ne_zero h0 (Nat.two_pow_pos k).ne'
    have hlt : a * 2 ^ k < 2 ^ (53 + k) := by
      rw [Nat.pow_add]
      exact Nat.mul_lt_mul_of_pos_right ha (Nat.two_pow_pos k)
    have hlog := (Nat.log2_lt hne).2 hlt
    omega

/-- At most 53 bits with zeros behind them; the next power of two belongs to these. -/
theorem aligned_mul {a : Nat} (ha : a ≤ 2 ^ 53) (k : Nat) : Aligned (a * 2 ^ k) := by
  rcases ha.lt_or_eq with hlt | rfl
  · exact (gap_mul_dvd hlt k).trans (Nat.dvd_mul_left _ a)
  · rw [Aligned, ← Nat.pow_add, gap_two_pow]
    exact Nat.pow_dvd_pow 2 (Nat.sub_le _ _)

theorem endsEven_mul {a : Nat} (ha : a ≤ 2 ^ 53) (heven : 2 ∣ a) (k : Nat) :
    EndsEven (a * 2 ^ k) := by
  rcases ha.lt_or_eq with hlt | rfl
  · exact Nat.mul_dvd_mul heven (gap_mul_dvd hlt k)
  · rw [EndsEven, ← Nat.pow_add, gap_two_pow, Nat.mul_comm, ← Nat.pow_succ]
    exact Nat.pow_dvd_pow 2 (by omega)

namespace Aligned

variable {u v : Nat}

theorem exists_mul (h : Aligned u) : ∃ a, a < 2 ^ 53 ∧ u = a * gap u := by
  obtain ⟨a, ha⟩ := h
  refine ⟨a, ?_, by rw [Nat.mul_comm, ← ha]⟩
  have hlt := lt_gap_mul u
  conv at hlt => lhs; rw [ha, Nat.mul_comm]
  exact Nat.lt_of_mul_lt_mul_right hlt

theorem next (h : Aligned u) : Aligned (u + gap u) := by
  obtain ⟨a, ha, hu⟩ := h.exists_mul
  have hnext : u + gap u = (a + 1) * gap u := by
    rw [Nat.add_mul, ← hu, Nat.one_mul]
  rw [hnext]
  exact aligned_mul ha _

theorem add_gap_le (hu : Aligned u) (hv : Aligned v) (h : u < v) : u + gap u ≤ v := by
  have hdvd : gap u ∣ v - u := Nat.dvd_sub ((gap_dvd_gap h.le).trans hv) hu
  have := Nat.le_of_dvd (by omega) hdvd
  omega

/-- Aligned units are multiples of the step at `n`, or lie below a power of two that is one and not
above `n`. -/
theorem dvd_or_below (hv : Aligned v) (n : Nat) :
    gap n ∣ v ∨ v < 2 ^ 52 * gap n ∧ 2 ^ 52 * gap n ≤ n := by
  have hgap : 2 ^ 52 * gap n = 2 ^ (52 + (n.log2 - 52)) := (Nat.pow_add 2 _ _).symm
  rw [hgap]
  by_cases hlow : n.log2 ≤ 52
  · left
    rw [gap, Nat.sub_eq_zero_of_le hlow, Nat.pow_zero]
    exact Nat.one_dvd v
  by_cases hv' : 2 ^ (52 + (n.log2 - 52)) ≤ v
  · left
    have hdvd := gap_dvd_gap hv'
    rw [gap_two_pow, Nat.add_sub_cancel_left] at hdvd
    exact hdvd.trans hv
  · right
    have hne : n ≠ 0 := by
      rintro rfl
      exact hlow (by decide)
    refine ⟨by omega, ?_⟩
    rw [Nat.add_sub_cancel' (by omega)]
    exact Nat.log2_self_le hne

/-- Of two neighbours only one ends even. -/
theorem not_endsEven_next (heven : EndsEven u) : ¬ EndsEven (u + gap u) := by
  intro hnext
  have hdvd : 2 * gap u ∣ u + gap u :=
    (Nat.mul_dvd_mul_left 2 (gap_dvd_gap (Nat.le_add_right u _))).trans hnext
  have hgap : 2 * gap u ∣ 1 * gap u := by
    rw [Nat.one_mul]
    exact (Nat.dvd_add_right heven).1 hdvd
  exact absurd (Nat.dvd_of_mul_dvd_mul_right (gap_pos u) hgap) (by decide)

end Aligned

/-! ## Distances -/

section

variable {q a b : ℚ}

/-- Of two numbers the greater one is as near as the other from their middle on. -/
theorem abs_sub_le_iff_middle_le (h : b < a) : |q - a| ≤ |q - b| ↔ a + b ≤ 2 * q := by
  have hpos : 0 < a - b := sub_pos.2 h
  have hsplit : (q - b) ^ 2 - (q - a) ^ 2 = (a - b) * (2 * q - (a + b)) := by ring
  rw [← sq_le_sq, ← sub_nonneg, hsplit, mul_nonneg_iff_of_pos_left hpos, sub_nonneg]

theorem abs_sub_le_iff_le_middle (h : b < a) : |q - b| ≤ |q - a| ↔ 2 * q ≤ a + b := by
  have hneg := abs_sub_le_iff_middle_le (q := -q) (neg_lt_neg h)
  rw [neg_sub_neg, neg_sub_neg, abs_sub_comm b, abs_sub_comm a] at hneg
  rw [hneg]
  constructor <;> intro <;> linarith

theorem abs_sub_lt_of_lt (hab : a < b) (hb : b ≤ q) : |q - b| < |q - a| := by
  rw [abs_of_nonneg (sub_nonneg.2 hb), abs_of_nonneg (sub_nonneg.2 (hab.le.trans hb))]
  exact sub_lt_sub_left hab q

end

/-! ## Nearest units -/

/-- Of all aligned units `u` lie nearest to `q`, and end even if others lie as near. -/
structure NearestTo (q : ℚ) (u : Nat) : Prop where
  aligned : Aligned u
  least : ∀ v, Aligned v → |q - u| ≤ |q - v|
  even : ∀ v, Aligned v → v ≠ u → |q - v| = |q - u| → EndsEven u

namespace NearestTo

variable {q q₁ : ℚ} {u v : Nat}

/-- Nearest units do not decrease: they could only do so as neighbours that lie equally near, and
of these one ends odd. -/
theorem le_of_le (hu : NearestTo q u) (hv : NearestTo q₁ v) (h : q ≤ q₁) : u ≤ v := by
  by_contra hlt
  have hlt : v < u := by omega
  have hcast : (v : ℚ) < u := by exact_mod_cast hlt
  have hleft := (abs_sub_le_iff_middle_le hcast).1 (hu.least v hv.aligned)
  have hright := (abs_sub_le_iff_le_middle hcast).1 (hv.least u hu.aligned)
  have hmiddle : 2 * q = u + v := by linarith
  obtain rfl : q = q₁ := by linarith
  have htie : |q - v| = |q - u| :=
    le_antisymm ((abs_sub_le_iff_le_middle hcast).2 hright) (hu.least v hv.aligned)
  have hnext : v + gap v = u := by
    refine le_antisymm (hv.aligned.add_gap_le hu.aligned hlt) ?_
    have hgap : (v : ℚ) < (v + gap v : Nat) := by exact_mod_cast Nat.lt_add_of_pos_right (gap_pos v)
    have hnear := (abs_sub_le_iff_le_middle hgap).1 (hv.least _ hv.aligned.next)
    have hle : (u : ℚ) ≤ (v + gap v : Nat) := by linarith
    exact_mod_cast hle
  apply Aligned.not_endsEven_next (hv.even u hu.aligned hlt.ne' htie.symm)
  rw [hnext]
  exact hu.even v hv.aligned hlt.ne htie

theorem unique (hu : NearestTo q u) (hv : NearestTo q v) : u = v :=
  Nat.le_antisymm (hu.le_of_le hv le_rfl) (hv.le_of_le hu le_rfl)

end NearestTo

theorem nearestTo_self {u : Nat} (h : Aligned u) : NearestTo u u where
  aligned := h
  least v _ := by
    rw [sub_self, abs_zero]
    exact abs_nonneg _
  even v _ hne htie := by
    rw [sub_self, abs_zero, abs_eq_zero, sub_eq_zero] at htie
    exact absurd (Nat.cast_injective htie).symm hne

/-- Other aligned units are further away than the `2 ^ 53 + 1`st part. -/
theorem Aligned.lt_mul_abs_sub {u v : Nat} (hu : Aligned u) (hv : Aligned v) (h : v ≠ u) :
    (u : ℚ) < (2 ^ 53 + 1) * |(u : ℚ) - v| := by
  rcases Nat.lt_or_gt_of_ne h with hlt | hlt
  · have hstep := hv.add_gap_le hu hlt
    have hsize := lt_gap_mul v
    have hnat : u < (2 ^ 53 + 1) * (u - v) := by omega
    have hdistance : |(u : ℚ) - v| = (u - v : Nat) := by
      rw [Nat.cast_sub hlt.le, abs_of_pos (sub_pos.2 (by exact_mod_cast hlt))]
    rw [hdistance]
    exact_mod_cast hnat
  · have hstep := hu.add_gap_le hv hlt
    have hsize := lt_gap_mul u
    have hnat : u < (2 ^ 53 + 1) * (v - u) := by omega
    have hdistance : |(u : ℚ) - v| = (v - u : Nat) := by
      rw [Nat.cast_sub hlt.le, abs_sub_comm, abs_of_pos (sub_pos.2 (by exact_mod_cast hlt))]
    rw [hdistance]
    exact_mod_cast hnat

/-- What is as near as half of that is nearest. -/
theorem nearestTo_of_close {q : ℚ} {u : Nat} (hu : Aligned u)
    (h : 2 * (2 ^ 53 + 1) * |q - u| ≤ u) : NearestTo q u := by
  have hfar : ∀ v, Aligned v → v ≠ u → |q - u| < |q - v| := by
    intro v hv hne
    have hlt := hu.lt_mul_abs_sub hv hne
    have htriangle := abs_sub_le (u : ℚ) q v
    rw [abs_sub_comm (u : ℚ) q] at htriangle
    linarith
  refine ⟨hu, fun v hv => ?_, fun v hv hne htie => absurd htie (hfar v hv hne).ne'⟩
  by_cases hne : v = u
  · rw [hne]
  · exact (hfar v hv hne).le

/-! ## Computed units -/

section

variable (num : Nat) {den : Nat}

theorem roundHalfEven_le_succ : roundHalfEven num den ≤ num / den + 1 := by
  unfold roundHalfEven
  dsimp only
  split_ifs <;> omega

/-- Rounding goes at most half a step up or down, and half a step only to an even number: the same
in whole numbers, multiplied by the divisor. -/
theorem roundHalfEven_bounds (hden : 0 < den) :
    2 * num ≤ 2 * (roundHalfEven num den * den) + den ∧
      2 * (roundHalfEven num den * den) ≤ 2 * num + den ∧
      (2 * num = 2 * (roundHalfEven num den * den) + den ∨
          2 * (roundHalfEven num den * den) = 2 * num + den → 2 ∣ roundHalfEven num den) := by
  have hnum : num / den * den + num % den = num := Nat.div_add_mod' num den
  have hrest := Nat.mod_lt num hden
  have hsucc : (num / den + 1) * den = num / den * den + den := Nat.succ_mul _ _
  unfold roundHalfEven
  dsimp only
  split_ifs with hbelow habove heven
  · omega
  · rw [hsucc]
    omega
  · omega
  · rw [hsucc]
    omega

/-- Rounding goes at most half a step up or down, and half a step only to an even number. -/
theorem roundHalfEven_spec (hden : 0 < den) :
    2 * (num / den : ℚ) ≤ 2 * roundHalfEven num den + 1 ∧
      2 * (roundHalfEven num den : ℚ) ≤ 2 * (num / den) + 1 ∧
      (2 * (num / den : ℚ) = 2 * roundHalfEven num den + 1 ∨
          2 * (roundHalfEven num den : ℚ) = 2 * (num / den) + 1 → 2 ∣ roundHalfEven num den) := by
  obtain ⟨hup, hdown, heven⟩ := roundHalfEven_bounds num hden
  have hpos : (0 : ℚ) < den := by exact_mod_cast hden
  have hup : (2 * num : ℚ) ≤ 2 * (roundHalfEven num den * den) + den := by exact_mod_cast hup
  have hdown : (2 * (roundHalfEven num den * den) : ℚ) ≤ 2 * num + den := by exact_mod_cast hdown
  have hquotient : (num : ℚ) = num / den * den := by field_simp
  refine ⟨?_, ?_, fun htie => heven ?_⟩
  · apply le_of_mul_le_mul_right _ hpos
    linarith
  · apply le_of_mul_le_mul_right _ hpos
    linarith
  · rcases htie with htie | htie
    · left
      have hwhole : (2 * num : ℚ) = 2 * (roundHalfEven num den * den) + den := by
        linear_combination 2 * hquotient + den * htie
      exact_mod_cast hwhole
    · right
      have hwhole : (2 * (roundHalfEven num den * den) : ℚ) = 2 * num + den := by
        linear_combination den * htie - 2 * hquotient
      exact_mod_cast hwhole

/-- No natural number is nearer, and others are as near only if the rounded one is even. -/
theorem roundHalfEven_nearest (hden : 0 < den) (j : Nat) :
    |(num / den : ℚ) - roundHalfEven num den| ≤ |(num / den : ℚ) - j| ∧
      (j ≠ roundHalfEven num den →
        |(num / den : ℚ) - j| = |(num / den : ℚ) - roundHalfEven num den| →
          2 ∣ roundHalfEven num den) := by
  obtain ⟨hup, hdown, heven⟩ := roundHalfEven_spec num hden
  rcases lt_trichotomy j (roundHalfEven num den) with hj | rfl | hj
  · have hlt : (j : ℚ) < roundHalfEven num den := by exact_mod_cast hj
    have hsucc : (j : ℚ) + 1 ≤ roundHalfEven num den := by exact_mod_cast hj
    refine ⟨(abs_sub_le_iff_middle_le hlt).2 (by linarith), fun _ htie => heven (.inr ?_)⟩
    have hmiddle := (abs_sub_le_iff_le_middle hlt).1 htie.le
    linarith
  · exact ⟨le_rfl, fun h => absurd rfl h⟩
  · have hlt : (roundHalfEven num den : ℚ) < j := by exact_mod_cast hj
    have hsucc : (roundHalfEven num den : ℚ) + 1 ≤ j := by exact_mod_cast hj
    refine ⟨(abs_sub_le_iff_le_middle hlt).2 (by linarith), fun _ htie => heven (.inl ?_)⟩
    have hmiddle := (abs_sub_le_iff_middle_le hlt).1 htie.le
    linarith

/-- Multiples of a step are as far from a quotient as their factors are after a division by it. -/
theorem abs_sub_mul_step (den j : Nat) {step : Nat} (hstep : 0 < step) :
    |(num / den : ℚ) - (j * step : Nat)| = step * |num / (den * step : Nat) - (j : ℚ)| := by
  have hpos : (0 : ℚ) < step := by exact_mod_cast hstep
  have hscaled : (num / den : ℚ) - (j * step : Nat) =
      step * (num / (den * step : Nat) - (j : ℚ)) := by
    push_cast
    field_simp
  rw [hscaled, abs_mul, abs_of_pos hpos]

/-- No multiple of the step is nearer to a quotient than the one that it is rounded to. -/
theorem abs_sub_rounded_le (hden : 0 < den) {step : Nat} (hstep : 0 < step) (j : Nat) :
    |(num / den : ℚ) - (roundHalfEven num (den * step) * step : Nat)| ≤
      |(num / den : ℚ) - (j * step : Nat)| := by
  rw [abs_sub_mul_step num den _ hstep, abs_sub_mul_step num den _ hstep]
  have hnearest := (roundHalfEven_nearest num (Nat.mul_pos hden hstep) j).1
  exact mul_le_mul_of_nonneg_left hnearest (Nat.cast_nonneg step)

theorem nearestUnits_eq (den : Nat) : nearestUnits num den =
    roundHalfEven num (den * gap (num / den)) * gap (num / den) := rfl

/-- The units of a quotient are at most `2 ^ 53` of its gaps. -/
theorem roundHalfEven_gap_le (den : Nat) :
    roundHalfEven num (den * gap (num / den)) ≤ 2 ^ 53 := by
  have hfloor : num / (den * gap (num / den)) = num / den / gap (num / den) :=
    (Nat.div_div_eq_div_mul _ _ _).symm
  have hlt : num / den / gap (num / den) < 2 ^ 53 := by
    rw [Nat.div_lt_iff_lt_mul (gap_pos _)]
    exact lt_gap_mul (num / den)
  have hle : roundHalfEven num (den * gap (num / den)) ≤ num / (den * gap (num / den)) + 1 :=
    roundHalfEven_le_succ num
  omega

theorem nearestTo_nearestUnits (hden : 0 < den) :
    NearestTo (num / den) (nearestUnits num den) := by
  have hbits := roundHalfEven_gap_le num den
  have hpos := gap_pos (num / den)
  have hleast := abs_sub_rounded_le num hden hpos
  have hnearest := roundHalfEven_nearest num (Nat.mul_pos hden hpos)
  -- aligned units that are no multiples of the gap lie too low
  have hcases : ∀ v, Aligned v → (∃ j, v = j * gap (num / den)) ∨
      |(num / den : ℚ) - (roundHalfEven num (den * gap (num / den)) * gap (num / den) : Nat)| <
        |(num / den : ℚ) - v| := by
    intro v hv
    rcases hv.dvd_or_below (num / den) with ⟨j, hj⟩ | ⟨hlt, hle⟩
    · exact .inl ⟨j, by rw [hj, Nat.mul_comm]⟩
    · right
      apply (hleast (2 ^ 52)).trans_lt
      apply abs_sub_lt_of_lt (Nat.cast_lt.2 hlt)
      exact (Nat.cast_le.2 hle).trans Nat.cast_div_le
  rw [nearestUnits_eq]
  refine ⟨aligned_mul hbits _, fun v hv => ?_, fun v hv hne htie => ?_⟩
  · rcases hcases v hv with ⟨j, rfl⟩ | hlt
    · exact hleast j
    · exact hlt.le
  · rcases hcases v hv with ⟨j, rfl⟩ | hlt
    · rw [abs_sub_mul_step num den _ hpos, abs_sub_mul_step num den _ hpos] at htie
      have heven : 2 ∣ roundHalfEven num (den * gap (num / den)) := by
        apply (hnearest j).2
        · rintro rfl
          exact hne rfl
        · exact mul_left_cancel₀ (Nat.cast_ne_zero.2 hpos.ne') htie
      exact endsEven_mul hbits heven _
    · exact absurd htie hlt.ne'

end

/-- Rounding to units never goes above a power of two. -/
theorem nearestUnits_le_two_pow {num den k : Nat} (hden : 0 < den) (h : num ≤ 2 ^ k * den) :
    nearestUnits num den ≤ 2 ^ k := by
  have haligned : Aligned (2 ^ k) := by
    rw [← Nat.one_mul (2 ^ k)]
    exact aligned_mul (by decide) k
  have hquotient : (num / den : ℚ) ≤ (2 ^ k : Nat) := by
    rw [div_le_iff₀ (Nat.cast_pos.2 hden)]
    exact_mod_cast h
  exact (nearestTo_nearestUnits num hden).le_of_le (nearestTo_self haligned) hquotient

/-! ## Values -/

/-- The number that a decimal stands for. -/
def Decimal.value (d : Decimal) : ℚ := d.coefficient * 10 ^ d.exponent

/-- The number that a magnitude stands for. -/
def Magnitude.value (m : Magnitude) : ℚ := m.units / unitsOfOne

theorem unitsOfOne_pos : 0 < unitsOfOne := Nat.two_pow_pos _

theorem Decimal.value_nonneg (d : Decimal) : 0 ≤ d.value := by
  unfold value
  positivity

/-- A decimal in units is a quotient of natural numbers. -/
theorem Decimal.value_mul_unitsOfOne (d : Decimal) :
    d.value * unitsOfOne = ((d.coefficient * 10 ^ d.exponent.toNat * unitsOfOne : Nat) : ℚ) /
      (10 ^ (-d.exponent).toNat : Nat) := by
  have hpower : (10 : ℚ) ^ d.exponent * 10 ^ (-d.exponent).toNat = 10 ^ d.exponent.toNat := by
    rw [← zpow_natCast, ← zpow_natCast, ← zpow_add₀ (by norm_num)]
    congr 1
    omega
  rw [eq_div_iff (by positivity)]
  unfold value
  push_cast
  linear_combination (d.coefficient * unitsOfOne : ℚ) * hpower

namespace Double

/-- The double nearest to the number `q` with the given sign: infinite if the nearest units are out
of range. -/
inductive Nearest (negative : Bool) (q : ℚ) : Double → Prop
  | finite {m : Magnitude} : NearestTo (q * unitsOfOne) m.units → Nearest negative q (.finite negative m)
  | infinite {u : Nat} : NearestTo (q * unitsOfOne) u → 2 ^ rangeExponent ≤ u →
      Nearest negative q (.infinite negative)

theorem Nearest.unique {negative : Bool} {q : ℚ} {x y : Double} (hx : Nearest negative q x)
    (hy : Nearest negative q y) : x = y := by
  cases hx with
  | @finite m hm =>
    cases hy with
    | @finite n hn =>
      have hunits := hm.unique hn
      obtain ⟨units, hr⟩ := m
      obtain ⟨units', hr'⟩ := n
      dsimp only at hunits
      subst hunits
      rfl
    | infinite hu hrange =>
      rw [← hm.unique hu] at hrange
      exact absurd m.representable.below (Nat.not_lt.2 hrange)
  | infinite hu hrange =>
    cases hy with
    | @finite n hn =>
      rw [hu.unique hn] at hrange
      exact absurd n.representable.below (Nat.not_lt.2 hrange)
    | infinite => rfl

theorem nearest_ofUnits (negative : Bool) (num : Nat) {den : Nat} (hden : 0 < den) {q : ℚ}
    (hq : q * unitsOfOne = num / den) : Nearest negative q (ofUnits negative num den) := by
  have hnearest := nearestTo_nearestUnits num hden
  rw [← hq] at hnearest
  unfold ofUnits Magnitude.ofUnits?
  split_ifs with hr
  · exact .finite hnearest
  · apply Nearest.infinite hnearest
    by_contra hlt
    exact hr ⟨Nat.not_le.1 hlt, hnearest.aligned⟩

theorem nearest_ofDecimal (negative : Bool) (d : Decimal) :
    Nearest negative d.value (ofDecimal negative d) := by
  by_cases hd : d.coefficient = 0
  · have hzero : ofDecimal negative d = ofUnits negative 0 1 := by
      rw [ofDecimal, if_pos hd, ofUnits_of_small negative (by decide)]
    rw [hzero]
    apply nearest_ofUnits negative 0 Nat.one_pos
    simp [Decimal.value, hd]
  · rw [ofDecimal_eq_ofUnits negative hd]
    exact nearest_ofUnits negative _ (Nat.pow_pos (by decide)) d.value_mul_unitsOfOne

/-- **Nearest doubles.** The double of a decimal is the one nearest to its value. -/
theorem nearest_iff {negative : Bool} {d : Decimal} {x : Double} :
    Nearest negative d.value x ↔ x = ofDecimal negative d := by
  constructor
  · intro h
    exact h.unique (nearest_ofDecimal negative d)
  · rintro rfl
    exact nearest_ofDecimal negative d

theorem ofDecimal_eq_finite_iff_nearestTo {negative : Bool} {d : Decimal} {m : Magnitude} :
    ofDecimal negative d = .finite negative m ↔ NearestTo (d.value * unitsOfOne) m.units := by
  constructor
  · intro h
    have hnearest := nearest_ofDecimal negative d
    rw [h] at hnearest
    cases hnearest with
    | finite hm => exact hm
  · intro h
    exact (nearest_iff.1 (.finite h)).symm

/-- Rounding keeps the order of decimals. -/
theorem units_le_of_value_le {negative : Bool} {d e : Decimal} {m n : Magnitude}
    (hm : ofDecimal negative d = .finite negative m) (hn : ofDecimal negative e = .finite negative n)
    (h : d.value ≤ e.value) : m.units ≤ n.units := by
  rw [ofDecimal_eq_finite_iff_nearestTo] at hm hn
  exact hm.le_of_le hn (mul_le_mul_of_nonneg_right h (Nat.cast_nonneg _))

/-! ## Finite doubles -/

theorem isFinite_ofUnits (negative : Bool) {num den k : Nat} (hden : 0 < den)
    (h : num ≤ 2 ^ k * den) (hk : k < rangeExponent) :
    (ofUnits negative num den).isFinite = true := by
  have hbelow : nearestUnits num den < 2 ^ rangeExponent :=
    (nearestUnits_le_two_pow hden h).trans_lt (Nat.pow_lt_pow_right (by decide) hk)
  have hr : Representable (nearestUnits num den) :=
    ⟨hbelow, (nearestTo_nearestUnits num hden).aligned⟩
  rw [ofUnits, Magnitude.ofUnits?, dif_pos hr]
  rfl

/-- The product of two numbers below powers of two is finite, unless the product of the powers is out
of range. -/
theorem isFinite_mul {s t : Bool} {m n : Magnitude} {j k : Nat} (hm : m.units ≤ 2 ^ j * unitsOfOne)
    (hn : n.units ≤ 2 ^ k * unitsOfOne) (hrange : j + k + unitExponent < rangeExponent) :
    (mul (.finite s m) (.finite t n)).isFinite = true := by
  have hproduct : m.units * n.units ≤ 2 ^ (j + k + unitExponent) * unitsOfOne := by
    calc m.units * n.units ≤ 2 ^ j * unitsOfOne * (2 ^ k * unitsOfOne) := Nat.mul_le_mul hm hn
      _ = 2 ^ j * 2 ^ k * unitsOfOne * unitsOfOne := by ring
      _ = 2 ^ (j + k + unitExponent) * unitsOfOne := by
        rw [Nat.pow_add, Nat.pow_add]
        rfl
  exact isFinite_ofUnits _ unitsOfOne_pos hproduct hrange

end Double

end RequestLine
