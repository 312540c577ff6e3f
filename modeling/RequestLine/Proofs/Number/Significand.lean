import Mathlib.Data.List.TakeWhile
import RequestLine.Proofs.Json.Grammar
import RequestLine.Proofs.Number.Nearest

/-!
# Significant digits

The digits of a decimal without the zeros at their end, and the place of the point relative to them.

* `whole_decimalDigits`: the digits of a number do not start with a zero.
* `Significand.Proper`: digits of which the first is no zero; `Proper.ten_pow_le_iff`: the place of
  the point tells which powers of ten the number reaches.
* `Decimal.value_significand`, `Decimal.significand_congr`: decimals of one number have one
  significand, which stands for it.
* `Decimal.digitCount_le_iff`: a number has as many significant digits as its shortest coefficient.
-/

namespace RequestLine

open Json.Grammar

/-! ## Digits -/

/-- The digits of a number do not start with a zero unless it is zero. -/
theorem decimalDigits_ne_zero_cons {n : Nat} (hn : n ≠ 0) (r : Text) :
    decimalDigits n ≠ CodePoint.ofChar '0' :: r := by
  intro hdigits
  have hr : AllDigits r := by
    intro c hc
    refine allDigits_decimalDigits n c ?_
    rw [hdigits]
    exact List.mem_cons_of_mem _ hc
  have hvalue : n = digitsValue r := by
    have hzero : (CodePoint.ofChar '0').val - 0x30 = 0 := by decide
    rw [← digitsValue_decimalDigits n, hdigits, digitsValue_cons, hzero, Nat.zero_mul, Nat.zero_add]
  -- the other digits would be as many as the number needs
  by_cases hnil : r = []
  · subst hnil
    exact hn hvalue
  · have hlt : n < 10 ^ r.length := hvalue ▸ digitsValue_lt hr
    have hlen := (length_decimalDigits_le_iff (List.length_pos_iff.2 hnil)).2 hlt
    rw [hdigits, List.length_cons] at hlen
    omega

theorem whole_of_head {t : Text} (hall : AllDigits t) (hne : t ≠ [])
    (hhead : ∀ r, t ≠ CodePoint.ofChar '0' :: r) : Whole t := by
  cases t with
  | nil => exact absurd rfl hne
  | cons c r =>
    refine .digits (hall c List.mem_cons_self) (fun hc => hhead r (by rw [hc])) fun d hd => ?_
    exact hall d (List.mem_cons_of_mem c hd)

theorem whole_decimalDigits (n : Nat) : Whole (decimalDigits n) := by
  by_cases hn : n = 0
  · subst hn
    exact .zero
  · exact whole_of_head (allDigits_decimalDigits n) (decimalDigits_ne_nil n)
      (decimalDigits_ne_zero_cons hn)

theorem digitsValue_shifted (k : Nat) (t : Text) :
    digitsValue (CodePoint.ofChar '0' :: (Text.replicate k '0' ++ t)) = digitsValue t := by
  have hzero : (CodePoint.ofChar '0').val - 0x30 = 0 := by decide
  rw [digitsValue_cons, hzero, digitsValue_append, digitsValue_zeros]
  omega

theorem digitsValue_padded (k : Nat) (t : Text) :
    digitsValue (t ++ Text.replicate k '0') = digitsValue t * 10 ^ k := by
  rw [digitsValue_append, digitsValue_zeros, Text.replicate, List.length_replicate, Nat.add_zero]

theorem decimalDigits_mul_ten_pow {c : Nat} (hc : c ≠ 0) (k : Nat) :
    decimalDigits (c * 10 ^ k) = decimalDigits c ++ Text.replicate k '0' := by
  induction k with
  | zero => rw [Nat.pow_zero, Nat.mul_one, Text.replicate, List.replicate_zero, List.append_nil]
  | succ k ih =>
    have hpos : 0 < c * 10 ^ k := Nat.mul_pos (Nat.pos_of_ne_zero hc) (Nat.pow_pos (by decide))
    have hlast := Nat.toDigits_append_toDigits (b := 10) (d := 0) (by decide) hpos (by decide)
    have hnext : c * 10 ^ (k + 1) = 10 * (c * 10 ^ k) + 0 := by
      rw [Nat.pow_succ]
      ring
    rw [hnext, decimalDigits, ← hlast, Text.ofChars, List.map_append]
    change decimalDigits (c * 10 ^ k) ++ Text.replicate 1 '0' = _
    rw [ih, List.append_assoc, Text.replicate, Text.replicate, List.replicate_append_replicate]
    rfl

/-! ## Significands -/

/-- A text is what is left of it without the zeros at its end, with these. -/
theorem exists_zeros_at_end (t : Text) :
    ∃ z, t = (t.reverse.dropWhile (fun c : CodePoint => c = '0')).reverse ++
      Text.replicate z '0' := by
  generalize hzeros : t.reverse.takeWhile (fun c : CodePoint => decide (c = '0')) = zeros
  have hall : ∀ c ∈ zeros, c = CodePoint.ofChar '0' := by
    intro c hc
    rw [← hzeros] at hc
    have hzero := List.mem_takeWhile_imp hc
    exact of_decide_eq_true hzero
  have hreplicate : zeros.reverse = Text.replicate zeros.length '0' := by
    refine List.eq_replicate_iff.2 ⟨List.length_reverse, fun c hc => ?_⟩
    exact hall c (List.mem_reverse.1 hc)
  refine ⟨zeros.length, ?_⟩
  rw [← hreplicate, ← hzeros, ← List.reverse_append, List.takeWhile_append_dropWhile,
    List.reverse_reverse]

/-- The digits of a number without the zeros at their end. -/
structure Significand.Proper (s : Significand) : Prop where
  digits : AllDigits s.digits
  nonempty : s.digits ≠ []
  head : ∀ r, s.digits ≠ CodePoint.ofChar '0' :: r

/-- The number that a significand stands for. -/
def Significand.value (s : Significand) : ℚ :=
  digitsValue s.digits * 10 ^ (s.point - s.digits.length)

theorem ten_zpow_add (a b : Int) : (10 : ℚ) ^ (a + b) = 10 ^ a * 10 ^ b :=
  zpow_add₀ (by norm_num) a b

namespace Significand

variable {s : Significand}

theorem Proper.whole_take (hs : s.Proper) {k : Nat} (hk : 0 < k) : Whole (s.digits.take k) := by
  have hne := hs.nonempty
  have hhead := hs.head
  have hall := hs.digits
  cases hdigits : s.digits with
  | nil => exact absurd hdigits hne
  | cons c r =>
    obtain ⟨k, rfl⟩ : ∃ j, k = j + 1 := ⟨k - 1, by omega⟩
    rw [hdigits] at hall hhead
    rw [List.take_succ_cons]
    refine .digits (hall c List.mem_cons_self) (fun hc => hhead r (by rw [hc])) fun d hd => ?_
    exact hall d (List.mem_cons_of_mem c (List.mem_of_mem_take hd))

theorem Proper.whole_append (hs : s.Proper) {t : Text} (ht : AllDigits t) : Whole (s.digits ++ t) := by
  have hne := hs.nonempty
  have hhead := hs.head
  have hall := hs.digits.append ht
  refine whole_of_head hall (fun hnil => hne (List.append_eq_nil_iff.1 hnil).1) fun r hr => ?_
  cases hdigits : s.digits with
  | nil => exact absurd hdigits hne
  | cons c u =>
    rw [hdigits] at hr
    obtain ⟨rfl, -⟩ := List.cons.inj hr
    exact hhead u hdigits

theorem Proper.drop (hs : s.Proper) (k : Nat) : AllDigits (s.digits.drop k) :=
  fun c hc => hs.digits c (List.mem_of_mem_drop hc)

theorem Proper.le_digitsValue (hs : s.Proper) : 10 ^ (s.digits.length - 1) ≤ digitsValue s.digits := by
  have hall := hs.digits
  have hhead := hs.head
  have hne := hs.nonempty
  cases hdigits : s.digits with
  | nil => exact absurd hdigits hne
  | cons c r =>
    rw [hdigits] at hall hhead
    have hc := isDigit_iff.1 (hall c List.mem_cons_self)
    have hzero : c.val ≠ 0x30 := by
      intro hval
      apply hhead r
      rw [← CodePoint.ofNat_val c, hval]
      rfl
    rw [digitsValue_cons, List.length_cons, Nat.add_sub_cancel]
    calc 10 ^ r.length ≤ (c.val - 0x30) * 10 ^ r.length := Nat.le_mul_of_pos_left _ (by omega)
      _ ≤ _ := Nat.le_add_right _ _

/-- The number reaches a power of ten if the point stands behind the place of it. -/
theorem Proper.ten_pow_le_iff (hs : s.Proper) (k : Int) : 10 ^ k ≤ s.value ↔ k < s.point := by
  have hpos := List.length_pos_iff.2 hs.nonempty
  have hplace : (0 : ℚ) < 10 ^ (s.point - s.digits.length) := zpow_pos (by norm_num) _
  have hupper : s.value < 10 ^ s.point := by
    have hlt : (digitsValue s.digits : ℚ) < 10 ^ s.digits.length := by
      exact_mod_cast digitsValue_lt hs.digits
    calc s.value < 10 ^ s.digits.length * 10 ^ (s.point - s.digits.length) :=
          mul_lt_mul_of_pos_right hlt hplace
      _ = 10 ^ s.point := by
          rw [← zpow_natCast, ← ten_zpow_add]
          congr 1
          omega
  have hlower : (10 : ℚ) ^ (s.point - 1) ≤ s.value := by
    have hle : (10 : ℚ) ^ (s.digits.length - 1) ≤ digitsValue s.digits := by
      exact_mod_cast hs.le_digitsValue
    calc (10 : ℚ) ^ (s.point - 1)
        = 10 ^ (s.digits.length - 1) * 10 ^ (s.point - s.digits.length) := by
          rw [← zpow_natCast, ← ten_zpow_add]
          congr 1
          omega
      _ ≤ s.value := mul_le_mul_of_nonneg_right hle hplace.le
  constructor
  · intro hle
    exact (zpow_lt_zpow_iff_right₀ (by norm_num)).1 (hle.trans_lt hupper)
  · intro hlt
    exact (zpow_le_zpow_right₀ (by norm_num) (by omega)).trans hlower

end Significand

/-! ## Significands of decimals -/

namespace Decimal

variable {d e : Decimal}

theorem exists_significand (d : Decimal) : ∃ z : Nat,
    decimalDigits d.coefficient = d.significand.digits ++ Text.replicate z '0' ∧
      d.significand.point = d.significand.digits.length + z + d.exponent := by
  obtain ⟨z, hz⟩ := exists_zeros_at_end (decimalDigits d.coefficient)
  change decimalDigits d.coefficient = d.significand.digits ++ Text.replicate z '0' at hz
  refine ⟨z, hz, ?_⟩
  have hlen := congrArg List.length hz
  rw [List.length_append, Text.replicate, List.length_replicate] at hlen
  show ((decimalDigits d.coefficient).length : Int) + d.exponent = _
  rw [hlen]
  omega

theorem significand_proper (hd : d.coefficient ≠ 0) : d.significand.Proper := by
  obtain ⟨z, hz, -⟩ := d.exists_significand
  have hhead := decimalDigits_ne_zero_cons hd
  refine ⟨fun c hc => ?_, fun hnil => ?_, fun r hr => ?_⟩
  · refine allDigits_decimalDigits d.coefficient c ?_
    rw [hz]
    exact List.mem_append_left _ hc
  · cases z with
    | zero =>
      rw [hnil] at hz
      exact decimalDigits_ne_nil _ hz
    | succ z =>
      rw [hnil] at hz
      exact hhead _ hz
  · rw [hr] at hz
    exact hhead _ hz

theorem value_shift (c k : Nat) (a : Int) : value ⟨c * 10 ^ k, a⟩ = value ⟨c, a + k⟩ := by
  unfold value
  dsimp only
  rw [ten_zpow_add, zpow_natCast]
  push_cast
  ring

theorem value_ne_zero (h : d.coefficient ≠ 0) : d.value ≠ 0 := by
  have hcoefficient : (d.coefficient : ℚ) ≠ 0 := by exact_mod_cast h
  exact mul_ne_zero hcoefficient (zpow_ne_zero _ (by norm_num))

theorem coefficient_ne_zero_iff : d.coefficient ≠ 0 ↔ d.value ≠ 0 := by
  refine ⟨value_ne_zero, fun h hzero => h ?_⟩
  rw [value, hzero, Nat.cast_zero, zero_mul]

theorem significand_shift {c : Nat} (hc : c ≠ 0) (k : Nat) (a : Int) :
    significand ⟨c * 10 ^ k, a⟩ = significand ⟨c, a + k⟩ := by
  unfold significand
  dsimp only
  rw [decimalDigits_mul_ten_pow hc, List.reverse_append, List.dropWhile_append_of_pos]
  · rw [List.length_append, Text.replicate, List.length_replicate, Nat.cast_add, add_assoc,
      add_comm (k : Int) a]
  · intro x hx
    exact decide_eq_true (List.eq_of_mem_replicate (List.mem_reverse.1 hx))

/-- Decimals of one number differ in the zeros at the end of the coefficient. -/
theorem eq_shift_of_value_eq (h : d.value = e.value) (hle : d.exponent ≤ e.exponent) :
    ∃ k : Nat, d = ⟨e.coefficient * 10 ^ k, d.exponent⟩ ∧ e.exponent = d.exponent + k := by
  obtain ⟨k, hk⟩ := Int.le.dest hle
  refine ⟨k, ?_, hk.symm⟩
  have hpower : (10 : ℚ) ^ d.exponent ≠ 0 := zpow_ne_zero _ (by norm_num)
  have hcoefficient : (d.coefficient : ℚ) = e.coefficient * 10 ^ k := by
    apply mul_right_cancel₀ hpower
    unfold value at h
    rw [h, ← hk, ten_zpow_add, zpow_natCast]
    ring
  have hnat : d.coefficient = e.coefficient * 10 ^ k := by exact_mod_cast hcoefficient
  rw [← hnat]

/-- Decimals of one number have one significand. -/
theorem significand_congr (hd : d.coefficient ≠ 0) (h : d.value = e.value) :
    d.significand = e.significand := by
  have he : e.coefficient ≠ 0 := by
    rw [coefficient_ne_zero_iff, ← h]
    exact value_ne_zero hd
  rcases le_total d.exponent e.exponent with hle | hle
  · obtain ⟨k, hshift, hexponent⟩ := eq_shift_of_value_eq h hle
    rw [hshift, significand_shift he, ← hexponent]
  · obtain ⟨k, hshift, hexponent⟩ := eq_shift_of_value_eq h.symm hle
    rw [hshift, significand_shift hd, ← hexponent]

theorem coefficient_eq_of_digits {z : Nat}
    (hz : decimalDigits d.coefficient = d.significand.digits ++ Text.replicate z '0') :
    d.coefficient = digitsValue d.significand.digits * 10 ^ z := by
  rw [← digitsValue_decimalDigits d.coefficient, hz, digitsValue_padded]

theorem value_significand (d : Decimal) : d.significand.value = d.value := by
  obtain ⟨z, hz, hpoint⟩ := d.exists_significand
  have hplace : d.significand.point - d.significand.digits.length = d.exponent + z := by omega
  have hshift := value_shift (digitsValue d.significand.digits) z d.exponent
  rw [← coefficient_eq_of_digits hz, ← hplace] at hshift
  exact hshift.symm

/-- The digits of a significand do not end with a zero. -/
theorem getLast?_significand (d : Decimal) :
    d.significand.digits.getLast? ≠ some (CodePoint.ofChar '0') := by
  intro hlast
  have hhead := List.head?_dropWhile_not (fun c : CodePoint => decide (c = CodePoint.ofChar '0'))
    (decimalDigits d.coefficient).reverse
  unfold significand at hlast
  dsimp only at hlast
  rw [List.getLast?_reverse] at hlast
  rw [hlast] at hhead
  simp at hhead

/-! ## Counting digits -/

/-- The number of significant digits. -/
def digitCount (d : Decimal) : Nat := d.significand.digits.length

theorem digitCount_pos (hd : d.coefficient ≠ 0) : 0 < d.digitCount :=
  List.length_pos_iff.2 (significand_proper hd).nonempty

theorem digitCount_congr (hd : d.coefficient ≠ 0) (h : d.value = e.value) :
    d.digitCount = e.digitCount := by
  rw [digitCount, significand_congr hd h, digitCount]

theorem digitCount_le_length (d : Decimal) :
    d.digitCount ≤ (decimalDigits d.coefficient).length := by
  obtain ⟨z, hz, -⟩ := d.exists_significand
  rw [hz, List.length_append]
  exact Nat.le_add_right _ _

/-- A number has at most `j` significant digits if some coefficient of it has. -/
theorem digitCount_le_iff (hd : d.coefficient ≠ 0) {j : Nat} (hj : 0 < j) :
    d.digitCount ≤ j ↔ ∃ e : Decimal, e.value = d.value ∧ e.coefficient < 10 ^ j := by
  constructor
  · intro hle
    refine ⟨⟨digitsValue d.significand.digits, d.significand.point - d.digitCount⟩,
      d.value_significand, ?_⟩
    calc digitsValue d.significand.digits < 10 ^ d.digitCount :=
          digitsValue_lt (significand_proper hd).digits
      _ ≤ 10 ^ j := Nat.pow_le_pow_right (by decide) hle
  · rintro ⟨e, hvalue, hlt⟩
    rw [digitCount_congr hd hvalue.symm]
    exact e.digitCount_le_length.trans ((length_decimalDigits_le_iff hj).2 hlt)

end Decimal

end RequestLine
