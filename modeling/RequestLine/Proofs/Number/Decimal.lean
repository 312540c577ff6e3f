import Mathlib.Tactic.Ring
import RequestLine.Number.Decimal

/-!
# Decimal digits

* `AllDigits`: the texts of digits alone; `allDigits_decimalDigits`: the digits of a number are one.
* `digitsValue_decimalDigits`: they write the number.
* `length_decimalDigits_le_iff`: there are as many as the number needs.
* `digitsValue_append`, `digitsValue_lt`: what digits in a row write.
-/

namespace RequestLine

theorem digitsValue_ofChars (cs : List Char) :
    digitsValue (Text.ofChars cs) = Nat.ofDigitChars 10 cs 0 := by
  rw [digitsValue, Text.ofChars, List.foldl_map]
  rfl

/-- The digits of a number write it. -/
@[simp]
theorem digitsValue_decimalDigits (n : Nat) : digitsValue (decimalDigits n) = n := by
  rw [decimalDigits, digitsValue_ofChars, Nat.ofDigitChars_ten_toDigits]

theorem isDigit_ofChar {c : Char} (h : c.isDigit = true) : (CodePoint.ofChar c).isDigit = true := by
  simp only [Char.isDigit, Bool.and_eq_true, decide_eq_true_eq, ge_iff_le,
    UInt32.le_iff_toNat_le] at h
  simp only [CodePoint.isDigit, CodePoint.val_ofChar, Bool.and_eq_true]
  exact ⟨decide_eq_true h.1, decide_eq_true h.2⟩

theorem isDigit_of_mem_decimalDigits {n : Nat} {c : CodePoint} (h : c ∈ decimalDigits n) :
    c.isDigit = true := by
  obtain ⟨d, hd, rfl⟩ := List.mem_map.1 h
  exact isDigit_ofChar (Nat.isDigit_of_mem_toDigits (by decide) (by decide) hd)

/-- A text of ASCII digits alone. -/
def AllDigits (t : Text) : Prop := ∀ c ∈ t, c.isDigit = true

theorem allDigits_decimalDigits (n : Nat) : AllDigits (decimalDigits n) :=
  fun _ hc => isDigit_of_mem_decimalDigits hc

theorem isDigit_iff {c : CodePoint} : c.isDigit = true ↔ 0x30 ≤ c.val ∧ c.val ≤ 0x39 := by
  simp [CodePoint.isDigit]

theorem ne_of_isDigit {c : CodePoint} {d : Char} (h : c.isDigit = true)
    (hd : d.toNat < 0x30 ∨ 0x39 < d.toNat) : c ≠ CodePoint.ofChar d := by
  rintro rfl
  rw [isDigit_iff, CodePoint.val_ofChar] at h
  omega

@[simp]
theorem decimalDigits_ne_nil (n : Nat) : decimalDigits n ≠ [] := by
  simp [decimalDigits, Text.ofChars]

theorem length_decimalDigits_le_iff {n k : Nat} (hk : 0 < k) :
    (decimalDigits n).length ≤ k ↔ n < 10 ^ k := by
  rw [decimalDigits, Text.ofChars, List.length_map, Nat.length_toDigits_le_iff (by decide) hk]

/-! ## Digits in a row -/

theorem foldl_digits (t : Text) (n : Nat) :
    t.foldl (fun n c => 10 * n + (c.val - 0x30)) n = n * 10 ^ t.length + digitsValue t := by
  induction t generalizing n with
  | nil => simp [digitsValue]
  | cons c t ih =>
    rw [digitsValue, List.foldl_cons, List.foldl_cons, ih, ih (10 * 0 + (c.val - 0x30)),
      List.length_cons, Nat.pow_succ]
    ring

theorem digitsValue_append (a b : Text) :
    digitsValue (a ++ b) = digitsValue a * 10 ^ b.length + digitsValue b := by
  rw [digitsValue, List.foldl_append, foldl_digits b]
  rfl

theorem digitsValue_cons (c : CodePoint) (t : Text) :
    digitsValue (c :: t) = (c.val - 0x30) * 10 ^ t.length + digitsValue t := by
  rw [digitsValue, List.foldl_cons, foldl_digits, Nat.mul_zero, Nat.zero_add]

theorem digitsValue_lt {t : Text} (ht : AllDigits t) : digitsValue t < 10 ^ t.length := by
  induction t with
  | nil => decide
  | cons c t ih =>
    have hc := isDigit_iff.1 (ht c List.mem_cons_self)
    have hlt := ih fun d hd => ht d (List.mem_cons_of_mem c hd)
    have hpos : 0 < 10 ^ t.length := Nat.pow_pos (by decide)
    rw [digitsValue_cons, List.length_cons, Nat.pow_succ]
    calc (c.val - 0x30) * 10 ^ t.length + digitsValue t
        < (c.val - 0x30) * 10 ^ t.length + 10 ^ t.length := by omega
      _ = (c.val - 0x30 + 1) * 10 ^ t.length := by ring
      _ ≤ 10 * 10 ^ t.length := Nat.mul_le_mul_right _ (by omega)
      _ = 10 ^ t.length * 10 := Nat.mul_comm _ _

theorem digitsValue_zeros (k : Nat) : digitsValue (Text.replicate k '0') = 0 := by
  induction k with
  | zero => rfl
  | succ k ih =>
    rw [Text.replicate, List.replicate_succ, digitsValue_cons, ← Text.replicate, ih]
    simp [CodePoint.val_ofChar]

theorem allDigits_zeros (k : Nat) : AllDigits (Text.replicate k '0') := by
  intro c hc
  rw [List.eq_of_mem_replicate hc]
  decide

theorem AllDigits.append {a b : Text} (ha : AllDigits a) (hb : AllDigits b) :
    AllDigits (a ++ b) := by
  intro c hc
  rcases List.mem_append.1 hc with hc | hc
  · exact ha c hc
  · exact hb c hc

end RequestLine
