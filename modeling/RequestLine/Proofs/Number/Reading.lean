import Mathlib.Data.List.TakeWhile
import RequestLine.Number.Reading
import RequestLine.Proofs.Number.Decimal

/-!
# Reading back indices

* `readInteger?_decimalDigits`: the digits of a number name it, if there are not too many of them.
-/

namespace RequestLine

theorem digitLimit_pos : 0 < digitLimit := by
  rw [digitLimit]
  decide

/-- No number within sight comes near the limit. -/
theorem le_ten_pow_digitLimit {n : Nat} (h : n ≤ digitLimit) : n ≤ 10 ^ digitLimit :=
  Nat.le_trans h (Nat.lt_pow_self (by decide)).le

theorem asciiNumeral_of_allDigits {t : Text} (h : AllDigits t) : asciiNumeral t = t := by
  rw [asciiNumeral]
  refine (List.map_congr_left fun c hc => ?_).trans (List.map_id t)
  have hd := isDigit_iff.1 (h c hc)
  rw [if_pos (by omega)]
  rfl

theorem not_isNumeralBlank_of_isDigit {c : CodePoint} (h : c.isDigit = true) :
    c.isNumeralBlank = false := by
  rw [isDigit_iff] at h
  simp [CodePoint.isNumeralBlank]
  omega

theorem dropWhile_isNumeralBlank {t : Text} (h : AllDigits t) :
    t.dropWhile CodePoint.isNumeralBlank = t := by
  cases t with
  | nil => rfl
  | cons c r => simp [not_isNumeralBlank_of_isDigit (h c List.mem_cons_self)]

theorem trimNumeral_of_allDigits {t : Text} (h : AllDigits t) : trimNumeral t = t := by
  have hr : AllDigits t.reverse := fun c hc => h c (List.mem_reverse.1 hc)
  rw [trimNumeral, dropWhile_isNumeralBlank h, dropWhile_isNumeralBlank hr, List.reverse_reverse]

theorem splitSign_of_allDigits {t : Text} (h : AllDigits t) : splitSign t = (false, t) := by
  cases t with
  | nil => rfl
  | cons c r =>
    have hc := h c List.mem_cons_self
    rw [splitSign, if_neg (ne_of_isDigit hc (by decide)), if_neg (ne_of_isDigit hc (by decide))]

theorem dropSeparators?_of_allDigits {t : Text} (h : AllDigits t) :
    dropSeparators? t = some t := by
  induction t with
  | nil => rfl
  | cons c r ih =>
    have hc : c ≠ CodePoint.ofChar '_' := ne_of_isDigit (h c List.mem_cons_self) (by decide)
    have hr : AllDigits r := fun d hd => h d (List.mem_cons_of_mem c hd)
    rw [dropSeparators?.eq_def]
    simp only
    rw [if_neg hc]
    cases r with
    | nil => rfl
    | cons d r =>
      have hd : d ≠ CodePoint.ofChar '_' := ne_of_isDigit (hr d List.mem_cons_self) (by decide)
      cases r with
      | nil => simp only [if_neg hd]
      | cons e r =>
        simp only [if_neg hd]
        rw [ih hr]
        rfl

/-- The digits of a number name it, as long as they are at most `digitLimit`. -/
theorem readInteger?_decimalDigits {n : Nat} (h : (decimalDigits n).length ≤ digitLimit) :
    readInteger? (decimalDigits n) = some (n : Int) := by
  have hd := allDigits_decimalDigits n
  have hall : (decimalDigits n).all CodePoint.isDigit = true := List.all_eq_true.2 hd
  rw [readInteger?, asciiNumeral_of_allDigits hd, trimNumeral_of_allDigits hd,
    splitSign_of_allDigits hd]
  simp only [dropSeparators?_of_allDigits hd, bind, Option.bind]
  rw [if_pos ⟨decimalDigits_ne_nil n, hall, h⟩, digitsValue_decimalDigits]
  rfl

end RequestLine
