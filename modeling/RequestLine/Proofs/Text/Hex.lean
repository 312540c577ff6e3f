import Mathlib.Algebra.Group.Nat.Defs
import RequestLine.Text.Hex

/-!
# Hexadecimal digits read back

* `Hex.Writes`: digits of a width write a number; `take?_eq_some_iff`: these are the digits taken.
* `writes_lower`: the lowest digits of a number write it.
-/

namespace RequestLine.Hex

/-- The number that `n` becomes with one more digit. -/
def push? (n : Nat) (c : CodePoint) : Option Nat := c.hexValue?.map (16 * n + ·)

/-- The text is `width` hexadecimal digits, and they write `n`. -/
structure Writes (width : Nat) (digits : Text) (n : Nat) : Prop where
  length : digits.length = width
  value : digits.foldlM push? 0 = some n

theorem push?_of_hexValue? {c : CodePoint} {v : Nat} (h : c.hexValue? = some v) (n : Nat) :
    push? n c = some (16 * n + v) := by
  rw [push?, h]
  rfl

/-! ## Taking digits -/

/-- After some digits wrote `m`, the rest are taken on top of it. -/
theorem go_eq_some_iff {k m n : Nat} {t r : Text} :
    take?.go k m t = some (n, r) ↔
      ∃ digits : Text, t = digits ++ r ∧ digits.length = k ∧
        digits.foldlM push? m = some n := by
  induction k generalizing m t with
  | zero =>
    rw [take?.go]
    constructor
    · intro h
      cases h
      exact ⟨[], rfl, rfl, rfl⟩
    · rintro ⟨digits, rfl, hlen, hvalue⟩
      obtain rfl := List.length_eq_zero_iff.1 hlen
      cases hvalue
      rfl
  | succ k ih =>
    cases t with
    | nil =>
      rw [take?.go]
      refine ⟨fun h => (by cases h), ?_⟩
      rintro ⟨digits, ht, hlen, -⟩
      have hnil : digits = [] := (List.append_eq_nil_iff.1 ht.symm).1
      subst hnil
      cases hlen
    | cons c t =>
      rw [take?.go]
      constructor
      · intro h
        cases hc : c.hexValue? with
        | none =>
          rw [hc] at h
          cases h
        | some v =>
          rw [hc] at h
          obtain ⟨digits, rfl, hlen, hvalue⟩ := ih.1 h
          refine ⟨c :: digits, rfl, congrArg (· + 1) hlen, ?_⟩
          rw [List.foldlM_cons, push?_of_hexValue? hc]
          exact hvalue
      · rintro ⟨digits, ht, hlen, hvalue⟩
        cases digits with
        | nil => cases hlen
        | cons d digits =>
          obtain ⟨rfl, rfl⟩ := List.cons.inj ht
          cases hc : c.hexValue? with
          | none =>
            rw [List.foldlM_cons, push?, hc] at hvalue
            cases hvalue
          | some v =>
            rw [List.foldlM_cons, push?_of_hexValue? hc] at hvalue
            exact ih.2 ⟨digits, rfl, Nat.succ.inj hlen, hvalue⟩

/-- The digits at the start of a text are taken, and nothing else is. -/
theorem take?_eq_some_iff {width n : Nat} {t r : Text} :
    take? width t = some (n, r) ↔ ∃ digits, t = digits ++ r ∧ Writes width digits n := by
  rw [take?, go_eq_some_iff]
  constructor
  · rintro ⟨digits, ht, hlen, hvalue⟩
    exact ⟨digits, ht, hlen, hvalue⟩
  · rintro ⟨digits, ht, hwrites⟩
    exact ⟨digits, ht, hwrites.length, hwrites.value⟩

theorem take?_append {width n : Nat} {digits : Text} (h : Writes width digits n) (r : Text) :
    take? width (digits ++ r) = some (n, r) :=
  take?_eq_some_iff.2 ⟨digits, rfl, h⟩

/-- Digits of one width in front of a text are only one way to write a number there. -/
theorem Writes.unique {width n m : Nat} {a b r s : Text} (ha : Writes width a n)
    (hb : Writes width b m) (h : a ++ r = b ++ s) : n = m ∧ r = s := by
  have hread : take? width (a ++ r) = some (m, s) := h ▸ take?_append hb s
  rw [take?_append ha] at hread
  cases hread
  exact ⟨rfl, rfl⟩

theorem hexValue?_lt {c : CodePoint} {v : Nat} (h : c.hexValue? = some v) : v < 16 := by
  unfold CodePoint.hexValue? at h
  repeat' split at h
  all_goals cases h
  all_goals omega

/-- So many digits write a number below that power of sixteen. -/
theorem Writes.lt {width n : Nat} {digits : Text} (h : Writes width digits n) : n < 16 ^ width := by
  obtain ⟨hlength, hvalue⟩ := h
  subst hlength
  suffices hall : ∀ (digits : Text) (m n : Nat), digits.foldlM push? m = some n →
      n < (m + 1) * 16 ^ digits.length by
    have hlt := hall digits 0 n hvalue
    rwa [Nat.zero_add, Nat.one_mul] at hlt
  clear hvalue
  intro digits
  induction digits with
  | nil =>
    intro m n h
    cases h
    simp
  | cons c digits ih =>
    intro m n h
    cases hc : c.hexValue? with
    | none =>
      rw [List.foldlM_cons, push?, hc] at h
      cases h
    | some v =>
      rw [List.foldlM_cons, push?_of_hexValue? hc] at h
      have hv := hexValue?_lt hc
      calc n < (16 * m + v + 1) * 16 ^ digits.length := ih _ _ h
        _ ≤ ((m + 1) * 16) * 16 ^ digits.length := Nat.mul_le_mul_right _ (by omega)
        _ = (m + 1) * 16 ^ (digits.length + 1) := by rw [Nat.pow_succ, Nat.mul_assoc, Nat.mul_comm 16]

theorem Writes.hexValue?_ne_none {width n : Nat} {digits : Text} (h : Writes width digits n) :
    ∀ c ∈ digits, c.hexValue? ≠ none := by
  suffices hall : ∀ m, digits.foldlM push? m = some n → ∀ c ∈ digits, c.hexValue? ≠ none from
    hall 0 h.value
  clear h
  induction digits with
  | nil => exact fun m _ c hc => by cases hc
  | cons d digits ih =>
    intro m hm c hc
    cases hd : d.hexValue? with
    | none =>
      rw [List.foldlM_cons, push?, hd] at hm
      cases hm
    | some v =>
      rw [List.foldlM_cons, push?_of_hexValue? hd] at hm
      rcases List.mem_cons.1 hc with rfl | hc
      · simp [hd]
      · exact ih _ hm c hc

/-! ## Written digits -/

theorem hexValue?_lower {n : Nat} (h : n < 16) : (digit 0x61 n).hexValue? = some n := by
  have hall : ∀ n < 16, (digit 0x61 n).hexValue? = some n := by decide
  exact hall n h

theorem length_lower (width n : Nat) : (lower width n).length = width := by
  unfold lower
  induction width generalizing n with
  | zero => rfl
  | succ width ih => simp [digits, ih]

/-- The lowest digits of a number write what is left of it. -/
theorem foldlM_lower (width n : Nat) : (lower width n).foldlM push? 0 = some (n % 16 ^ width) := by
  induction width generalizing n with
  | zero => simp [lower, digits, Nat.mod_one]
  | succ width ih =>
    have hdigit : n % 16 < 16 := Nat.mod_lt n (by decide)
    have hsplit : n % 16 ^ (width + 1) = 16 * (n / 16 % 16 ^ width) + n % 16 := by
      rw [Nat.pow_succ, Nat.mul_comm, Nat.mod_mul, Nat.add_comm]
    rw [lower, digits, List.foldlM_append, ← lower, ih, hsplit, Option.bind_eq_bind,
      Option.bind_some, List.foldlM_cons, push?_of_hexValue? (hexValue?_lower hdigit)]
    rfl

theorem writes_lower {width n : Nat} (h : n < 16 ^ width) : Writes width (lower width n) n where
  length := length_lower width n
  value := by rw [foldlM_lower, Nat.mod_eq_of_lt h]

end RequestLine.Hex
