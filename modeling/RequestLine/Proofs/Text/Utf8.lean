import Mathlib.Tactic.SplitIfs
import RequestLine.Text.Utf8

/-!
# UTF-8 reads back

The four forms of a code point hold its bits six at a time, and the least number of a form is past
the greatest of the one before it. So the form that was written is the only one that can be read.

* `encode?_eq_none_iff`: only surrogates cannot be written.
* `encodePoint_eq_utf8EncodeChar`: the bytes of a code point are those of its character.
* `decodePoint?_encodePoint`: a code point is read from its bytes, whatever follows them.
* `decode?_flatMap_encodePoint`: a text is read from its bytes.
-/

namespace RequestLine

theorem Text.hasSurrogate_iff {t : Text} :
    t.hasSurrogate = true ↔ ∃ c ∈ t, c.isSurrogate = true := List.any_eq_true

theorem Text.hasSurrogate_of_forall {t : Text} (h : ∀ c ∈ t, c.isSurrogate = false) :
    t.hasSurrogate = false :=
  List.any_eq_false.2 fun c hc => Bool.eq_false_iff.1 (h c hc)

theorem CodePoint.isSurrogate_iff {c : CodePoint} :
    c.isSurrogate = true ↔ 0xD800 ≤ c.val ∧ c.val ≤ 0xDFFF := by
  simp [isSurrogate]

theorem CodePoint.toNat_toChar {c : CodePoint} (hc : c.isSurrogate = false) :
    c.toChar.toNat = c.val := by
  have hvalid : Nat.isValidChar c.val := by
    have hlt := c.valid
    simp only [isSurrogate, Bool.and_eq_false_iff, decide_eq_false_iff_not] at hc
    simp only [Nat.isValidChar]
    omega
  rw [toChar, hc, if_neg Bool.false_ne_true, Char.ofNat, dif_pos hvalid]
  rfl

namespace Utf8

theorem encode?_eq_none_iff {t : Text} : encode? t = none ↔ t.hasSurrogate = true := by
  unfold encode?
  split_ifs with h <;> simp [h]

theorem encode?_eq_some_iff {t : Text} {bytes : List UInt8} :
    encode? t = some bytes ↔ t.hasSurrogate = false ∧ t.flatMap encodePoint = bytes := by
  unfold encode?
  split_ifs with h <;> simp [h]

theorem toNat_byte {n : Nat} (h : n < 256) : (UInt8.ofNat n).toNat = n := by
  simp only [UInt8.toNat_ofNat']
  omega

theorem tail?_byte {n : Nat} (h : n < 64) : tail? (UInt8.ofNat (0x80 + n)) = some n := by
  rw [tail?, toNat_byte (by omega), if_pos (by omega)]
  simp

theorem scalar?_eq_some {c : CodePoint} (hc : c.isSurrogate = false) {least n : Nat}
    (hn : n = c.val) (h : least ≤ n) : scalar? least n = some c := by
  subst hn
  have hs : ¬ (0xD800 ≤ c.val ∧ c.val ≤ 0xDFFF) := by
    simpa [CodePoint.isSurrogate] using hc
  rw [scalar?, dif_pos c.valid, if_pos ⟨h, hs⟩]

theorem encodePoint_ne_nil (c : CodePoint) : encodePoint c ≠ [] := by
  unfold encodePoint
  dsimp only
  split_ifs <;> simp

theorem encodePoint_eq_utf8EncodeChar {c : CodePoint} (hc : c.isSurrogate = false) :
    encodePoint c = String.utf8EncodeChar c.toChar := by
  have hvalid := c.valid
  have hvalue : c.toChar.val.toNat = c.val := CodePoint.toNat_toChar hc
  unfold encodePoint String.utf8EncodeChar
  simp only [hvalue, Nat.lt_succ_iff, Nat.add_comm 0x80]
  split_ifs with h₁ h₂ h₃
  · rfl
  · rw [show 0xC0 + c.val / 64 = c.val / 64 % 32 + 192 by omega]
  · rw [show 0xE0 + c.val / 4096 = c.val / 4096 % 16 + 224 by omega]
  · rw [show 0xF0 + c.val / 262144 = c.val / 262144 % 8 + 240 by omega]

/-- Past ASCII no byte is one of ASCII. -/
theorem le_of_mem_encodePoint {c : CodePoint} (hc : 0x80 ≤ c.val) {b : UInt8}
    (hb : b ∈ encodePoint c) : 0x80 ≤ b.toNat := by
  have hvalid := c.valid
  unfold encodePoint at hb
  dsimp only at hb
  rw [if_neg (Nat.not_lt.2 hc)] at hb
  split_ifs at hb <;> simp only [List.mem_cons, List.not_mem_nil, or_false] at hb
  · rcases hb with rfl | rfl <;> rw [toNat_byte (by omega)] <;> omega
  · rcases hb with rfl | rfl | rfl <;> rw [toNat_byte (by omega)] <;> omega
  · rcases hb with rfl | rfl | rfl | rfl <;> rw [toNat_byte (by omega)] <;> omega

/-- A code point is read from its bytes. -/
theorem decodePoint?_encodePoint {c : CodePoint} (hc : c.isSurrogate = false)
    (rest : List UInt8) : decodePoint? (encodePoint c ++ rest) = some (c, rest) := by
  have hvalid := c.valid
  unfold encodePoint
  dsimp only
  split_ifs with h₁ h₂ h₃
  · simp only [List.cons_append, List.nil_append, decodePoint?]
    rw [toNat_byte (by omega), if_pos h₁, scalar?_eq_some hc rfl (by omega)]
    rfl
  · simp only [List.cons_append, List.nil_append, decodePoint?]
    rw [toNat_byte (by omega), if_neg (by omega), if_pos (by omega), tail?_byte (by omega)]
    simp only
    rw [scalar?_eq_some hc (by omega) (by omega)]
    rfl
  · simp only [List.cons_append, List.nil_append, decodePoint?]
    rw [toNat_byte (by omega), if_neg (by omega), if_neg (by omega), if_pos (by omega),
      tail?_byte (by omega), tail?_byte (by omega)]
    simp only
    rw [scalar?_eq_some hc (by omega) (by omega)]
    rfl
  · simp only [List.cons_append, List.nil_append, decodePoint?]
    rw [toNat_byte (by omega), if_neg (by omega), if_neg (by omega), if_neg (by omega),
      if_pos (by omega), tail?_byte (by omega), tail?_byte (by omega), tail?_byte (by omega)]
    simp only
    rw [scalar?_eq_some hc (by omega) (by omega)]
    rfl

theorem decodeWithin_flatMap_encodePoint {t : Text} (ht : t.hasSurrogate = false) {fuel : Nat}
    (hfuel : (t.flatMap encodePoint).length ≤ fuel) :
    decodeWithin fuel (t.flatMap encodePoint) = some t := by
  induction t generalizing fuel with
  | nil => cases fuel <;> rfl
  | cons c t ih =>
    simp only [Text.hasSurrogate, List.any_cons, Bool.or_eq_false_iff] at ht
    obtain ⟨b, r, hb⟩ := List.exists_cons_of_ne_nil (encodePoint_ne_nil c)
    have hread := decodePoint?_encodePoint ht.1 (t.flatMap encodePoint)
    rw [List.flatMap_cons] at hfuel ⊢
    rw [hb, List.cons_append] at hread hfuel ⊢
    cases fuel with
    | zero => simp at hfuel
    | succ fuel =>
      rw [decodeWithin, hread]
      simp only
      rw [ih ht.2 (by simp only [List.length_cons, List.length_append] at hfuel; omega)]
      rfl

/-- A text without surrogates is read from its bytes. -/
theorem decode?_flatMap_encodePoint {t : Text} (ht : t.hasSurrogate = false) :
    decode? (t.flatMap encodePoint) = some t :=
  decodeWithin_flatMap_encodePoint ht (Nat.le_refl _)

end Utf8

end RequestLine
