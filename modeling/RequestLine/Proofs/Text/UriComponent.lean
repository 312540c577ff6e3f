import Mathlib.Data.List.Basic
import RequestLine.Proofs.Text.Percent

/-!
# URI components

The encoded form of a text is that of a URI component: each code point of the alphabet stands for
itself, and of any other each byte of its UTF-8 form is written as a percent sign and two
hexadecimal digits.

* `componentOf`: the form of one character, from its bytes in the standard library.
* `quote?`: the same form byte by byte; `encode?_eq_quote?`: it makes no difference.
* `PercentsEscape`: every percent sign starts an escape.
* `encode?_component`: an encoded text is a URI component, and the text is read from it.
-/

namespace RequestLine.Percent

/-! ## Byte by byte -/

/-- The bytes that are safe beside letters, digits and `_.-~`. -/
def extraMarks : Text := "!*'()"

/-- The text of a byte. Letters, digits, `_.-~` and what is safe stand for themselves. -/
def quoteByte (safe : Text) (b : UInt8) : Text :=
  let c := CodePoint.ofNat b.toNat
  if c.isLetter || c.isDigit || (Text.ofString "_.-~").contains c || safe.contains c then [c]
  else escape b

/-- The text of the bytes of a text, refused when the text holds a surrogate. -/
def quote? (safe t : Text) : Option Text :=
  (Utf8.encode? t).map fun bytes => bytes.flatMap (quoteByte safe)

theorem isUnreserved_eq (c : CodePoint) :
    isUnreserved c =
      (c.isLetter || c.isDigit || (Text.ofString "_.-~").contains c || extraMarks.contains c) := by
  have hperm : marks.Perm (Text.ofString "_.-~" ++ extraMarks) := by decide
  have hmarks : marks.contains c =
      ((Text.ofString "_.-~").contains c || extraMarks.contains c) := by
    rw [Bool.eq_iff_iff, Bool.or_eq_true]
    simp only [List.contains_iff_mem, hperm.mem_iff, List.mem_append]
  rw [isUnreserved, hmarks, ← Bool.or_assoc]

theorem quoteByte_eq (b : UInt8) :
    quoteByte extraMarks b =
      if isUnreserved (CodePoint.ofNat b.toNat) then [CodePoint.ofNat b.toNat] else escape b := by
  rw [isUnreserved_eq]
  rfl

theorem isUnreserved_of_le {c : CodePoint} (hc : 0x80 ≤ c.val) : isUnreserved c = false := by
  rw [Bool.eq_false_iff]
  exact fun h => Nat.not_lt.2 hc (isUnreserved_spec h).1

theorem flatMap_quoteByte (c : CodePoint) :
    (Utf8.encodePoint c).flatMap (quoteByte extraMarks) = encodePoint c := by
  rcases Nat.lt_or_ge c.val 0x80 with hc | hc
  · have hbytes : Utf8.encodePoint c = [UInt8.ofNat c.val] := by simp [Utf8.encodePoint, hc]
    have hpoint : CodePoint.ofNat (UInt8.ofNat c.val).toNat = c := by
      rw [Utf8.toNat_byte (by omega), CodePoint.ofNat_val]
    rw [encodePoint, hbytes, List.flatMap_singleton, List.flatMap_singleton, quoteByte_eq, hpoint]
  · -- no byte of the code point is one of ASCII, where all bytes are that stand for themselves
    rw [encodePoint, isUnreserved_of_le hc, if_neg Bool.false_ne_true]
    refine List.flatMap_congr fun b hb => ?_
    have hlt : b.toNat < 0x110000 := Nat.lt_trans b.toNat_lt (by decide)
    have hbyte : 0x80 ≤ (CodePoint.ofNat b.toNat).val := by
      rw [CodePoint.val_ofNat hlt]
      exact Utf8.le_of_mem_encodePoint hc hb
    rw [quoteByte_eq, isUnreserved_of_le hbyte, if_neg Bool.false_ne_true]

/-- Encoding goes byte by byte as well as code point by code point. -/
theorem encode?_eq_quote? (t : Text) : encode? t = quote? extraMarks t := by
  rw [encode?, quote?, Utf8.encode?]
  split_ifs
  · rfl
  · rw [Option.map_some, List.flatMap_assoc]
    exact congrArg some (List.flatMap_congr fun c _ => (flatMap_quoteByte c).symm)

/-! ## Character by character -/

/-- The code points that stand for themselves. -/
def alphabet : Text :=
  "ABCDEFGHIJKLMNOPQRSTUVWXYZabcdefghijklmnopqrstuvwxyz0123456789-_.!~*'()"

/-- The hexadecimal digits of escapes. -/
def hexDigits : Text := "0123456789ABCDEF"

/-- A byte as a percent sign and two hexadecimal digits. -/
def byteEscape (b : UInt8) : Text :=
  [CodePoint.ofChar '%', hexDigits.getD (b.toNat / 16) '0', hexDigits.getD (b.toNat % 16) '0']

/-- The form of a character in a component. -/
def componentOf (c : CodePoint) : Text :=
  if c ∈ alphabet then [c] else (String.utf8EncodeChar c.toChar).flatMap byteEscape

theorem mem_map_ofNat_range' {c : CodePoint} {first count : Nat} (h : first + count ≤ 0x110000) :
    c ∈ (List.range' first count).map CodePoint.ofNat ↔
      first ≤ c.val ∧ c.val < first + count := by
  rw [List.mem_map, ← List.mem_range'_1]
  constructor
  · rintro ⟨n, hn, rfl⟩
    have hlt := (List.mem_range'_1.1 hn).2
    rwa [CodePoint.val_ofNat (by omega)]
  · exact fun hc => ⟨c.val, hc, CodePoint.ofNat_val c⟩

theorem isUnreserved_iff {c : CodePoint} : isUnreserved c = true ↔ c ∈ alphabet := by
  have hranges : alphabet =
      (List.range' 0x41 26).map CodePoint.ofNat ++ ((List.range' 0x61 26).map CodePoint.ofNat ++
        ((List.range' 0x30 10).map CodePoint.ofNat ++ marks)) := by decide
  rw [hranges, List.mem_append, List.mem_append, List.mem_append,
    mem_map_ofNat_range' (by decide), mem_map_ofNat_range' (by decide),
    mem_map_ofNat_range' (by decide)]
  simp only [isUnreserved, CodePoint.isLetter, CodePoint.isDigit, Bool.or_eq_true,
    Bool.and_eq_true, decide_eq_true_eq, List.contains_iff_mem, or_assoc]
  by_cases hmark : c ∈ marks
  · simp only [hmark, or_true]
  · simp only [hmark, or_false]
    omega

theorem getD_hexDigits {n : Nat} (h : n < 16) : hexDigits.getD n '0' = Hex.digit 0x41 n := by
  have hall : ∀ n < 16, hexDigits.getD n '0' = Hex.digit 0x41 n := by decide
  exact hall n h

theorem escape_eq_byteEscape : escape = byteEscape := by
  funext b
  have hb : b.toNat < 256 := b.toNat_lt
  rw [escape_eq, byteEscape, getD_hexDigits (by omega), getD_hexDigits (by omega),
    Nat.mod_eq_of_lt (show b.toNat / 16 < 16 by omega)]

theorem encodePoint_eq_componentOf {c : CodePoint} (hc : c.isSurrogate = false) :
    encodePoint c = componentOf c := by
  rw [encodePoint, componentOf, Utf8.encodePoint_eq_utf8EncodeChar hc, escape_eq_byteEscape]
  simp only [isUnreserved_iff]

/-! ## Escapes -/

/-- Every percent sign in the text starts an escape of two digits. -/
def PercentsEscape (t : Text) : Prop :=
  ∀ a b, t = a ++ CodePoint.ofChar '%' :: b →
    ∃ h l r, b = h :: l :: r ∧ h ∈ hexDigits ∧ l ∈ hexDigits

theorem PercentsEscape.append {t u : Text} (ht : PercentsEscape t) (hu : PercentsEscape u) :
    PercentsEscape (t ++ u) := by
  intro a b heq
  rcases List.append_eq_append_iff.1 heq with ⟨a, -, hafter⟩ | ⟨rest, hbefore, hafter⟩
  · exact hu a b hafter
  · cases rest with
    | nil => exact hu [] b hafter.symm
    | cons c rest =>
      obtain ⟨rfl, rfl⟩ := List.cons.inj hafter
      obtain ⟨h, l, r, rfl, hh, hl⟩ := ht a rest hbefore
      exact ⟨h, l, r ++ u, rfl, hh, hl⟩

theorem PercentsEscape.flatMap {α : Type} {f : α → Text} {xs : List α}
    (h : ∀ x ∈ xs, PercentsEscape (f x)) : PercentsEscape (xs.flatMap f) := by
  induction xs with
  | nil =>
    intro a b heq
    exact absurd heq.symm (List.append_ne_nil_of_right_ne_nil a (List.cons_ne_nil _ b))
  | cons x xs ih =>
    rw [List.flatMap_cons]
    exact (h x List.mem_cons_self).append (ih fun y hy => h y (List.mem_cons_of_mem x hy))

theorem percentsEscape_escape (b : UInt8) : PercentsEscape (escape b) := by
  have hb : b.toNat < 256 := b.toNat_lt
  have hmem : ∀ n < 16, hexDigits.getD n '0' ∈ hexDigits := by decide
  have hne : ∀ d ∈ hexDigits, d ≠ CodePoint.ofChar '%' := by decide
  have hhigh := hmem (b.toNat / 16) (by omega)
  have hlow := hmem (b.toNat % 16) (by omega)
  rw [escape_eq_byteEscape, byteEscape]
  intro a r heq
  rcases List.append_eq_cons_iff.1 heq.symm with ⟨rfl, h₁⟩ | ⟨a₁, rfl, h₁⟩
  · exact ⟨_, _, [], (List.cons.inj h₁).2, hhigh, hlow⟩
  rcases List.append_eq_cons_iff.1 h₁.symm with ⟨rfl, h₂⟩ | ⟨a₂, rfl, h₂⟩
  · exact absurd (List.cons.inj h₂).1.symm (hne _ hhigh)
  rcases List.append_eq_cons_iff.1 h₂.symm with ⟨rfl, h₃⟩ | ⟨a₃, rfl, h₃⟩
  · exact absurd (List.cons.inj h₃).1.symm (hne _ hlow)
  · exact absurd h₃ (List.append_ne_nil_of_right_ne_nil a₃ (List.cons_ne_nil _ r)).symm

theorem percentsEscape_encodePoint (c : CodePoint) : PercentsEscape (encodePoint c) := by
  unfold encodePoint
  split_ifs with hc
  · intro a b heq
    rcases List.append_eq_cons_iff.1 heq.symm with ⟨rfl, h⟩ | ⟨a₁, rfl, h⟩
    · exact absurd (List.cons.inj h).1.symm (isUnreserved_spec hc).2.1
    · exact absurd h (List.append_ne_nil_of_right_ne_nil a₁ (List.cons_ne_nil _ b)).symm
  · exact PercentsEscape.flatMap fun b _ => percentsEscape_escape b

/-! ## Texts -/

theorem encode?_append (s t : Text) :
    encode? (s ++ t) = (encode? s).bind fun u => (encode? t).map (u ++ ·) := by
  unfold encode?
  rw [Text.hasSurrogate, List.any_append, ← Text.hasSurrogate, ← Text.hasSurrogate]
  cases s.hasSurrogate <;> cases t.hasSurrogate <;> simp

theorem encode?_eq_flatMap {t u : Text} (h : encode? t = some u) : u = t.flatMap componentOf := by
  obtain ⟨ht, rfl⟩ := encode?_eq_some_iff.1 h
  rw [Text.hasSurrogate, List.any_eq_false] at ht
  exact List.flatMap_congr fun c hc =>
    encodePoint_eq_componentOf (Bool.eq_false_iff.2 (ht c hc))

/-- **URI components.** A text is refused if it holds a surrogate. Otherwise its encoded form is the
concatenation of the forms of its characters, every percent sign in it starts an escape, and the
text is read from it. Texts in a row are encoded one by one, and encoding byte by byte gives the
same. -/
theorem encode?_component (s : Text) :
    (encode? s = none ↔ ∃ c ∈ s, 0xD800 ≤ c.val ∧ c.val ≤ 0xDFFF) ∧
      (∀ u, encode? s = some u →
        u = s.flatMap componentOf ∧ PercentsEscape u ∧ decode? u = some s) ∧
      (∀ t, encode? (s ++ t) = (encode? s).bind fun u => (encode? t).map (u ++ ·)) ∧
      encode? s = quote? extraMarks s := by
  refine ⟨?_, fun u hu => ⟨encode?_eq_flatMap hu, ?_, decode?_of_encode? hu⟩, encode?_append s,
    encode?_eq_quote? s⟩
  · rw [encode?_eq_none_iff, Text.hasSurrogate_iff]
    simp only [CodePoint.isSurrogate_iff]
  · obtain ⟨-, rfl⟩ := encode?_eq_some_iff.1 hu
    exact PercentsEscape.flatMap fun c _ => percentsEscape_encodePoint c

/-- Characters of one to four bytes, and what looks like an escape already. -/
theorem encode?_component_mixed :
    encode? "a~%41/é€😀" = some "a~%2541%2F%C3%A9%E2%82%AC%F0%9F%98%80" ∧
      PercentsEscape "a~%2541%2F%C3%A9%E2%82%AC%F0%9F%98%80" ∧
      decode? "a~%2541%2F%C3%A9%E2%82%AC%F0%9F%98%80" = some "a~%41/é€😀" := by
  have h : encode? "a~%41/é€😀" = some "a~%2541%2F%C3%A9%E2%82%AC%F0%9F%98%80" := by decide
  exact ⟨h, ((encode?_component _).2.1 _ h).2⟩

end RequestLine.Percent
