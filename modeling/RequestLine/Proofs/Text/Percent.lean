import RequestLine.Proofs.Text.Utf8
import RequestLine.Text.Percent

/-!
# Percent encoding reads back

* `encode?_eq_none_iff`: only surrogates cannot be encoded.
* `mem_of_encode?`: an encoded text holds unreserved code points and percent signs, so neither
  separator of a query.
* `decode?_of_encode?`: the text is read from its encoded form.
-/

namespace RequestLine.Percent

/-! ## Unreserved code points -/

theorem marks_spec : ∀ c ∈ marks, c.val < 0x80 ∧ c ≠ '%' ∧ c ≠ '&' ∧ c ≠ '=' := by
  decide

/-- Unreserved code points are in ASCII, and none has a meaning of its own in a query. -/
theorem isUnreserved_spec {c : CodePoint} (h : isUnreserved c = true) :
    c.val < 0x80 ∧ c ≠ '%' ∧ c ≠ '&' ∧ c ≠ '=' := by
  simp only [isUnreserved, Bool.or_eq_true, List.contains_iff_mem] at h
  rcases h with (h | h) | h
  · simp only [CodePoint.isLetter, Bool.or_eq_true, Bool.and_eq_true, decide_eq_true_eq] at h
    refine ⟨by omega, ?_, ?_, ?_⟩ <;>
      (rintro rfl; simp [CodePoint.ofChar] at h)
  · simp only [CodePoint.isDigit, Bool.and_eq_true, decide_eq_true_eq] at h
    refine ⟨by omega, ?_, ?_, ?_⟩ <;>
      (rintro rfl; simp [CodePoint.ofChar] at h)
  · exact marks_spec c h

theorem isUnreserved_digit {n : Nat} (h : n < 16) : isUnreserved (Hex.digit 0x41 n) = true := by
  have hall : ∀ n < 16, isUnreserved (Hex.digit 0x41 n) = true := by decide
  exact hall n h

theorem hexValue?_digit {n : Nat} (h : n < 16) : (Hex.digit 0x41 n).hexValue? = some n := by
  have hall : ∀ n < 16, (Hex.digit 0x41 n).hexValue? = some n := by decide
  exact hall n h

/-! ## Bytes -/

theorem escape_eq (b : UInt8) :
    escape b =
      [CodePoint.ofChar '%', Hex.digit 0x41 (b.toNat / 16 % 16),
        Hex.digit 0x41 (b.toNat % 16)] := rfl

theorem bytes?_cons_of_ne {c : CodePoint} (hc : c ≠ '%') (hascii : c.val < 0x80) (r : Text) :
    bytes? (c :: r) = (bytes? r).map (UInt8.ofNat c.val :: ·) := by
  rw [bytes?.eq_def]
  simp only
  rw [if_neg hc, if_pos hascii]

theorem bytes?_escape (b : UInt8) (rest : Text) :
    bytes? (escape b ++ rest) = (bytes? rest).map (b :: ·) := by
  have hb : b.toNat < 256 := b.toNat_lt
  have hvalue : UInt8.ofNat (16 * (b.toNat / 16 % 16) + b.toNat % 16) = b := by
    rw [show 16 * (b.toNat / 16 % 16) + b.toNat % 16 = b.toNat by omega, UInt8.ofNat_toNat]
  simp only [escape_eq, List.cons_append, List.nil_append]
  rw [bytes?, if_pos rfl]
  simp only [hexValue?_digit (show b.toNat / 16 % 16 < 16 by omega),
    hexValue?_digit (show b.toNat % 16 < 16 by omega), hvalue]

theorem bytes?_flatMap_escape (bs : List UInt8) (rest : Text) :
    bytes? (bs.flatMap escape ++ rest) = (bytes? rest).map (bs ++ ·) := by
  induction bs with
  | nil => simp
  | cons b bs ih =>
    rw [List.flatMap_cons, List.append_assoc, bytes?_escape, ih, Option.map_map]
    rfl

theorem bytes?_encodePoint (c : CodePoint) (rest : Text) :
    bytes? (encodePoint c ++ rest) = (bytes? rest).map (Utf8.encodePoint c ++ ·) := by
  unfold encodePoint
  split_ifs with h
  · obtain ⟨hascii, hpercent, -⟩ := isUnreserved_spec h
    rw [List.singleton_append, bytes?_cons_of_ne hpercent hascii]
    simp [Utf8.encodePoint, hascii]
  · exact bytes?_flatMap_escape _ rest

theorem bytes?_flatMap_encodePoint (t : Text) :
    bytes? (t.flatMap encodePoint) = some (t.flatMap Utf8.encodePoint) := by
  induction t with
  | nil => rfl
  | cons c t ih =>
    rw [List.flatMap_cons, bytes?_encodePoint, ih]
    rfl

/-! ## Texts -/

theorem encode?_eq_none_iff {t : Text} : encode? t = none ↔ t.hasSurrogate = true := by
  unfold encode?
  split_ifs with h <;> simp [h]

theorem encode?_eq_some_iff {t u : Text} :
    encode? t = some u ↔ t.hasSurrogate = false ∧ t.flatMap encodePoint = u := by
  unfold encode?
  split_ifs with h <;> simp [h]

/-- The text is read from its encoded form. -/
theorem decode?_of_encode? {t u : Text} (h : encode? t = some u) : decode? u = some t := by
  obtain ⟨ht, rfl⟩ := encode?_eq_some_iff.1 h
  rw [decode?, bytes?_flatMap_encodePoint]
  exact Utf8.decode?_flatMap_encodePoint ht

theorem mem_escape {b : UInt8} {c : CodePoint} (h : c ∈ escape b) :
    isUnreserved c = true ∨ c = '%' := by
  rw [escape_eq] at h
  simp only [List.mem_cons, List.not_mem_nil, or_false] at h
  rcases h with rfl | rfl | rfl
  · exact .inr rfl
  · exact .inl (isUnreserved_digit (by omega))
  · exact .inl (isUnreserved_digit (by omega))

theorem mem_encodePoint {c d : CodePoint} (h : d ∈ encodePoint c) :
    isUnreserved d = true ∨ d = '%' := by
  unfold encodePoint at h
  split_ifs at h with hc
  · rw [List.mem_singleton.1 h]
    exact .inl hc
  · obtain ⟨b, -, hb⟩ := List.mem_flatMap.1 h
    exact mem_escape hb

/-- An encoded text holds unreserved code points and percent signs. -/
theorem mem_of_encode? {t u : Text} (h : encode? t = some u) {c : CodePoint} (hc : c ∈ u) :
    isUnreserved c = true ∨ c = '%' := by
  obtain ⟨-, rfl⟩ := encode?_eq_some_iff.1 h
  obtain ⟨d, -, hd⟩ := List.mem_flatMap.1 hc
  exact mem_encodePoint hd

theorem not_mem_of_encode? {t u : Text} (h : encode? t = some u) :
    CodePoint.ofChar '&' ∉ u ∧ CodePoint.ofChar '=' ∉ u := by
  constructor <;> intro hc
  · rcases mem_of_encode? h hc with hu | hp
    · exact (isUnreserved_spec hu).2.2.1 rfl
    · exact absurd hp (by decide)
  · rcases mem_of_encode? h hc with hu | hp
    · exact (isUnreserved_spec hu).2.2.2 rfl
    · exact absurd hp (by decide)

end RequestLine.Percent
