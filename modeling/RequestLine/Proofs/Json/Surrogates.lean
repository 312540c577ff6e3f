import RequestLine.Proofs.Json.Inside
import RequestLine.Proofs.Number.Spelling
import RequestLine.Proofs.Text.Joining
import RequestLine.Proofs.Text.Utf8

/-!
# Surrogates in plain texts

An array shows the texts of its items and so those of the arrays in it. An object shows none of its
members, and numbers are written in ASCII.

* `Json.ShowsSurrogate`: the values whose plain text holds a surrogate, by their shape.
* `hasSurrogate_plainText_iff`: these are the values.
-/

namespace RequestLine

/-! ## Numbers -/

theorem isSurrogate_of_isDigit {c : CodePoint} (h : c.isDigit = true) : c.isSurrogate = false := by
  rw [isDigit_iff] at h
  simp only [CodePoint.isSurrogate, Bool.and_eq_false_iff, decide_eq_false_iff_not]
  omega

theorem hasSurrogate_decimalDigits (n : Nat) : (decimalDigits n).hasSurrogate = false :=
  Text.hasSurrogate_of_forall fun c hc => isSurrogate_of_isDigit (allDigits_decimalDigits n c hc)

theorem Json.Grammar.IsNumeral.isSurrogate {c : CodePoint} (h : IsNumeral c) :
    c.isSurrogate = false := by
  rcases h with hdigit | hmark
  · exact isSurrogate_of_isDigit hdigit
  · have hall : ∀ c ∈ Text.ofString "+-.eE", c.isSurrogate = false := by decide
    exact hall c hmark

theorem Number.hasSurrogate_text (n : Number) : n.text.hasSurrogate = false := by
  have hdouble : ∀ x : Double, (Number.double x).text.hasSurrogate = false := by
    intro x
    cases x with
    | nan => decide
    | infinite negative => cases negative <;> decide
    | finite negative m =>
      obtain ⟨q, hwritten, -⟩ := exists_decimalText negative m
      exact Text.hasSurrogate_of_forall fun c hc => (hwritten.isNumeral c hc).isSurrogate
  cases n with
  | int i =>
    rw [text_int]
    exact hdouble _
  | double x => exact hdouble x

/-! ## Values -/

namespace Json

/-- A text with a surrogate, or an array with such a value among its items. Objects hide what they
hold. -/
inductive ShowsSurrogate : Json → Prop
  | text {s : Text} {c : CodePoint} : c ∈ s → c.isSurrogate = true → ShowsSurrogate (.str s)
  | item {v : Json} {items : List Json} : v ∈ items → ShowsSurrogate v →
      ShowsSurrogate (.arr items)

theorem mem_plainItems {t : Text} {items : List Json} :
    t ∈ plainItems items ↔ ∃ v ∈ items, t = if v.isNull then [] else v.plainText := by
  induction items with
  | nil => simp [plainItems]
  | cons v items ih => simp [plainItems, ih]

theorem ShowsSurrogate.isNull {v : Json} (h : v.ShowsSurrogate) : v.isNull = false := by
  cases h <;> rfl

/-- The values whose plain text holds a surrogate. -/
theorem hasSurrogate_plainText_iff {v : Json} :
    v.plainText.hasSurrogate = true ↔ v.ShowsSurrogate := by
  induction v with
  | null => exact iff_of_false (by decide) (by rintro ⟨⟩)
  | bool b => exact iff_of_false (by cases b <;> decide) (by rintro ⟨⟩)
  | num n =>
    rw [plainText, n.hasSurrogate_text]
    exact iff_of_false Bool.false_ne_true (by rintro ⟨⟩)
  | obj members => exact iff_of_false (by rw [plainText]; decide) (by rintro ⟨⟩)
  | str s =>
    rw [plainText, Text.hasSurrogate_iff]
    constructor
    · rintro ⟨c, hc, hsurrogate⟩
      exact .text hc hsurrogate
    · rintro (⟨hc, hsurrogate⟩ | _)
      exact ⟨_, hc, hsurrogate⟩
  | arr items ih =>
    rw [plainText, Text.hasSurrogate_iff]
    constructor
    · rintro ⟨c, hc, hsurrogate⟩
      rcases Text.mem_joinWith hc with hcomma | ⟨t, ht, hct⟩
      · rw [List.mem_singleton.1 hcomma] at hsurrogate
        exact absurd hsurrogate (by decide)
      · obtain ⟨v, hv, rfl⟩ := mem_plainItems.1 ht
        split_ifs at hct
        · cases hct
        · exact .item hv ((ih v hv).1 (Text.hasSurrogate_iff.2 ⟨c, hct, hsurrogate⟩))
    · rintro (_ | ⟨hv, hshows⟩)
      obtain ⟨c, hc, hsurrogate⟩ := Text.hasSurrogate_iff.1 ((ih _ hv).2 hshows)
      have ht := mem_plainItems.2 ⟨_, hv, (if_neg (by simp [hshows.isNull])).symm⟩
      exact ⟨c, Text.mem_joinWith_of_mem _ ht hc, hsurrogate⟩

end Json

end RequestLine
