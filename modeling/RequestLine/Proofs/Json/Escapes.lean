import Mathlib.Data.List.Chain
import RequestLine.Proofs.Json.Grammar
import RequestLine.Statement.Written

/-!
# Escapes of surrogates

An escape of a first half and one of a second half are read as one code point, so a text with two
such halves side by side has no spelling with escapes.

* `Text.Joined`: the texts without such halves; `Chars.joined`: texts read from strings are of this
  kind.
* `Spelling`: the ways to write a code point in a string; `chars_flatMap`: a text whose code points
  are so written is read back.
-/

namespace RequestLine

/-- No first half of a surrogate pair stands directly before a second half. -/
def Text.Joined (t : Text) : Prop :=
  t.IsChain fun c d => c.isHighSurrogate = true → d.isLowSurrogate = false

namespace Json.Grammar

/-! ## Surrogates -/

theorem isHighSurrogate_iff {c : CodePoint} : c.isHighSurrogate = true ↔ IsHigh c.val := by
  simp [CodePoint.isHighSurrogate, IsHigh]

theorem isLowSurrogate_iff {c : CodePoint} : c.isLowSurrogate = true ↔ IsLow c.val := by
  simp [CodePoint.isLowSurrogate, IsLow]

theorem isSurrogate_iff {c : CodePoint} :
    c.isSurrogate = true ↔ IsHigh c.val ∨ IsLow c.val := by
  simp only [CodePoint.isSurrogate, IsHigh, IsLow, Bool.and_eq_true, decide_eq_true_eq]
  omega

/-- Numbers past the last code point are no surrogates either. -/
theorem val_ofNat_of_surrogate {n : Nat}
    (h : IsHigh (CodePoint.ofNat n).val ∨ IsLow (CodePoint.ofNat n).val) :
    (CodePoint.ofNat n).val = n := by
  by_cases hn : n < 0x110000
  · exact CodePoint.val_ofNat hn
  · simp only [CodePoint.ofNat, dif_neg hn, IsHigh, IsLow] at h
    omega

theorem val_joinSurrogates {high low : Nat} (hhigh : IsHigh high) (hlow : IsLow low) :
    (Reader.joinSurrogates high low).val = 0x10000 + (high - 0xD800) * 0x400 + (low - 0xDC00) := by
  obtain ⟨_, _⟩ := hhigh
  obtain ⟨_, _⟩ := hlow
  exact CodePoint.val_ofNat (by omega)

theorem not_surrogate_of_pair {high low : Nat} (hhigh : IsHigh high) (hlow : IsLow low) :
    ¬ IsHigh (Reader.joinSurrogates high low).val ∧
      ¬ IsLow (Reader.joinSurrogates high low).val := by
  rw [val_joinSurrogates hhigh hlow]
  unfold IsHigh IsLow
  omega

theorem not_surrogate_of_mem_escapes {e c : CodePoint} (h : (e, c) ∈ escapes) :
    c.isSurrogate = false := by
  have hall : ∀ p ∈ escapes, p.2.isSurrogate = false := by decide
  exact hall _ h

/-! ## Texts read from strings -/

/-- A second half at the start of a text was spelled with an escape. -/
theorem Chars.startsLow {t s : Text} {d : CodePoint} (h : Chars t (d :: s))
    (ht : ∀ c ∈ t, c.isSurrogate = false) (hd : IsLow d.val) : StartsLow t := by
  cases h with
  | plain =>
    have hplain := ht d List.mem_cons_self
    rw [isSurrogate_iff.2 (.inr hd)] at hplain
    cases hplain
  | escape he =>
    have hescape := not_surrogate_of_mem_escapes he
    rw [isSurrogate_iff.2 (.inr hd)] at hescape
    cases hescape
  | @unit _ digits t _ n hwrites _ hc =>
    rw [hc] at hd
    rw [val_ofNat_of_surrogate (.inr hd)] at hd
    exact ⟨digits, n, t, rfl, hwrites, hd⟩
  | pair _ _ hhigh hlow hc =>
    rw [hc] at hd
    exact absurd hd (not_surrogate_of_pair hhigh hlow).2

theorem joined_cons {c : CodePoint} {s : Text} (hs : Text.Joined s)
    (hc : IsHigh c.val → ∀ d r, s = d :: r → ¬ IsLow d.val) : Text.Joined (c :: s) := by
  refine List.isChain_cons.2 ⟨fun d hd hhigh => ?_, hs⟩
  obtain ⟨r, rfl⟩ := List.head?_eq_some_iff.1 hd
  rw [← Bool.not_eq_true, isLowSurrogate_iff]
  exact hc (isHighSurrogate_iff.1 hhigh) d r rfl

/-- A string without raw surrogates stands for a text without halves side by side. -/
theorem Chars.joined {t s : Text} (h : Chars t s) (ht : ∀ c ∈ t, c.isSurrogate = false) :
    Text.Joined s := by
  induction h with
  | nil => exact List.IsChain.nil
  | @plain c t s _ _ _ _ ih =>
    have hplain := ht c List.mem_cons_self
    refine joined_cons (ih fun d hd => ht d (List.mem_cons_of_mem c hd)) fun hhigh => ?_
    rw [isSurrogate_iff.2 (.inl hhigh)] at hplain
    cases hplain
  | @escape e c t s he _ ih =>
    have hescape := not_surrogate_of_mem_escapes he
    refine joined_cons (ih fun d hd => ht d ?_) fun hhigh => ?_
    · exact List.mem_cons_of_mem _ (List.mem_cons_of_mem _ hd)
    · rw [isSurrogate_iff.2 (.inl hhigh)] at hescape
      cases hescape
  | @unit c digits t s n hwrites halone hc hchars ih =>
    have hrest : ∀ c ∈ t, c.isSurrogate = false := fun c hc => ht c (List.mem_append_right _ hc)
    refine joined_cons (ih hrest) fun hhigh d r hs hlow => ?_
    subst hs
    rw [hc] at hhigh
    rw [val_ofNat_of_surrogate (.inl hhigh)] at hhigh
    exact halone ⟨hhigh, hchars.startsLow hrest hlow⟩
  | @pair c first second t s high low _ _ hhigh hlow hc _ ih =>
    refine joined_cons (ih fun d hd => ht d ?_) fun hpair => ?_
    · exact List.mem_append_right _ (List.mem_append_right _ hd)
    · rw [hc] at hpair
      exact absurd hpair (not_surrogate_of_pair hhigh hlow).1

/-! ## Written code points -/

/-- A way to write a code point in a string. -/
inductive Spelling (c : CodePoint) : Text → Prop
  | plain : c ≠ quotationMark → c ≠ backslash → 0x20 ≤ c.val → Spelling c [c]
  | escape {e : CodePoint} : (e, c) ∈ escapes → Spelling c [backslash, e]
  | unit {digits : Text} : Hex.Writes 4 digits c.val → Spelling c (unitText digits)
  | pair {first second : Text} {high low : Nat} : Hex.Writes 4 first high →
      Hex.Writes 4 second low → IsHigh high → IsLow low → c = Reader.joinSurrogates high low →
      Spelling c (unitText first ++ unitText second)

theorem startsLow_unitText {digits r : Text} {n : Nat} (h : Hex.Writes 4 digits n)
    (hlow : StartsLow (unitText digits ++ r)) : IsLow n := by
  obtain ⟨digits₁, m, r₁, heq, hwrites, hm⟩ := hlow
  obtain ⟨-, heq⟩ := List.cons.inj heq
  obtain ⟨-, heq⟩ := List.cons.inj heq
  obtain ⟨rfl, -⟩ := h.unique hwrites heq
  exact hm

/-- Only a second half is written as the escape of one. -/
theorem Spelling.isLow_of_startsLow {c : CodePoint} {t r : Text} (h : Spelling c t)
    (hlow : StartsLow (t ++ r)) : IsLow c.val := by
  cases h with
  | plain _ hb _ =>
    obtain ⟨digits, n, s, heq, -⟩ := hlow
    exact absurd (List.cons.inj heq).1 hb
  | escape he =>
    obtain ⟨digits, n, s, heq, -⟩ := hlow
    have hunit : ∀ p ∈ escapes, p.1 ≠ CodePoint.ofChar 'u' := by decide
    exact absurd (List.cons.inj (List.cons.inj heq).2).1 (hunit _ he)
  | unit hwrites => exact startsLow_unitText hwrites hlow
  | pair h₁ _ hhigh _ _ =>
    rw [List.append_assoc] at hlow
    obtain ⟨hle, -⟩ := startsLow_unitText h₁ hlow
    obtain ⟨-, hge⟩ := hhigh
    omega

/-- A text is read back from its spelled code points. Where a first half stands before a second one
it has to be written as it is. -/
theorem chars_flatMap {spell : CodePoint → Text} (hspell : ∀ c, Spelling c (spell c)) {s : Text}
    (hs : s.IsChain fun c d => IsHigh c.val → IsLow d.val → spell c = [c]) :
    Chars (s.flatMap spell) s := by
  induction s with
  | nil => exact .nil
  | cons c s ih =>
    obtain ⟨hnext, hchain⟩ := List.isChain_cons.1 hs
    have hrest := ih hchain
    have halone : IsHigh c.val → StartsLow (s.flatMap spell) → spell c = [c] := by
      intro hhigh hlow
      cases s with
      | nil =>
        obtain ⟨digits, n, r, heq, -⟩ := hlow
        cases heq
      | cons d s => exact hnext d rfl hhigh ((hspell d).isLow_of_startsLow hlow)
    rw [List.flatMap_cons]
    have hc := hspell c
    generalize spell c = t at hc halone
    cases hc with
    | plain hq hb hc => exact .plain hq hb hc hrest
    | escape he => exact .escape he hrest
    | @unit digits hwrites =>
      have hunit : ¬ (IsHigh c.val ∧ StartsLow (s.flatMap spell)) := by
        rintro ⟨hhigh, hlow⟩
        cases halone hhigh hlow
      exact .unit hwrites hunit (CodePoint.ofNat_val c).symm hrest
    | pair h₁ h₂ hhigh hlow hc =>
      rw [List.append_assoc]
      exact .pair h₁ h₂ hhigh hlow hc hrest

/-! ## The escapes of a statement -/

theorem escapeUnit_eq (n : Nat) : Escape.unit n = unitText (Hex.lower 4 n) := rfl

theorem spelling_numeric (c : CodePoint) : Spelling c (Escape.numeric c) := by
  have hvalid := c.valid
  unfold Escape.numeric
  split
  · rename_i hc
    rw [escapeUnit_eq]
    exact .unit (Hex.writes_lower hc)
  · rename_i hc
    have hhigh : IsHigh (0xD800 + (c.val - 0x10000) / 0x400) := by
      unfold IsHigh
      omega
    have hlow : IsLow (0xDC00 + (c.val - 0x10000) % 0x400) := by
      unfold IsLow
      omega
    have hvalue : c = Reader.joinSurrogates (0xD800 + (c.val - 0x10000) / 0x400)
        (0xDC00 + (c.val - 0x10000) % 0x400) := by
      have hval := val_joinSurrogates hhigh hlow
      rw [← CodePoint.ofNat_val (Reader.joinSurrogates _ _), hval]
      have hsum : 0x10000 + (0xD800 + (c.val - 0x10000) / 0x400 - 0xD800) * 0x400 +
          (0xDC00 + (c.val - 0x10000) % 0x400 - 0xDC00) = c.val := by
        omega
      rw [hsum, CodePoint.ofNat_val]
    rw [escapeUnit_eq, escapeUnit_eq]
    refine .pair (Hex.writes_lower ?_) (Hex.writes_lower ?_) hhigh hlow hvalue
    · exact Nat.lt_of_le_of_lt hhigh.2 (by decide)
    · exact Nat.lt_of_le_of_lt hlow.2 (by decide)

theorem spelling_short {c : CodePoint} {t : Text} (h : Escape.short? c = some t) :
    Spelling c t := by
  unfold Escape.short? at h
  repeat'
    split at h
    · rename_i hc
      obtain rfl := Option.some.inj h
      subst hc
      exact .escape (by decide)
  cases h

theorem short?_ne_none {c : CodePoint} (h : c = quotationMark ∨ c = backslash) :
    Escape.short? c ≠ none := by
  rcases h with rfl | rfl <;> decide

theorem spelling_ascii (c : CodePoint) : Spelling c (Escape.ascii c) := by
  unfold Escape.ascii
  split
  · rename_i t ht
    exact spelling_short ht
  · rename_i hnone
    split
    · rename_i hc
      refine .plain (fun hq => ?_) (fun hb => ?_) hc.1
      · exact short?_ne_none (.inl hq) hnone
      · exact short?_ne_none (.inr hb) hnone
    · exact spelling_numeric c

theorem spelling_inStatement (c : CodePoint) : Spelling c (Escape.inStatement c) := by
  unfold Escape.inStatement
  split
  · exact spelling_numeric c
  · exact spelling_ascii c

/-- A text without halves side by side is read back from its form in a statement. -/
theorem chars_inStatement {s : Text} (hs : Text.Joined s) :
    Chars (s.flatMap Escape.inStatement) s := by
  refine chars_flatMap spelling_inStatement (hs.imp fun c d hcd hhigh hlow => ?_)
  have hnot := hcd (isHighSurrogate_iff.2 hhigh)
  rw [isLowSurrogate_iff.2 hlow] at hnot
  cases hnot

end Json.Grammar

end RequestLine
