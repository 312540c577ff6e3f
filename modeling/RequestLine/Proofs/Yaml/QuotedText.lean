import RequestLine.Proofs.Json.Escapes
import RequestLine.Proofs.Yaml.Cursors

/-!
# JSON strings as YAML scalars

A string of printable ASCII is a scalar in double quotes. Both languages read the same from it but
for one thing: YAML knows no pairs of escapes, so a code point past the basic plane comes apart into
two surrogates.

* `Text.halved`: the text with all these code points apart.
* `Word`, `Words`: the inside of a scalar as words with spaces between them, as it is read.
* `takeQuoted_string`: the scalar that a string is read as.
-/

namespace RequestLine

/-- The code point itself, or its two surrogates past the basic plane. -/
def CodePoint.halves (c : CodePoint) : Text :=
  if c.val < 0x10000 then [c]
  else [ofNat (0xD800 + (c.val - 0x10000) / 0x400), ofNat (0xDC00 + (c.val - 0x10000) % 0x400)]

/-- The text with two surrogates for each code point past the basic plane. -/
def Text.halved (t : Text) : Text := t.flatMap CodePoint.halves

/-- Nothing comes apart in a text of the basic plane alone. -/
theorem Text.halved_eq_self_iff {t : Text} : t.halved = t ↔ ∀ c ∈ t, c.val < 0x10000 := by
  have hlength : ∀ t : Text, t.length ≤ t.halved.length := by
    intro t
    induction t with
    | nil => exact Nat.le_refl 0
    | cons c t ih =>
      have hc : 1 ≤ c.halves.length := by
        unfold CodePoint.halves
        split <;> simp
      rw [halved, List.flatMap_cons, List.length_append, ← halved, List.length_cons]
      omega
  induction t with
  | nil => simp [halved]
  | cons c t ih =>
    rw [List.forall_mem_cons, halved, List.flatMap_cons, ← halved]
    by_cases hc : c.val < 0x10000
    · rw [CodePoint.halves, if_pos hc, List.singleton_append, List.cons.injEq]
      exact ⟨fun h => ⟨hc, ih.1 h.2⟩, fun h => ⟨rfl, ih.2 h.2⟩⟩
    · refine iff_of_false (fun h => ?_) fun h => hc h.1
      have htoo := congrArg List.length h
      have hle := hlength t
      rw [CodePoint.halves, if_neg hc] at htoo
      simp only [List.length_append, List.length_cons, List.length_nil] at htoo
      omega

/-- A space, or a code point of ASCII that is printed. -/
def CodePoint.IsPrinted (c : CodePoint) : Prop := 0x20 ≤ c.val ∧ c.val ≤ 0x7E

theorem CodePoint.IsPrinted.isBreak {c : CodePoint} (h : c.IsPrinted) : Yaml.isBreak c = false := by
  obtain ⟨hlow, hhigh⟩ := h
  simp only [Yaml.isBreak, ← Bool.not_eq_true, Bool.or_eq_true, beq_iff_eq]
  omega

namespace Yaml

open Json.Grammar

/-! ## Words -/

/-- How a code point other than the space stands in a scalar in double quotes. -/
inductive Written : Text → CodePoint → Prop
  | plain {c : CodePoint} : isQuotedText c = true → Written [c] c
  | apostrophe : Written [CodePoint.ofChar '\x27'] '\x27'
  | letter {l c : CodePoint} : escapeLetter? l = some c → Written [backslash, l] c
  | unit {digits : Text} {n : Nat} : Hex.Writes 4 digits n → n < 0x110000 →
      Written (unitText digits) (CodePoint.ofNat n)

/-- A text without spaces, as it stands in a scalar in double quotes. -/
inductive Word : Text → Text → Prop
  | nil : Word [] []
  | cons {u t s : Text} {c : CodePoint} : Written u c → Word t s → Word (u ++ t) (c :: s)

/-- Neither a space nor a break stands at the start. -/
def AtWord (t : Text) : Prop := ∀ c ∈ t.head?, isSpace c = false ∧ isBreak c = false

/-- Words with spaces between them. -/
inductive Words : Text → Text → Prop
  | last {t s : Text} : Word t s → Words t s
  | more {t s spaces u v : Text} : Word t s → spaces ≠ [] → (∀ c ∈ spaces, c = CodePoint.ofChar ' ') →
      AtWord u → Words u v → Words (t ++ (spaces ++ u)) (s ++ (spaces ++ v))

theorem Written.exists_cons {u : Text} {c : CodePoint} (h : Written u c) :
    ∃ d r, u = d :: r ∧ isSpace d = false ∧ isBreak d = false := by
  cases h with
  | plain hc =>
    simp only [isQuotedText, Bool.not_eq_true', Bool.or_eq_false_iff] at hc
    exact ⟨_, _, rfl, hc.1.1.1.2, hc.1.1.1.1⟩
  | apostrophe => exact ⟨_, _, rfl, by decide, by decide⟩
  | letter => exact ⟨_, _, rfl, by decide, by decide⟩
  | unit => exact ⟨_, _, rfl, by decide, by decide⟩

theorem Word.atWord {t s : Text} (h : Word t s) : AtWord t := by
  cases h with
  | nil => exact fun c hc => by cases hc
  | cons hu =>
    obtain ⟨d, r, rfl, hd⟩ := hu.exists_cons
    rintro c hc
    obtain rfl := Option.mem_some_iff.1 hc
    exact hd

theorem Words.cons {u t s : Text} {c : CodePoint} (hu : Written u c) (h : Words t s) :
    Words (u ++ t) (c :: s) := by
  cases h with
  | last hword => exact .last (.cons hu hword)
  | more hword hne hspaces hat hwords =>
    rw [← List.append_assoc, ← List.cons_append]
    exact .more (.cons hu hword) hne hspaces hat hwords

theorem Words.space {t s : Text} (h : Words t s) :
    Words (CodePoint.ofChar ' ' :: t) (CodePoint.ofChar ' ' :: s) := by
  have hspace : ∀ c ∈ [CodePoint.ofChar ' '], c = CodePoint.ofChar ' ' := fun c hc =>
    List.mem_singleton.1 hc
  cases h with
  | last hword => exact .more .nil (List.cons_ne_nil _ _) hspace hword.atWord (.last hword)
  | @more _ _ spaces u v hword hne hspaces hat hwords =>
    cases hword with
    | nil =>
      have hall : ∀ c ∈ CodePoint.ofChar ' ' :: spaces, c = CodePoint.ofChar ' ' :=
        List.forall_mem_cons.2 ⟨rfl, hspaces⟩
      exact @Words.more [] [] _ u v .nil (List.cons_ne_nil _ spaces) hall hat hwords
    | cons hu hword =>
      have hfirst := Word.cons hu hword
      refine .more .nil (List.cons_ne_nil _ _) hspace ?_ (.more hfirst hne hspaces hat hwords)
      obtain ⟨d, r, rfl, hd⟩ := hu.exists_cons
      rintro c hc
      obtain rfl := Option.mem_some_iff.1 hc
      exact hd

/-! ## Strings as words -/

theorem escapeLetter?_of_mem_escapes :
    ∀ p ∈ escapes, escapeLetter? p.1 = some p.2 ∧ p.2.val < 0x10000 := by decide

theorem isQuotedText_of_printed {c : CodePoint} (hc : c.IsPrinted) (hquote : c ≠ quotationMark)
    (hbackslash : c ≠ backslash) (hspace : c ≠ CodePoint.ofChar ' ')
    (hapostrophe : c ≠ CodePoint.ofChar '\x27') : isQuotedText c = true := by
  have hval : ∀ d : Char, c ≠ CodePoint.ofChar d → c.val ≠ d.toNat := by
    intro d hne hval
    exact hne (by rw [← CodePoint.ofNat_val c, hval, ← CodePoint.val_ofChar, CodePoint.ofNat_val])
  have h₁ := hval _ hquote
  have h₂ := hval _ hbackslash
  have h₃ := hval _ hspace
  have h₄ := hval _ hapostrophe
  obtain ⟨hlow, hhigh⟩ := hc
  simp only [isQuotedText, isBreak, isSpace, Bool.not_eq_true', ← Bool.not_eq_true,
    Bool.or_eq_true, beq_iff_eq]
  simp only [Char.reduceToNat] at h₁ h₂ h₃ h₄
  omega

theorem halves_of_pair {high low : Nat} (hhigh : IsHigh high) (hlow : IsLow low) :
    (Json.Reader.joinSurrogates high low).halves =
      [CodePoint.ofNat high, CodePoint.ofNat low] := by
  have hval := val_joinSurrogates hhigh hlow
  obtain ⟨hhigh₁, hhigh₂⟩ := hhigh
  obtain ⟨hlow₁, hlow₂⟩ := hlow
  have hpast : ¬ (Json.Reader.joinSurrogates high low).val < 0x10000 := by omega
  have hfirst : 0xD800 + ((Json.Reader.joinSurrogates high low).val - 0x10000) / 0x400 = high := by
    omega
  have hsecond : 0xDC00 + ((Json.Reader.joinSurrogates high low).val - 0x10000) % 0x400 = low := by
    omega
  rw [CodePoint.halves, if_neg hpast, hfirst, hsecond]

/-- The inside of a string of printable ASCII is words. -/
theorem words_of_chars {t s : Text} (h : Chars t s) (ht : ∀ c ∈ t, c.IsPrinted) :
    Words t s.halved := by
  have hhalved : ∀ {c : CodePoint} {s : Text}, c.val < 0x10000 →
      Text.halved (c :: s) = c :: s.halved := by
    intro c s hc
    rw [Text.halved, List.flatMap_cons, CodePoint.halves, if_pos hc]
    rfl
  induction h with
  | nil => exact .last .nil
  | @plain c t s hquote hbackslash _ _ ih =>
    obtain ⟨hc, ht⟩ := List.forall_mem_cons.1 ht
    have hsmall : c.val < 0x10000 := Nat.lt_of_le_of_lt hc.2 (by decide)
    rw [hhalved hsmall]
    by_cases hspace : c = CodePoint.ofChar ' '
    · rw [hspace]
      exact (ih ht).space
    · by_cases hapostrophe : c = CodePoint.ofChar '\x27'
      · rw [hapostrophe]
        exact .cons .apostrophe (ih ht)
      · exact .cons (.plain (isQuotedText_of_printed hc hquote hbackslash hspace hapostrophe))
          (ih ht)
  | @escape e c t s hmem _ ih =>
    obtain ⟨hletter, hsmall⟩ := escapeLetter?_of_mem_escapes _ hmem
    rw [hhalved hsmall]
    refine .cons (.letter hletter) (ih fun d hd => ht d ?_)
    exact List.mem_cons_of_mem _ (List.mem_cons_of_mem _ hd)
  | @unit c digits t s n hwrites _ hc _ ih =>
    have hn := hwrites.lt
    have hsmall : (CodePoint.ofNat n).val < 0x10000 := by
      rw [CodePoint.val_ofNat (by omega)]
      exact hn
    rw [hc, hhalved hsmall]
    exact .cons (.unit hwrites (by omega)) (ih fun d hd => ht d (List.mem_append_right _ hd))
  | @pair c first second t s high low hfirst hsecond hhigh hlow hc _ ih =>
    have hhigh' := hfirst.lt
    have hlow' := hsecond.lt
    have hrest : ∀ d ∈ t, d.IsPrinted := fun d hd =>
      ht d (List.mem_append_right _ (List.mem_append_right _ hd))
    rw [hc, Text.halved, List.flatMap_cons, ← Text.halved, halves_of_pair hhigh hlow]
    exact .cons (.unit hfirst (by omega)) (.cons (.unit hsecond (by omega)) (ih hrest))

/-! ## Reading words -/

section

variable {c : Cursor} {x : CodePoint} {r : Text} {fuel : Nat}

/-- A code point that stands for itself is read alone, with the same fuel for what follows. -/
theorem takeQuotedWord_plain (hrest : c.rest = x :: r) (hx : isQuotedText x = true) :
    takeQuotedWord true (fuel + 1) c = do
      let (more, c) ← takeQuotedWord true (fuel + 1) c.advance
      return (x :: more, c) := by
  have hadvance : c.advance.rest = r := by rw [Cursor.rest_advance, hrest, List.tail_cons]
  have hcursor : c.skip (x :: r.takeWhile isQuotedText).length =
      c.advance.skip (r.takeWhile isQuotedText).length := rfl
  simp only [takeQuotedWord, Cursor.takeWhile_eq, hadvance, hrest,
    List.takeWhile_cons_of_pos hx, hcursor]
  split
  · rfl
  · rename_i result _
    cases result with
    | error e => rfl
    | ok p =>
      simp only [bind, Except.bind]
      cases takeQuotedWord true fuel p.2 <;> rfl

theorem takeWhile_isQuotedText (hrest : c.rest = x :: r) (hx : isQuotedText x = false) :
    c.takeWhile isQuotedText = ([], c) := by
  have hnil : c.rest.takeWhile isQuotedText = [] := by
    rw [hrest]
    exact List.takeWhile_cons_of_neg (by simp [hx])
  rw [Cursor.takeWhile_eq, hnil]
  rfl

theorem takeQuotedWord_apostrophe (hrest : c.rest = CodePoint.ofChar '\x27' :: r) :
    takeQuotedWord true (fuel + 1) c = do
      let (more, c) ← takeQuotedWord true fuel c.advance
      return (CodePoint.ofChar '\x27' :: more, c) := by
  rw [takeQuotedWord, takeWhile_isQuotedText hrest (by decide)]
  simp only [Cursor.next?, hrest, List.head?_cons]
  rfl

theorem takeQuotedWord_escape (hrest : c.rest = backslash :: r) {piece : Text} {c₁ : Cursor}
    (hpiece : takeEscape c.advance = .ok (piece, c₁)) :
    takeQuotedWord true (fuel + 1) c = do
      let (more, c) ← takeQuotedWord true fuel c₁
      return (piece ++ more, c) := by
  rw [takeQuotedWord, takeWhile_isQuotedText hrest (by decide)]
  simp only [Cursor.next?, hrest, List.head?_cons, hpiece]
  rfl

theorem takeEscape_letter {l p : CodePoint} (hrest : c.rest = l :: r)
    (hl : escapeLetter? l = some p) : takeEscape c = .ok ([p], c.skip 1) := by
  simp only [takeEscape, Cursor.next?, hrest, List.head?_cons, hl]
  rfl

theorem takeEscape_unit {digits : Text} {n : Nat} (hwrites : Hex.Writes 4 digits n)
    (hn : n < 0x110000) (hrest : c.rest = CodePoint.ofChar 'u' :: (digits ++ r)) :
    takeEscape c = .ok ([CodePoint.ofNat n], c.skip 5) := by
  have hletter : escapeLetter? (CodePoint.ofChar 'u') = none := by decide
  have hwidth : escapeWidth? (CodePoint.ofChar 'u') = some 4 := by decide
  have hdigits : Hex.take? 4 c.advance.rest = some (n, r) := by
    rw [Cursor.rest_advance, hrest, List.tail_cons, Hex.take?_append hwrites]
  simp only [takeEscape, Cursor.next?, hrest, List.head?_cons, hletter, hwidth, hdigits,
    escapeValue, if_pos hn]
  rfl

/-- A word ends before a space and before the closing quote. -/
theorem takeQuotedWord_end (hrest : c.rest = x :: r)
    (hx : x = CodePoint.ofChar ' ' ∨ x = quotationMark) :
    takeQuotedWord true (fuel + 1) c = .ok ([], c) := by
  have hquoted : isQuotedText x = false := by rcases hx with rfl | rfl <;> decide
  rw [takeQuotedWord, takeWhile_isQuotedText hrest hquoted]
  simp only [Cursor.next?, hrest, List.head?_cons]
  rcases hx with rfl | rfl <;> rfl

end

theorem takeQuotedWord_word {w s : Text} (h : Word w s) {c : Cursor} {x : CodePoint} {r : Text}
    (hrest : c.rest = w ++ x :: r) (hx : x = CodePoint.ofChar ' ' ∨ x = quotationMark)
    {fuel : Nat} (hfuel : w.length < fuel) :
    takeQuotedWord true fuel c = .ok (s, c.skip w.length) := by
  induction h generalizing c fuel with
  | nil =>
    obtain ⟨fuel, rfl⟩ := Nat.exists_eq_succ_of_ne_zero (Nat.ne_of_gt hfuel)
    exact takeQuotedWord_end hrest hx
  | @cons u t s p hu hword ih =>
    obtain ⟨fuel, rfl⟩ := Nat.exists_eq_succ_of_ne_zero (Nat.ne_zero_of_lt hfuel)
    rw [List.append_assoc] at hrest
    have hafter : (c.skip u.length).rest = t ++ x :: r := by
      rw [Cursor.rest_skip, hrest, List.drop_left]
    rw [List.length_append] at hfuel ⊢
    rw [← Cursor.skip_skip]
    have hnext : ∀ {d : CodePoint} {u : Text}, c.rest = d :: u → c.advance.rest = u := by
      intro d u hu
      rw [Cursor.rest_advance, hu, List.tail_cons]
    cases hu with
    | plain hplain =>
      rw [List.length_singleton] at hfuel hafter
      rw [takeQuotedWord_plain hrest hplain, Cursor.advance_eq_skip, ih hafter (by omega)]
      rfl
    | apostrophe =>
      rw [List.length_singleton] at hfuel hafter
      rw [takeQuotedWord_apostrophe hrest, Cursor.advance_eq_skip, ih hafter (by omega)]
      rfl
    | @letter l _ hletter =>
      have hlength : [backslash, l].length = 2 := rfl
      rw [hlength] at hfuel hafter
      have hpiece := takeEscape_letter (hnext hrest) hletter
      rw [takeQuotedWord_escape hrest hpiece, Cursor.advance_eq_skip, Cursor.skip_skip,
        ih hafter (by omega)]
      rfl
    | @unit digits _ hwrites hn =>
      have hlength : (unitText digits).length = 6 := congrArg (· + 2) hwrites.length
      rw [hlength] at hfuel hafter
      have hpiece := takeEscape_unit hwrites hn (hnext hrest)
      rw [takeQuotedWord_escape hrest hpiece, Cursor.advance_eq_skip, Cursor.skip_skip,
        ih hafter (by omega), hlength]
      rfl

/-! ## Reading scalars -/

theorem takeWhile_append_of_head? {p : CodePoint → Bool} {spaces t : Text}
    (hspaces : ∀ c ∈ spaces, p c = true) (ht : ∀ c ∈ t.head?, p c = false) :
    (spaces ++ t).takeWhile p = spaces := by
  rw [List.takeWhile_append_of_pos hspaces]
  cases t with
  | nil => rw [List.takeWhile_nil, List.append_nil]
  | cons c t =>
    have hc := ht c (by rw [List.head?_cons, Option.mem_some_iff])
    rw [List.takeWhile_cons_of_neg (by simp [hc]), List.append_nil]

/-- Spaces inside a line stay as they are. -/
theorem takeQuotedSpaces_spaces {c : Cursor} {spaces : Text} {x : CodePoint} {r : Text}
    (hrest : c.rest = spaces ++ x :: r) (hspaces : ∀ c ∈ spaces, c = CodePoint.ofChar ' ')
    (hx : isSpace x = false ∧ isBreak x = false) :
    takeQuotedSpaces c = .ok (spaces, c.skip spaces.length) := by
  have htake : c.rest.takeWhile isSpace = spaces := by
    rw [hrest]
    refine takeWhile_append_of_head? (fun d hd => ?_) fun d hd => ?_
    · rw [hspaces d hd]
      decide
    · obtain rfl := Option.mem_some_iff.1 hd
      exact hx.1
  have hnext : (c.skip spaces.length).next? = some x := by
    rw [Cursor.next?, Cursor.rest_skip, hrest, List.drop_left, List.head?_cons]
  simp only [takeQuotedSpaces, Cursor.takeWhile_eq, htake, hnext, hx.2, Bool.false_eq_true,
    if_false]

theorem takeQuotedRest_words {t s : Text} (h : Words t s) {c : Cursor} {r : Text}
    (hrest : c.rest = t ++ quotationMark :: r) {fuel : Nat} (hfuel : t.length < fuel) :
    takeQuotedRest true fuel c = .ok (s, c.skip (t.length + 1)) := by
  induction h generalizing c fuel with
  | @last t s hword =>
    obtain ⟨fuel, rfl⟩ := Nat.exists_eq_succ_of_ne_zero (Nat.ne_zero_of_lt hfuel)
    have hlength : t.length < c.rest.length + 1 := by
      rw [hrest, List.length_append]
      omega
    have hread := takeQuotedWord_word hword hrest (.inr rfl) hlength
    have hafter : (c.skip t.length).rest = quotationMark :: r := by
      rw [Cursor.rest_skip, hrest, List.drop_left]
    rw [takeQuotedRest, hread]
    simp only [bind, Except.bind, if_true, Cursor.at_of_cons hafter, decide_true, pure, Except.pure,
      Cursor.advance_eq_skip, Cursor.skip_skip]
  | @more t s spaces u v hword hne hspaces hat hwords ih =>
    obtain ⟨fuel, rfl⟩ := Nat.exists_eq_succ_of_ne_zero (Nat.ne_zero_of_lt hfuel)
    obtain ⟨y, spaces', rfl⟩ := List.exists_cons_of_ne_nil hne
    obtain rfl := hspaces y List.mem_cons_self
    obtain ⟨x, r', hx, hnext⟩ : ∃ x r', (isSpace x = false ∧ isBreak x = false) ∧
        u ++ quotationMark :: r = x :: r' := by
      cases u with
      | nil => exact ⟨_, _, ⟨by decide, by decide⟩, rfl⟩
      | cons x u => exact ⟨x, _, hat x rfl, rfl⟩
    have hall : c.rest = t ++ (CodePoint.ofChar ' ' :: spaces' ++ (u ++ quotationMark :: r)) := by
      rw [hrest, List.append_assoc, List.append_assoc]
    rw [List.length_append, List.length_append] at hfuel
    have hlength : t.length < c.rest.length + 1 := by
      rw [hall, List.length_append]
      omega
    have hread := takeQuotedWord_word hword hall (.inl rfl) hlength
    have hafter : (c.skip t.length).rest =
        CodePoint.ofChar ' ' :: spaces' ++ (u ++ quotationMark :: r) := by
      rw [Cursor.rest_skip, hall, List.drop_left]
    have hspace := takeQuotedSpaces_spaces (hnext ▸ hafter) hspaces hx
    have hlast : ((c.skip t.length).skip (CodePoint.ofChar ' ' :: spaces').length).rest =
        u ++ quotationMark :: r := by
      rw [Cursor.rest_skip, hafter, List.drop_left]
    have hshort : u.length < fuel := by
      rw [List.length_cons] at hfuel
      omega
    have hmore := ih hlast hshort
    have hnot : decide (CodePoint.ofChar ' ' = quotationMark) = false := by decide
    have htotal : t.length + ((CodePoint.ofChar ' ' :: spaces').length + (u.length + 1)) =
        (t ++ (CodePoint.ofChar ' ' :: spaces' ++ u)).length + 1 := by
      rw [List.length_append, List.length_append]
      omega
    rw [takeQuotedRest, hread]
    simp only [bind, Except.bind, if_true, Cursor.at_of_cons hafter, hnot, Bool.false_eq_true,
      if_false, hspace, hmore, pure, Except.pure]
    rw [Cursor.skip_skip, Cursor.skip_skip, htotal, List.append_assoc]

/-- A string of printable ASCII is read as a scalar, its code points past the basic plane as
surrogates. -/
theorem takeQuoted_string {t s : Text} (h : StringText t s) (ht : ∀ c ∈ t, c.IsPrinted)
    {c : Cursor} {r : Text} (hrest : c.rest = t ++ r) :
    takeQuoted true c = .ok (s.halved, c.skip t.length) := by
  cases h with
  | @quoted u _ hchars =>
    have hwords := words_of_chars hchars fun d hd =>
      ht d (List.mem_cons_of_mem _ (List.mem_append_left _ hd))
    have hafter : c.advance.rest = u ++ quotationMark :: r := by
      rw [Cursor.rest_advance, hrest, List.cons_append, List.append_assoc, List.tail_cons]
      rfl
    have hlength : u.length < c.rest.length + 1 := by
      rw [hrest, List.length_append, List.length_cons, List.length_append]
      omega
    rw [takeQuoted, takeQuotedRest_words hwords hafter hlength, Cursor.advance_eq_skip,
      Cursor.skip_skip, List.length_cons, List.length_append, List.length_singleton, Nat.add_comm]

end Yaml

end RequestLine
