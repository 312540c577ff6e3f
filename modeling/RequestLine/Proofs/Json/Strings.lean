import RequestLine.Proofs.Json.Grammar

/-!
# Reading strings

* `readUnit_eq_some_iff`: what a numeric escape stands for.
* `readString_append`, `readString_sound`: the reader takes the inside of a string and its closing
  quotation mark, and nothing else.
-/

namespace RequestLine.Json.Reader

open Grammar

theorem after?_eq_some_iff {start t r : Text} : after? start t = some r ↔ t = start ++ r := by
  unfold after?
  constructor
  · intro h
    split at h
    · rename_i hstart
      obtain ⟨s, rfl⟩ := List.isPrefixOf_iff_prefix.1 hstart
      rw [List.drop_left] at h
      rw [Option.some.inj h]
    · cases h
  · rintro rfl
    have hstart : (start ++ r).startsWith start = true :=
      List.isPrefixOf_iff_prefix.2 (List.prefix_append start r)
    rw [if_pos hstart, List.drop_left]

/-! ## Escapes -/

theorem simpleEscape?_eq_some_iff {e c : CodePoint} :
    simpleEscape? e = some c ↔ (e, c) ∈ escapes := by
  constructor
  · intro h
    unfold simpleEscape? at h
    split at h
    · rename_i he
      obtain rfl := Option.some.inj h
      rcases he with rfl | rfl | rfl <;> decide
    · repeat'
        split at h
        · rename_i he
          obtain rfl := Option.some.inj h
          subst he
          decide
      cases h
  · intro h
    have hall : ∀ p ∈ escapes, simpleEscape? p.1 = some p.2 := by decide
    exact hall _ h

/-- The letter of a numeric escape starts no other one. -/
theorem ne_unit_of_mem_escapes {e c : CodePoint} (h : (e, c) ∈ escapes) : e ≠ 'u' := by
  have hall : ∀ p ∈ escapes, p.1 ≠ CodePoint.ofChar 'u' := by decide
  exact hall _ h

theorem lowEscape?_eq_some_iff {t r : Text} {n : Nat} :
    lowEscape? t = some (n, r) ↔
      ∃ digits, t = unitText digits ++ r ∧ Hex.Writes 4 digits n ∧ IsLow n := by
  simp only [lowEscape?, Option.bind_eq_bind, Option.bind_eq_some_iff]
  constructor
  · rintro ⟨u, hu, ⟨m, s⟩, htake, hlow⟩
    rw [after?_eq_some_iff] at hu
    obtain ⟨digits, rfl, hwrites⟩ := Hex.take?_eq_some_iff.1 htake
    split at hlow
    · rename_i hm
      cases hlow
      exact ⟨digits, hu, hwrites, hm⟩
    · cases hlow
  · rintro ⟨digits, rfl, hwrites, hlow⟩
    refine ⟨digits ++ r, after?_eq_some_iff.2 rfl, (n, r), Hex.take?_append hwrites r, ?_⟩
    exact if_pos hlow

theorem lowEscape?_eq_none_iff {t : Text} : lowEscape? t = none ↔ ¬ StartsLow t := by
  constructor
  · rintro h ⟨digits, n, r, ht, hwrites, hlow⟩
    rw [lowEscape?_eq_some_iff.2 ⟨digits, ht, hwrites, hlow⟩] at h
    cases h
  · intro h
    cases hlow : lowEscape? t with
    | none => rfl
    | some x =>
      obtain ⟨digits, ht, hwrites, hn⟩ := lowEscape?_eq_some_iff.1 hlow
      exact absurd ⟨digits, x.1, x.2, ht, hwrites, hn⟩ h

theorem quotationMark_not_mem_unitText {digits : Text} {n : Nat} (h : Hex.Writes 4 digits n) :
    quotationMark ∉ unitText digits := by
  intro hmem
  rw [unitText, List.mem_cons, List.mem_cons] at hmem
  rcases hmem with hb | hu | hd
  · exact absurd hb (by decide)
  · exact absurd hu (by decide)
  · exact h.hexValue?_ne_none _ hd (by decide)

/-- What follows the closing quotation mark of a string belongs to none of its escapes. -/
theorem startsLow_append_iff {t r : Text} :
    StartsLow (t ++ quotationMark :: r) ↔ StartsLow t := by
  constructor
  · rintro ⟨digits, n, s, ht, hwrites, hlow⟩
    rcases List.append_eq_append_iff.1 ht with ⟨a, hu, hs⟩ | ⟨a, rfl, -⟩
    · cases a with
      | nil =>
        rw [List.append_nil] at hu
        exact ⟨digits, n, [], by rw [hu, List.append_nil], hwrites, hlow⟩
      | cons q a =>
        obtain ⟨rfl, -⟩ := List.cons.inj hs
        refine absurd ?_ (quotationMark_not_mem_unitText hwrites)
        rw [hu]
        exact List.mem_append_right t List.mem_cons_self
    · exact ⟨digits, n, a, rfl, hwrites, hlow⟩
  · rintro ⟨digits, n, s, rfl, hwrites, hlow⟩
    exact ⟨digits, n, s ++ quotationMark :: r, List.append_assoc _ _ _, hwrites, hlow⟩

theorem readUnit_of_alone {digits t : Text} {n : Nat} (h : Hex.Writes 4 digits n)
    (halone : ¬ (IsHigh n ∧ StartsLow t)) :
    readUnit (digits ++ t) = some (CodePoint.ofNat n, t) := by
  simp only [readUnit, Hex.take?_append h, Option.bind_eq_bind, Option.bind_some]
  split
  · rename_i hhigh
    rw [lowEscape?_eq_none_iff.2 fun hlow => halone ⟨hhigh, hlow⟩]
  · rfl

theorem readUnit_of_pair {first second : Text} {high low : Nat} (h₁ : Hex.Writes 4 first high)
    (h₂ : Hex.Writes 4 second low) (hhigh : IsHigh high) (hlow : IsLow low) (t : Text) :
    readUnit (first ++ (unitText second ++ t)) = some (joinSurrogates high low, t) := by
  have hescape : lowEscape? (unitText second ++ t) = some (low, t) :=
    lowEscape?_eq_some_iff.2 ⟨second, rfl, h₂, hlow⟩
  have hhigh₁ : 0xD800 ≤ high ∧ high ≤ 0xDBFF := hhigh
  simp only [readUnit, Hex.take?_append h₁, Option.bind_eq_bind, Option.bind_some,
    if_pos hhigh₁, hescape]

/-- A numeric escape is an escape alone or a pair of them. -/
theorem readUnit_eq_some {t r : Text} {p : CodePoint} (h : readUnit t = some (p, r)) :
    (∃ digits n, t = digits ++ r ∧ Hex.Writes 4 digits n ∧ ¬ (IsHigh n ∧ StartsLow r) ∧
        p = CodePoint.ofNat n) ∨
      ∃ first second high low, t = first ++ (unitText second ++ r) ∧ Hex.Writes 4 first high ∧
        Hex.Writes 4 second low ∧ IsHigh high ∧ IsLow low ∧ p = joinSurrogates high low := by
  simp only [readUnit, Option.bind_eq_bind, Option.bind_eq_some_iff] at h
  obtain ⟨⟨n, s⟩, htake, h⟩ := h
  obtain ⟨digits, rfl, hwrites⟩ := Hex.take?_eq_some_iff.1 htake
  split at h
  · rename_i hhigh
    split at h
    · rename_i low u hlow
      obtain ⟨hp, rfl⟩ := Prod.mk.inj (Option.some.inj h)
      obtain ⟨second, rfl, h₂, hn⟩ := lowEscape?_eq_some_iff.1 hlow
      exact .inr ⟨digits, second, n, low, rfl, hwrites, h₂, hhigh, hn, hp.symm⟩
    · rename_i hnone
      cases h
      exact .inl ⟨digits, n, rfl, hwrites, fun ha => lowEscape?_eq_none_iff.1 hnone ha.2, rfl⟩
  · rename_i hhigh
    cases h
    exact .inl ⟨digits, n, rfl, hwrites, fun ha => hhigh ha.1, rfl⟩

/-! ## Strings -/

theorem readString_closing (fuel : Nat) (r : Text) :
    readString (fuel + 1) (quotationMark :: r) = some ([], r) := if_pos rfl

theorem readString_plain {c : CodePoint} (hq : c ≠ quotationMark) (hb : c ≠ backslash)
    (hc : 0x20 ≤ c.val) (fuel : Nat) (r : Text) :
    readString (fuel + 1) (c :: r) = (readString fuel r).map fun x => (c :: x.1, x.2) := by
  rw [readString, if_neg hq, if_neg hb, if_neg (by omega)]

theorem readString_escape {p : CodePoint} {r s : Text} (h : readEscape r = some (p, s))
    (fuel : Nat) :
    readString (fuel + 1) (backslash :: r) =
      (readString fuel s).map fun x => (p :: x.1, x.2) := by
  rw [readString, if_neg (by decide), if_pos rfl, h]

theorem readEscape_of_mem {e c : CodePoint} (h : (e, c) ∈ escapes) (r : Text) :
    readEscape (e :: r) = some (c, r) := by
  rw [readEscape, if_neg (ne_unit_of_mem_escapes h), simpleEscape?_eq_some_iff.2 h]
  rfl

theorem readEscape_unit (r : Text) : readEscape (CodePoint.ofChar 'u' :: r) = readUnit r := by
  rw [readEscape, if_pos rfl]

/-- The inside of a string is read up to the closing quotation mark. -/
theorem readString_append {t s : Text} (h : Chars t s) (r : Text) {fuel : Nat}
    (hfuel : t.length < fuel) : readString fuel (t ++ quotationMark :: r) = some (s, r) := by
  obtain ⟨fuel, rfl⟩ : ∃ k, fuel = k + 1 := ⟨fuel - 1, by omega⟩
  induction h generalizing fuel with
  | nil => exact readString_closing fuel r
  | plain hq hb hc _ ih =>
    simp only [List.length_cons] at hfuel
    obtain ⟨fuel, rfl⟩ : ∃ k, fuel = k + 1 := ⟨fuel - 1, by omega⟩
    rw [List.cons_append, readString_plain hq hb hc, ih fuel (by omega)]
    rfl
  | escape he _ ih =>
    simp only [List.length_cons] at hfuel
    obtain ⟨fuel, rfl⟩ : ∃ k, fuel = k + 1 := ⟨fuel - 1, by omega⟩
    rw [List.cons_append, List.cons_append, readString_escape (readEscape_of_mem he _),
      ih fuel (by omega)]
    rfl
  | @unit c digits t s n hwrites halone hc _ ih =>
    have hread : readUnit (digits ++ (t ++ quotationMark :: r)) =
        some (c, t ++ quotationMark :: r) := by
      rw [hc]
      refine readUnit_of_alone hwrites fun ha => halone ⟨ha.1, ?_⟩
      exact startsLow_append_iff.1 ha.2
    simp only [unitText, List.cons_append, List.length_cons, List.length_append] at hfuel
    obtain ⟨fuel, rfl⟩ : ∃ k, fuel = k + 1 := ⟨fuel - 1, by omega⟩
    rw [unitText, List.cons_append, List.cons_append, List.cons_append, List.cons_append,
      List.append_assoc, readString_escape ((readEscape_unit _).trans hread), ih fuel (by omega)]
    rfl
  | @pair c first second t s high low h₁ h₂ hhigh hlow hc _ ih =>
    have hread := readUnit_of_pair h₁ h₂ hhigh hlow (t ++ quotationMark :: r)
    rw [← hc] at hread
    simp only [unitText, List.cons_append, List.length_cons, List.length_append] at hfuel
    obtain ⟨fuel, rfl⟩ : ∃ k, fuel = k + 1 := ⟨fuel - 1, by omega⟩
    rw [unitText, List.cons_append, List.cons_append, List.cons_append, List.cons_append,
      List.append_assoc, List.append_assoc,
      readString_escape ((readEscape_unit _).trans hread), ih fuel (by omega)]
    rfl

/-- What is read after a backslash continues the inside of a string. -/
theorem readEscape_sound {u t s r : Text} {p : CodePoint}
    (h : readEscape u = some (p, t ++ quotationMark :: r)) (ht : Chars t s) :
    ∃ v, backslash :: u = v ++ quotationMark :: r ∧ Chars v (p :: s) := by
  cases u with
  | nil => cases h
  | cons e u =>
    by_cases he : e = CodePoint.ofChar 'u'
    · subst he
      rw [readEscape_unit] at h
      rcases readUnit_eq_some h with
        ⟨digits, n, rfl, hwrites, halone, hp⟩ |
        ⟨first, second, high, low, rfl, h₁, h₂, hhigh, hlow, hp⟩
      · rw [startsLow_append_iff] at halone
        refine ⟨unitText digits ++ t, ?_, .unit hwrites halone hp ht⟩
        simp [unitText]
      · refine ⟨unitText first ++ (unitText second ++ t), ?_, .pair h₁ h₂ hhigh hlow hp ht⟩
        simp [unitText]
    · rw [readEscape, if_neg he, Option.map_eq_some_iff] at h
      obtain ⟨c, hc, hx⟩ := h
      cases hx
      exact ⟨backslash :: e :: t, rfl, .escape (simpleEscape?_eq_some_iff.1 hc) ht⟩

/-- Whatever is read as a string is the inside of one with its closing quotation mark. -/
theorem readString_sound {fuel : Nat} {u s r : Text} (h : readString fuel u = some (s, r)) :
    ∃ t, u = t ++ quotationMark :: r ∧ Chars t s := by
  induction fuel generalizing u s with
  | zero => cases u <;> cases h
  | succ fuel ih =>
    cases u with
    | nil => cases h
    | cons c u =>
      by_cases hq : c = quotationMark
      · subst hq
        rw [readString_closing] at h
        cases h
        exact ⟨[], rfl, .nil⟩
      by_cases hb : c = backslash
      · subst hb
        cases hescape : readEscape u with
        | none =>
          rw [readString, if_neg hq, if_pos rfl, hescape] at h
          cases h
        | some x =>
          rw [readString_escape hescape, Option.map_eq_some_iff] at h
          obtain ⟨⟨s₁, r₁⟩, hread, hs⟩ := h
          cases hs
          obtain ⟨t, ht, hchars⟩ := ih hread
          rw [← Prod.eta x, ht] at hescape
          exact readEscape_sound hescape hchars
      · by_cases hc : 0x20 ≤ c.val
        · rw [readString_plain hq hb hc, Option.map_eq_some_iff] at h
          obtain ⟨⟨s₁, r₁⟩, hread, hs⟩ := h
          cases hs
          obtain ⟨t, rfl, ht⟩ := ih hread
          exact ⟨c :: t, rfl, .plain hq hb hc ht⟩
        · rw [readString, if_neg hq, if_neg hb, if_pos (by omega)] at h
          cases h

end RequestLine.Json.Reader
