import RequestLine.Proofs.Json.Numbers
import RequestLine.Proofs.Json.Strings

/-!
# Reading values

The reader and the grammar agree. Items are treated once for whatever is read between brackets.

* `readSequence_append`, `readSequence_sound`: the items of an array and the members of an object.
* `readValue_append`, `readValue_sound`: values.
* `parse?_eq_some_iff`: the texts that have a value are those of the grammar, with that value.
-/

namespace RequestLine.Json.Reader

open Grammar

/-! ## White space -/

theorem skipBlank_append {b t : Text} (hb : Blank b) (ht : Solid t) : skipBlank (b ++ t) = t := by
  obtain ⟨c, r, rfl, hc⟩ := ht
  rw [skipBlank, List.dropWhile_append_of_pos hb, List.dropWhile_cons_of_neg (by simp [hc])]

theorem exists_blank_append (t : Text) : ∃ b, Blank b ∧ t = b ++ skipBlank t :=
  ⟨t.takeWhile isBlank, fun _ hc => List.mem_takeWhile_imp hc,
    List.takeWhile_append_dropWhile.symm⟩

theorem blank_of_skipBlank {t : Text} (h : skipBlank t = []) : Blank t := by
  intro c hc
  exact List.dropWhile_eq_nil_iff.1 h c hc

theorem skipBlank_of_blank {t : Text} (h : Blank t) : skipBlank t = [] :=
  List.dropWhile_eq_nil_iff.2 h

theorem numberEnds_of_blank {b r : Text} (hb : Blank b) (hr : NumberEnds r) :
    NumberEnds (b ++ r) := by
  cases b with
  | nil => exact hr
  | cons c b =>
    intro d s hd
    obtain ⟨rfl, -⟩ := List.cons.inj hd
    have hblank := hb c List.mem_cons_self
    simp only [isBlank, Bool.or_eq_true, beq_iff_eq] at hblank
    refine ⟨?_, ?_, ?_⟩
    · rw [← Bool.not_eq_true, isDigit_iff]
      omega
    · rintro rfl
      simp [CodePoint.val_ofChar] at hblank
    · rintro (rfl | rfl) <;> simp [CodePoint.val_ofChar] at hblank

theorem numberEnds_cons {c : CodePoint} (hdigit : c.isDigit = false) (hpoint : c ≠ '.')
    (hpower : ¬ (c = 'e' ∨ c = 'E')) (r : Text) : NumberEnds (c :: r) := by
  intro d s hd
  obtain ⟨rfl, -⟩ := List.cons.inj hd
  exact ⟨hdigit, hpoint, hpower⟩

/-! ## Items between brackets -/

/-- What ends items: no white space, no comma, and nothing that a number goes on with. -/
structure Closing (close : CodePoint) : Prop where
  solid : isBlank close = false
  comma : close ≠ CodePoint.ofChar ','
  ends : ∀ r, NumberEnds (close :: r)

theorem closing_bracket : Closing ']' where
  solid := by decide
  comma := by decide
  ends := numberEnds_cons (by decide) (by decide) (by decide)

theorem closing_brace : Closing '\x7d' where
  solid := by decide
  comma := by decide
  ends := numberEnds_cons (by decide) (by decide) (by decide)

theorem numberEnds_comma (r : Text) : NumberEnds (CodePoint.ofChar ',' :: r) :=
  numberEnds_cons (by decide) (by decide) (by decide) r

section Sequence

variable {α γ : Type} {text : γ → Text} {value : γ → α} {item : Text → Option (α × Text)}
  {close : CodePoint}

/-- The item is read where its text stands, and begins with neither white space nor `close`. -/
structure Reads (item : Text → Option (α × Text)) (close : CodePoint) (t : Text) (x : α) :
    Prop where
  read : ∀ r, NumberEnds r → item (t ++ r) = some (x, r)
  begins : ∃ c r, t = c :: r ∧ isBlank c = false ∧ c ≠ close

theorem Reads.solid {t : Text} {x : α} (h : Reads item close t x) : Solid t := by
  obtain ⟨c, r, ht, hc, -⟩ := h.begins
  exact ⟨c, r, ht, hc⟩

theorem readItems_append (hclose : Closing close) {gs : List γ}
    (hgs : ∀ g ∈ gs, Reads item close (text g) (value g)) {t : Text}
    (h : Items (gs.map text) t) (r : Text) {fuel : Nat} (hfuel : gs.length ≤ fuel) :
    readItems item close fuel (skipBlank (t ++ close :: r)) = some (gs.map value, r) := by
  generalize hps : gs.map text = ps at h
  induction h generalizing gs fuel with
  | @last before p after hbefore hafter =>
    obtain ⟨g, rfl, rfl⟩ := List.map_eq_singleton_iff.1 hps
    have hg := hgs g List.mem_cons_self
    obtain ⟨fuel, rfl⟩ : ∃ k, fuel = k + 1 := ⟨fuel - 1, by simp at hfuel; omega⟩
    have hsplit : before ++ (text g ++ after) ++ close :: r =
        before ++ (text g ++ (after ++ close :: r)) := by simp
    have hclosing : skipBlank (after ++ close :: r) = close :: r :=
      skipBlank_append hafter ⟨close, r, rfl, hclose.solid⟩
    rw [hsplit, skipBlank_append hbefore (hg.solid.append _), readItems,
      hg.read _ (numberEnds_of_blank hafter (hclose.ends r))]
    simp only [hclosing, if_true]
    rfl
  | @cons before p after t ps hbefore hafter _ ih =>
    obtain ⟨g, gs, rfl, rfl, rfl⟩ := List.map_eq_cons_iff.1 hps
    have hg := hgs g List.mem_cons_self
    have hrest := fun g₁ hg₁ => hgs g₁ (List.mem_cons_of_mem g hg₁)
    obtain ⟨fuel, rfl⟩ : ∃ k, fuel = k + 1 := ⟨fuel - 1, by simp at hfuel; omega⟩
    have hsplit : before ++ (text g ++ (after ++ CodePoint.ofChar ',' :: t)) ++ close :: r =
        before ++ (text g ++ (after ++ CodePoint.ofChar ',' :: (t ++ close :: r))) := by simp
    have hcomma : skipBlank (after ++ CodePoint.ofChar ',' :: (t ++ close :: r)) =
        CodePoint.ofChar ',' :: (t ++ close :: r) :=
      skipBlank_append hafter ⟨_, _, rfl, by decide⟩
    rw [hsplit, skipBlank_append hbefore (hg.solid.append _), readItems,
      hg.read _ (numberEnds_of_blank hafter (numberEnds_comma _))]
    simp only [hcomma, if_neg hclose.comma.symm, if_true]
    rw [ih hrest (by simpa using hfuel) rfl]
    rfl

theorem readSequence_append (hclose : Closing close) {gs : List γ}
    (hgs : ∀ g ∈ gs, Reads item close (text g) (value g)) {t : Text}
    (h : Separated (gs.map text) t) (r : Text) :
    readSequence item close (t ++ close :: r) = some (gs.map value, r) := by
  generalize hps : gs.map text = ps at h
  cases h with
  | none hblank =>
    obtain rfl := List.map_eq_nil_iff.1 hps
    rw [readSequence, skipBlank_append hblank ⟨close, r, rfl, hclose.solid⟩]
    exact if_pos rfl
  | some hitems =>
    subst hps
    obtain ⟨b, u, p, s, hb, rfl, hp, rfl, hrest⟩ := hitems.exists_first
    have hne : ∀ q ∈ gs.map text, q ≠ [] := by
      intro q hq
      obtain ⟨g, hg, rfl⟩ := List.mem_map.1 hq
      obtain ⟨c, s, hc, -⟩ := (hgs g hg).begins
      rw [hc]
      exact List.cons_ne_nil c s
    have hlen : gs.length ≤ (p ++ s).length := by
      simpa only [List.length_map] using hrest.length_le hne
    obtain ⟨g, hg, rfl⟩ := List.mem_map.1 hp
    obtain ⟨c, u, hc, hblank, hcc⟩ := (hgs g hg).begins
    have hskip : skipBlank (b ++ (text g ++ s) ++ close :: r) = c :: (u ++ (s ++ close :: r)) := by
      have hsplit : b ++ (text g ++ s) ++ close :: r = b ++ (c :: (u ++ (s ++ close :: r))) := by
        simp [hc]
      rw [hsplit, skipBlank_append hb ⟨c, _, rfl, hblank⟩]
    have hfuel : gs.length ≤ (c :: (u ++ (s ++ close :: r))).length := by
      simp only [hc, List.length_append, List.length_cons] at hlen ⊢
      omega
    have hread := readItems_append hclose hgs hitems r hfuel
    rw [hskip] at hread
    rw [readSequence, hskip]
    dsimp only
    rw [if_neg hcc]
    exact hread

variable {P : γ → Prop}

/-- Whatever is read as items is pieces with commas between them and the closing code point. -/
theorem readItems_sound
    (hitem : ∀ t x r, item t = some (x, r) → ∃ g, P g ∧ t = text g ++ r ∧ value g = x)
    {fuel : Nat} {t r : Text} {xs : List α} (h : readItems item close fuel t = some (xs, r)) :
    ∃ (gs : List γ) (inner : Text), (∀ g ∈ gs, P g) ∧ gs.map value = xs ∧ Items (gs.map text) inner ∧
      t = inner ++ close :: r := by
  induction fuel generalizing t xs with
  | zero => cases h
  | succ fuel ih =>
    rw [readItems] at h
    split at h
    · cases h
    · rename_i x s hx
      obtain ⟨g, hg, rfl, rfl⟩ := hitem _ _ _ hx
      obtain ⟨after, hafter, hs⟩ := exists_blank_append s
      split at h
      · cases h
      · rename_i c u hc
        rw [hc] at hs
        split at h
        · rename_i hclose
          cases h
          refine ⟨[g], [] ++ (text g ++ after), ?_, rfl, .last (fun _ hb => by cases hb) hafter, ?_⟩
          · intro g₁ hg₁
            rw [List.mem_singleton.1 hg₁]
            exact hg
          · rw [hs, hclose, List.nil_append, List.append_assoc]
        · split at h
          · rename_i hcomma
            rw [Option.map_eq_some_iff] at h
            obtain ⟨⟨ys, r₁⟩, hrest, hxs⟩ := h
            cases hxs
            obtain ⟨gs, inner, hgs, rfl, hitems, hinner⟩ := ih hrest
            obtain ⟨before, hbefore, hu⟩ := exists_blank_append u
            refine ⟨g :: gs, [] ++ (text g ++ (after ++ CodePoint.ofChar ',' :: (before ++ inner))),
              ?_, rfl, .cons (fun _ hb => by cases hb) hafter (hitems.blank_append hbefore),
              ?_⟩
            · intro g₁ hg₁
              rcases List.mem_cons.1 hg₁ with rfl | hg₁
              · exact hg
              · exact hgs g₁ hg₁
            · rw [hs, hcomma, hu, hinner]
              simp
          · cases h

theorem readSequence_sound
    (hitem : ∀ t x r, item t = some (x, r) → ∃ g, P g ∧ t = text g ++ r ∧ value g = x)
    {t r : Text} {xs : List α} (h : readSequence item close t = some (xs, r)) :
    ∃ (gs : List γ) (inner : Text), (∀ g ∈ gs, P g) ∧ gs.map value = xs ∧ Separated (gs.map text) inner ∧
      t = inner ++ close :: r := by
  obtain ⟨b, hb, ht⟩ := exists_blank_append t
  rw [readSequence] at h
  split at h
  · cases h
  · rename_i c s hc
    rw [hc] at ht
    split at h
    · rename_i hclose
      cases h
      refine ⟨[], b, (fun _ hg => by cases hg), rfl, .none hb, ?_⟩
      rw [ht, hclose]
    · obtain ⟨gs, inner, hgs, hvalue, hitems, hinner⟩ := readItems_sound hitem h
      refine ⟨gs, b ++ inner, hgs, hvalue, .some (hitems.blank_append hb), ?_⟩
      rw [ht, hinner, List.append_assoc]

end Sequence

/-! ## Members -/

theorem readMember_append {value : Text → Option (Json × Text)} {m : Member} (hm : m.Spelled)
    (hvalue : ∀ r, NumberEnds r → value (m.valueText ++ r) = some (m.value, r))
    (hsolid : Solid m.valueText) {r : Text} (hr : NumberEnds r) :
    readMember value (m.text ++ r) = some (m.pair, r) := by
  obtain ⟨name, v, nameText, before, after, valueText⟩ := m
  obtain ⟨hname, hbefore, hafter⟩ := hm
  dsimp only at hname hbefore hafter hvalue hsolid
  cases hname with
  | @quoted t _ ht =>
    have hsplit : Member.text ⟨name, v, quotationMark :: (t ++ [quotationMark]), before, after,
        valueText⟩ ++ r = quotationMark :: (t ++ quotationMark :: (before ++
          CodePoint.ofChar ':' :: (after ++ (valueText ++ r)))) := by
      simp [Member.text]
    have hfuel : t.length < (t ++ quotationMark :: (before ++
        CodePoint.ofChar ':' :: (after ++ (valueText ++ r)))).length := by simp
    have hstring := readString_append ht
      (before ++ CodePoint.ofChar ':' :: (after ++ (valueText ++ r))) hfuel
    have hcolon : skipBlank (before ++ CodePoint.ofChar ':' :: (after ++ (valueText ++ r))) =
        CodePoint.ofChar ':' :: (after ++ (valueText ++ r)) :=
      skipBlank_append hbefore ⟨_, _, rfl, by decide⟩
    rw [hsplit, readMember, if_pos rfl, hstring]
    simp only [hcolon, if_true]
    rw [skipBlank_append hafter (hsolid.append r), hvalue r hr]
    rfl

theorem readMember_sound {value : Text → Option (Json × Text)} {Q : Text → Json → Prop}
    (hvalue : ∀ t v r, value t = some (v, r) → ∃ u, t = u ++ r ∧ Q u v) {t r : Text}
    {x : Text × Json} (h : readMember value t = some (x, r)) :
    ∃ m : Member, (m.Spelled ∧ Q m.valueText m.value) ∧ t = m.text ++ r ∧ m.pair = x := by
  cases t with
  | nil => cases h
  | cons c t =>
    rw [readMember] at h
    split at h
    · rename_i hc
      split at h
      · cases h
      · rename_i name s hname
        obtain ⟨src, rfl, hsrc⟩ := readString_sound hname
        obtain ⟨before, hbefore, hs⟩ := exists_blank_append s
        split at h
        · cases h
        · rename_i d u hd
          rw [hd] at hs
          split at h
          · rename_i hcolon
            rw [Option.map_eq_some_iff] at h
            obtain ⟨⟨v, r₁⟩, hv, hx⟩ := h
            cases hx
            obtain ⟨valueText, hu, hq⟩ := hvalue _ _ _ hv
            obtain ⟨after, hafter, hu₁⟩ := exists_blank_append u
            refine ⟨⟨name, v, quotationMark :: (src ++ [quotationMark]), before, after, valueText⟩,
              ⟨⟨.quoted hsrc, hbefore, hafter⟩, hq⟩, ?_, rfl⟩
            rw [hs, hu₁, hu, hc, hcolon]
            simp [Member.text]
          · cases h
    · cases h

/-! ## Values -/

/-- No constant begins another one. -/
theorem readConstant_append {d : Dialect} {t : Text} {v : Json} (h : (t, v) ∈ constants d)
    (r : Text) : readConstant d (t ++ r) = some (v, r) := by
  cases d with
  | strict =>
    simp only [constants, List.mem_cons, Prod.mk.injEq, List.not_mem_nil, or_false] at h
    rcases h with ⟨rfl, rfl⟩ | ⟨rfl, rfl⟩ | ⟨rfl, rfl⟩ <;> rfl
  | withConstants =>
    simp only [constants, List.mem_cons, Prod.mk.injEq, List.not_mem_nil, or_false] at h
    rcases h with ⟨rfl, rfl⟩ | ⟨rfl, rfl⟩ | ⟨rfl, rfl⟩ | ⟨rfl, rfl⟩ | ⟨rfl, rfl⟩ | ⟨rfl, rfl⟩ <;> rfl

theorem readConstant_sound {d : Dialect} {t r : Text} {v : Json}
    (h : readConstant d t = some (v, r)) : ∃ u, t = u ++ r ∧ (u, v) ∈ constants d := by
  obtain ⟨⟨u, w⟩, hmem, hafter⟩ := List.exists_of_findSome?_eq_some h
  rw [Option.map_eq_some_iff] at hafter
  obtain ⟨s, hs, hx⟩ := hafter
  cases hx
  exact ⟨u, after?_eq_some_iff.1 hs, hmem⟩

/-- A number has a digit among its first two code points, and a constant has none. -/
theorem readConstant_of_whole (d : Dialect) (negative : Bool) {w : Text} (hw : Whole w) (s : Text) :
    readConstant d (minus negative ++ (w ++ s)) = none := by
  obtain ⟨c, w, rfl, hc⟩ := hw.exists_cons
  cases hread : readConstant d (minus negative ++ (c :: w ++ s)) with
  | none => rfl
  | some x =>
    obtain ⟨u, hu, hmem⟩ := readConstant_sound hread
    obtain ⟨hlen, -, hdigit⟩ := constants_spec d _ hmem
    dsimp only at hlen hdigit
    have hcu : c ∈ u := by
      cases u with
      | nil => cases hlen
      | cons a u =>
        cases u with
        | nil =>
          simp only [List.length_singleton] at hlen
          omega
        | cons b u =>
          cases negative with
          | false =>
            obtain ⟨rfl, -⟩ := List.cons.inj hu
            exact List.mem_cons_self
          | true =>
            obtain ⟨-, hu⟩ := List.cons.inj hu
            obtain ⟨rfl, -⟩ := List.cons.inj hu
            exact List.mem_cons_of_mem _ List.mem_cons_self
    rw [hdigit c hcu] at hc
    cases hc

section Values

variable {d : Dialect}

theorem readValue_scalar {c : CodePoint} (hc : c ∉ openings) (depth : Nat) (r : Text) :
    readValue d (depth + 1) (c :: r) =
      (readConstant d (c :: r)).or ((readNumber (c :: r)).map fun x => (.num x.1, x.2)) := by
  have hne : c ≠ CodePoint.ofChar '\x22' ∧ c ≠ CodePoint.ofChar '[' ∧
      c ≠ CodePoint.ofChar '\x7b' := by
    simpa [openings] using hc
  rw [readValue, if_neg hne.1, if_neg hne.2.1, if_neg hne.2.2]
  cases readConstant d (c :: r) <;> rfl

theorem readValue_number {negative : Bool} {w : Text} (hw : Whole w) (depth : Nat) (s : Text) :
    readValue d (depth + 1) (minus negative ++ (w ++ s)) =
      (readNumber (minus negative ++ (w ++ s))).map fun x => (.num x.1, x.2) := by
  have hconstant := readConstant_of_whole d negative hw s
  obtain ⟨c, r, htext, -, hc⟩ := exists_begins_of_whole negative hw s
  rw [htext] at hconstant ⊢
  rw [readValue_scalar hc, hconstant, Option.none_or]

theorem readValue_string (depth : Nat) (r : Text) :
    readValue d (depth + 1) (quotationMark :: r) =
      (readString r.length r).map fun x => (.str x.1, x.2) := by
  rw [readValue, if_pos rfl]

theorem readValue_array (depth : Nat) (r : Text) :
    readValue d (depth + 1) (CodePoint.ofChar '[' :: r) =
      (readSequence (readValue d depth) ']' r).map fun x => (.arr x.1, x.2) := by
  rw [readValue, if_neg (by decide), if_pos rfl]

theorem readValue_object (depth : Nat) (r : Text) :
    readValue d (depth + 1) (CodePoint.ofChar '\x7b' :: r) =
      (readSequence (readMember (readValue d depth)) '\x7d' r).map fun x =>
        (.obj (Dictionary.ofPairs x.1), x.2) := by
  rw [readValue, if_neg (by decide), if_neg (by decide), if_pos rfl]

/-- A value is read where it stands. It is nested no deeper than its text is long. -/
theorem readValue_append {t : Text} {v : Json} (h : Value d t v) {depth : Nat}
    (hdepth : t.length ≤ depth) {r : Text} (hr : NumberEnds r) :
    readValue d depth (t ++ r) = some (v, r) := by
  induction h generalizing depth r with
  | @constant t v hmem =>
    obtain ⟨hlen, hhead, -⟩ := constants_spec d _ hmem
    cases t with
    | nil => cases hlen
    | cons c t =>
      obtain ⟨depth, rfl⟩ : ∃ k, depth = k + 1 := ⟨depth - 1, by simp at hdepth; omega⟩
      have hread := readConstant_append hmem r
      rw [List.cons_append] at hread ⊢
      rw [readValue_scalar (hhead c rfl).2, hread]
      rfl
  | @number t n hn =>
    obtain ⟨negative, w, s, hw, rfl⟩ := hn.exists_whole
    obtain ⟨depth, rfl⟩ : ∃ k, depth = k + 1 := by
      refine ⟨depth - 1, ?_⟩
      have hpos := List.length_pos_iff.2 hw.ne_nil
      simp only [List.length_append] at hdepth
      omega
    rw [List.append_assoc, List.append_assoc, readValue_number hw, ← List.append_assoc w,
      ← List.append_assoc (minus negative), readNumber_append hn hr]
    rfl
  | @string t s hs =>
    cases hs with
    | @quoted src _ hsrc =>
      obtain ⟨depth, rfl⟩ : ∃ k, depth = k + 1 := ⟨depth - 1, by simp at hdepth; omega⟩
      rw [List.cons_append, List.append_assoc, List.singleton_append, readValue_string,
        readString_append hsrc r (by simp)]
      rfl
  | @array items t hitems hseparated ih =>
    obtain ⟨depth, rfl⟩ : ∃ k, depth = k + 1 := ⟨depth - 1, by simp at hdepth; omega⟩
    have hreads : ∀ p ∈ items,
        Reads (readValue d depth) (CodePoint.ofChar ']') p.1 p.2 := by
      intro p hp
      have hlen := hseparated.length_le (List.mem_map_of_mem hp)
      obtain ⟨c, s, hc, hbegins⟩ := (hitems p hp).exists_begins
      simp only [List.length_cons, List.length_append] at hdepth
      exact ⟨fun r hr => ih p hp (by omega) hr, c, s, hc, hbegins.solid, hbegins.bracket⟩
    rw [List.cons_append, List.append_assoc, List.singleton_append, readValue_array,
      readSequence_append closing_bracket hreads hseparated r]
    rfl
  | @object members t hspelled hvalues hseparated ih =>
    obtain ⟨depth, rfl⟩ : ∃ k, depth = k + 1 := ⟨depth - 1, by simp at hdepth; omega⟩
    have hreads : ∀ m ∈ members,
        Reads (readMember (readValue d depth)) (CodePoint.ofChar '\x7d') m.text m.pair := by
      intro m hm
      have hlen := hseparated.length_le (List.mem_map_of_mem hm)
      have hvalueLen : m.valueText.length ≤ m.text.length := by
        simp only [Member.text, List.length_append, List.length_cons]
        omega
      simp only [List.length_cons, List.length_append] at hdepth
      obtain ⟨s, hs⟩ := (hspelled m hm).name.exists_cons
      have hbegins : m.text = quotationMark :: (s ++ (m.beforeColon ++
          CodePoint.ofChar ':' :: (m.afterColon ++ m.valueText))) := by
        rw [Member.text, hs]
        rfl
      refine ⟨fun r hr => ?_, quotationMark, _, hbegins, by decide, by decide⟩
      exact readMember_append (hspelled m hm) (fun r hr => ih m hm (by omega) hr)
        (hvalues m hm).solid hr
    rw [List.cons_append, List.append_assoc, List.singleton_append, readValue_object,
      readSequence_append closing_brace hreads hseparated r]
    rfl

/-- Whatever is read as a value is one. -/
theorem readValue_sound {depth : Nat} {t r : Text} {v : Json}
    (h : readValue d depth t = some (v, r)) : ∃ u, t = u ++ r ∧ Value d u v := by
  induction depth generalizing t r v with
  | zero => cases t <;> cases h
  | succ depth ih =>
    cases t with
    | nil => cases h
    | cons c t =>
      by_cases hc : c ∈ openings
      · simp only [openings, List.mem_cons, List.not_mem_nil, or_false] at hc
        rcases hc with rfl | rfl | rfl
        · rw [readValue_string, Option.map_eq_some_iff] at h
          obtain ⟨⟨s, r₁⟩, hs, hx⟩ := h
          cases hx
          obtain ⟨src, rfl, hsrc⟩ := readString_sound hs
          exact ⟨_, by simp, .string (.quoted hsrc)⟩
        · rw [readValue_array, Option.map_eq_some_iff] at h
          obtain ⟨⟨vs, r₁⟩, hvs, hx⟩ := h
          cases hx
          have hitem : ∀ t x r, readValue d depth t = some (x, r) →
              ∃ p : Text × Json, Value d p.1 p.2 ∧ t = p.1 ++ r ∧ p.2 = x := by
            intro t x r hx
            obtain ⟨u, hu, hv⟩ := ih hx
            exact ⟨(u, x), hv, hu, rfl⟩
          obtain ⟨items, inner, hitems, rfl, hseparated, rfl⟩ := readSequence_sound hitem hvs
          exact ⟨_, by simp, .array hitems hseparated⟩
        · rw [readValue_object, Option.map_eq_some_iff] at h
          obtain ⟨⟨vs, r₁⟩, hvs, hx⟩ := h
          cases hx
          obtain ⟨members, inner, hmembers, rfl, hseparated, rfl⟩ :=
            readSequence_sound (fun t x r hx => readMember_sound (fun _ _ _ hv => ih hv) hx) hvs
          exact ⟨_, by simp, .object (fun m hm => (hmembers m hm).1)
            (fun m hm => (hmembers m hm).2) hseparated⟩
      · rw [readValue_scalar hc, Option.or_eq_some_iff] at h
        rcases h with h | ⟨-, h⟩
        · obtain ⟨u, hu, hmem⟩ := readConstant_sound h
          exact ⟨u, hu, .constant hmem⟩
        · rw [Option.map_eq_some_iff] at h
          obtain ⟨⟨n, r₁⟩, hn, hx⟩ := h
          cases hx
          obtain ⟨u, hu, hnumber⟩ := readNumber_sound hn
          exact ⟨u, hu, .number hnumber⟩

end Values

end Reader

/-- The texts that have a value are those of the grammar, with that value. -/
theorem parse?_eq_some_iff {d : Dialect} {t : Text} {v : Json} :
    parse? d t = some v ↔ Grammar.Document d t v := by
  unfold parse?
  constructor
  · intro h
    split at h
    · rename_i w r hread
      split at h
      · rename_i hblank
        cases h
        obtain ⟨before, hbefore, ht⟩ := Reader.exists_blank_append t
        obtain ⟨u, hu, hvalue⟩ := Reader.readValue_sound hread
        rw [ht, hu]
        exact .framed hbefore (Reader.blank_of_skipBlank hblank) hvalue
      · cases h
    · cases h
  · intro h
    cases h with
    | @framed before u after _ hbefore hafter hvalue =>
      have hskip : Reader.skipBlank (before ++ (u ++ after)) = u ++ after :=
        Reader.skipBlank_append hbefore (hvalue.solid.append after)
      have hends : Reader.NumberEnds after := by
        simpa using Reader.numberEnds_of_blank hafter Reader.NumberEnds.nil
      rw [hskip, Reader.readValue_append hvalue (by simp; omega) hends]
      exact if_pos (Reader.skipBlank_of_blank hafter)

end RequestLine.Json
