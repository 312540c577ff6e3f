import Mathlib.Data.List.SplitBy
import RequestLine.Proofs.Json.StatementText
import RequestLine.Proofs.Json.WrittenNumbers
import RequestLine.Yaml.Printer

/-!
# The end of a YAML document

A document ends with the written form of its innermost last value. Only a text can be written so
that white space stands at its end, and only without quotes: the white space that keeps a text from
being plain is the space and the breaks of lines, not that of other scripts.

* `Scalar.Frays`: the texts whose written form ends with white space; `Scalar.endsSolid_write`,
  `Scalar.endsBlank_write`.
* `Json.EndsWith`: the innermost last value of a value.
* `exists_render_eq`: a document is a text that the last value ends, and a line feed.
* `trimEnd_render_eq_iff`: when trimming takes no more than the line feed.
-/

namespace RequestLine

/-! ## Texts that end with white space -/

namespace Text

/-- The text ends with white space. -/
def EndsBlank (t : Text) : Prop := ∃ r c, t = r ++ [c] ∧ c.isBlank = true

theorem EndsBlank.ne_nil {t : Text} (h : EndsBlank t) : t ≠ [] := by
  obtain ⟨r, c, rfl, -⟩ := h
  simp

theorem endsSolid_or_endsBlank {t : Text} (h : t ≠ []) : EndsSolid t ∨ EndsBlank t := by
  rcases List.eq_nil_or_concat t with rfl | ⟨r, c, rfl⟩
  · exact absurd rfl h
  · rw [List.concat_eq_append]
    cases hc : c.isBlank with
    | false => exact .inl ⟨r, c, rfl, hc⟩
    | true => exact .inr ⟨r, c, rfl, hc⟩

theorem EndsBlank.not_endsSolid {t : Text} (h : EndsBlank t) : ¬ EndsSolid t := by
  rintro ⟨r, c, rfl, hc⟩
  obtain ⟨u, d, heq, hd⟩ := h
  obtain rfl := List.singleton_inj.1 (List.append_inj' heq rfl).2
  rw [hc] at hd
  cases hd

theorem EndsSolid.of_suffix {s t : Text} (h : EndsSolid s) (hs : s <:+ t) : EndsSolid t := by
  obtain ⟨a, rfl⟩ := hs
  exact h.append a

theorem EndsBlank.of_suffix {s t : Text} (h : EndsBlank s) (hs : s <:+ t) : EndsBlank t := by
  obtain ⟨a, rfl⟩ := hs
  obtain ⟨r, c, rfl, hc⟩ := h
  exact ⟨a ++ r, c, by rw [List.append_assoc], hc⟩

theorem isBlank_lineFeed : ∀ c ∈ Text.ofString "\n", c.isBlank = true := by decide

theorem suffix_joinWith (separator : Text) (ps : List Text) (p : Text) :
    p <:+ joinWith separator (ps ++ [p]) := by
  by_cases hps : ps = []
  · rw [hps, List.nil_append, joinWith_singleton]
  · rw [joinWith_append separator hps (List.cons_ne_nil p []), joinWith_singleton,
      ← List.append_assoc]
    exact List.suffix_append _ p

end Text

namespace Yaml

/-! ## Written texts -/

namespace Scalar

/-- The text is written plain although it ends with white space. -/
def Frays (t : Text) : Prop := styleOf t = .plain ∧ t.EndsBlank

theorem foldPlain_suffix (indent : Nat) {last : Text} (hlast : last ≠ Text.ofString " ")
    (runs : List Text) (column : Nat) : last <:+ foldPlain indent column (runs ++ [last]) := by
  induction runs generalizing column with
  | nil =>
    rw [List.nil_append, foldPlain, if_neg (fun h => hlast h.1), foldPlain, List.append_nil]
  | cons run runs ih =>
    rw [List.cons_append, foldPlain]
    split_ifs
    · exact (ih indent).trans (List.suffix_append _ _)
    · exact (ih _).trans (List.suffix_append _ _)

theorem ne_nil_of_plain {t : Text} (h : styleOf t = .plain) : t ≠ [] := by
  rintro rfl
  revert h
  decide

theorem allowsPlain_of_plain {t : Text} (h : styleOf t = .plain) : allowsPlain t = true := by
  by_contra hplain
  rw [styleOf, if_neg hplain] at h
  split at h <;> cases h

/-- The last code point of a plain text is the last one of its written form. -/
theorem exists_suffix_write {t : Text} (h : styleOf t = .plain) (split : Bool)
    (indent column : Nat) :
    ∃ last, last ≠ [] ∧ last <:+ t ∧ last <:+ write split indent column t := by
  have ht := ne_nil_of_plain h
  rw [write, h]
  cases split with
  | false => exact ⟨t, ht, List.suffix_refl t, List.suffix_refl t⟩
  | true =>
    obtain ⟨runs, last, hruns⟩ : ∃ runs last, t.splitBy sameRun = runs ++ [last] := by
      rcases List.eq_nil_or_concat (t.splitBy sameRun) with hnil | ⟨runs, last, hconcat⟩
      · exact absurd (List.splitBy_eq_nil.1 hnil) ht
      · exact ⟨runs, last, by rw [hconcat, List.concat_eq_append]⟩
    have hflat : runs.flatten ++ last = t := by
      rw [← List.flatten_splitBy sameRun t, hruns, List.flatten_append, List.flatten_singleton]
    have hne : last ≠ [] := by
      refine List.ne_nil_of_mem_splitBy (r := sameRun) (l := t) ?_
      rw [hruns]
      exact List.mem_append_right _ (List.mem_singleton_self last)
    -- a plain text does not end with a space
    have hspace : last ≠ Text.ofString " " := by
      rintro rfl
      have hgap : hasOuterGap t = true := by
        rw [← hflat]
        simp [hasOuterGap, Text.ofString, CodePoint.val_ofChar]
      have hplain := allowsPlain_of_plain h
      simp [allowsPlain, hgap] at hplain
    refine ⟨last, hne, ⟨_, hflat⟩, ?_⟩
    simp only [hruns, if_true]
    exact foldPlain_suffix indent hspace runs column

theorem endsBlank_write {t : Text} (h : Frays t) (split : Bool) (indent column : Nat) :
    (write split indent column t).EndsBlank := by
  obtain ⟨last, hne, ht, hwritten⟩ := exists_suffix_write h.1 split indent column
  rcases Text.endsSolid_or_endsBlank hne with hsolid | hblank
  · exact absurd (hsolid.of_suffix ht) h.2.not_endsSolid
  · exact hblank.of_suffix hwritten

theorem endsSolid_write {t : Text} (h : ¬ Frays t) (split : Bool) (indent column : Nat) :
    (write split indent column t).EndsSolid := by
  cases hstyle : styleOf t with
  | plain =>
    obtain ⟨last, hne, ht, hwritten⟩ := exists_suffix_write hstyle split indent column
    rcases Text.endsSolid_or_endsBlank hne with hsolid | hblank
    · exact hsolid.of_suffix hwritten
    · exact absurd ⟨hstyle, hblank.of_suffix ht⟩ h
  | single =>
    rw [write, hstyle]
    exact ⟨_, CodePoint.ofChar '\x27', rfl, by decide⟩
  | double =>
    rw [write, hstyle]
    exact ⟨_, CodePoint.ofChar '\x22', rfl, by decide⟩

end Scalar

/-! ## Written scalars -/

theorem endsSolid_integerText (i : Int) : (integerText i).EndsSolid := by
  have hdigits := (allDigits_decimalDigits i.natAbs).endsSolid (decimalDigits_ne_nil _)
  cases i with
  | ofNat n => exact hdigits
  | negSucc n => exact hdigits.append [CodePoint.ofChar '-']

theorem endsSolid_writeNumber (n : Number) : (NumberStyle.yaml.writeNumber n).EndsSolid := by
  cases n with
  | int i => exact endsSolid_integerText i
  | double x =>
    cases x with
    | nan => exact ⟨Text.ofString ".na", 'n', rfl, by decide⟩
    | infinite negative =>
      cases negative with
      | false => exact ⟨Text.ofString ".in", 'f', rfl, by decide⟩
      | true => exact ⟨Text.ofString "-.in", 'f', rfl, by decide⟩
    | finite negative m =>
      by_cases hm : m.units = 0
      · rw [NumberStyle.writeNumber, NumberStyle.write, if_pos hm]
        cases negative with
        | false => exact ⟨Text.ofString "0.", '0', rfl, by decide⟩
        | true => exact ⟨Text.ofString "-0.", '0', rfl, by decide⟩
      · have hproper := Decimal.significand_proper (Magnitude.shortest_ne_zero hm)
        have hplaces := NumberStyle.layout_places .yaml hproper
        have hsolid : (NumberStyle.yaml.writeSignificand m.shortest.significand).EndsSolid := by
          rw [← NumberStyle.padded_layout _ hproper]
          exact Json.Grammar.endsSolid_parts hplaces.whole
            (Layout.fraction_fractionText hplaces.fraction) (Layout.exponent_powerText _ _)
        rw [NumberStyle.writeNumber, NumberStyle.write, if_neg hm]
        cases negative with
        | false => exact hsolid
        | true => exact hsolid.append [CodePoint.ofChar '-']

theorem endsSolid_scalarText {v : Json} (h : ∀ t, v = .str t → ¬ Scalar.Frays t)
    (indent column : Nat) : (scalarText indent column v).EndsSolid := by
  cases v with
  | null => exact ⟨Text.ofString "nul", 'l', rfl, by decide⟩
  | bool b =>
    cases b with
    | false => exact ⟨Text.ofString "fals", 'e', rfl, by decide⟩
    | true => exact ⟨Text.ofString "tru", 'e', rfl, by decide⟩
  | num n => exact endsSolid_writeNumber n
  | str t => exact Scalar.endsSolid_write (h t rfl) true indent column
  | arr => exact ⟨[CodePoint.ofChar '['], ']', rfl, by decide⟩
  | obj => exact ⟨[CodePoint.ofChar '\x7b'], '\x7d', rfl, by decide⟩

/-! ## The last value -/

/-- Whether the value is a scalar or an empty collection. -/
def isBare : Json → Bool
  | .arr (_ :: _) | .obj (_ :: _) => false
  | _ => true

/-- The last value of a value, of which every part is the last one. -/
inductive EndsWith (last : Json) : Json → Prop
  | here : isBare last = true → EndsWith last last
  | item {items : List Json} {v : Json} : EndsWith last v → EndsWith last (.arr (items ++ [v]))
  | member {members : List (Text × Json)} {k : Text} {v : Json} : EndsWith last v →
      EndsWith last (.obj (members ++ [(k, v)]))

theorem endsWith_of_bare {last v : Json} (h : isBare v = true) :
    EndsWith last v ↔ last = v := by
  constructor
  · intro hlast
    cases hlast with
    | here => rfl
    | @item items _ _ => cases items <;> cases h
    | @member members _ _ _ => cases members <;> cases h
  · rintro rfl
    exact .here h

theorem endsWith_obj_append {last v : Json} {members : List (Text × Json)} {k : Text} :
    EndsWith last (.obj (members ++ [(k, v)])) ↔ EndsWith last v := by
  refine ⟨fun h => ?_, .member⟩
  generalize hobj : Json.obj (members ++ [(k, v)]) = o at h
  cases h with
  | here hbare =>
    rw [← hobj] at hbare
    cases members <;> cases hbare
  | item => cases hobj
  | member hlast =>
    obtain ⟨-, heq⟩ := List.append_inj' (Json.obj.inj hobj) rfl
    obtain ⟨-, rfl⟩ := Prod.mk.inj (List.singleton_inj.1 heq)
    exact hlast

/-- The last value is a text whose written form ends with white space. -/
def Frays (v : Json) : Prop := ∃ t, EndsWith (.str t) v ∧ Scalar.Frays t

theorem frays_str {t : Text} : Frays (.str t) ↔ Scalar.Frays t := by
  constructor
  · rintro ⟨s, hs, hfrays⟩
    cases (endsWith_of_bare (v := .str t) rfl).1 hs
    exact hfrays
  · exact fun h => ⟨t, .here rfl, h⟩

theorem frays_obj_append {v : Json} {members : List (Text × Json)} {k : Text} :
    Frays (.obj (members ++ [(k, v)])) ↔ Frays v :=
  exists_congr fun _ => and_congr_left' endsWith_obj_append

theorem exists_endsWith (v : Json) : ∃ last, EndsWith last v := by
  induction v with
  | null | bool | num | str => exact ⟨_, .here rfl⟩
  | arr items ih =>
    rcases List.eq_nil_or_concat items with rfl | ⟨items, v, rfl⟩
    · exact ⟨_, .here rfl⟩
    · rw [List.concat_eq_append] at ih ⊢
      obtain ⟨last, hlast⟩ := ih v (List.mem_append_right _ (List.mem_singleton_self v))
      exact ⟨last, hlast.item⟩
  | obj members ih =>
    rcases List.eq_nil_or_concat members with rfl | ⟨members, m, rfl⟩
    · exact ⟨_, .here rfl⟩
    · rw [List.concat_eq_append] at ih ⊢
      obtain ⟨last, hlast⟩ := ih m (List.mem_append_right _ (List.mem_singleton_self m))
      exact ⟨last, hlast.member⟩

/-! ## Documents -/

/-- A member of an object at column `indent`. -/
def memberText (indent : Nat) (m : Text × Json) : Text :=
  if isShortKey m.1 then
    let key := Scalar.write false indent indent m.1
    key ++ ":" ++ afterKey indent (indent + key.length + 1) m.2
  else
    "? " ++ Scalar.write true (indent + 2) (indent + 2) m.1 ++ Scalar.lineStart indent ++ ":" ++
      afterMark indent m.2

theorem memberLines_eq_map (indent : Nat) (members : List (Text × Json)) :
    memberLines indent members = members.map (memberText indent) := by
  induction members with
  | nil => rfl
  | cons m members ih => rw [memberLines, ih, List.map_cons, memberText]

theorem itemLines_eq_map (indent : Nat) (items : List Json) :
    itemLines indent items = items.map fun v => Text.ofString "-" ++ afterMark indent v := by
  induction items with
  | nil => rfl
  | cons v items ih => rw [itemLines, ih, List.map_cons]

theorem afterMark_suffix_items (indent : Nat) (items : List Json) (v : Json) :
    afterMark indent v <:+ joinLines indent (itemLines indent (items ++ [v])) := by
  rw [itemLines_eq_map, List.map_append, List.map_singleton]
  exact (List.suffix_append _ _).trans (Text.suffix_joinWith _ _ _)

theorem afterMark_arr (indent : Nat) {items : List Json} (h : items ≠ []) :
    afterMark indent (.arr items) =
      Text.ofString " " ++ joinLines (indent + 2) (itemLines (indent + 2) items) := by
  obtain ⟨v, r, rfl⟩ := List.exists_cons_of_ne_nil h
  rw [afterMark]

theorem afterKey_arr (indent column : Nat) {items : List Json} (h : items ≠ []) :
    afterKey indent column (.arr items) =
      Scalar.lineStart indent ++ joinLines indent (itemLines indent items) := by
  obtain ⟨v, r, rfl⟩ := List.exists_cons_of_ne_nil h
  rw [afterKey]

theorem afterMark_obj (indent : Nat) {members : List (Text × Json)} (h : members ≠ []) :
    afterMark indent (.obj members) =
      Text.ofString " " ++ joinLines (indent + 2) (memberLines (indent + 2) members) := by
  obtain ⟨m, r, rfl⟩ := List.exists_cons_of_ne_nil h
  rw [afterMark]

theorem afterKey_obj (indent column : Nat) {members : List (Text × Json)} (h : members ≠ []) :
    afterKey indent column (.obj members) =
      Scalar.lineStart (indent + 2) ++
        joinLines (indent + 2) (memberLines (indent + 2) members) := by
  obtain ⟨m, r, rfl⟩ := List.exists_cons_of_ne_nil h
  rw [afterKey]

theorem afterMark_bare {v : Json} (h : isBare v = true) (indent : Nat) :
    afterMark indent v = Text.ofString " " ++ scalarText (indent + 2) (indent + 2) v := by
  cases v with
  | null | bool | num | str => rfl
  | arr items => cases items with
    | nil => rfl
    | cons => cases h
  | obj members => cases members with
    | nil => rfl
    | cons => cases h

theorem afterKey_bare {v : Json} (h : isBare v = true) (indent column : Nat) :
    afterKey indent column v = Text.ofString " " ++ scalarText (indent + 2) (column + 1) v := by
  cases v with
  | null | bool | num | str => rfl
  | arr items => cases items with
    | nil => rfl
    | cons => cases h
  | obj members => cases members with
    | nil => rfl
    | cons => cases h

/-- The written form of the value stands at the end of the text, wherever it starts. -/
def EndsText (last : Json) (t : Text) : Prop := ∃ indent column, scalarText indent column last <:+ t

theorem EndsText.of_suffix {last : Json} {s t : Text} (h : EndsText last s) (hs : s <:+ t) :
    EndsText last t := by
  obtain ⟨indent, column, hlast⟩ := h
  exact ⟨indent, column, hlast.trans hs⟩

/-- What ends a value ends what stands after a key, and what stands after a mark. -/
structure EndsAfter (last v : Json) : Prop where
  mark : ∀ indent, EndsText last (afterMark indent v)
  key : ∀ indent column, EndsText last (afterKey indent column v)

theorem EndsAfter.memberLines {last v : Json} (h : EndsAfter last v) (indent : Nat)
    (members : List (Text × Json)) (k : Text) :
    EndsText last (joinLines indent (memberLines indent (members ++ [(k, v)]))) := by
  rw [memberLines_eq_map, List.map_append, List.map_singleton]
  refine EndsText.of_suffix ?_ (Text.suffix_joinWith _ _ _)
  unfold memberText
  split
  · exact (h.key _ _).of_suffix (List.suffix_append _ _)
  · exact (h.mark _).of_suffix (List.suffix_append _ _)

theorem EndsWith.endsAfter {last v : Json} (h : EndsWith last v) : EndsAfter last v := by
  induction h with
  | here hbare =>
    constructor
    · intro indent
      rw [afterMark_bare hbare]
      exact ⟨_, _, List.suffix_append _ _⟩
    · intro indent column
      rw [afterKey_bare hbare]
      exact ⟨_, _, List.suffix_append _ _⟩
  | @item items v _ ih =>
    have hne : items ++ [v] ≠ [] := by simp
    constructor
    · intro indent
      rw [afterMark_arr _ hne]
      exact (ih.mark _).of_suffix
        ((afterMark_suffix_items _ items v).trans (List.suffix_append _ _))
    · intro indent column
      rw [afterKey_arr _ _ hne]
      exact (ih.mark _).of_suffix
        ((afterMark_suffix_items _ items v).trans (List.suffix_append _ _))
  | @member members k v _ ih =>
    have hne : members ++ [(k, v)] ≠ [] := by simp
    constructor
    · intro indent
      rw [afterMark_obj _ hne]
      exact (ih.memberLines _ members k).of_suffix (List.suffix_append _ _)
    · intro indent column
      rw [afterKey_obj _ _ hne]
      exact (ih.memberLines _ members k).of_suffix (List.suffix_append _ _)

/-- A document is a text that its last value ends, and a line feed. -/
theorem exists_render_eq {members : Dictionary Text Json} {last : Json}
    (h : EndsWith last (.obj members)) :
    ∃ t, render members = t ++ Text.ofString "\n" ∧ EndsText last t := by
  cases h with
  | here hbare =>
    cases members with
    | nil => exact ⟨Text.ofString "\x7b\x7d", rfl, 0, 0, List.suffix_refl _⟩
    | cons => cases hbare
  | @member members k v hv =>
    refine ⟨joinLines 0 (memberLines 0 (members ++ [(k, v)])), ?_,
      hv.endsAfter.memberLines 0 members k⟩
    rw [render, if_neg (by simp)]

/-! ## Trimmed documents -/

/-- What trimming takes from the end of a document, beside its line feed, is white space. -/
theorem exists_render_trimEnd (members : Dictionary Text Json) :
    ∃ b : Text, (∀ c ∈ b, c.isBlank = true) ∧
      render members = (render members).trimEnd ++ (b ++ Text.ofString "\n") := by
  obtain ⟨last, hlast⟩ := exists_endsWith (.obj members)
  obtain ⟨t, ht, -⟩ := exists_render_eq hlast
  obtain ⟨b, hb, htrim⟩ := Text.exists_trimEnd_append t
  refine ⟨b, hb, ?_⟩
  rw [ht, Text.trimEnd_append_of_blank t Text.isBlank_lineFeed, ← List.append_assoc, htrim]

/-- Trimming takes the line feed of a document alone, unless its last value frays. -/
theorem trimEnd_render_eq_iff {members : Dictionary Text Json} :
    (render members).trimEnd ++ Text.ofString "\n" = render members ↔ ¬ Frays (.obj members) := by
  constructor
  · rintro h ⟨t, hlast, hfrays⟩
    obtain ⟨u, hu, indent, column, hsuffix⟩ := exists_render_eq hlast
    rw [hu, Text.trimEnd_append_of_blank u Text.isBlank_lineFeed, List.append_left_inj] at h
    have hblank := (Scalar.endsBlank_write hfrays true indent column).of_suffix hsuffix
    have hsolid := Text.endsSolid_trimEnd (t := u) (by rw [h]; exact hblank.ne_nil)
    rw [h] at hsolid
    exact hblank.not_endsSolid hsolid
  · intro h
    obtain ⟨last, hlast⟩ := exists_endsWith (.obj members)
    obtain ⟨u, hu, indent, column, hsuffix⟩ := exists_render_eq hlast
    have hsolid : u.EndsSolid := by
      refine Text.EndsSolid.of_suffix (endsSolid_scalarText ?_ indent column) hsuffix
      rintro t rfl hfrays
      exact h ⟨t, hlast, hfrays⟩
    rw [hu, Text.trimEnd_of_endsSolid hsolid Text.isBlank_lineFeed]

end Yaml

end RequestLine
