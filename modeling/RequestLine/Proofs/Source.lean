import Mathlib.Control.Monad.Basic
import RequestLine.Proofs.Text.Lines
import RequestLine.Proofs.Text.Utf8
import RequestLine.Proofs.Traversal
import RequestLine.Source

/-!
# The statements of a file

* `HasMember`: the value of the first entry of a map with a name; `member?_eq_some_iff`.
* `Holds`: the statement that an item of a list holds; `ofItem?_eq_some_iff`.
* `Chosen`: the statements of a text, whatever its data are; `choose_eq_ok_iff`,
  `choose_eq_error_iff`: when these are chosen.
* `load_eq_choose`: the statements of a file.
-/

namespace RequestLine

open Yaml

/-- Only a text is the same key as a text. -/
theorem Yaml.Atom.same_str_iff {a : Atom} {s : Text} : a.same (.str s) = true ↔ a = .str s := by
  cases a <;> simp [same, units?]

namespace Source

/-- The value is a map, and `x` is the value of its first entry with the name. -/
inductive HasMember (d : Data) (v : Value) (name : Text) : Value → Prop
  | entry {before after : List (Atom × Value)} {x : Value} :
      d.collection? v = some (.map (before ++ (.str name, x) :: after)) →
      (∀ p ∈ before, p.1 ≠ .str name) → HasMember d v name x

theorem member?_eq_some_iff {d : Data} {v x : Value} {name : Text} :
    d.member? v name = some x ↔ HasMember d v name x := by
  unfold Data.member?
  constructor
  · intro h
    split at h
    · rename_i entries hmap
      obtain ⟨p, hp, rfl⟩ := Option.map_eq_some_iff.1 h
      obtain ⟨hname, before, after, rfl, hbefore⟩ := List.find?_eq_some_iff_append.1 hp
      obtain ⟨k, x⟩ := p
      obtain rfl := Atom.same_str_iff.1 hname
      refine .entry hmap fun q hq heq => ?_
      have hfirst := hbefore q hq
      rw [heq] at hfirst
      simp [Atom.same_str_iff.2 rfl] at hfirst
    · cases h
  · intro h
    cases h with
    | @entry before after _ hmap hbefore =>
      have hfirst : ∀ p ∈ before, (!p.1.same (.str name)) = true := by
        intro p hp
        rw [Bool.not_eq_true', ← Bool.not_eq_true, Atom.same_str_iff]
        exact hbefore p hp
      simp only [hmap, Option.map_eq_some_iff]
      exact ⟨_, List.find?_eq_some_iff_append.2 ⟨Atom.same_str_iff.2 rfl, _, _, rfl, hfirst⟩, rfl⟩

/-- The item is a text, or a map whose member is one. -/
inductive Holds (d : Data) : Value → Text → Prop
  | text (s : Text) : Holds d (.atom (.str s)) s
  | member {v : Value} {s : Text} : HasMember d v memberName (.atom (.str s)) → Holds d v s

theorem textOf?_eq_some_iff {v : Value} {s : Text} : textOf? v = some s ↔ v = .atom (.str s) := by
  unfold textOf?
  split <;> simp_all

theorem ofItem?_eq_some_iff {d : Data} {v : Value} {s : Text} :
    ofItem? d v = some s ↔ Holds d v s := by
  rw [ofItem?, Option.or_eq_some_iff, Option.bind_eq_some_iff]
  constructor
  · rintro (h | ⟨-, x, hx, hs⟩)
    · rw [textOf?_eq_some_iff.1 h]
      exact .text s
    · rw [textOf?_eq_some_iff.1 hs, member?_eq_some_iff] at hx
      exact .member hx
  · intro h
    cases h with
    | text => exact .inl rfl
    | member hmember =>
      -- a map is no text
      have hnone : textOf? v = none := by
        cases hmember with
        | entry hmap =>
          cases v with
          | atom => cases hmap
          | collection => rfl
      exact .inr ⟨hnone, _, member?_eq_some_iff.2 hmember, rfl⟩

theorem ofItems?_eq_some_iff {d : Data} {ss : List Text} :
    ofItems? d = some ss ↔
      ∃ items, d.collection? d.root = some (.list items) ∧ items ≠ [] ∧
        List.Forall₂ (Holds d) items ss := by
  have hitems : ∀ items, items.mapM (ofItem? d) = some ss ↔ List.Forall₂ (Holds d) items ss := by
    intro items
    rw [mapM_eq_some_iff]
    exact ⟨fun h => h.imp fun _ _ => ofItem?_eq_some_iff.1,
      fun h => h.imp fun _ _ => ofItem?_eq_some_iff.2⟩
  unfold ofItems?
  constructor
  · intro h
    split at h
    · rename_i items hlist
      split at h
      · cases h
      · rename_i hne
        exact ⟨items, hlist, fun hnil => hne (by rw [hnil]; rfl), (hitems items).1 h⟩
    · cases h
  · rintro ⟨items, hlist, hne, hall⟩
    simp only [hlist, List.isEmpty_iff, if_neg hne]
    exact (hitems items).2 hall

/-- The data is a map with a statement, or a list whose items all hold one. -/
inductive Structured (d : Data) : Prop
  | map {v : Value} : HasMember d d.root memberName v → Structured d
  | list {items : List Value} : d.collection? d.root = some (.list items) → items ≠ [] →
      (∀ v ∈ items, ∃ s, Holds d v s) → Structured d

/-- The statements of a text with its data, if it has any: the member of a map as a text, the
statements of all items of a list, or else the lines that are not blank. -/
inductive Chosen (order : SetOrder) (t : Text) : Option Data → List Text → Prop
  | single {d : Data} {v : Value} {s : Text} : HasMember d d.root memberName v →
      d.display? order v = some s → Chosen order t (some d) [s]
  | items {d : Data} {items : List Value} {ss : List Text} :
      d.collection? d.root = some (.list items) → items ≠ [] → List.Forall₂ (Holds d) items ss →
      Chosen order t (some d) ss
  | lines {data : Option Data} {ls : List Text} : (∀ d, data = some d → ¬ Structured d) →
      Text.Parted t ls → Chosen order t data (ls.filter fun l => !Text.isBlank l)

/-! ## Choosing -/

section

variable {order : SetOrder} {d : Data} {t : Text}

theorem exists_forall₂_holds {items : List Value} (h : ∀ v ∈ items, ∃ s, Holds d v s) :
    ∃ ss, List.Forall₂ (Holds d) items ss := by
  induction items with
  | nil => exact ⟨[], .nil⟩
  | cons v items ih =>
    obtain ⟨s, hs⟩ := h v List.mem_cons_self
    obtain ⟨ss, hss⟩ := ih fun w hw => h w (List.mem_cons_of_mem v hw)
    exact ⟨s :: ss, .cons hs hss⟩

/-- Data without structure has no statements of its own. -/
theorem not_structured_iff :
    ¬ Structured d ↔ d.member? d.root memberName = none ∧ ofItems? d = none := by
  constructor
  · intro h
    refine ⟨Option.eq_none_iff_forall_ne_some.2 fun v hv => ?_,
      Option.eq_none_iff_forall_ne_some.2 fun ss hss => ?_⟩
    · exact h (.map (member?_eq_some_iff.1 hv))
    · obtain ⟨items, hlist, hne, hall⟩ := ofItems?_eq_some_iff.1 hss
      exact h (.list hlist hne fun v hv => exists_of_mem_left hall hv)
  · rintro ⟨hmember, hitems⟩ h
    cases h with
    | map hv =>
      rw [member?_eq_some_iff.2 hv] at hmember
      cases hmember
    | list hlist hne hall =>
      obtain ⟨ss, hss⟩ := exists_forall₂_holds hall
      rw [ofItems?_eq_some_iff.2 ⟨_, hlist, hne, hss⟩] at hitems
      cases hitems

theorem choose_of_member {v : Value} {s : Text} (h : HasMember d d.root memberName v)
    (hs : d.display? order v = some s) : choose order (some d) t = .ok [s] := by
  simp only [choose, member?_eq_some_iff.2 h, hs]

theorem choose_of_unwritable {v : Value} (h : HasMember d d.root memberName v)
    (hnone : d.display? order v = none) : choose order (some d) t = .error (.fault .tooManyDigits) := by
  simp only [choose, member?_eq_some_iff.2 h, hnone]

theorem choose_of_list {items : List Value} {ss : List Text}
    (h : d.collection? d.root = some (.list items)) (hne : items ≠ [])
    (hall : List.Forall₂ (Holds d) items ss) : choose order (some d) t = .ok ss := by
  have hmember : d.member? d.root memberName = none := by simp only [Data.member?, h]
  simp only [choose, hmember, ofItems?_eq_some_iff.2 ⟨items, h, hne, hall⟩, Option.getD_some]

theorem choose_of_not_structured {data : Option Data} (h : ∀ d, data = some d → ¬ Structured d) :
    choose order data t = .ok t.filledLines := by
  cases data with
  | none => rfl
  | some d =>
    obtain ⟨hmember, hitems⟩ := not_structured_iff.1 (h d rfl)
    simp only [choose, hmember, hitems, Option.getD_none]

/-- What is chosen. -/
theorem choose_of_chosen {data : Option Data} {ss : List Text} (h : Chosen order t data ss) :
    choose order data t = .ok ss := by
  cases h with
  | single hmember hs => exact choose_of_member hmember hs
  | items hlist hne hall => exact choose_of_list hlist hne hall
  | lines hno hparted =>
    rw [choose_of_not_structured hno, Text.filledLines, Text.parted_iff.1 hparted]

/-- Statements are chosen unless the member of a map has no text. -/
theorem chosen_or_unwritable (order : SetOrder) (data : Option Data) (t : Text) :
    (∃ ss, Chosen order t data ss) ∨
      ∃ d v, data = some d ∧ HasMember d d.root memberName v ∧ d.display? order v = none := by
  by_cases hno : ∀ d, data = some d → ¬ Structured d
  · exact .inl ⟨_, .lines hno (Text.parted_lines t)⟩
  · simp only [not_forall, not_not] at hno
    obtain ⟨d, rfl, hstructured⟩ := hno
    cases hstructured with
    | @map v hmember =>
      cases hdisplay : d.display? order v with
      | some s => exact .inl ⟨_, .single hmember hdisplay⟩
      | none => exact .inr ⟨d, v, rfl, hmember, hdisplay⟩
    | list hlist hne hall =>
      obtain ⟨ss, hss⟩ := exists_forall₂_holds hall
      exact .inl ⟨ss, .items hlist hne hss⟩

theorem choose_eq_ok_iff {data : Option Data} {ss : List Text} :
    choose order data t = .ok ss ↔ Chosen order t data ss := by
  refine ⟨fun h => ?_, choose_of_chosen⟩
  rcases chosen_or_unwritable order data t with ⟨ss₁, hchosen⟩ | ⟨d, v, rfl, hmember, hnone⟩
  · rw [choose_of_chosen hchosen] at h
    cases h
    exact hchosen
  · rw [choose_of_unwritable hmember hnone] at h
    cases h

theorem choose_eq_error_iff {data : Option Data} {e : LoadError} :
    choose order data t = .error e ↔
      e = .fault .tooManyDigits ∧
        ∃ d v, data = some d ∧ HasMember d d.root memberName v ∧ d.display? order v = none := by
  constructor
  · intro h
    rcases chosen_or_unwritable order data t with ⟨ss, hchosen⟩ | ⟨d, v, rfl, hmember, hnone⟩
    · rw [choose_of_chosen hchosen] at h
      cases h
    · rw [choose_of_unwritable hmember hnone] at h
      cases h
      exact ⟨rfl, d, v, rfl, hmember, hnone⟩
  · rintro ⟨rfl, d, v, rfl, hmember, hnone⟩
    exact choose_of_unwritable hmember hnone

end

/-! ## Loading -/

theorem load_eq_ofText (order : SetOrder) {bytes : List UInt8} {t : Text}
    (h : Utf8.decode? bytes = some t) :
    load order bytes = ofText order t.unifyBreaks := by
  rw [load, h]

/-- **The statements of a file.** Whatever the data of the text of a file are, the statements are
those of its structure, and without a structure its lines that are not blank; of a text of rows
these are the rows as they stand. A text that is no document is read by lines, and a document with a
fault in it, or a member that has no text, is refused. -/
theorem load_eq_choose (order : SetOrder) {bytes : List UInt8} {t : Text}
    (h : Utf8.decode? bytes = some t) :
    (∀ data ss, choose order data t.unifyBreaks = .ok ss ↔ Chosen order t.unifyBreaks data ss) ∧
    (∀ data e, choose order data t.unifyBreaks = .error e ↔
      e = .fault .tooManyDigits ∧
        ∃ d v, data = some d ∧ HasMember d d.root memberName v ∧ d.display? order v = none) ∧
    (∀ data ls, (∀ d, data = some d → ¬ Structured d) → Text.Rows ls t →
      choose order data t.unifyBreaks = .ok ls) ∧
    (∀ d, Data.parse? t.unifyBreaks = .ok d → load order bytes = choose order (some d) t.unifyBreaks) ∧
    (Data.parse? t.unifyBreaks = .error .malformed → load order bytes = choose order none t.unifyBreaks) ∧
    ∀ f, Data.parse? t.unifyBreaks = .error (.fault f) → load order bytes = .error (.fault f) := by
  have hload := load_eq_ofText order h
  refine ⟨fun _ _ => choose_eq_ok_iff, fun _ _ => choose_eq_error_iff, fun data ls hno hrows => ?_,
    fun d hd => ?_, fun hd => ?_, fun f hf => ?_⟩
  · rw [choose_of_not_structured hno, Text.filledLines_of_rows hrows]
  · rw [hload, ofText, hd]
  · rw [hload, ofText, hd]
  · rw [hload, ofText, hf]

/-- Rows with each terminator and a blank row between them, in a text without data. -/
theorem load_eq_choose_rows :
    Utf8.decode? ((Text.ofString " a\r\n\t\rb \n").flatMap Utf8.encodePoint) =
        some (Text.ofString " a\r\n\t\rb \n") ∧
      Text.Rows [Text.ofString " a", Text.ofString "b "] (Text.ofString " a\r\n\t\rb \n") ∧
      choose .written none (Text.ofString " a\r\n\t\rb \n").unifyBreaks =
        .ok [Text.ofString " a", Text.ofString "b "] := by
  have hdecode := Utf8.decode?_flatMap_encodePoint (t := Text.ofString " a\r\n\t\rb \n") (by decide)
  have hfirst : Text.IsRow (Text.ofString " a") := ⟨by decide, by decide⟩
  have hsecond : Text.IsRow (Text.ofString "b ") := ⟨by decide, by decide⟩
  have hrows : Text.Rows [Text.ofString " a", Text.ofString "b "]
      (Text.ofString " a\r\n\t\rb \n") :=
    .line (e := "\r\n") hfirst (by decide) (.blank (b := "\t") (e := "\r") (by decide) (by decide)
      (.line (e := "\n") (t := []) hsecond (by decide) (.rest (by decide))))
  have hnone : ∀ d, (none : Option Data) = some d → ¬ Structured d := fun _ hd => by cases hd
  exact ⟨hdecode, hrows, (load_eq_choose .written hdecode).2.2.1 none _ hnone hrows⟩

/-- A date that is none keeps a file of one row from being read. -/
theorem load_of_invalidDate :
    Text.Rows [Text.ofString "2001-02-30"] (Text.ofString "2001-02-30\n") ∧
      load .written ((Text.ofString "2001-02-30\n").flatMap Utf8.encodePoint) =
        .error (.fault .invalidScalar) := by
  have hrow : Text.IsRow (Text.ofString "2001-02-30") := ⟨by decide, by decide⟩
  exact ⟨.line (e := "\n") (t := []) hrow (by decide) (.rest (by decide)), by decide +kernel⟩

end Source

end RequestLine
