import RequestLine.Proofs.Json.Printing

/-!
# Indented texts read back

Between brackets the indented layout differs from the compact one in white space alone, and the
grammar allows that. Strings keep every code point past the controls as it is, so a text of any kind
is read back, halves of surrogate pairs side by side among them.

* `Printable`: what can be printed and read.
* `exists_separated_block`: the lines of a block are pieces with commas between them.
* `value_indentedAt`: the text of a printable value is a value of the grammar, and that one.
* `parse?_indented`: it is read from its text.
-/

namespace RequestLine.Json

open Grammar

/-- Every integer has at most `digitLimit` digits, every double is finite, and the names of every
object are distinct. -/
def Printable (v : Json) : Prop := v.Everywhere (Writable fun _ => True)

/-! ## Strings -/

theorem spelling_unicode (c : CodePoint) : Spelling c (Escape.unicode c) := by
  unfold Escape.unicode
  split
  · rename_i t ht
    exact spelling_short ht
  · rename_i hnone
    split
    · exact spelling_numeric c
    · rename_i hc
      refine .plain (fun hq => ?_) (fun hb => ?_) (by omega)
      · exact short?_ne_none (.inl hq) hnone
      · exact short?_ne_none (.inr hb) hnone

theorem short?_of_isHigh {c : CodePoint} (h : IsHigh c.val) : Escape.short? c = none := by
  have hne : ∀ x : Char, x.toNat < 0xD800 → c ≠ CodePoint.ofChar x := by
    rintro x hx rfl
    exact Nat.not_lt.2 h.1 hx
  unfold Escape.short?
  rw [if_neg (hne _ (by decide)), if_neg (hne _ (by decide)), if_neg (hne _ (by decide)),
    if_neg (hne _ (by decide)), if_neg (hne _ (by decide)), if_neg (hne _ (by decide)),
    if_neg (hne _ (by decide))]

/-- A first half is never written as an escape, so nothing can join it to a second half. -/
theorem unicode_of_isHigh {c : CodePoint} (h : IsHigh c.val) : Escape.unicode c = [c] := by
  have hc : ¬ c.val < 0x20 := by
    obtain ⟨hle, -⟩ := h
    omega
  simp only [Escape.unicode, short?_of_isHigh h, if_neg hc]

theorem chars_unicode (s : Text) : Chars (s.flatMap Escape.unicode) s := by
  refine chars_flatMap spelling_unicode ?_
  have hall : s.Pairwise fun c d => IsHigh c.val → IsLow d.val → Escape.unicode c = [c] :=
    List.pairwise_of_forall fun c d hhigh _ => unicode_of_isHigh hhigh
  exact hall.isChain

theorem stringText_unicode (s : Text) : StringText (quote Escape.unicode s) s :=
  stringText_quote (chars_unicode s)

/-! ## Lines -/

theorem blank_lineStart (level : Nat) : Blank (lineStart level) := by
  intro c hc
  rcases List.mem_append.1 hc with hc | hc
  · rw [List.mem_singleton.1 hc]
    decide
  · rw [List.eq_of_mem_replicate hc]
    decide

/-- The lines of a block are its pieces with commas between them. -/
theorem exists_separated_block (level : Nat) (opening closing : Text) (ps : List Text) :
    ∃ t, block level opening closing ps = opening ++ (t ++ closing) ∧ Separated ps t := by
  by_cases hps : ps = []
  · subst hps
    exact ⟨[], rfl, .none blank_nil⟩
  · have hitems := (items_joinWith (blank_lineStart (level + 1)) hps).blank_append
      (blank_lineStart (level + 1))
    refine ⟨_, ?_, .some (hitems.append_blank (blank_lineStart level))⟩
    rw [block, if_neg (by simpa using hps)]
    simp only [List.append_assoc]
    rfl

theorem indentedItems_eq_map (level : Nat) (items : List Json) :
    indentedItems level items = items.map (indentedAt level) := by
  induction items with
  | nil => rfl
  | cons v r ih => rw [indentedItems, ih, List.map_cons]

/-- How a member is spelled on a line. -/
def indentedMember (level : Nat) (m : Text × Json) : Member :=
  ⟨m.1, m.2, quote Escape.unicode m.1, [], [CodePoint.ofChar ' '], indentedAt level m.2⟩

theorem indentedMembers_eq_map (level : Nat) (members : List (Text × Json)) :
    indentedMembers level members = members.map fun m => (indentedMember level m).text := by
  induction members with
  | nil => rfl
  | cons m r ih =>
    rw [indentedMembers, ih, List.map_cons, List.append_assoc]
    rfl

theorem spelled_indentedMember (level : Nat) (m : Text × Json) :
    (indentedMember level m).Spelled where
  name := stringText_unicode m.1
  before := blank_nil
  after c hc := by
    rw [List.mem_singleton.1 hc]
    decide

/-! ## Values -/

/-- The text of a printable value, at whatever level it starts, is a value of the grammar, and that
one. -/
theorem value_indentedAt {d : Dialect} {v : Json} (hv : v.Printable) (level : Nat) :
    Value d (v.indentedAt level) v := by
  induction v generalizing level with
  | null => exact .constant (null_mem_constants d)
  | bool b => exact .constant (boolText_mem_constants d b)
  | num n => exact .number (numberText_writeNumber hv.here)
  | str s => exact .string (stringText_unicode s)
  | arr items ih =>
    obtain ⟨t, ht, hseparated⟩ := exists_separated_block level "[" "]"
      (indentedItems (level + 1) items)
    rw [indentedItems_eq_map] at hseparated
    rw [indentedAt, ht]
    exact .arr_of (fun v hmem => ih v hmem (hv.item hmem) (level + 1)) hseparated
  | obj members ih =>
    obtain ⟨t, ht, hseparated⟩ := exists_separated_block level "\x7b" "\x7d"
      (indentedMembers (level + 1) members)
    rw [indentedMembers_eq_map] at hseparated
    rw [indentedAt, ht]
    exact .obj_of (fun _ => rfl) hv.here.1 (fun m _ => spelled_indentedMember (level + 1) m)
      (fun m hm => ih m hm (hv.member hm) (level + 1)) hseparated

theorem parse?_indented {d : Dialect} {v : Json} (hv : v.Printable) :
    parse? d v.indented = some v :=
  parse?_of_value (value_indentedAt hv 0)

end RequestLine.Json
