import RequestLine.Json.PlainText
import RequestLine.Proofs.Json.Inside
import RequestLine.Proofs.Text.Joining

/-!
# Flattened arrays

The plain text of an array does not show how its items are grouped: only the values that hold no
items of their own can be seen in it, and where they stand in order.

* `itemText`: the text of a value among the items of an array.
* `leaves`: the values without items inside a value, in order. An empty array is one of them.
* `itemText_eq_leaves`: the text of an item is that of its leaves.
* `plainText_flattens`: what may be done to an array without a change of its text.
-/

namespace RequestLine

/-- Pieces that were joined from pieces may be joined at once. -/
theorem Text.joinWith_map_joinWith (separator : Text) {pss : List (List Text)}
    (h : ∀ ps ∈ pss, ps ≠ []) :
    joinWith separator (pss.map (joinWith separator)) = joinWith separator pss.flatten := by
  induction pss with
  | nil => rfl
  | cons ps pss ih =>
    have hps := h ps List.mem_cons_self
    have ih := ih fun qs hqs => h qs (List.mem_cons_of_mem ps hqs)
    cases pss with
    | nil => rw [List.map_singleton, joinWith_singleton, List.flatten_singleton]
    | cons qs pss =>
      have hflat : (qs :: pss).flatten ≠ [] := fun hnil =>
        h qs (by simp) (List.flatten_eq_nil_iff.1 hnil qs List.mem_cons_self)
      rw [List.flatten_cons, joinWith_append separator hps hflat, ← ih, List.map_cons,
        List.map_cons, joinWith_cons_cons]

namespace Json

/-! ## Items -/

/-- The text of a value among the items of an array. -/
def itemText (v : Json) : Text := if v.isNull then [] else v.plainText

theorem plainItems_eq_map (items : List Json) : plainItems items = items.map itemText := by
  induction items with
  | nil => rfl
  | cons v items ih => rw [plainItems, ih, List.map_cons, itemText]

theorem plainText_arr (items : List Json) :
    plainText (.arr items) = Text.joinWith "," (items.map itemText) := by
  rw [plainText, plainItems_eq_map]

theorem itemText_arr (items : List Json) : itemText (.arr items) = plainText (.arr items) := rfl

/-- Items with the same text can stand for each other. -/
theorem plainText_arr_congr {v w : Json} (h : itemText v = itemText w) (before after : List Json) :
    plainText (.arr (before ++ v :: after)) = plainText (.arr (before ++ w :: after)) := by
  simp only [plainText_arr, List.map_append, List.map_cons, h]

/-- The items of an array among the items may stand there themselves. -/
theorem plainText_arr_splice (before after : List Json) {items : List Json} (h : items ≠ []) :
    plainText (.arr (before ++ .arr items :: after)) =
      plainText (.arr (before ++ (items ++ after))) := by
  -- each item by itself, but the items of the array together
  let groups := before.map (fun v => [itemText v]) ++ items.map itemText ::
    after.map (fun v => [itemText v])
  have hne : ∀ ps ∈ groups, ps ≠ [] := by
    simp [groups, or_imp, forall_and, h]
  have hjoined : groups.map (Text.joinWith ",") =
      (before ++ .arr items :: after).map itemText := by
    simp [groups, Function.comp_def, itemText_arr, plainText_arr, Text.joinWith_singleton]
  have hflat : groups.flatten = (before ++ (items ++ after)).map itemText := by
    simp [groups, ← List.flatMap_def, ← List.map_eq_flatMap]
  rw [plainText_arr, plainText_arr, ← hjoined, ← hflat, Text.joinWith_map_joinWith _ hne]

theorem plainText_arr_append {before after : List Json} (hbefore : before ≠ [])
    (hafter : after ≠ []) :
    plainText (.arr (before ++ after)) =
      plainText (.arr before) ++ ("," ++ plainText (.arr after)) := by
  simp only [plainText_arr, List.map_append]
  exact Text.joinWith_append _ (by simpa using hbefore) (by simpa using hafter)

/-! ## Leaves -/

mutual

/-- The values without items inside a value, in order. -/
def leaves : Json → List Json
  | .arr (v :: r) => leavesOf (v :: r)
  | v => [v]

def leavesOf : List Json → List Json
  | [] => []
  | v :: r => leaves v ++ leavesOf r

end

theorem leavesOf_eq_flatMap (items : List Json) : leavesOf items = items.flatMap leaves := by
  induction items with
  | nil => rfl
  | cons v items ih => rw [leavesOf, ih, List.flatMap_cons]

theorem leaves_arr {items : List Json} (h : items ≠ []) :
    leaves (.arr items) = items.flatMap leaves := by
  obtain ⟨v, r, rfl⟩ := List.exists_cons_of_ne_nil h
  rw [leaves, leavesOf_eq_flatMap]

theorem leaves_ne_nil (v : Json) : v.leaves ≠ [] := by
  induction v with
  | null | bool | num | str | obj => simp [leaves]
  | arr items ih =>
    cases items with
    | nil => simp [leaves]
    | cons v items =>
      rw [leaves_arr (List.cons_ne_nil v items), List.flatMap_cons]
      exact List.append_ne_nil_of_left_ne_nil (ih v List.mem_cons_self) _

/-- A value without items is no array but the empty one. -/
theorem eq_nil_of_mem_leaves {v : Json} {items : List Json} (h : .arr items ∈ v.leaves) :
    items = [] := by
  induction v with
  | null | bool | num | str | obj => simp [leaves] at h
  | arr values ih =>
    by_cases hvalues : values = []
    · subst hvalues
      simpa [leaves] using h
    · rw [leaves_arr hvalues] at h
      obtain ⟨v, hv, hmem⟩ := List.mem_flatMap.1 h
      exact ih v hv hmem

/-- The text of a value without items, if null and the empty array have none. -/
def leafText : Json → Text
  | .null | .arr _ => []
  | v => v.plainText

theorem itemText_of_mem_leaves {v leaf : Json} (h : leaf ∈ v.leaves) :
    leaf.itemText = leaf.leafText := by
  cases leaf with
  | null | bool | num | str | obj => rfl
  | arr items =>
    rw [eq_nil_of_mem_leaves h]
    rfl

/-- The text of an item is made of those of its leaves. -/
theorem itemText_eq_leaves (v : Json) :
    v.itemText = Text.joinWith "," (v.leaves.map itemText) := by
  induction v with
  | null | bool | num | str | obj => simp [leaves, Text.joinWith_singleton]
  | arr items ih =>
    by_cases hitems : items = []
    · subst hitems
      simp [leaves, Text.joinWith_singleton]
    · have hne : ∀ ps ∈ items.map (fun v => v.leaves.map itemText), ps ≠ [] := by
        simp [leaves_ne_nil]
      calc itemText (.arr items)
          = Text.joinWith "," (items.map itemText) := plainText_arr items
        _ = Text.joinWith "," (items.map fun v => Text.joinWith "," (v.leaves.map itemText)) := by
            rw [List.map_congr_left ih]
        _ = Text.joinWith "," (items.map fun v => v.leaves.map itemText).flatten := by
            rw [← Text.joinWith_map_joinWith _ hne, List.map_map]
            rfl
        _ = Text.joinWith "," ((leaves (.arr items)).map itemText) := by
            rw [leaves_arr hitems, List.map_flatMap, List.flatMap_def]

/-- **The text of an array is flat.** A filled array among the items may be replaced by its own
items, and the text of two filled arrays in a row is that of both with a comma between them. A null
item looks like an empty text and like an empty array, and all objects look the same. So the text of
an array is that of its leaves, at whatever depth they stand. -/
theorem plainText_flattens :
    (∀ before items after : List Json, items ≠ [] →
      plainText (.arr (before ++ [.arr items] ++ after)) =
        plainText (.arr (before ++ items ++ after))) ∧
    (∀ before after : List Json, before ≠ [] → after ≠ [] →
      plainText (.arr (before ++ after)) =
        plainText (.arr before) ++ "," ++ plainText (.arr after)) ∧
    (∀ before after : List Json,
      plainText (.arr (before ++ [.null] ++ after)) =
          plainText (.arr (before ++ [.str []] ++ after)) ∧
        plainText (.arr (before ++ [.null] ++ after)) =
          plainText (.arr (before ++ [.arr []] ++ after))) ∧
    (∀ (before after : List Json) (ms ns : List (Text × Json)),
      plainText (.arr (before ++ [.obj ms] ++ after)) =
        plainText (.arr (before ++ [.obj ns] ++ after))) ∧
    ∀ items : List Json,
      plainText (.arr items) = Text.joinWith "," ((leaves (.arr items)).map leafText) := by
  refine ⟨fun before items after h => ?_, fun before after hbefore hafter => ?_,
    fun before after => ⟨?_, ?_⟩, fun before after ms ns => ?_, fun items => ?_⟩
  · simpa using plainText_arr_splice before after h
  · rw [plainText_arr_append hbefore hafter, List.append_assoc]
  · simpa using plainText_arr_congr (v := .null) (w := .str []) rfl before after
  · simpa using plainText_arr_congr (v := .null) (w := .arr []) rfl before after
  · simpa using plainText_arr_congr (v := .obj ms) (w := .obj ns) rfl before after
  · rw [← itemText_arr, itemText_eq_leaves,
      List.map_congr_left fun leaf hleaf => itemText_of_mem_leaves hleaf]

end Json

end RequestLine
