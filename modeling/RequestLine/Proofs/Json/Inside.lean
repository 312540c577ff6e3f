import RequestLine.Json.Basic

/-!
# The values inside a value

* `Json.induction`: to prove something of a value, assume it of its items and members.
* `Inside`: the values at every depth of a value, itself among them.
* `Everywhere`: a property of all of them, with the equations that take it apart.
-/

namespace RequestLine.Json

theorem sizeOf_lt_arr {v : Json} {items : List Json} (h : v ∈ items) :
    sizeOf v < sizeOf (Json.arr items) := by
  have hlt := List.sizeOf_lt_of_mem h
  simp only [Json.arr.sizeOf_spec]
  omega

theorem sizeOf_lt_obj {m : Text × Json} {members : List (Text × Json)} (h : m ∈ members) :
    sizeOf m.2 < sizeOf (Json.obj members) := by
  have hlt := List.sizeOf_lt_of_mem h
  have hpair : sizeOf m = 1 + sizeOf m.1 + sizeOf m.2 := by
    obtain ⟨name, v⟩ := m
    simp only [Prod.mk.sizeOf_spec]
  simp only [Json.obj.sizeOf_spec]
  omega

/-- Induction over a value, with the items of an array and the members of an object. -/
@[elab_as_elim, induction_eliminator]
theorem induction {motive : Json → Prop} (null : motive .null) (bool : ∀ b, motive (.bool b))
    (num : ∀ n, motive (.num n)) (str : ∀ s, motive (.str s))
    (arr : ∀ items, (∀ v ∈ items, motive v) → motive (.arr items))
    (obj : ∀ members, (∀ m ∈ members, motive m.2) → motive (.obj members)) :
    ∀ v, motive v
  | .null => null
  | .bool b => bool b
  | .num n => num n
  | .str s => str s
  | .arr items => arr items fun v _ => induction null bool num str arr obj v
  | .obj members => obj members fun m _ => induction null bool num str arr obj m.2
termination_by v => sizeOf v
decreasing_by
  · exact sizeOf_lt_arr ‹_›
  · exact sizeOf_lt_obj ‹_›

/-- `Inside x v`: the value `x` stands in `v` at some depth. -/
inductive Inside (x : Json) : Json → Prop
  | here : Inside x x
  | item {v : Json} {items : List Json} : v ∈ items → Inside x v → Inside x (.arr items)
  | member {m : Text × Json} {members : List (Text × Json)} : m ∈ members → Inside x m.2 →
      Inside x (.obj members)

/-- The property holds of every value at every depth. -/
def Everywhere (P : Json → Prop) (v : Json) : Prop := ∀ x, Inside x v → P x

variable {P : Json → Prop}

theorem Everywhere.here {v : Json} (h : Everywhere P v) : P v := h v .here

theorem Everywhere.item {v : Json} {items : List Json} (h : Everywhere P (.arr items))
    (hv : v ∈ items) : Everywhere P v :=
  fun x hx => h x (.item hv hx)

theorem Everywhere.member {m : Text × Json} {members : List (Text × Json)}
    (h : Everywhere P (.obj members)) (hm : m ∈ members) : Everywhere P m.2 :=
  fun x hx => h x (.member hm hx)

/-- Whether the value holds no other one. -/
def isScalar : Json → Bool
  | .null | .bool _ | .num _ | .str _ => true
  | .arr _ | .obj _ => false

theorem everywhere_scalar {v : Json} (hv : v.isScalar = true) : Everywhere P v ↔ P v := by
  refine ⟨fun h => h.here, fun h x hx => ?_⟩
  cases hx with
  | here => exact h
  | item _ _ => cases hv
  | member _ _ => cases hv

theorem everywhere_arr {items : List Json} :
    Everywhere P (.arr items) ↔ P (.arr items) ∧ ∀ v ∈ items, Everywhere P v := by
  refine ⟨fun h => ⟨h.here, fun v hv => h.item hv⟩, fun ⟨hall, hitems⟩ x hx => ?_⟩
  cases hx with
  | here => exact hall
  | item hv hx => exact hitems _ hv x hx

theorem everywhere_obj {members : List (Text × Json)} :
    Everywhere P (.obj members) ↔ P (.obj members) ∧ ∀ m ∈ members, Everywhere P m.2 := by
  refine ⟨fun h => ⟨h.here, fun m hm => h.member hm⟩, fun ⟨hall, hmembers⟩ x hx => ?_⟩
  cases hx with
  | here => exact hall
  | member hm hx => exact hmembers _ hm x hx

end RequestLine.Json
