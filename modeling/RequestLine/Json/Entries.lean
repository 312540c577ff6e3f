import RequestLine.Json.Basic
import RequestLine.Number.Reading

/-!
# Entries of a JSON value

Every value can be listed as keys with items: an object by its names, an array by its indices, a
text by the indices of its code points. Scalars have no entries.

* `Json.entries`: the list.
* `Json.keys`: the keys alone.
* `Json.item?`: the item of a key, or why there is none.
-/

namespace RequestLine.Json

/-- Values with their places `start`, `start + 1`, … as keys. -/
def indexed (values : List Json) (start : Nat) : List (Text × Json) :=
  (values.zipIdx start).map fun p => (decimalDigits p.2, p.1)

/-- The keys of a value with their items. -/
def entries : Json → List (Text × Json)
  | .obj members => members
  | .arr items => indexed items 0
  | .str s => indexed (s.map fun c => .str [c]) 0
  | .null | .bool _ | .num _ => []

def keys (v : Json) : List Text := v.entries.map Prod.fst

/-- Why a value has no item for a key. -/
inductive LookupError
  /-- An object has no member of that name. -/
  | noMember
  /-- The key names no integer, and the value is no object. -/
  | notAnIndex
  /-- The index lies outside the value. -/
  | outOfRange
  /-- The value is a scalar. -/
  | notIndexable
  deriving DecidableEq

/-- The value at an index; negative indices count from the end. -/
def at? (values : List Json) (i : Int) : Except LookupError Json :=
  let place := if i < 0 then i + values.length else i
  match if place < 0 then none else values[place.toNat]? with
  | some v => .ok v
  | none => .error .outOfRange

/-- The item of a key: the member of that name, or the item at the index that the key names. -/
def item? (v : Json) (key : Text) : Except LookupError Json :=
  match v with
  | .obj members =>
    match Dictionary.get? members key with
    | some x => .ok x
    | none => .error .noMember
  | _ =>
    match readInteger? key with
    | none => .error .notAnIndex
    | some i =>
      match v with
      | .arr items => at? items i
      | .str s => at? (s.map fun c => .str [c]) i
      | _ => .error .notIndexable

end RequestLine.Json
