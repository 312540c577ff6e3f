import RequestLine.Dictionary
import RequestLine.Number.Style

/-!
# JSON values

The values that headers, queries, bodies and responses carry. An object is a dictionary: its names
keep the order in which they first came.

* `Json`: the type.
* `Json.object`: an object of named values.
* `Json.isEmptyValue`: the scalars that count as no value at all.
-/

namespace RequestLine

inductive Json
  | null
  | bool (value : Bool)
  | num (value : Number)
  | str (value : Text)
  | arr (items : List Json)
  | obj (members : List (Text × Json))

namespace Json

instance : Inhabited Json := ⟨.null⟩

def int (i : Int) : Json := .num (.int i)

/-- The object of some named values. -/
def object (members : Dictionary Text Json) : Json := .obj members

/-- Whether the value is null, false, a zero or the empty text. Empty arrays and objects are
values. -/
def isEmptyValue : Json → Bool
  | .null => true
  | .bool b => !b
  | .num n => n.isZero
  | .str s => s.isEmpty
  | .arr _ | .obj _ => false

end Json

end RequestLine
