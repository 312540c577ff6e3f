import RequestLine.Json.Basic

/-!
# Plain texts of JSON values

The text of a value inside a query or a header.

* `Json.plainText`: a text is itself, an array joins its items with commas, an object has one fixed
  text; a null item of an array is empty.
-/

namespace RequestLine.Json

def isNull : Json → Bool
  | .null => true
  | _ => false

mutual

/-- The plain text of a value. -/
def plainText : Json → Text
  | .null => "null"
  | .bool b => if b then "true" else "false"
  | .num n => n.text
  | .str s => s
  | .arr items => Text.joinWith "," (plainItems items)
  | .obj _ => "[object Object]"

def plainItems : List Json → List Text
  | [] => []
  | v :: r => (if v.isNull then [] else plainText v) :: plainItems r

end

end RequestLine.Json
