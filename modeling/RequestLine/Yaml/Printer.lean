import RequestLine.Json.Printer
import RequestLine.Yaml.Scalar.Style

/-!
# Writing YAML

JSON values as YAML documents in block style. Every level is indented by two blanks, but the items
of a member's list stand at the level of the member.

* `Yaml.render`: the document of some named values.
-/

namespace RequestLine.Yaml

/-- The longest key that stands on a line with its value, counted with five code points of tag. -/
def keyLimit : Nat := 128

/-- Whether a key stands on a line with its value. -/
def isShortKey (k : Text) : Bool :=
  !k.isEmpty && !k.any Scalar.isWrittenBreak && k.length + 5 < keyLimit

/-- The written form of a scalar that starts at a column. -/
def scalarText (indent column : Nat) : Json → Text
  | .null => "null"
  | .bool b => Json.boolText b
  | .num n => NumberStyle.yaml.writeNumber n
  | .str s => Scalar.write true indent column s
  | .arr _ => "[]"
  | .obj _ => "\x7b\x7d"

/-- Lines that start at a column. -/
def joinLines (indent : Nat) (lines : List Text) : Text :=
  Text.joinWith (Scalar.lineStart indent) lines

mutual

/-- What follows the dash of an item, or the colon of a long key, at column `indent`. -/
def afterMark (indent : Nat) : Json → Text
  | .arr (x :: r) => " " ++ joinLines (indent + 2) (itemLines (indent + 2) (x :: r))
  | .obj (m :: r) => " " ++ joinLines (indent + 2) (memberLines (indent + 2) (m :: r))
  | v => " " ++ scalarText (indent + 2) (indent + 2) v

/-- What follows the colon of a short key, which ends at `column`. -/
def afterKey (indent column : Nat) : Json → Text
  | .arr (x :: r) => Scalar.lineStart indent ++ joinLines indent (itemLines indent (x :: r))
  | .obj (m :: r) =>
    Scalar.lineStart (indent + 2) ++ joinLines (indent + 2) (memberLines (indent + 2) (m :: r))
  | v => " " ++ scalarText (indent + 2) (column + 1) v

/-- The items of a list at column `indent`. -/
def itemLines (indent : Nat) : List Json → List Text
  | [] => []
  | v :: r => ("-" ++ afterMark indent v) :: itemLines indent r

/-- The members of an object at column `indent`. -/
def memberLines (indent : Nat) : List (Text × Json) → List Text
  | [] => []
  | (k, v) :: r =>
    let line :=
      if isShortKey k then
        let key := Scalar.write false indent indent k
        key ++ ":" ++ afterKey indent (indent + key.length + 1) v
      else
        "? " ++ Scalar.write true (indent + 2) (indent + 2) k ++ Scalar.lineStart indent ++ ":" ++
          afterMark indent v
    line :: memberLines indent r

end

/-- The document of some named values, with a line feed at its end. -/
def render (members : Dictionary Text Json) : Text :=
  (if members.isEmpty then Text.ofString "\x7b\x7d" else joinLines 0 (memberLines 0 members)) ++
    "\n"

end RequestLine.Yaml
