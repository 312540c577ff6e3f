import RequestLine.Json.Basic
import RequestLine.Text.Hex

/-!
# Writing JSON

Two layouts of the same values: a compact one without white space, and one with a member a line.

* `Json.compact`: the compact text; an argument says how code points are written in strings.
* `Json.indented`: the text with two blanks for each level.
* `Escape.ascii`, `Escape.unicode`: strings of ASCII alone, strings that keep other characters.
-/

namespace RequestLine.Json

namespace Escape

/-- The two-character escape of a code point, if it has one. -/
def short? (c : CodePoint) : Option Text :=
  if c = '\x22' then some "\\\x22"
  else if c = '\\' then some "\\\\"
  else if c = '\n' then some "\\n"
  else if c = '\r' then some "\\r"
  else if c = '\t' then some "\\t"
  else if c = '\x08' then some "\\b"
  else if c = '\x0c' then some "\\f"
  else none

/-- A four-digit escape. -/
def unit (n : Nat) : Text := "\\u" ++ Hex.lower 4 n

/-- The numeric escape of a code point, two of them past the basic plane. -/
def numeric (c : CodePoint) : Text :=
  if c.val < 0x10000 then unit c.val
  else unit (0xD800 + (c.val - 0x10000) / 0x400) ++ unit (0xDC00 + (c.val - 0x10000) % 0x400)

/-- A code point in a string of ASCII alone. -/
def ascii (c : CodePoint) : Text :=
  match short? c with
  | some t => t
  | none => if 0x20 ≤ c.val ∧ c.val < 0x7F then [c] else numeric c

/-- A code point in a string that keeps every character past the controls. -/
def unicode (c : CodePoint) : Text :=
  match short? c with
  | some t => t
  | none => if c.val < 0x20 then numeric c else [c]

end Escape

/-- A text as a string. -/
def quote (escape : CodePoint → Text) (t : Text) : Text :=
  "\x22" ++ t.flatMap escape ++ "\x22"

def boolText (b : Bool) : Text := if b then "true" else "false"

mutual

/-- The text of a value without white space. -/
def compact (escape : CodePoint → Text) : Json → Text
  | .null => "null"
  | .bool b => boolText b
  | .num n => NumberStyle.json.writeNumber n
  | .str s => quote escape s
  | .arr items => "[" ++ Text.joinWith "," (compactItems escape items) ++ "]"
  | .obj members => "\x7b" ++ Text.joinWith "," (compactMembers escape members) ++ "\x7d"

def compactItems (escape : CodePoint → Text) : List Json → List Text
  | [] => []
  | v :: r => compact escape v :: compactItems escape r

def compactMembers (escape : CodePoint → Text) : List (Text × Json) → List Text
  | [] => []
  | (k, v) :: r => (quote escape k ++ ":" ++ compact escape v) :: compactMembers escape r

end

/-- The compact text in ASCII. -/
def asciiText (v : Json) : Text := v.compact Escape.ascii

/-- The start of a line at a level. -/
def lineStart (level : Nat) : Text := "\n" ++ Text.replicate (2 * level) ' '

/-- Pieces on lines of their own between brackets; nothing stands between those of an empty
value. -/
def block (level : Nat) (opening closing : Text) (pieces : List Text) : Text :=
  if pieces.isEmpty then opening ++ closing
  else
    opening ++ lineStart (level + 1) ++ Text.joinWith ("," ++ lineStart (level + 1)) pieces ++
      lineStart level ++ closing

mutual

/-- The text of a value whose first line starts at `level`. -/
def indentedAt (level : Nat) : Json → Text
  | .null => "null"
  | .bool b => boolText b
  | .num n => NumberStyle.json.writeNumber n
  | .str s => quote Escape.unicode s
  | .arr items => block level "[" "]" (indentedItems (level + 1) items)
  | .obj members => block level "\x7b" "\x7d" (indentedMembers (level + 1) members)

def indentedItems (level : Nat) : List Json → List Text
  | [] => []
  | v :: r => indentedAt level v :: indentedItems level r

def indentedMembers (level : Nat) : List (Text × Json) → List Text
  | [] => []
  | (k, v) :: r =>
    (quote Escape.unicode k ++ ": " ++ indentedAt level v) :: indentedMembers level r

end

/-- The text of a value with one member a line. -/
def indented (v : Json) : Text := v.indentedAt 0

end RequestLine.Json
