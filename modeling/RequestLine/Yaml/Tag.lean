import RequestLine.Yaml.Timestamp

/-!
# Tags of YAML nodes

* `Tag`: the kinds of data that are read.
* `Tag.ofName`: the tag of a full name.
* `Tag.ofPlain`: the tag that the form of a plain scalar gives it.
-/

namespace RequestLine.Yaml

/-- What kind of data a node is. -/
inductive Tag
  | null
  | bool
  | int
  | float
  | timestamp
  | str
  | binary
  | seq
  | map
  | set
  /-- A sequence of single entries. -/
  | pairs
  /-- The key that merges other mappings into its own. -/
  | merge
  /-- The key `=`. -/
  | default
  | other
  deriving DecidableEq

namespace Tag

def isCollection : Tag → Bool
  | seq | map | set | pairs => true
  | null | bool | int | float | timestamp | str | binary | merge | default | other => false

/-- Whether there is data of the kind. -/
def hasData : Tag → Bool
  | merge | default | other => false
  | null | bool | int | float | timestamp | str | binary | seq | map | set | pairs => true

/-- The start of the names of the common tags. -/
def common : Text := "tag:yaml.org,2002:"

/-- The tag of a full name. -/
def ofName (name : Text) : Tag :=
  let table : List (String × Tag) :=
    [("null", .null), ("bool", .bool), ("int", .int), ("float", .float),
      ("timestamp", .timestamp), ("str", .str), ("binary", .binary), ("seq", .seq), ("map", .map),
      ("set", .set), ("pairs", .pairs), ("omap", .pairs), ("merge", .merge), ("value", .default)]
  match table.find? (fun p => name = common ++ Text.ofString p.1) with
  | some p => p.2
  | none => .other

/-! ## Forms of plain scalars

A recogniser takes a text and gives what may remain after a match of its form. -/

def boolSpellings : List (Text × Bool) :=
  [("yes", true), ("Yes", true), ("YES", true), ("no", false), ("No", false), ("NO", false),
    ("true", true), ("True", true), ("TRUE", true), ("false", false), ("False", false),
    ("FALSE", false), ("on", true), ("On", true), ("ON", true), ("off", false), ("Off", false),
    ("OFF", false)]

def nullSpellings : List Text := ["", "~", "null", "Null", "NULL"]

/-- The text without a sign at its start. -/
def unsigned (t : Text) : Text :=
  match t with
  | [] => []
  | c :: r => if c = '+' ∨ c = '-' then r else c :: r

/-- A digit or an underscore. -/
def isDigitOrLine (c : CodePoint) : Bool := c.isDigit || c.val == 0x5F

/-- Whether the text is not empty and all of one class. -/
def allOf (p : CodePoint → Bool) (t : Text) : Bool := !t.isEmpty && t.all p

/-- The text after a given start. -/
def after? (start t : Text) : Option Text :=
  if t.startsWith start then some (t.drop start.length) else none

/-- Whether the part between two colons is a number below sixty. -/
def isSixtieth (t : Text) : Bool :=
  match t with
  | [a] => a.isDigit
  | [a, b] => 0x30 ≤ a.val && a.val ≤ 0x35 && b.isDigit
  | _ => false

/-- Whether the text is digits and underscores that start with a digit of a class. -/
def isGrouped (first : CodePoint → Bool) (t : Text) : Bool :=
  match t with
  | [] => false
  | c :: r => first c && r.all isDigitOrLine

/-- Whether the text is one of the digits one to nine. -/
def isNonzeroDigit (c : CodePoint) : Bool := 0x31 ≤ c.val && c.val ≤ 0x39

/-- Whether the text has the form of an integer: binary, octal, decimal, hexadecimal, or parts to
the base sixty. -/
def isInt (t : Text) : Bool :=
  let u := unsigned t
  let digitsAfter (start : Text) (p : CodePoint → Bool) : Bool :=
    match after? start u with
    | some r => allOf (fun c => p c || c.val == 0x5F) r
    | none => false
  let isHex (c : CodePoint) : Bool :=
    c.isDigit || (0x41 ≤ c.val && c.val ≤ 0x46) || (0x61 ≤ c.val && c.val ≤ 0x66)
  digitsAfter "0b" (fun c => c.val == 0x30 || c.val == 0x31) ||
    digitsAfter "0" (fun c => 0x30 ≤ c.val && c.val ≤ 0x37) ||
    u = Text.ofString "0" ||
    digitsAfter "0x" isHex ||
    match u.splitOn (CodePoint.ofChar ':') with
    | first :: parts => isGrouped isNonzeroDigit first && parts.all isSixtieth
    | [] => false

/-- Whether the text is nothing, or an exponent with a sign. -/
def isSignedExponent (t : Text) : Bool :=
  match t with
  | [] => true
  | [_] => false
  | e :: s :: digits =>
    (e.val == 0x65 || e.val == 0x45) && (s.val == 0x2B || s.val == 0x2D) &&
      allOf CodePoint.isDigit digits

/-- Whether the text is a point, digits and an optional exponent; `needsDigit` if a digit has to
follow the point. -/
def isFraction (needsDigit withExponent : Bool) (t : Text) : Bool :=
  match t with
  | [] => false
  | c :: r =>
    let digits := r.takeWhile isDigitOrLine
    let rest := r.drop digits.length
    c.val == 0x2E && (!needsDigit || (digits.head?.map CodePoint.isDigit).getD false) &&
      if withExponent then isSignedExponent rest else rest.isEmpty

/-- Whether the text has the form of a number with a point, or names one that is not finite. -/
def isFloat (t : Text) : Bool :=
  let u := unsigned t
  let whole := u.takeWhile isDigitOrLine
  let named (names : List Text) (s : Text) : Bool := names.contains s
  (isGrouped CodePoint.isDigit whole && isFraction false true (u.drop whole.length)) ||
    isFraction true true t ||
    named [".inf", ".Inf", ".INF"] u ||
    named [".nan", ".NaN", ".NAN"] t ||
    (let sexagesimal := u.takeWhile (fun c => isDigitOrLine c || c.val == 0x3A)
     isFraction false false (u.drop sexagesimal.length) &&
      match sexagesimal.splitOn (CodePoint.ofChar ':') with
      | first :: second :: parts =>
        isGrouped CodePoint.isDigit first && (second :: parts).all isSixtieth
      | _ => false)

/-- The tag that the form of a line gives it. A lone mark has a tag that is not known. -/
def ofLine (t : Text) : Tag :=
  if nullSpellings.contains t then .null
  else if (boolSpellings.lookup t).isSome then .bool
  else if isFloat t then .float
  else if isInt t then .int
  else if Timestamp.isPlain t then .timestamp
  else if t = Text.ofString "<<" then .merge
  else if t = Text.ofString "=" then .default
  else if [Text.ofString "!", "&", "*"].contains t then .other
  else .str

/-- The tag that the form of a plain scalar gives it. One line feed at the end does not count, but a
line feed alone is a text. -/
def ofPlain (t : Text) : Tag := if t = Text.ofString "\n" then .str else ofLine t.dropFinalBreak

end Tag

end RequestLine.Yaml
