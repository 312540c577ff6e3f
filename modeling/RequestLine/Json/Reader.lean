import RequestLine.Json.Basic
import RequestLine.Number.Reading
import RequestLine.Text.Hex

/-!
# Reading JSON

A reader of RFC 8259 texts. A reader step takes a text and gives what it read with the text that
follows, or nothing when the text is malformed.

* `Json.parse?`: the value of a whole text, white space around it allowed.
* `Dialect`: the strict one, and one that also knows `NaN`, `Infinity` and `-Infinity`.
* An integer, a number without fraction and exponent, is exact and has at most `digitLimit` digits;
  any other number is the nearest double.
* Escapes of a high and then a low surrogate are one code point, any other surrogate escape stands
  for itself.
* A repeated name keeps its first place and takes its last value.
-/

namespace RequestLine

namespace Json

/-- Which constants are read beside `true`, `false` and `null`. -/
inductive Dialect
  | strict
  | withConstants
  deriving DecidableEq

namespace Reader

/-- The white space of JSON texts. -/
def isBlank (c : CodePoint) : Bool :=
  c.val == 0x20 || c.val == 0x09 || c.val == 0x0A || c.val == 0x0D

/-- The text after its leading white space. -/
def skipBlank (t : Text) : Text := t.dropWhile isBlank

/-- The text after a given beginning. -/
def after? (start t : Text) : Option Text :=
  if t.startsWith start then some (t.drop start.length) else none

/-! ## Strings -/

/-- The code point that an escape letter stands for. -/
def simpleEscape? (c : CodePoint) : Option CodePoint :=
  if c = '\x22' ∨ c = '\\' ∨ c = '/' then some c
  else if c = 'b' then some '\x08'
  else if c = 'f' then some '\x0c'
  else if c = 'n' then some '\n'
  else if c = 'r' then some '\r'
  else if c = 't' then some '\t'
  else none

/-- The code point of a surrogate pair. -/
def joinSurrogates (high low : Nat) : CodePoint :=
  CodePoint.ofNat (0x10000 + (high - 0xD800) * 0x400 + (low - 0xDC00))

/-- The low surrogate that an escape at the start of the text spells. -/
def lowEscape? (t : Text) : Option (Nat × Text) := do
  let (n, r) ← Hex.take? 4 (← after? "\\u" t)
  if 0xDC00 ≤ n ∧ n ≤ 0xDFFF then some (n, r) else none

/-- Reads the four digits of an escape, and the second half of a pair if they spell its first. -/
def readUnit (t : Text) : Option (CodePoint × Text) := do
  let (n, r) ← Hex.take? 4 t
  if 0xD800 ≤ n ∧ n ≤ 0xDBFF then
    match lowEscape? r with
    | some (low, s) => some (joinSurrogates n low, s)
    | none => some (CodePoint.ofNat n, r)
  else some (CodePoint.ofNat n, r)

/-- Reads what follows a backslash. -/
def readEscape : Text → Option (CodePoint × Text)
  | [] => none
  | c :: r => if c = 'u' then readUnit r else (simpleEscape? c).map (·, r)

/-- Reads the rest of a string after its opening quote; every turn takes at least one code point. -/
def readString : Nat → Text → Option (Text × Text)
  | _, [] => none
  | 0, _ => none
  | fuel + 1, c :: r =>
    if c = '\x22' then some ([], r)
    else if c = '\\' then
      match readEscape r with
      | some (p, s) => (readString fuel s).map fun x => (p :: x.1, x.2)
      | none => none
    else if c.val < 0x20 then none
    else (readString fuel r).map fun x => (c :: x.1, x.2)

/-! ## Numbers -/

/-- The digits before the point: a single zero, or digits that do not start with one. -/
def wholePart (t : Text) : Text :=
  match t.takeWhile CodePoint.isDigit with
  | [] => []
  | c :: r => if c = '0' then [c] else c :: r

/-- The digits after a point at the start of the text. -/
def fractionPart : Text → Text
  | [] => []
  | c :: r => if c = '.' then r.takeWhile CodePoint.isDigit else []

/-- The exponent at the start of the text with the text after it, if there is one with digits. -/
def exponentPart? : Text → Option (Int × Text)
  | [] => none
  | c :: r =>
    if c = 'e' ∨ c = 'E' then
      let (negative, s) := splitSign r
      let digits := s.takeWhile CodePoint.isDigit
      let value : Int := digitsValue digits
      if digits = [] then none
      else some (if negative then -value else value, s.drop digits.length)
    else none

def readNumber (t : Text) : Option (Number × Text) :=
  let negative := t.startsWith "-"
  let body := if negative then t.drop 1 else t
  let whole := wholePart body
  let rest := body.drop whole.length
  let fraction := fractionPart rest
  let rest := if fraction = [] then rest else rest.drop (fraction.length + 1)
  if whole = [] then none
  else
    match exponentPart? rest with
    | some (e, r) =>
      some (.double (.ofDecimal negative ⟨digitsValue (whole ++ fraction), e - fraction.length⟩), r)
    | none =>
      if fraction = [] then
        let value : Int := digitsValue whole
        if whole.length ≤ digitLimit then some (.int (if negative then -value else value), rest)
        else none
      else
        some (.double (.ofDecimal negative ⟨digitsValue (whole ++ fraction), -fraction.length⟩),
          rest)

/-! ## Constants -/

/-- The constants of a dialect with their values. -/
def constants : Dialect → List (Text × Json)
  | .strict => [("null", .null), ("true", .bool true), ("false", .bool false)]
  | .withConstants =>
    [("null", .null), ("true", .bool true), ("false", .bool false), ("NaN", .num (.double .nan)),
      ("Infinity", .num (.double (.infinite false))),
      ("-Infinity", .num (.double (.infinite true)))]

def readConstant (d : Dialect) (t : Text) : Option (Json × Text) :=
  (constants d).findSome? fun p => (after? p.1 t).map (p.2, ·)

/-! ## Arrays, objects and values -/

/-- Reads items that commas separate, up to the code point `close`; every item takes at least one
code point. -/
def readItems {α : Type} (item : Text → Option (α × Text)) (close : CodePoint) :
    Nat → Text → Option (List α × Text)
  | 0, _ => none
  | fuel + 1, t =>
    match item t with
    | none => none
    | some (x, r) =>
      match skipBlank r with
      | [] => none
      | c :: s =>
        if c = close then some ([x], s)
        else if c = ',' then
          (readItems item close fuel (skipBlank s)).map fun y => (x :: y.1, y.2)
        else none

/-- Reads the items after an opening bracket, of which there may be none. -/
def readSequence {α : Type} (item : Text → Option (α × Text)) (close : CodePoint) (t : Text) :
    Option (List α × Text) :=
  match skipBlank t with
  | [] => none
  | c :: r => if c = close then some ([], r) else readItems item close (c :: r).length (c :: r)

/-- Reads a name, a colon and a value. -/
def readMember (value : Text → Option (Json × Text)) : Text → Option ((Text × Json) × Text)
  | [] => none
  | c :: r =>
    if c = '\x22' then
      match readString r.length r with
      | none => none
      | some (name, s) =>
        match skipBlank s with
        | [] => none
        | d :: u =>
          if d = ':' then (value (skipBlank u)).map fun x => ((name, x.1), x.2) else none
    else none

/-- Reads a value that is nested at most `depth` levels deep. -/
def readValue (d : Dialect) : Nat → Text → Option (Json × Text)
  | _, [] => none
  | 0, _ => none
  | depth + 1, c :: r =>
    if c = '\x22' then (readString r.length r).map fun x => (.str x.1, x.2)
    else if c = '[' then
      (readSequence (readValue d depth) ']' r).map fun x => (.arr x.1, x.2)
    else if c = '\x7b' then
      (readSequence (readMember (readValue d depth)) '\x7d' r).map fun x =>
        (.obj (Dictionary.ofPairs x.1), x.2)
    else
      match readConstant d (c :: r) with
      | some x => some x
      | none => (readNumber (c :: r)).map fun x => (.num x.1, x.2)

end Reader

/-- The value of a JSON text. No value is nested deeper than its text is long. -/
def parse? (d : Dialect) (t : Text) : Option Json :=
  match Reader.readValue d t.length (Reader.skipBlank t) with
  | some (v, r) => if Reader.skipBlank r = [] then some v else none
  | none => none

end Json

end RequestLine
