import RequestLine.Number.Double
import RequestLine.Text.Blank
import RequestLine.Text.DecimalDigit
import RequestLine.Text.Hex

/-!
# Reading numbers typed by people

Texts that name a number outside JSON: indices, timeouts, scalars of statement files. White space
around them is ignored, the digits may be those of any script, and single underscores may separate
digits.

* `readInteger?`: an integer with an optional sign.
* `readBased?`: an integer to the base two, eight or sixteen.
* `readDouble?`: a decimal with an optional sign, fraction and exponent, or the name of an
  infinity or of NaN.
-/

namespace RequestLine

/-- Integers with more decimal digits than this are refused. -/
@[irreducible]
def digitLimit : Nat := 4300

/-- The text with digits of every script as ASCII digits and white space past ASCII as spaces. -/
def asciiNumeral (t : Text) : Text :=
  t.map fun c =>
    if c.val < 0x7F then c
    else if c.isBlank then ' '
    else
      match c.decimalValue? with
      | some d => CodePoint.ofNat (0x30 + d)
      | none => c

/-- The white space that may stand around a number: the space, and U+0009 to U+000D. -/
def CodePoint.isNumeralBlank (c : CodePoint) : Bool :=
  c.val == 0x20 || (0x09 ≤ c.val && c.val ≤ 0x0D)

/-- The text without the white space around a number. -/
def trimNumeral (t : Text) : Text :=
  ((t.dropWhile CodePoint.isNumeralBlank).reverse.dropWhile CodePoint.isNumeralBlank).reverse

/-- A sign at the start of the text, true for minus, and what follows it. -/
def splitSign : Text → Bool × Text
  | [] => (false, [])
  | c :: r => if c = '-' then (true, r) else if c = '+' then (false, r) else (false, c :: r)

/-- The text without underscores, each of which has to stand between two digits. -/
def dropSeparators? : Text → Option Text
  | [] => some []
  | c :: r =>
    if c = '_' then none
    else
      match r with
      | d :: e :: s =>
        if d = '_' then
          if c.isDigit && e.isDigit then (dropSeparators? (e :: s)).map (c :: ·) else none
        else (dropSeparators? (d :: e :: s)).map (c :: ·)
      | [d] => if d = '_' then none else some [c, d]
      | [] => some [c]

/-- The integer that the text names. -/
def readInteger? (t : Text) : Option Int := do
  let (negative, body) := splitSign (trimNumeral (asciiNumeral t))
  let digits ← dropSeparators? body
  if digits ≠ [] ∧ digits.all CodePoint.isDigit ∧ digits.length ≤ digitLimit then
    let value : Int := digitsValue digits
    some (if negative then -value else value)
  else none

/-- The marks of a base that may stand in front of its digits. -/
def baseMarks (base : Nat) : List Text :=
  if base = 2 then ["0b", "0B"]
  else if base = 8 then ["0o", "0O"]
  else if base = 16 then ["0x", "0X"]
  else []

/-- The number that digits write to a base, if there is a digit and all are below the base. -/
def inBase? (base : Nat) (digits : Text) : Option Nat :=
  if digits.isEmpty then none
  else digits.foldlM (fun n c =>
    match c.hexValue? with
    | some v => if v < base then some (base * n + v) else none
    | none => none) 0

/-- The integer that the text names to a base, without separators. -/
def readBased? (base : Nat) (t : Text) : Option Int := do
  let (negative, body) := splitSign (trimNumeral (asciiNumeral t))
  let marked := (baseMarks base).any body.startsWith
  let value : Int ← inBase? base (if marked then body.drop 2 else body)
  return if negative then -value else value

/-- The exponent that follows a mantissa; no text is the exponent zero. -/
def readExponent? : Text → Option Int
  | [] => some 0
  | c :: r =>
    if c = 'e' ∨ c = 'E' then
      let (negative, digits) := splitSign r
      if digits ≠ [] ∧ digits.all CodePoint.isDigit then
        let value : Int := digitsValue digits
        some (if negative then -value else value)
      else none
    else none

/-- The double that an unsigned decimal of ASCII characters writes. -/
def readDecimal? (negative : Bool) (t : Text) : Option Double := do
  let whole := t.takeWhile CodePoint.isDigit
  let rest := t.drop whole.length
  let fraction := match rest with
    | c :: r => if c = '.' then r.takeWhile CodePoint.isDigit else []
    | [] => []
  let tail := match rest with
    | c :: r => if c = '.' then r.drop fraction.length else rest
    | [] => []
  if whole = [] ∧ fraction = [] then none
  else
    let exponent ← readExponent? tail
    some (.ofDecimal negative ⟨digitsValue (whole ++ fraction), exponent - fraction.length⟩)

/-- The ASCII letters of a text in lower case. -/
def lowerAscii (t : Text) : Text :=
  t.map fun c => if 0x41 ≤ c.val ∧ c.val ≤ 0x5A then CodePoint.ofNat (c.val + 0x20) else c

/-- The double that the text names. -/
def readDouble? (t : Text) : Option Double := do
  let (negative, body) := splitSign (trimNumeral (asciiNumeral t))
  let name := lowerAscii body
  if name = "inf" ∨ name = "infinity" then some (.infinite negative)
  else if name = "nan" then some .nan
  else readDecimal? negative (← dropSeparators? body)

end RequestLine
