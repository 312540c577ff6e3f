import RequestLine.Number.Shortest

/-!
# Number styles

One writer for doubles and the four styles in which this library writes them. The digits are always
the shortest ones; a style says where the positional form ends and how the rest looks.

* `Number`: an integer, or a double.
* `NumberStyle.write`: the text of a double in a style.
* `Number.text`: the text of a number inside a query or a header.
-/

namespace RequestLine

/-- A number as its text wrote it: an exact integer, or a double. -/
inductive Number
  | int (value : Int)
  | double (value : Double)
  deriving DecidableEq

/-- The digits `d₁ … dₖ` of `0.d₁ … dₖ * 10 ^ point`, with no zero at either end. -/
structure Significand where
  digits : Text
  point : Int

/-- The significand of a decimal other than zero. -/
def Decimal.significand (d : Decimal) : Significand :=
  let all := decimalDigits d.coefficient
  ⟨(all.reverse.dropWhile (fun c : CodePoint => c = '0')).reverse, all.length + d.exponent⟩

/-- How doubles are written. -/
structure NumberStyle where
  /-- The least place of the point that is written positionally. -/
  lowest : Int
  /-- The greatest place of the point that is written positionally. -/
  highest : Int
  /-- Whether a whole number keeps one digit after the point. -/
  wholeFraction : Bool
  /-- Whether a single digit before an exponent keeps one digit after the point. -/
  mantissaFraction : Bool
  /-- The least number of digits of an exponent. -/
  exponentWidth : Nat
  zero : Text
  negativeZero : Text
  infinity : Text
  nan : Text

namespace NumberStyle

/-- JSON texts: a point or an exponent always tells a double from an integer. -/
def json : NumberStyle where
  lowest := -3
  highest := 16
  wholeFraction := true
  mantissaFraction := false
  exponentWidth := 2
  zero := "0.0"
  negativeZero := "-0.0"
  infinity := "Infinity"
  nan := "NaN"

/-- Queries and headers: whole numbers below `10 ^ 21` are written as integers. -/
def plain : NumberStyle where
  lowest := -5
  highest := 21
  wholeFraction := false
  mantissaFraction := false
  exponentWidth := 1
  zero := "0"
  negativeZero := "0"
  infinity := "Infinity"
  nan := "NaN"

/-- YAML output: a number with an exponent has a point too. -/
def yaml : NumberStyle := { json with mantissaFraction := true, infinity := ".inf", nan := ".nan" }

/-- Values shown as text. -/
def display : NumberStyle := { json with infinity := "inf", nan := "nan" }

/-- Zeros in front of digits, up to `width` digits in all. -/
def pad (width : Nat) (digits : Text) : Text :=
  Text.replicate (width - digits.length) '0' ++ digits

/-- The text of a significand whose point lies in the positional range. -/
def positional (style : NumberStyle) (s : Significand) : Text :=
  if s.point ≤ 0 then "0." ++ Text.replicate s.point.natAbs '0' ++ s.digits
  else
    let whole := s.point.toNat
    if s.digits.length ≤ whole then
      s.digits ++ Text.replicate (whole - s.digits.length) '0' ++
        if style.wholeFraction then Text.ofString ".0" else []
    else s.digits.take whole ++ "." ++ s.digits.drop whole

/-- The text of a significand as one digit, a fraction and a power of ten. -/
def scientific (style : NumberStyle) (s : Significand) : Text :=
  let fraction : Text :=
    if 1 < s.digits.length then "." ++ s.digits.drop 1
    else if style.mantissaFraction then ".0" else []
  let power := s.point - 1
  let mark : Text := if power < 0 then "e-" else "e+"
  s.digits.take 1 ++ fraction ++ mark ++ pad style.exponentWidth (decimalDigits power.natAbs)

/-- The text of a significand. -/
def writeSignificand (style : NumberStyle) (s : Significand) : Text :=
  if style.lowest ≤ s.point ∧ s.point ≤ style.highest then style.positional s
  else style.scientific s

/-- The text of a double. -/
def write (style : NumberStyle) : Double → Text
  | .nan => style.nan
  | .infinite s => if s then '-' :: style.infinity else style.infinity
  | .finite s m =>
    if m.units = 0 then if s then style.negativeZero else style.zero
    else
      let text := style.writeSignificand m.shortest.significand
      if s then '-' :: text else text

end NumberStyle

/-- The integers that every double counts exactly lie below this bound. -/
def exactIntegerBound : Nat := Nat.pow 2 53

/-- The text of a number in a query or a header. An integer past the exact range is written as its
nearest double, so the text does not depend on how the number was spelled. -/
def Number.text : Number → Text
  | .int i =>
    if i.natAbs < exactIntegerBound then integerText i else NumberStyle.plain.write (Double.ofInt i)
  | .double x => NumberStyle.plain.write x

/-- The text of a number with doubles in a style. -/
def NumberStyle.writeNumber (style : NumberStyle) : Number → Text
  | .int i => integerText i
  | .double x => style.write x

def Number.isZero : Number → Bool
  | .int i => i == 0
  | .double x => x.isZero

def Number.toDouble : Number → Double
  | .int i => Double.ofInt i
  | .double x => x

end RequestLine
