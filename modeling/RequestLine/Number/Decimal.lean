import RequestLine.Text.Basic

/-!
# Decimal numbers

* `decimalDigits`, `integerText`: the digits of a natural number, the text of an integer.
* `digitsValue`: the number that ASCII digits write.
* `Decimal`: a coefficient and a power of ten.
-/

namespace RequestLine

/-- The decimal digits of `n`, without leading zeros. -/
def decimalDigits (n : Nat) : Text := Text.ofChars (Nat.toDigits 10 n)

/-- The decimal text of an integer, with a minus sign below zero. -/
def integerText : Int → Text
  | .ofNat n => decimalDigits n
  | .negSucc n => '-' :: decimalDigits (n + 1)

/-- The number that a sequence of ASCII digits writes. -/
def digitsValue (digits : Text) : Nat := digits.foldl (fun n c => 10 * n + (c.val - 0x30)) 0

/-- The number `coefficient * 10 ^ exponent`. -/
structure Decimal where
  coefficient : Nat
  exponent : Int
  deriving DecidableEq

end RequestLine
