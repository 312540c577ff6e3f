import RequestLine.Text.Basic

/-!
# Hexadecimal digits

* `CodePoint.hexValue?`: the value of a hexadecimal digit of either case.
* `Hex.lower`, `Hex.upper`: the lowest `width` digits of a number.
-/

namespace RequestLine

/-- The value of a hexadecimal digit. -/
def CodePoint.hexValue? (c : CodePoint) : Option Nat :=
  if 0x30 ≤ c.val ∧ c.val ≤ 0x39 then some (c.val - 0x30)
  else if 0x41 ≤ c.val ∧ c.val ≤ 0x46 then some (c.val - 0x37)
  else if 0x61 ≤ c.val ∧ c.val ≤ 0x66 then some (c.val - 0x57)
  else none

namespace Hex

/-- A digit below ten, or a letter counted from the code point `letterA`. -/
def digit (letterA : Nat) (n : Nat) : CodePoint :=
  CodePoint.ofNat (if n < 10 then 0x30 + n else letterA + (n - 10))

/-- The lowest `width` digits of `n`, most significant first. -/
def digits (letterA : Nat) : Nat → Nat → Text
  | 0, _ => []
  | width + 1, n => digits letterA width (n / 16) ++ [digit letterA (n % 16)]

/-- The lowest `width` digits of `n` with small letters. -/
def lower (width n : Nat) : Text := digits 0x61 width n

/-- The lowest `width` digits of `n` with capital letters. -/
def upper (width n : Nat) : Text := digits 0x41 width n

/-- The number that `width` hexadecimal digits at the start of the text write, and the rest. -/
def take? (width : Nat) (t : Text) : Option (Nat × Text) :=
  go width 0 t
where
  /-- Reads the remaining digits after those that wrote `n`. -/
  go : Nat → Nat → Text → Option (Nat × Text)
    | 0, n, t => some (n, t)
    | _ + 1, _, [] => none
    | k + 1, n, c :: r =>
      match c.hexValue? with
      | some v => go k (16 * n + v) r
      | none => none

end Hex

end RequestLine
