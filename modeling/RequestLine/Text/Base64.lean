import RequestLine.Text.Basic

/-!
# Base 64

Bytes written six bits at a time. Whatever is neither a digit nor a pad is passed over, and so is a
pad that closes no group.

* `Base64.decode?`: the bytes that a text writes.
-/

namespace RequestLine.Base64

/-- The value of a digit. -/
def digitValue? (c : CodePoint) : Option Nat :=
  if 0x41 ≤ c.val ∧ c.val ≤ 0x5A then some (c.val - 0x41)
  else if 0x61 ≤ c.val ∧ c.val ≤ 0x7A then some (c.val - 0x61 + 26)
  else if 0x30 ≤ c.val ∧ c.val ≤ 0x39 then some (c.val - 0x30 + 52)
  else if c.val = 0x2B then some 62
  else if c.val = 0x2F then some 63
  else none

/-- The bytes of a text after digits whose last `bits` bits, the number `left`, are still without a
byte, and `pads` pads. A pad stands for two bits; the text ends with the pad that completes a
group. -/
def decodeFrom : Nat → Nat → Nat → Text → Option (List UInt8)
  | bits, _, _, [] => if bits = 0 then some [] else none
  | bits, left, pads, c :: r =>
    match digitValue? c with
    | some v =>
      if bits = 0 then decodeFrom 6 v 0 r
      else
        let scale := Nat.pow 2 (bits - 2)
        let byte := UInt8.ofNat (left * (64 / scale) + v / scale)
        (decodeFrom (bits - 2) (v % scale) 0 r).map (byte :: ·)
    | none =>
      if c.val = 0x3D ∧ 0 < bits ∧ bits < 6 then
        if bits ≤ 2 * (pads + 1) then some [] else decodeFrom bits left (pads + 1) r
      else decodeFrom bits left pads r

/-- The bytes that a text writes; nothing if it ends within a group. -/
def decode? (t : Text) : Option (List UInt8) := decodeFrom 0 0 0 t

end RequestLine.Base64
