import RequestLine.Text.Hex
import RequestLine.Text.Utf8

/-!
# Percent encoding

The encoding of one component of a URL query.

* `Percent.encode?`: letters, digits and `-_.!~*'()` stand for themselves, every other code point
  is written as `%XX` for each byte of its UTF-8 form; refused when the text holds a surrogate.
* `Percent.decode?`: the text of a component, which undoes it.
-/

namespace RequestLine.Percent

/-- The marks that stand for themselves beside letters and digits. -/
def marks : Text := Text.ofString "-_.!~*'()"

/-- Whether the code point stands for itself. -/
def isUnreserved (c : CodePoint) : Bool := c.isLetter || c.isDigit || marks.contains c

/-- A byte as a percent sign and two hexadecimal digits. -/
def escape (b : UInt8) : Text := '%' :: Hex.upper 2 b.toNat

/-- The encoded form of a code point that is no surrogate. -/
def encodePoint (c : CodePoint) : Text :=
  if isUnreserved c then [c] else (Utf8.encodePoint c).flatMap escape

/-- The encoded form of a text without surrogates. -/
def encode? (t : Text) : Option Text :=
  if t.hasSurrogate then none else some (t.flatMap encodePoint)

/-- The bytes that a component stands for: `%XX` is a byte, any other ASCII character its own. -/
def bytes? : Text → Option (List UInt8)
  | [] => some []
  | c :: r =>
    if c = '%' then
      match r with
      | h :: l :: s =>
        match h.hexValue?, l.hexValue? with
        | some a, some b => (bytes? s).map (UInt8.ofNat (16 * a + b) :: ·)
        | _, _ => none
      | _ => none
    else if c.val < 0x80 then (bytes? r).map (UInt8.ofNat c.val :: ·)
    else none

/-- The text that an encoded component stands for. -/
def decode? (t : Text) : Option Text := (bytes? t).bind Utf8.decode?

end RequestLine.Percent
