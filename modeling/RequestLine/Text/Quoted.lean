import RequestLine.Text.Hex
import RequestLine.Text.Printable

/-!
# Quoted texts

How a text is shown inside a list, a map or a message: in single quotes, or in double quotes when
it holds a single quote and no double one, with escapes for what does not show as itself.

* `Text.quoted`: the quoted form.
* `quotedBytes`: the quoted form of bytes, after the letter b.
-/

namespace RequestLine

/-- The form of a code point between the quotes `quote`. -/
def CodePoint.quoted (quote c : CodePoint) : Text :=
  if c = quote ∨ c = '\\' then ['\\', c]
  else if c = '\t' then "\\t"
  else if c = '\n' then "\\n"
  else if c = '\r' then "\\r"
  else if c.isPrintable then [c]
  else if c.val < 0x100 then "\\x" ++ Hex.lower 2 c.val
  else if c.val < 0x10000 then "\\u" ++ Hex.lower 4 c.val
  else "\\U" ++ Hex.lower 8 c.val

/-- The quotes around a text. -/
def Text.quoteMark (t : Text) : CodePoint :=
  if t.contains (CodePoint.ofChar '\x27') && !t.contains (CodePoint.ofChar '\x22') then '\x22'
  else '\x27'

def Text.quoted (t : Text) : Text :=
  t.quoteMark :: (t.flatMap (CodePoint.quoted t.quoteMark) ++ [t.quoteMark])

/-- Bytes in quotes. Those past ASCII are escaped. -/
def quotedBytes (bytes : List UInt8) : Text :=
  let t : Text := bytes.map (CodePoint.ofNat ·.toNat)
  let shown (c : CodePoint) : Text :=
    if c.val < 0x80 then CodePoint.quoted t.quoteMark c else "\\x" ++ Hex.lower 2 c.val
  'b' :: t.quoteMark :: (t.flatMap shown ++ [t.quoteMark])

end RequestLine
