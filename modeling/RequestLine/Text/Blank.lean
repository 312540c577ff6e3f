import RequestLine.Text.Basic

/-!
# White space

The white space that trimming removes. Splitting a statement and its sections looks for U+0020
alone; trimming knows all of these code points.

* `CodePoint.isBlank`: the class.
* `Text.trim`, `Text.trimEnd`: remove it from both ends, from the end.
-/

namespace RequestLine

/-- Unicode white space, with the four ASCII separators U+001C to U+001F. -/
def CodePoint.isBlank (c : CodePoint) : Bool :=
  (0x09 ≤ c.val && c.val ≤ 0x0D) || (0x1C ≤ c.val && c.val ≤ 0x20) || c.val == 0x85 ||
    c.val == 0xA0 || c.val == 0x1680 || (0x2000 ≤ c.val && c.val ≤ 0x200A) ||
    c.val == 0x2028 || c.val == 0x2029 || c.val == 0x202F || c.val == 0x205F || c.val == 0x3000

namespace Text

/-- The text without the white space it starts with. -/
def trimStart (t : Text) : Text := t.dropWhile CodePoint.isBlank

/-- The text without the white space it ends with. -/
def trimEnd (t : Text) : Text := (t.reverse.dropWhile CodePoint.isBlank).reverse

/-- The text without white space at either end. -/
def trim (t : Text) : Text := t.trimStart.trimEnd

def isBlank (t : Text) : Bool := t.all CodePoint.isBlank

end Text

end RequestLine
