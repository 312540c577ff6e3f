import RequestLine.Text.Blank

/-!
# Lines

* `Text.unifyBreaks`: carriage returns, alone or before a line feed, become line feeds.
* `Text.lines`: the lines of a text, without their terminators and with no last empty line.
-/

namespace RequestLine

/-- The code points that end a line: LF, VT, FF, CR, U+001C to U+001E, NEL, U+2028 and U+2029. -/
def CodePoint.isLineBreak (c : CodePoint) : Bool :=
  (0x0A ≤ c.val && c.val ≤ 0x0D) || (0x1C ≤ c.val && c.val ≤ 0x1E) || c.val == 0x85 ||
    c.val == 0x2028 || c.val == 0x2029

namespace Text

/-- The text with CR LF and CR written as LF. -/
def unifyBreaks : Text → Text
  | [] => []
  | [c] => if c = '\r' then ['\n'] else [c]
  | c :: d :: r =>
    if c = '\r' then
      if d = '\n' then '\n' :: unifyBreaks r else '\n' :: unifyBreaks (d :: r)
    else c :: unifyBreaks (d :: r)

/-- The lines of a text in which every break is one code point. A break ends a line, so a text that
ends with one has no empty line after it. -/
def lines : Text → List Text
  | [] => []
  | c :: r =>
    if c.isLineBreak then [] :: lines r
    else
      match lines r with
      | [] => [[c]]
      | line :: rest => (c :: line) :: rest

/-- The lines that hold more than white space, in order and untrimmed. -/
def filledLines (t : Text) : List Text := t.lines.filter (fun line => !line.isBlank)

end Text

end RequestLine
