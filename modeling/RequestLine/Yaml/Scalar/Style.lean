import RequestLine.Text.Hex
import RequestLine.Yaml.Tag

/-!
# Styles of written scalars

A text is written plain if it would be read back as that text, else in single quotes if its spaces
and breaks survive there, else in double quotes. Long texts are folded at spaces.

* `Scalar.styleOf`: the style of a text.
* `Scalar.write`: the written form.
-/

namespace RequestLine.Yaml.Scalar

/-- How a text is written. -/
inductive Style
  | plain
  | single
  | double
  deriving DecidableEq

/-- Whether the code point breaks lines in written texts. -/
def isWrittenBreak (c : CodePoint) : Bool :=
  c.val == 0x0A || c.val == 0x85 || c.val == 0x2028 || c.val == 0x2029

/-- Whether the code point is a space, a tab or a break. -/
def isGap (c : CodePoint) : Bool :=
  isWrittenBreak c || c.val == 0x20 || c.val == 0x09 || c.val == 0x0D || c.val == 0

/-- Whether the code point has to be escaped. -/
def isSpecial (c : CodePoint) : Bool :=
  !(c.val == 0x0A || (0x20 ≤ c.val && c.val ≤ 0x7E) || c.val == 0x85 ||
    (0xA0 ≤ c.val && c.val ≤ 0xD7FF) ||
    (0xE000 ≤ c.val && c.val ≤ 0xFFFD && c.val ≠ 0xFEFF) ||
    (0x10000 ≤ c.val && c.val < 0x10FFFF))

/-- Whether two neighbours of a text have a property. -/
def hasNeighbours (p : CodePoint → CodePoint → Bool) (t : Text) : Bool :=
  (t.zip (t.drop 1)).any fun x => p x.1 x.2

/-- Whether the text ends here or a gap follows. -/
def endsOrGap (c : Option CodePoint) : Bool := c.all isGap

/-- The marks that no plain text starts with. -/
def leadingIndicators : Text := "#,[]\x7b\x7d&*!|>'\x22%@\x60"

/-- Whether the first code point of a text keeps it from being plain. -/
def startsWithIndicator : Text → Bool
  | [] => false
  | c :: r =>
    leadingIndicators.contains c || ((Text.ofString "?:-").contains c && endsOrGap r.head?)

/-- Whether a colon that ends a key or a mark that starts a comment stands in a text. -/
def holdsIndicator (t : Text) : Bool :=
  hasNeighbours (fun c d => (c.val == 0x3A && isGap d) || (isGap c && d.val == 0x23)) t ||
    t.getLast? == some (CodePoint.ofChar ':')

/-- Whether a text has spaces next to breaks. -/
def mixesGaps (t : Text) : Bool :=
  hasNeighbours (fun c d =>
    (isWrittenBreak c && d.val == 0x20) || (c.val == 0x20 && isWrittenBreak d)) t

/-- Whether a text starts or ends with a space or a break. -/
def hasOuterGap (t : Text) : Bool :=
  let isOuter (c : Option CodePoint) : Bool := c.any (fun c => c.val == 0x20 || isWrittenBreak c)
  isOuter t.head? || isOuter t.getLast?

/-- Whether a text stays what it is in plain style. -/
def allowsPlain (t : Text) : Bool :=
  Tag.ofPlain t == .str && !hasOuterGap t && !t.any isSpecial && !t.any isWrittenBreak &&
    !t.startsWith "---" && !t.startsWith "..." && !startsWithIndicator t && !holdsIndicator t

/-- Whether a text stays what it is in single quotes. -/
def allowsSingle (t : Text) : Bool := !mixesGaps t && !t.any isSpecial

/-- The style of a text. -/
def styleOf (t : Text) : Style :=
  if allowsPlain t then .plain else if allowsSingle t then .single else .double

/-! ## Folding -/

/-- Lines are folded at the first space past this column. -/
def width : Nat := 80

/-- The start of a line at a column. -/
def lineStart (indent : Nat) : Text := "\n" ++ Text.replicate indent ' '

/-- Whether two neighbours belong to one run of spaces, of breaks, or of other code points. -/
def sameRun (c d : CodePoint) : Bool :=
  (c.val == 0x20) == (d.val == 0x20) && isWrittenBreak c == isWrittenBreak d

/-- Writes the runs of a plain text, folded at single spaces. -/
def foldPlain (indent : Nat) : Nat → List Text → Text
  | _, [] => []
  | column, run :: r =>
    if run = Text.ofString " " ∧ width < column then lineStart indent ++ foldPlain indent indent r
    else run ++ foldPlain indent (column + run.length) r

/-- A run of breaks in single quotes: the first line feed is written twice. -/
def writeBreaks (indent : Nat) (run : Text) : Text :=
  let first : Text := if run.head? == some (CodePoint.ofChar '\n') then "\n" else []
  first ++ run ++ Text.replicate indent ' '

/-- Writes the runs of a text in single quotes, folded at single spaces inside the text. -/
def foldSingle (split : Bool) (indent : Nat) : Bool → Nat → List Text → Text
  | _, _, [] => []
  | isFirst, column, run :: r =>
    if run.any isWrittenBreak then writeBreaks indent run ++ foldSingle split indent false indent r
    else if split && run == Text.ofString " " && !isFirst && !r.isEmpty && width < column then
      lineStart indent ++ foldSingle split indent false indent r
    else
      let written := run.flatMap (fun c => if c.val = 0x27 then [c, c] else [c])
      written ++ foldSingle split indent false (column + written.length) r

def escapeLetter? (c : CodePoint) : Option Char :=
  ([(0x00, '0'), (0x07, 'a'), (0x08, 'b'), (0x09, 't'), (0x0A, 'n'), (0x0B, 'v'), (0x0C, 'f'),
    (0x0D, 'r'), (0x1B, 'e'), (0x22, '\x22'), (0x5C, '\\'), (0x85, 'N'), (0xA0, '_'),
    (0x2028, 'L'), (0x2029, 'P')].find? (fun p => p.1 == c.val)).map (·.2)

/-- Whether the code point is escaped in double quotes. -/
def isEscaped (c : CodePoint) : Bool :=
  c.val == 0x22 || c.val == 0x5C || c.val == 0xFEFF || c.val == 0x2028 || c.val == 0x2029 ||
    !((0x20 ≤ c.val && c.val ≤ 0x7E) || (0xA0 ≤ c.val && c.val ≤ 0xD7FF) ||
      (0xE000 ≤ c.val && c.val ≤ 0xFFFD))

def escape (c : CodePoint) : Text :=
  match escapeLetter? c with
  | some l => ['\\', l]
  | none =>
    if c.val ≤ 0xFF then "\\x" ++ Hex.upper 2 c.val
    else if c.val ≤ 0xFFFF then "\\u" ++ Hex.upper 4 c.val
    else "\\U" ++ Hex.upper 8 c.val

/-- Writes a text in double quotes, folded with a backslash at the end of a line. `pending` are the
code points not written yet, the last one first. A space at the start of a line gets a backslash. -/
def foldDouble (split : Bool) (indent : Nat) : Bool → Text → Nat → Text → Text
  | _, pending, _, [] => pending.reverse
  | isFirst, pending, column, c :: r =>
    let inside := split && !isFirst && !r.isEmpty
    if isEscaped c then
      let written := pending.reverse ++ escape c
      let column := column + written.length
      if inside && width < column - 1 then
        let mark : Text := if r.head? == some (CodePoint.ofChar ' ') then "\\" else []
        written ++ "\\" ++ lineStart indent ++ mark ++
          foldDouble split indent false [] (indent + mark.length) r
      else written ++ foldDouble split indent false [] column r
    else if inside && (c.val == 0x20 || pending.isEmpty) && width < column + pending.length then
      let mark : Text := if c.val = 0x20 then "\\" else []
      pending.reverse ++ "\\" ++ lineStart indent ++ mark ++
        foldDouble split indent false [c] (indent + mark.length) r
    else foldDouble split indent false (c :: pending) column r

/-- The written form of a text that starts at a column. Only texts that may be `split` are folded;
their further lines start at `indent`. -/
def write (split : Bool) (indent column : Nat) (t : Text) : Text :=
  match styleOf t with
  | .plain => if split then foldPlain indent column (t.splitBy sameRun) else t
  | .single => "'" ++ foldSingle split indent true (column + 1) (t.splitBy sameRun) ++ "'"
  | .double => "\x22" ++ foldDouble split indent true [] (column + 1) t ++ "\x22"

end RequestLine.Yaml.Scalar
