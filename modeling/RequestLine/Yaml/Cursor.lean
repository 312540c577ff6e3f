import RequestLine.Text.Basic
import RequestLine.Yaml.Error

/-!
# Cursors in YAML texts

A cursor is what remains of a text, with the place that has been reached in it.

* `Cursor.skip`: moves over code points and counts lines and columns.
* `Cursor.takeBreak`: moves over one line break and gives the break that it stands for.
-/

namespace RequestLine.Yaml

def isBreak (c : CodePoint) : Bool :=
  c.val == 0x0A || c.val == 0x0D || c.val == 0x85 || c.val == 0x2028 || c.val == 0x2029

def isSpace (c : CodePoint) : Bool := c.val == 0x20 || c.val == 0x09

/-- Whether the text ends here or with this line. -/
def endsLine : Option CodePoint → Bool
  | none => true
  | some c => isBreak c

/-- Whether the text ends here, or a space or a line break follows. -/
def endsWord : Option CodePoint → Bool
  | none => true
  | some c => isBreak c || c.val == 0x20

/-- Whether the text ends here, or a space, a tab or a line break follows. -/
def endsToken : Option CodePoint → Bool
  | none => true
  | some c => isBreak c || isSpace c

/-- What remains of a text, and how far the part before it went. -/
structure Cursor where
  rest : Text
  index : Nat
  line : Nat
  column : Nat

namespace Cursor

def start (t : Text) : Cursor := ⟨t, 0, 0, 0⟩

/-- The code point `n` places on. -/
def ahead? (c : Cursor) (n : Nat) : Option CodePoint := c.rest[n]?

def next? (c : Cursor) : Option CodePoint := c.rest.head?

def at_ (c : Cursor) (x : CodePoint) : Bool := c.next? == some x

def follows (c : Cursor) (t : Text) : Bool := Text.startsWith c.rest t

/-- The cursor one code point on. A carriage return before a line feed does not end the line, and a
byte order mark takes no column. -/
def advance (c : Cursor) : Cursor :=
  match c.rest with
  | [] => c
  | x :: r =>
    if isBreak x && !(x.val == 0x0D && r.head? == some (CodePoint.ofChar '\n')) then
      ⟨r, c.index + 1, c.line + 1, 0⟩
    else ⟨r, c.index + 1, c.line, if x.val == 0xFEFF then c.column else c.column + 1⟩

/-- The cursor `n` code points on. -/
def skip (c : Cursor) : Nat → Cursor
  | 0 => c
  | n + 1 => (c.advance).skip n

/-- The longest stretch of code points of a class, and the cursor after it. -/
def takeWhile (c : Cursor) (p : CodePoint → Bool) : Text × Cursor :=
  let t := c.rest.takeWhile p
  (t, c.skip t.length)

/-- The cursor after the code points of a class. -/
def skipWhile (c : Cursor) (p : CodePoint → Bool) : Cursor := (c.takeWhile p).2

def skipSpaces (c : Cursor) : Cursor := c.skipWhile (fun x => x.val == 0x20)

/-- The break that starts here and the cursor after it. The two Unicode separators stand for
themselves, all other breaks for a line feed; without a break the text is empty. -/
def takeBreak (c : Cursor) : Text × Cursor :=
  match c.next? with
  | none => ([], c)
  | some x =>
    if x.val == 0x2028 || x.val == 0x2029 then ([x], c.advance)
    else if isBreak x then ("\n", if c.follows "\r\n" then c.skip 2 else c.advance)
    else ([], c)

/-- The cursor after a comment, if one starts here. -/
def skipComment (c : Cursor) : Cursor :=
  if c.at_ '#' then c.skipWhile (fun x => !isBreak x) else c

/-- Whether a document marker starts here. -/
def atMarker (c : Cursor) : Bool :=
  (c.follows "---" || c.follows "...") && endsToken (c.ahead? 3)

/-- The cursor after the rest of a line that holds spaces and a comment at most. -/
def finishLine (c : Cursor) : Except Error Cursor :=
  let c := c.skipSpaces.skipComment
  if endsLine c.next? then .ok c.takeBreak.2 else .error .malformed

end Cursor

end RequestLine.Yaml
