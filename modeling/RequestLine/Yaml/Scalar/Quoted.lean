import RequestLine.Text.Hex
import RequestLine.Yaml.Cursor

/-!
# Quoted scalars

* `takeQuoted`: the text of a scalar in single or double quotes. A single line break inside is
  folded into a space; in double quotes escapes are read, each of them as one code point, so the
  two halves of an escaped surrogate pair stay apart.
-/

namespace RequestLine.Yaml

/-- The code point that an escape letter stands for in double quotes. -/
def escapeLetter? (c : CodePoint) : Option CodePoint :=
  ([('0', 0x00), ('a', 0x07), ('b', 0x08), ('t', 0x09), ('\t', 0x09), ('n', 0x0A), ('v', 0x0B),
    ('f', 0x0C), ('r', 0x0D), ('e', 0x1B), (' ', 0x20), ('\x22', 0x22), ('\\', 0x5C), ('/', 0x2F),
    ('N', 0x85), ('_', 0xA0), ('L', 0x2028), ('P', 0x2029)].find?
      (fun p => CodePoint.ofChar p.1 = c)).map fun p => CodePoint.ofNat p.2

/-- The number of hexadecimal digits after an escape letter. -/
def escapeWidth? (c : CodePoint) : Option Nat :=
  if c = 'x' then some 2 else if c = 'u' then some 4 else if c = 'U' then some 8 else none

/-- The code point of a number that an escape writes. -/
def escapeValue (n : Nat) : Except Error CodePoint :=
  if n < 0x110000 then .ok (CodePoint.ofNat n)
  else if n < 0x80000000 then .error (.fault .invalidScalar)
  else .error (.fault .outOfRange)

/-- The breaks of the lines that follow, and the cursor at the first text after them. -/
def takeQuotedBreaks : Nat → Cursor → Except Error (Text × Cursor)
  | 0, _ => .error .malformed
  | fuel + 1, c =>
    if c.atMarker then .error .malformed
    else
      let c := c.skipWhile isSpace
      let (b, c₁) := c.takeBreak
      if b.isEmpty then .ok ([], c)
      else do
        let (more, c₂) ← takeQuotedBreaks fuel c₁
        return (b ++ more, c₂)

/-- The spaces and breaks that start here, folded. -/
def takeQuotedSpaces (c : Cursor) : Except Error (Text × Cursor) :=
  let (spaces, c) := c.takeWhile isSpace
  match c.next? with
  | none => .error .malformed
  | some x =>
    if isBreak x then do
      let (b, c₁) := c.takeBreak
      let (breaks, c₂) ← takeQuotedBreaks (c₁.rest.length + 1) c₁
      if b ≠ Text.ofString "\n" then return (b ++ breaks, c₂)
      else if breaks.isEmpty then return (" ", c₂)
      else return (breaks, c₂)
    else .ok (spaces, c)

/-- Whether the code point stands for itself inside quotes. -/
def isQuotedText (c : CodePoint) : Bool :=
  !(isBreak c || isSpace c || c.val == 0x22 || c.val == 0x27 || c.val == 0x5C)

/-- The text after a backslash, and the cursor after it. -/
def takeEscape (c : Cursor) : Except Error (Text × Cursor) :=
  match c.next? with
  | none => .error .malformed
  | some x =>
    match escapeLetter? x, escapeWidth? x with
    | some p, _ => .ok ([p], c.advance)
    | none, some width =>
      match Hex.take? width c.advance.rest with
      | none => .error .malformed
      | some (n, _) => do return ([← escapeValue n], c.skip (width + 1))
    | none, none =>
      if isBreak x then
        let c := c.takeBreak.2
        takeQuotedBreaks (c.rest.length + 1) c
      else .error .malformed

/-- The text up to the next space, break or closing quote. -/
def takeQuotedWord (double : Bool) : Nat → Cursor → Except Error (Text × Cursor)
  | 0, _ => .error .malformed
  | fuel + 1, c => do
    let (text, c) := c.takeWhile isQuotedText
    let step : Option (Except Error (Text × Cursor)) :=
      match c.next? with
      | none => none
      | some x =>
        if x.val == 0x27 then
          if double then some (.ok ([x], c.advance))
          else if c.follows "''" then some (.ok ([x], c.skip 2))
          else none
        else if x.val == 0x22 then if double then none else some (.ok ([x], c.advance))
        else if x.val == 0x5C then
          if double then some (takeEscape c.advance) else some (.ok ([x], c.advance))
        else none
    match step with
    | none => return (text, c)
    | some result =>
      let (piece, c) ← result
      let (more, c) ← takeQuotedWord double fuel c
      return (text ++ piece ++ more, c)

/-- The text up to the closing quote, and the cursor after the quote. -/
def takeQuotedRest (double : Bool) : Nat → Cursor → Except Error (Text × Cursor)
  | 0, _ => .error .malformed
  | fuel + 1, c => do
    let (word, c) ← takeQuotedWord double (c.rest.length + 1) c
    if c.at_ (if double then '\x22' else '\x27') then return (word, c.advance)
    else
      let (spaces, c) ← takeQuotedSpaces c
      let (more, c) ← takeQuotedRest double fuel c
      return (word ++ spaces ++ more, c)

/-- The text of a quoted scalar whose opening quote is next. -/
def takeQuoted (double : Bool) (c : Cursor) : Except Error (Text × Cursor) :=
  takeQuotedRest double (c.rest.length + 1) c.advance

end RequestLine.Yaml
