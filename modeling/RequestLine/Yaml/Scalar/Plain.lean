import RequestLine.Yaml.Cursor

/-!
# Plain scalars

* `takePlain`: the text of a scalar without quotes. It ends before a comment, before a colon that
  ends a key, and inside brackets before their marks; line breaks in it are folded.
* `startsPlain`: whether a plain scalar starts here.
-/

namespace RequestLine.Yaml

/-- The marks with which no plain scalar starts. -/
def leadingMarks : Text := "-?:,[]\x7b\x7d#&*!|>'\x22%@\x60"

/-- Whether a plain scalar starts at the cursor. A dash may start one if something follows it, and
so may a question mark and a colon outside brackets. -/
def startsPlain (inFlow : Bool) (c : Cursor) : Bool :=
  match c.next? with
  | none => false
  | some x =>
    !(endsToken (some x) || leadingMarks.contains x) ||
      (!endsToken (c.ahead? 1) &&
        (x = CodePoint.ofChar '-' ||
          (!inFlow && (x = CodePoint.ofChar '?' || x = CodePoint.ofChar ':'))))

/-- The marks that end a plain scalar inside brackets. -/
def flowMarks : Text := ",?[]\x7b\x7d"

/-- Whether a colon before `after` ends a key. -/
def colonEnds (inFlow : Bool) (after : Option CodePoint) : Bool :=
  endsToken after || (inFlow && (after.map (Text.ofString ",[]\x7b\x7d").contains).getD false)

/-- The text up to the next space, break or mark that ends the scalar. -/
def plainWord (inFlow : Bool) : Text → Text
  | [] => []
  | x :: r =>
    if endsToken (some x) || (x = CodePoint.ofChar ':' && colonEnds inFlow r.head?) ||
        (inFlow && flowMarks.contains x) then []
    else x :: plainWord inFlow r

/-- The breaks of the blank lines that follow, and the cursor after them; nothing if a document
marker follows one of them. -/
def takePlainBreaks : Nat → Cursor → Option Text × Cursor
  | 0, c => (some [], c)
  | fuel + 1, c =>
    let c := c.skipSpaces
    let (b, c₁) := c.takeBreak
    if b.isEmpty then (some [], c)
    else if c₁.atMarker then (none, c₁)
    else
      let (more, c₂) := takePlainBreaks fuel c₁
      (more.map (b ++ ·), c₂)

/-- The folded space after a word, the cursor after it, and whether it goes over a line break. The
space is empty where the scalar ends. -/
def takePlainSpace (c : Cursor) : (Text × Cursor) × Bool :=
  let (spaces, c) := c.takeWhile (fun x => x.val == 0x20)
  let (b, c₁) := c.takeBreak
  if b.isEmpty then ((spaces, c), false)
  else if c₁.atMarker then (([], c₁), true)
  else
    match takePlainBreaks (c₁.rest.length + 1) c₁ with
    | (none, c₂) => (([], c₂), true)
    | (some breaks, c₂) =>
      if b ≠ Text.ofString "\n" then ((b ++ breaks, c₂), true)
      else if breaks.isEmpty then ((" ", c₂), true)
      else ((breaks, c₂), true)

/-- A plain scalar that has been read. -/
structure PlainScalar where
  text : Text
  cursor : Cursor
  /-- Whether it was read past the end of a line after its last word. -/
  pastLine : Bool

/-- The words of a plain scalar that `space` separates from the text before. -/
def takePlainWords (inFlow : Bool) (indent : Int) (pastLine : Bool) :
    Nat → Text → Cursor → PlainScalar
  | 0, _, c => ⟨[], c, pastLine⟩
  | fuel + 1, space, c =>
    let word := if c.at_ '#' then [] else plainWord inFlow c.rest
    if word.isEmpty then ⟨[], c, pastLine⟩
    else
      let ((next, c), pastLine) := takePlainSpace (c.skip word.length)
      if next.isEmpty || c.at_ '#' || (!inFlow && (c.column : Int) < indent) then
        ⟨space ++ word, c, pastLine⟩
      else
        let more := takePlainWords inFlow indent pastLine fuel next c
        { more with text := space ++ word ++ more.text }

/-- The plain scalar that starts at the cursor; `parent` is the indentation around it. -/
def takePlain (inFlow : Bool) (parent : Int) (c : Cursor) : PlainScalar :=
  takePlainWords inFlow (parent + 1) false (c.rest.length + 1) [] c

end RequestLine.Yaml
