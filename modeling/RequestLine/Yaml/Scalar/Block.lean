import RequestLine.Yaml.Cursor

/-!
# Block scalars

* `takeBlock`: the text of a literal (`|`) or folded (`>`) scalar. Its indentation is that of its
  first line that is not blank, or given in its header; the header also says whether the line
  breaks at its end are kept, cut, or all but the first cut.
-/

namespace RequestLine.Yaml

/-- What becomes of the line breaks at the end. -/
inductive Chomping
  | clip
  | strip
  | keep
  deriving DecidableEq

def chompingOf? (c : CodePoint) : Option Chomping :=
  if c = '+' then some .keep else if c = '-' then some .strip else none

/-- The chomping that is next, if one is. -/
def takeChomping (c : Cursor) : Option Chomping × Cursor :=
  match c.next?.bind chompingOf? with
  | some m => (some m, c.advance)
  | none => (none, c)

/-- The indentation that is next, if one is; it is not zero. -/
def takeIncrement (c : Cursor) : Except Error (Option Nat × Cursor) :=
  match c.next? with
  | some x =>
    if x = '0' then .error .malformed
    else if x.isDigit then .ok (some (x.val - 0x30), c.advance)
    else .ok (none, c)
  | none => .ok (none, c)

/-- The header of a block scalar: chomping and indentation, in either order. -/
def takeBlockHeader (c : Cursor) : Except Error ((Chomping × Option Nat) × Cursor) := do
  let (first, c) := takeChomping c
  let (increment, c) ← takeIncrement c
  let (second, c) := if first.isNone && increment.isSome then takeChomping c else (none, c)
  if endsWord c.next? then return (((first.or second).getD .clip, increment), c)
  else throw .malformed

/-- The breaks of blank lines, the widest of these lines, and the cursor at the first that is not
blank. -/
def takeLeadingBreaks : Nat → Nat → Cursor → (Text × Nat) × Cursor
  | 0, widest, c => (([], widest), c)
  | fuel + 1, widest, c =>
    match c.next? with
    | none => (([], widest), c)
    | some x =>
      if x.val == 0x20 then
        let c := c.advance
        takeLeadingBreaks fuel (max widest c.column) c
      else
        let (b, c₁) := c.takeBreak
        if b.isEmpty then (([], widest), c)
        else
          let ((more, widest), c₂) := takeLeadingBreaks fuel widest c₁
          ((b ++ more, widest), c₂)

/-- The cursor after at most as many spaces as reach column `indent`. -/
def skipIndent (indent : Nat) (c : Cursor) : Cursor :=
  c.skip ((c.rest.takeWhile (fun x => x.val == 0x20)).take (indent - c.column)).length

/-- The breaks of lines no wider than `indent`, and the cursor after the indentation that follows
them. -/
def takeBlockBreaks (indent : Nat) : Nat → Cursor → Text × Cursor
  | 0, c => ([], c)
  | fuel + 1, c =>
    let c := skipIndent indent c
    let (b, c₁) := c.takeBreak
    if b.isEmpty then ([], c)
    else
      let (more, c₂) := takeBlockBreaks indent fuel c₁
      (b ++ more, c₂)

/-- Whether a line starts with a space or a tab. -/
def startsBlank (c : Cursor) : Bool := (c.next?.map isSpace).getD false

/-- The lines of a block scalar from column `indent` on. `breaks` are those before the line. -/
def takeBlockLines (folded : Bool) (chomping : Chomping) (indent : Nat) :
    Nat → Text → Cursor → Text × Cursor
  | 0, _, c => ([], c)
  | fuel + 1, breaks, c =>
    let inset := startsBlank c
    let (line, c) := c.takeWhile (fun x => !isBreak x)
    let (b, c) := c.takeBreak
    let (after, c) := takeBlockBreaks indent (c.rest.length + 1) c
    if c.column == indent && c.next?.isSome then
      let joint : Text :=
        if folded && b == Text.ofString "\n" && !inset && !startsBlank c then
          if after.isEmpty then " " else []
        else b
      let (more, c) := takeBlockLines folded chomping indent fuel after c
      (breaks ++ line ++ joint ++ more, c)
    else
      let tail := match chomping with
        | .strip => []
        | .clip => b
        | .keep => b ++ after
      (breaks ++ line ++ tail, c)

/-- The text of a block scalar whose mark is next; `parent` is the indentation around it. -/
def takeBlock (folded : Bool) (parent : Int) (c : Cursor) : Except Error (Text × Cursor) := do
  let ((chomping, increment), c) ← takeBlockHeader c.advance
  let c ← c.finishLine
  let least := max 1 (parent + 1).toNat
  let ((breaks, indent), c) :=
    match increment with
    | some n =>
      let indent := least + n - 1
      let (breaks, c) := takeBlockBreaks indent (c.rest.length + 1) c
      ((breaks, indent), c)
    | none =>
      let ((breaks, widest), c) := takeLeadingBreaks (c.rest.length + 1) 0 c
      ((breaks, max least widest), c)
  if c.column == indent && c.next?.isSome then
    return takeBlockLines folded chomping indent (c.rest.length + 1) breaks c
  else
    return (if chomping == .keep then breaks else [], c)

end RequestLine.Yaml
