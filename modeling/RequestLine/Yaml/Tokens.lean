import RequestLine.Dictionary
import RequestLine.Text.Utf8
import RequestLine.Text.DecimalDigit
import RequestLine.Number.Reading
import RequestLine.Yaml.Scalar.Block
import RequestLine.Yaml.Scalar.Plain
import RequestLine.Yaml.Scalar.Quoted
import RequestLine.Yaml.Token

/-!
# Token sequences

The tokens of a YAML text. Indentation becomes tokens that start and end blocks. A key needs no mark
in front of it: where one may have started is remembered, and when a colon shows that it did, the
token that says so is put there afterwards. Tokens are settled once no key may have started before
them; where a text cannot be read on, its settled tokens are still tokens.

* `Tokens.ofText`: the tokens of a text.
-/

namespace RequestLine.Yaml

/-- A place where a key without a mark may have started. -/
structure PossibleKey where
  /-- The number of tokens before it. -/
  position : Nat
  /-- Whether nothing but a key can stand there. -/
  required : Bool
  index : Nat
  line : Nat
  column : Nat

/-- Tokens found so far, and what is known at the cursor. -/
structure Tokens where
  cursor : Cursor
  /-- The tokens found so far, the last one first. -/
  found : List Token
  count : Nat
  flowLevel : Nat
  /-- The column of the innermost block; minus one outside all blocks. -/
  indent : Int
  outer : List Int
  /-- Whether a key without a mark may start here. -/
  keyAllowed : Bool
  /-- Possible keys by the number of brackets open at them. -/
  keys : Dictionary Nat PossibleKey

namespace Tokens

def start (t : Text) : Tokens := ⟨.start t, [], 0, 0, -1, [], true, []⟩

def inFlow (s : Tokens) : Bool := s.flowLevel ≠ 0

def push (s : Tokens) (t : Token) : Tokens := { s with found := t :: s.found, count := s.count + 1 }

/-- The tokens with `t` put after the first `position` ones. -/
def insert (s : Tokens) (position : Nat) (t : Token) : Tokens :=
  let later := s.count - position
  { s with found := s.found.take later ++ t :: s.found.drop later, count := s.count + 1 }

/-- The tokens with one more, of `width` code points. -/
def pushMark (s : Tokens) (t : Token) (width : Nat) : Tokens :=
  { s.push t with cursor := s.cursor.skip width }

/-! ## Possible keys -/

/-- Forgets the possible key at the current number of brackets. One that is required cannot be
forgotten. -/
def dropKey (s : Tokens) : Except Error Tokens :=
  match s.keys.get? s.flowLevel with
  | none => .ok s
  | some k =>
    if k.required then .error .malformed
    else .ok { s with keys := s.keys.filter (fun p => p.1 ≠ s.flowLevel) }

/-- Remembers that a key may start here. -/
def saveKey (s : Tokens) : Except Error Tokens :=
  if s.keyAllowed then do
    let s ← s.dropKey
    let c := s.cursor
    let required := !s.inFlow && s.indent == c.column
    return { s with
      keys := s.keys.set s.flowLevel ⟨s.count, required, c.index, c.line, c.column⟩ }
  else .ok s

/-- Whether a colon here comes too late for a possible key: on a later line, or too far on. -/
def isStale (s : Tokens) (k : PossibleKey) : Bool :=
  k.line ≠ s.cursor.line || 1024 < s.cursor.index - k.index

/-- Forgets the possible keys for which it is too late. -/
def dropStaleKeys (s : Tokens) : Except Error Tokens :=
  if s.keys.any (fun p => s.isStale p.2 && p.2.required) then .error .malformed
  else .ok { s with keys := s.keys.filter (fun p => !s.isStale p.2) }

/-! ## Indentation -/

/-- How many of the innermost blocks are deeper than `column`, and the columns of the others. -/
def endingBlocks (column indent : Int) : List Int → Nat × Int × List Int
  | [] => (0, indent, [])
  | above :: outer =>
    if column < indent then
      let (n, indent, outer) := endingBlocks column above outer
      (n + 1, indent, outer)
    else (0, indent, above :: outer)

/-- Ends the blocks deeper than `column`; inside brackets indentation does not count. -/
def unwind (s : Tokens) (column : Int) : Tokens :=
  if s.inFlow then s
  else
    let (n, indent, outer) := endingBlocks column s.indent s.outer
    { s with
      found := List.replicate n .blockEnd ++ s.found, count := s.count + n
      indent := indent, outer := outer }

/-- The tokens inside a block at `column`, and whether it is a new one. -/
def enterBlock (s : Tokens) (column : Nat) : Tokens × Bool :=
  if s.indent < column then ({ s with indent := column, outer := s.indent :: s.outer }, true)
  else (s, false)

/-! ## Names -/

/-- A letter, digit, dash or underscore. -/
def isNamePart (c : CodePoint) : Bool :=
  c.isDigit || c.isLetter || c.val == 0x2D || c.val == 0x5F

/-- A name at the cursor. -/
def takeName (c : Cursor) : Except Error (Text × Cursor) :=
  let (name, c) := c.takeWhile isNamePart
  if name.isEmpty then .error .malformed else .ok (name, c)

/-- The bytes that percent signs with two digits write. -/
def takeBytes : Nat → Cursor → Except Error (List UInt8 × Cursor)
  | 0, _ => .error .malformed
  | fuel + 1, c =>
    if c.at_ '%' then
      match Hex.take? 2 c.advance.rest with
      | none => .error .malformed
      | some (n, _) => do
        let (more, c) ← takeBytes fuel (c.skip 3)
        return (UInt8.ofNat n :: more, c)
    else .ok ([], c)

/-- Whether the code point may stand in the name of a tag. -/
def isUriPart (c : CodePoint) : Bool :=
  c.isDigit || c.isLetter || (Text.ofString "-;/?:@&=+$,_.!~*'()[]").contains c

/-- The name of a tag, percent escapes decoded. -/
def takeUri : Nat → Cursor → Except Error (Text × Cursor)
  | 0, _ => .error .malformed
  | fuel + 1, c =>
    let (text, c) := c.takeWhile isUriPart
    if c.at_ '%' then do
      let (bytes, c) ← takeBytes (c.rest.length + 1) c
      match Utf8.decode? bytes with
      | none => throw .malformed
      | some decoded =>
        let (more, c) ← takeUri fuel c
        return (text ++ decoded ++ more, c)
    else .ok (text, c)

/-- The name of a tag, which is not empty. -/
def takeTagName (c : Cursor) : Except Error (Text × Cursor) := do
  let (name, c₁) ← takeUri (c.rest.length + 1) c
  if c₁.index = c.index then throw .malformed
  return (name, c₁)

/-- A tag handle: `!`, `!!` or a name between two of them. -/
def takeHandle (c : Cursor) : Except Error (Text × Cursor) :=
  if !c.at_ '!' then .error .malformed
  else
    match c.ahead? 1 with
    | some x =>
      if x.val == 0x20 then .ok ("!", c.advance)
      else
        let (name, c₁) := c.advance.takeWhile isNamePart
        if c₁.at_ '!' then .ok ("!" ++ name ++ "!", c₁.advance) else .error .malformed
    | none => .error .malformed

/-- A tag that is written out between angle brackets. -/
def takeWholeTag (c : Cursor) : Except Error (Token × Cursor) := do
  let (name, c) ← takeTagName c
  if c.at_ '>' then return (.tag none name, c.advance) else throw .malformed

/-- A tag with a handle, which is `!` if there is no second exclamation mark. -/
def takeShortTag (c : Cursor) : Except Error (Token × Cursor) := do
  let word := c.rest.drop 1 |>.takeWhile (fun x => !endsWord (some x))
  let (handle, c) ←
    if word.contains (CodePoint.ofChar '!') then takeHandle c
    else Except.ok (Text.ofString "!", c.advance)
  let (name, c) ← takeTagName c
  return (.tag (some handle) name, c)

/-- The tag at the cursor. -/
def takeTag (c : Cursor) : Except Error (Token × Cursor) := do
  let (token, c) ←
    if c.ahead? 1 == some (CodePoint.ofChar '<') then takeWholeTag (c.skip 2)
    else if endsToken (c.ahead? 1) then Except.ok (.tag none "!", c.advance)
    else takeShortTag c
  if endsWord c.next? then return (token, c) else throw .malformed

/-- The name after an ampersand or an asterisk. -/
def takeAnchorName (c : Cursor) : Except Error (Text × Cursor) := do
  let (name, c) ← takeName c.advance
  let ends := match c.next? with
    | none => true
    | some x => endsToken (some x) || (Text.ofString "?:,]\x7d%@\x60").contains x
  if ends then return (name, c) else throw .malformed

/-! ## Directives -/

/-- A number in a directive. -/
def takeNumber (c : Cursor) : Except Error (Nat × Cursor) :=
  let (digits, c) := c.takeWhile CodePoint.isDigit
  if digits.isEmpty then .error .malformed
  else if digitLimit < digits.length then .error (.fault .tooManyDigits)
  else .ok (digitsValue digits, c)

/-- The version after the word `YAML`. -/
def takeVersion (c : Cursor) : Except Error (Directive × Cursor) := do
  let (major, c) ← takeNumber c.skipSpaces
  if !c.at_ '.' then throw .malformed
  let (minor, c) ← takeNumber c.advance
  if endsWord c.next? then return (.version major minor, c) else throw .malformed

/-- The handle and the start of a name after the word `TAG`. -/
def takeTagDirective (c : Cursor) : Except Error (Directive × Cursor) := do
  let (handle, c) ← takeHandle c.skipSpaces
  if !c.at_ ' ' then throw .malformed
  let (start, c) ← takeTagName c.skipSpaces
  if endsWord c.next? then return (.tag handle start, c) else throw .malformed

/-- The directive at the cursor. -/
def takeDirective (c : Cursor) : Except Error (Directive × Cursor) := do
  let (name, c) ← takeName c.advance
  if !endsWord c.next? then throw .malformed
  let (directive, c) ←
    if name = Text.ofString "YAML" then takeVersion c
    else if name = Text.ofString "TAG" then takeTagDirective c
    else Except.ok (Directive.other, c.skipWhile (fun x => !isBreak x))
  return (directive, ← c.finishLine)

/-! ## One token -/

/-- The cursor at the next token, after spaces, comments and blank lines; whether it is on a new
line. -/
def toNextToken : Nat → Cursor → Cursor × Bool
  | 0, c => (c, false)
  | fuel + 1, c =>
    let c := c.skipSpaces.skipComment
    let (b, c₁) := c.takeBreak
    if b.isEmpty then (c, false) else ((toNextToken fuel c₁).1, true)

/-- The tokens with the cursor at the next token, the blocks that end before it ended. -/
def approach (s : Tokens) : Except Error Tokens := do
  let c := if s.cursor.index = 0 ∧ s.cursor.at_ (CodePoint.ofNat 0xFEFF) then s.cursor.advance
    else s.cursor
  let (c, newLine) := toNextToken (c.rest.length + 1) c
  let s := { s with cursor := c, keyAllowed := s.keyAllowed || (newLine && !s.inFlow) }
  let s ← s.dropStaleKeys
  return s.unwind s.cursor.column

/-- Ends all blocks before a line that belongs to no document. -/
def leaveDocument (s : Tokens) : Except Error Tokens := do
  let s ← (s.unwind (-1)).dropKey
  return { s with keyAllowed := false }

/-- An opening bracket, which may start a key. -/
def openBracket (s : Tokens) (t : Token) : Except Error Tokens := do
  let s ← s.saveKey
  return { s.pushMark t 1 with flowLevel := s.flowLevel + 1, keyAllowed := true }

/-- A closing bracket. -/
def closeBracket (s : Tokens) (t : Token) : Except Error Tokens := do
  let s ← s.dropKey
  return { s.pushMark t 1 with flowLevel := s.flowLevel - 1, keyAllowed := false }

/-- A comma. -/
def flowEntry (s : Tokens) : Except Error Tokens := do
  let s ← s.dropKey
  return { s.pushMark .flowEntry 1 with keyAllowed := true }

/-- Enters a block at the cursor, which may only start where a key may. -/
def enterHere (s : Tokens) (opening : Token) : Except Error Tokens :=
  if s.inFlow then .ok s
  else if !s.keyAllowed then .error .malformed
  else
    let (s, isNew) := s.enterBlock s.cursor.column
    .ok (if isNew then s.push opening else s)

/-- A dash before an item. -/
def blockEntry (s : Tokens) : Except Error Tokens := do
  let s ← (← s.enterHere .blockSequenceStart).dropKey
  return { s.pushMark .blockEntry 1 with keyAllowed := true }

/-- A question mark before a key. -/
def explicitKey (s : Tokens) : Except Error Tokens := do
  let s ← (← s.enterHere .blockMappingStart).dropKey
  return { s.pushMark .key 1 with keyAllowed := !s.inFlow }

/-- A colon before a value. -/
def value (s : Tokens) : Except Error Tokens :=
  match s.keys.get? s.flowLevel with
  | some k =>
    let s := { s with keys := s.keys.filter (fun p => p.1 ≠ s.flowLevel) }
    let s := s.insert k.position .key
    let (s, isNew) := if s.inFlow then (s, false) else s.enterBlock k.column
    let s := if isNew then s.insert k.position .blockMappingStart else s
    .ok { s.pushMark .value 1 with keyAllowed := false }
  | none => do
    let s ← s.enterHere .blockMappingStart
    let s ← { s with keyAllowed := !s.inFlow }.dropKey
    return s.pushMark .value 1

/-- A token that may start a key and is read by `take`. -/
def keyToken (s : Tokens) (take : Cursor → Except Error (Token × Cursor)) :
    Except Error Tokens := do
  let s ← s.saveKey
  let (t, c) ← take s.cursor
  return { s.push t with cursor := c, keyAllowed := false }

/-- A block scalar, which starts no key. -/
def blockScalar (s : Tokens) (folded : Bool) : Except Error Tokens := do
  let s ← s.dropKey
  let (text, c) ← takeBlock folded s.indent s.cursor
  return { s.push (.scalar text false) with cursor := c, keyAllowed := true }

/-- A plain scalar. -/
def plainScalar (s : Tokens) : Except Error Tokens := do
  let s ← s.saveKey
  let p := takePlain s.inFlow s.indent s.cursor
  return { s.push (.scalar p.text true) with cursor := p.cursor, keyAllowed := p.pastLine }

/-- Reads the token at the cursor, which starts with `x`. -/
def next (s : Tokens) (x : CodePoint) : Except Error Tokens :=
  let c := s.cursor
  let atStart := c.column == 0 && endsToken (c.ahead? 3)
  let alone := endsToken (c.ahead? 1)
  if x = '%' ∧ c.column = 0 then do
    let s ← s.leaveDocument
    let (d, c) ← takeDirective s.cursor
    return { s.push (.directive d) with cursor := c }
  else if atStart ∧ c.follows "---" then do return (← s.leaveDocument).pushMark .documentStart 3
  else if atStart ∧ c.follows "..." then do return (← s.leaveDocument).pushMark .documentEnd 3
  else if x = '[' then s.openBracket .flowSequenceStart
  else if x = '\x7b' then s.openBracket .flowMappingStart
  else if x = ']' then s.closeBracket .flowSequenceEnd
  else if x = '\x7d' then s.closeBracket .flowMappingEnd
  else if x = ',' then s.flowEntry
  else if x = '-' ∧ alone then s.blockEntry
  else if x = '?' ∧ (s.inFlow || alone) then s.explicitKey
  else if x = ':' ∧ (s.inFlow || alone) then s.value
  else if x = '*' then s.keyToken fun c => do
    let (name, c) ← takeAnchorName c
    return (.alias name, c)
  else if x = '&' then s.keyToken fun c => do
    let (name, c) ← takeAnchorName c
    return (.anchor name, c)
  else if x = '!' then s.keyToken takeTag
  else if x = '|' ∧ !s.inFlow then s.blockScalar false
  else if x = '>' ∧ !s.inFlow then s.blockScalar true
  else if x = '\x27' then s.keyToken fun c => do
    let (text, c) ← takeQuoted false c
    return (.scalar text false, c)
  else if x = '\x22' then s.keyToken fun c => do
    let (text, c) ← takeQuoted true c
    return (.scalar text false, c)
  else if startsPlain s.inFlow c then s.plainScalar
  else .error .malformed

/-- Reads on, to the end of the text or by one token; whether the text has ended. -/
def step (s : Tokens) : Except Error (Tokens × Bool) := do
  let s ← s.approach
  match s.cursor.next? with
  | none => return (← s.leaveDocument, true)
  | some x => return (← (← s.next x).dropStaleKeys, false)

/-- The tokens before the first place where a key may still have started. -/
def settled (s : Tokens) : List Token :=
  s.found.reverse.take (s.keys.foldl (fun n p => min n p.2.position) s.count)

/-- Reads all remaining tokens; every one takes at least one code point. -/
def readAll : Nat → Tokens → List Token
  | 0, s => s.settled ++ [.unreadable .malformed]
  | fuel + 1, s =>
    match s.step with
    | .error e => s.settled ++ [.unreadable e]
    | .ok (s, true) => s.found.reverse
    | .ok (s, false) => readAll fuel s

/-- The tokens of a text. -/
def ofText (t : Text) : List Token := readAll (t.length + 1) (start t)

end Tokens

end RequestLine.Yaml
