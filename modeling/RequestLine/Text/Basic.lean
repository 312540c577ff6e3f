/-!
# Text

A text is a list of Unicode code points. Surrogate code points may stand in it alone, because a
JSON escape can spell half of a pair; what needs a Unicode scalar value asks for it.

* `CodePoint`: a number below `0x110000`; characters are coerced to their code points.
* `Text.ofString`: the text of a string; string literals are coerced with it.
* `Text.joinWith`: pieces with a separator between each two.
-/

namespace RequestLine

/-- A Unicode code point, surrogates included. -/
structure CodePoint where
  val : Nat
  valid : val < 0x110000
  deriving DecidableEq

namespace CodePoint

/-- The code point of a character. -/
def ofChar (c : Char) : CodePoint :=
  ⟨c.toNat, by
    have h := c.valid
    simp only [UInt32.isValidChar, Nat.isValidChar, Char.toNat] at *
    omega⟩

instance : Coe Char CodePoint := ⟨ofChar⟩

/-- The code point with number `n`; numbers past the last one give U+FFFD. -/
def ofNat (n : Nat) : CodePoint :=
  if h : n < 0x110000 then ⟨n, h⟩ else ⟨0xFFFD, by decide⟩

instance : Inhabited CodePoint := ⟨ofNat 0⟩

/-- Whether the code point is half of a surrogate pair. -/
def isSurrogate (c : CodePoint) : Bool := 0xD800 ≤ c.val && c.val ≤ 0xDFFF

/-- Whether the code point is the first half of a surrogate pair. -/
def isHighSurrogate (c : CodePoint) : Bool := 0xD800 ≤ c.val && c.val ≤ 0xDBFF

/-- Whether the code point is the second half of a surrogate pair. -/
def isLowSurrogate (c : CodePoint) : Bool := 0xDC00 ≤ c.val && c.val ≤ 0xDFFF

def isDigit (c : CodePoint) : Bool := 0x30 ≤ c.val && c.val ≤ 0x39

def isLetter (c : CodePoint) : Bool :=
  (0x41 ≤ c.val && c.val ≤ 0x5A) || (0x61 ≤ c.val && c.val ≤ 0x7A)

/-- The character of a code point; a surrogate gives U+FFFD. -/
def toChar (c : CodePoint) : Char :=
  if c.isSurrogate then '\ufffd' else Char.ofNat c.val

theorem val_ofChar (c : Char) : (ofChar c).val = c.toNat := rfl

theorem val_ofNat {n : Nat} (h : n < 0x110000) : (ofNat n).val = n := by
  simp [ofNat, h]

theorem ofNat_val (c : CodePoint) : ofNat c.val = c := by
  simp [ofNat, c.valid]

end CodePoint

/-- A sequence of code points. -/
abbrev Text := List CodePoint

namespace Text

def ofString (s : String) : Text := s.toList.map CodePoint.ofChar

instance : Coe String Text := ⟨ofString⟩

/-- The text of a list of characters. -/
def ofChars (cs : List Char) : Text := cs.map CodePoint.ofChar

/-- The string of a text, each surrogate replaced by U+FFFD. -/
def toString (t : Text) : String := String.ofList (t.map CodePoint.toChar)

/-- The pieces in order with `separator` between each two. -/
def joinWith (separator : Text) (pieces : List Text) : Text := separator.intercalate pieces

def startsWith (t start : Text) : Bool := start.isPrefixOf t

def endsWith (t ending : Text) : Bool := ending.isSuffixOf t

/-- The text without one line feed at its end. -/
def dropFinalBreak (t : Text) : Text :=
  if t.getLast? = some (CodePoint.ofChar '\n') then t.dropLast else t

def hasSurrogate (t : Text) : Bool := t.any CodePoint.isSurrogate

def replicate (n : Nat) (c : CodePoint) : Text := List.replicate n c

/-- Code point order, the shorter text first when it begins the longer one. -/
def before : Text → Text → Bool
  | [], [] => false
  | [], _ :: _ => true
  | _ :: _, [] => false
  | c :: r, d :: s => c.val < d.val || (c.val == d.val && before r s)

end Text

end RequestLine
