import RequestLine.Number.Reading
import RequestLine.Text.Base64
import RequestLine.Yaml.Graph

/-!
# YAML atoms

Data without parts.

* `Atom.ofText`: the atom that the text of a scalar writes.
* `Atom.same`: whether two atoms are one key.
-/

namespace RequestLine.Yaml

/-- Data without parts. A double comes with the scalar that it was read from, unless that is the
name of an infinity or of NaN. -/
inductive Atom
  | null
  | bool (value : Bool)
  | int (value : Int)
  | float (value : Double) (source : Option NodeId)
  | str (text : Text)
  | time (t : Timestamp)
  | bytes (data : List UInt8)

namespace Atom

/-! ## Reading -/

def ungrouped (t : Text) : Text := t.filter (fun c => c.val ≠ 0x5F)

/-- The colon between parts to the base sixty. -/
def colon : CodePoint := ':'

/-- The integer of a text without underscores and without its first sign. -/
def magnitude? (t : Text) : Option Int :=
  if t = Text.ofString "0" then some 0
  else if t.startsWith "0b" then readBased? 2 (t.drop 2)
  else if t.startsWith "0x" then readBased? 16 (t.drop 2)
  else if t.startsWith "0" then readBased? 8 t
  else if t.contains colon then
    ((t.splitOn colon).mapM readInteger?).map (·.foldl (fun n part => 60 * n + part) 0)
  else readInteger? t

def readInt (t : Text) : Except Fault Int :=
  let (negative, body) := splitSign (ungrouped t)
  if body.isEmpty then .error .missingNumber
  else
    match magnitude? body with
    | some i => .ok (if negative then -i else i)
    | none => .error .invalidScalar

/-- The sum of parts to the base sixty, from the last to the first, rounded at every step; nothing
if a power of sixty is out of range. -/
def sixtieths? (parts : List Double) : Option Double := do
  let (sum, _) ← parts.reverse.foldlM (fun (sum, base) part =>
    let factor := Double.ofInt base
    if factor.isFinite then some (sum.add (part.mul factor), base * 60) else none)
    (Double.zero false, (1 : Int))
  return sum

/-- The double of a scalar without underscores, capital letters and its first sign. -/
def readUnsigned (t : Text) : Except Fault Double :=
  if t.contains colon then
    match (t.splitOn colon).mapM readDouble? with
    | some parts => (sixtieths? parts).elim (.error .outOfRange) .ok
    | none => .error .invalidScalar
  else (readDouble? t).elim (.error .invalidScalar) .ok

/-- The double of the scalar at a place. -/
def readFloat (id : NodeId) (t : Text) : Except Fault Atom := do
  let t := lowerAscii (ungrouped t)
  if t.isEmpty then throw .missingNumber
  let (negative, body) := splitSign t
  if body = Text.ofString ".inf" then return .float (.infinite negative) none
  else if body = Text.ofString ".nan" then return .float .nan none
  else
    let x ← readUnsigned body
    return .float (if negative then x.negate else x) (some id)

def readTime (t : Text) : Except Fault Timestamp :=
  match Timestamp.ofText? t.dropFinalBreak with
  | some s => if s.isValid then .ok s else .error .invalidScalar
  | none => .error .notATimestamp

def readBool (t : Text) : Except Fault Bool :=
  match Tag.boolSpellings.find? (fun p => lowerAscii p.1 = lowerAscii t) with
  | some p => .ok p.2
  | none => .error .unknownBoolean

def readBytes (t : Text) : Except Error (List UInt8) :=
  match if t.all (fun c => c.val < 0x80) then Base64.decode? t else none with
  | some data => .ok data
  | none => .error .malformed

/-- The atom of the scalar at a place. -/
def ofText (tag : Tag) (id : NodeId) (t : Text) : Except Error Atom :=
  match tag with
  | .null => .ok .null
  | .str => .ok (.str t)
  | .bool => ((readBool t).map bool).mapError .fault
  | .int => ((readInt t).map int).mapError .fault
  | .float => (readFloat id t).mapError .fault
  | .timestamp => ((readTime t).map time).mapError .fault
  | .binary => (readBytes t).map bytes
  | .seq | .map | .set | .pairs | .merge | .default | .other => .error .malformed

/-! ## Keys -/

/-- The units of a number that is finite. Booleans are the numbers zero and one. -/
def units? : Atom → Option Int
  | bool b => some (if b then unitsOfOne else 0)
  | int i => some (i * unitsOfOne)
  | float (.finite negative m) _ => some (if negative then -(m.units : Int) else m.units)
  | _ => none

/-- Whether two atoms are one key. Numbers are compared by value, whatever their kind; NaN equals
only the NaN from the same scalar, or of the same name. -/
def same (a b : Atom) : Bool :=
  match a, b with
  | null, null => true
  | str s, str t => s = t
  | bytes s, bytes t => s = t
  | time s, time t => s.same t
  | float (.infinite s) _, float (.infinite t) _ => s = t
  | float .nan s, float .nan t => s = t
  | _, _ =>
    match units? a, units? b with
    | some m, some n => m = n
    | _, _ => false

end Atom

end RequestLine.Yaml
