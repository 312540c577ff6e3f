import RequestLine.Text.Lines
import RequestLine.Text.Utf8
import RequestLine.Yaml.Display

/-!
# Statement files

A file holds statements as a YAML or JSON document, or one on each line.

* `Source.choose`: the statements of a file whose text and whose data as a document are known.
* `Source.load`: the statements of the bytes of a file.
-/

namespace RequestLine.Source

open Yaml

/-- The name of the member that holds a statement. -/
def memberName : Text := "reqline"

/-- The text that a value is. -/
def textOf? : Value → Option Text
  | .atom (.str s) => some s
  | _ => none

/-- The statement that an item of a list holds. -/
def ofItem? (d : Data) (v : Value) : Option Text :=
  (textOf? v).or ((d.member? v memberName).bind textOf?)

/-- The statements of a list: one for each item, if all of them hold one. -/
def ofItems? (d : Data) : Option (List Text) :=
  match d.collection? d.root with
  | some (.list items) => if items.isEmpty then none else items.mapM (ofItem? d)
  | _ => none

/-- Why a file has no statements. -/
inductive LoadError
  | notUtf8
  | fault (f : Fault)
  deriving DecidableEq

/-- The statements of a text with its data: one for a map with a statement, which may be any value,
and one for each item of a list whose items all hold one; otherwise one on each line that is not
blank. -/
def choose (order : SetOrder) (data : Option Data) (t : Text) : Except LoadError (List Text) :=
  match data with
  | none => .ok t.filledLines
  | some d =>
    match d.member? d.root memberName with
    | some v =>
      match d.display? order v with
      | some s => .ok [s]
      | none => .error (.fault .tooManyDigits)
    | none => .ok ((ofItems? d).getD t.filledLines)

/-- The statements of a text with line feeds alone. A text that is no document has no data. -/
def ofText (order : SetOrder) (t : Text) : Except LoadError (List Text) :=
  match Data.parse? t with
  | .ok d => choose order (some d) t
  | .error .malformed => choose order none t
  | .error (.fault f) => .error (.fault f)

/-- The statements of a file. -/
def load (order : SetOrder) (bytes : List UInt8) : Except LoadError (List Text) :=
  match Utf8.decode? bytes with
  | some t => ofText order t.unifyBreaks
  | none => .error .notUtf8

end RequestLine.Source
