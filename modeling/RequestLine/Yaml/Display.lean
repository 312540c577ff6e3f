import RequestLine.Text.Quoted
import RequestLine.Yaml.Data

/-!
# Shown data

How data is written into a text. A collection inside itself is shown by its brackets alone. A set has
no order of its own, so the one in which its members are shown is given from outside.

* `SetOrder`: an order for the members of sets.
* `Data.shown?`: the text of a value inside a list or a map.
* `Data.display?`: the text of a value alone; a text is itself.
-/

namespace RequestLine.Yaml

namespace Atom

/-- The text of an integer, unless it has too many digits. -/
def intText? (i : Int) : Option Text :=
  let t := decimalDigits i.natAbs
  if t.length ≤ digitLimit then some (integerText i) else none

/-- The text of an atom inside a list or a map. -/
def shown? : Atom → Option Text
  | null => some "None"
  | bool b => some (if b then "True" else "False")
  | int i => intText? i
  | float x _ => some (NumberStyle.display.write x)
  | str s => some s.quoted
  | time t => some t.constructorText
  | bytes data => some (quotedBytes data)

/-- The text of an atom alone. -/
def display? : Atom → Option Text
  | str s => some s
  | time t => some t.text
  | a => a.shown?

end Atom

/-- An order in which the members of sets are shown. -/
structure SetOrder where
  arrange : List Atom → List Atom
  perm : ∀ members, (arrange members).Perm members

/-- Members are shown as they were written. -/
def SetOrder.written : SetOrder := ⟨id, fun _ => .refl _⟩

/-- Texts in brackets with commas between them. -/
def bracketed (opening : Text) (texts : List Text) (closing : Text) : Text :=
  opening ++ Text.joinWith ", " texts ++ closing

/-- The text of a collection inside itself. -/
def Collection.outline : Collection → Text
  | list _ | pairs _ => "[...]"
  | set _ => "set(...)"
  | map _ => "\x7b...\x7d"

namespace Data

/-- The text of a value inside the collections `around`. -/
def shownWithin (order : SetOrder) (d : Data) : Nat → List NodeId → Value → Option Text
  | _, _, .atom a => a.shown?
  | 0, _, .collection _ => none
  | depth + 1, around, .collection id =>
    match d.collections.get? id with
    | none => none
    | some c =>
      if around.contains id then some c.outline
      else
        let inner := shownWithin order d depth (id :: around)
        match c with
        | .list items => do return bracketed "[" (← items.mapM inner) "]"
        | .pairs entries => do
          let texts ← entries.mapM fun p => do
            return bracketed "(" [← inner p.1, ← inner p.2] ")"
          return bracketed "[" texts "]"
        | .set [] => some "set()"
        | .set members => do
          let texts ← (order.arrange members).mapM Atom.shown?
          return bracketed "\x7b" texts "\x7d"
        | .map entries => do
          let texts ← entries.mapM fun p => do
            return (← p.1.shown?) ++ ": " ++ (← inner p.2)
          return bracketed "\x7b" texts "\x7d"

/-- The text of a value inside a list or a map, unless an integer in it has too many digits. No more
collections stand inside each other than there are. -/
def shown? (order : SetOrder) (d : Data) (v : Value) : Option Text :=
  d.shownWithin order (d.collections.length + 1) [] v

/-- The text of a value alone, unless an integer in it has too many digits. -/
def display? (order : SetOrder) (d : Data) : Value → Option Text
  | .atom a => a.display?
  | v => d.shown? order v

end Data

end RequestLine.Yaml
