/-!
# Scripts

An endless supply of values of which only the first ones differ: the last one repeats. What the
transport answers and what the clock shows are scripts.

* `Script.rest`: the script after its first value has been used.
-/

namespace RequestLine

/-- A non-empty sequence whose last value repeats. -/
structure Script (α : Type) where
  first : α
  later : List α

namespace Script

variable {α : Type}

def rest (s : Script α) : Script α :=
  match s.later with
  | [] => s
  | x :: r => ⟨x, r⟩

/-- The script of a list; an empty list gives a script of `default` alone. -/
def ofList (xs : List α) (default : α) : Script α :=
  match xs with
  | [] => ⟨default, []⟩
  | x :: r => ⟨x, r⟩

end Script

end RequestLine
