import RequestLine.Proofs.Dictionary
import RequestLine.Proofs.Json.Inside
import RequestLine.Proofs.Json.Values

/-!
# Repeated names

A text may write a name more than once in an object. The value has the name once, where it came
first, with the value that it came with last. Names are compared as the texts that they stand for,
so it does not matter which of them are spelled with escapes.

* `Merged`: a text with its value, each name of an object counting once; `value_iff_merged`: this is
  the grammar of values.
* `MergedText`: the same with white space around the value; `parse?_eq_some_iff_mergedText`: the
  texts that have a value are these.
* `Merged.nodup_of_inside`: the names of every object in the value are distinct.
-/

namespace RequestLine.Json

open Grammar

/-- A value with the text that it is written as, in which the names of each object count once. -/
inductive Merged (d : Dialect) : Text → Json → Prop
  | scalar {t : Text} {v : Json} : v.isScalar = true → Value d t v → Merged d t v
  | array {items : List (Text × Json)} {t : Text} : (∀ p ∈ items, Merged d p.1 p.2) →
      Separated (items.map Prod.fst) t →
      Merged d (CodePoint.ofChar '[' :: (t ++ [CodePoint.ofChar ']'])) (.arr (items.map Prod.snd))
  | object {members : List Member} {ms : List (Text × Json)} {t : Text} :
      (∀ m ∈ members, m.Spelled) → (∀ m ∈ members, Merged d m.valueText m.value) →
      Separated (members.map Member.text) t →
      Dictionary.LastWins (members.map Member.pair) ms →
      Merged d (CodePoint.ofChar '\x7b' :: (t ++ [CodePoint.ofChar '\x7d'])) (.obj ms)

/-- A value with white space around it, in which the names of each object count once. -/
def MergedText (d : Dialect) (t : Text) (v : Json) : Prop :=
  ∃ before u after, t = before ++ (u ++ after) ∧ Blank before ∧ Blank after ∧ Merged d u v

theorem isScalar_of_mem_constants {d : Dialect} {p : Text × Json} (h : p ∈ Reader.constants d) :
    p.2.isScalar = true := by
  have hall : ∀ p ∈ Reader.constants d, p.2.isScalar = true := by
    cases d <;> simp [Reader.constants, isScalar]
  exact hall p h

theorem value_iff_merged {d : Dialect} {t : Text} {v : Json} : Value d t v ↔ Merged d t v := by
  constructor
  · intro h
    induction h with
    | constant hmem => exact .scalar (isScalar_of_mem_constants hmem) (.constant hmem)
    | number hn => exact .scalar rfl (.number hn)
    | string hs => exact .scalar rfl (.string hs)
    | array _ hseparated ih => exact .array ih hseparated
    | object hspelled _ hseparated ih =>
      exact .object hspelled ih hseparated (Dictionary.lastWins_ofPairs _)
  · intro h
    induction h with
    | scalar _ hvalue => exact hvalue
    | array _ hseparated ih => exact .array ih hseparated
    | object hspelled _ hseparated hlast ih =>
      rw [Dictionary.lastWins_iff.1 hlast]
      exact .object hspelled ih hseparated

/-- The names of every object at every depth are distinct. -/
theorem Merged.nodup_of_inside {d : Dialect} {t : Text} {v : Json} (h : Merged d t v)
    {ms : List (Text × Json)} (hms : Inside (.obj ms) v) : (Dictionary.keys ms).Nodup := by
  induction h with
  | scalar hscalar =>
    cases hms with
    | here | item | member => cases hscalar
  | array _ _ ih =>
    cases hms with
    | item hv hms =>
      obtain ⟨p, hp, rfl⟩ := List.mem_map.1 hv
      exact ih p hp hms
  | object _ _ _ hlast ih =>
    cases hms with
    | here => exact hlast.distinct
    | member hm hms =>
      -- an entry that is left is one of the members
      rw [Dictionary.lastWins_iff.1 hlast] at hm
      obtain ⟨m, hmember, rfl⟩ := List.mem_map.1 (Dictionary.mem_ofPairs hm)
      exact ih m hmember hms

/-- The texts that have a value, with the value. -/
theorem parse?_eq_some_iff_mergedText {d : Dialect} {t : Text} {v : Json} :
    parse? d t = some v ↔ MergedText d t v := by
  rw [parse?_eq_some_iff]
  constructor
  · intro h
    cases h with
    | framed hbefore hafter hvalue =>
      exact ⟨_, _, _, rfl, hbefore, hafter, value_iff_merged.1 hvalue⟩
  · rintro ⟨before, u, after, rfl, hbefore, hafter, hmerged⟩
    exact .framed hbefore hafter (value_iff_merged.2 hmerged)

theorem nodup_of_parse? {d : Dialect} {t : Text} {v : Json} (h : parse? d t = some v)
    {ms : List (Text × Json)} (hms : Inside (.obj ms) v) : (Dictionary.keys ms).Nodup := by
  obtain ⟨_, _, _, -, -, -, hmerged⟩ := parse?_eq_some_iff_mergedText.1 h
  exact hmerged.nodup_of_inside hms

end RequestLine.Json
