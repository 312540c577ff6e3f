import RequestLine.Exchange.Transport
import RequestLine.Proofs.Json.Constants

/-!
# Bodies of responses

The body of a response is read as a section of a statement is, but for the constants, and a body
that cannot be read stays a text.

* `Response.Decodes`: the data of a body, said with the grammar; `decodes_iff`: these are its data.
* `data_of_body`: what the data of a body have to do with the section of the same text.
-/

namespace RequestLine.Response

open Json.Grammar

/-- The data of a body: the value that it has as a JSON text in which constants may stand, and the
body itself where it has none. -/
inductive Decodes (r : Response) : Json → Prop
  | value {v : Json} : Document .withConstants r.body v → Decodes r v
  | text : (∀ v, ¬ Document .withConstants r.body v) → Decodes r (.str r.body)

theorem data_of_parse? {r : Response} {v : Json} (h : Json.parse? .withConstants r.body = some v) :
    r.data = v := by
  rw [data, h, Option.getD_some]

theorem data_of_parse?_eq_none {r : Response} (h : Json.parse? .withConstants r.body = none) :
    r.data = .str r.body := by
  rw [data, h, Option.getD_none]

theorem decodes_iff {r : Response} {v : Json} : r.Decodes v ↔ r.data = v := by
  constructor
  · intro h
    cases h with
    | value hv => exact data_of_parse? (Json.parse?_eq_some_iff.2 hv)
    | text hnone =>
      refine data_of_parse?_eq_none (Option.eq_none_iff_forall_ne_some.2 fun v hv => ?_)
      exact hnone v (Json.parse?_eq_some_iff.1 hv)
  · rintro rfl
    cases h : Json.parse? .withConstants r.body with
    | some v =>
      rw [data_of_parse? h]
      exact .value (Json.parse?_eq_some_iff.1 h)
    | none =>
      rw [data_of_parse?_eq_none h]
      refine .text fun v hv => ?_
      rw [Json.parse?_eq_some_iff.2 hv] at h
      cases h

/-- **Bodies and sections.** A text that is a value in a section is the same value as a body. If it
is none there and yet not left as a text, then a constant stands in it outside of strings, and these
constants are all that the two readers differ in. A text that neither reader knows stays as it is. -/
theorem data_of_body (r : Response) :
    (∀ v, Json.parse? .strict r.body = some v → r.data = v) ∧
      (Json.parse? .strict r.body = none → r.data ≠ .str r.body → Json.Bare r.body) ∧
      (∀ v, Json.parse? .withConstants r.body = some v →
        (Json.parse? .strict r.body = none ↔ Json.Bare r.body)) ∧
      (Json.parse? .strict r.body = none → Json.parse? .withConstants r.body = none →
        r.data = .str r.body) := by
  refine ⟨fun v h => data_of_parse? (Json.parse?_withConstants_of_strict h), fun hstrict hdata => ?_,
    fun v h => Json.parse?_strict_eq_none_iff_bare h, fun _ h => data_of_parse?_eq_none h⟩
  cases h : Json.parse? .withConstants r.body with
  | none => exact absurd (data_of_parse?_eq_none h) hdata
  | some v => exact (Json.parse?_strict_eq_none_iff_bare h).1 hstrict

/-- A string that names a constant is a value for both readers; the constant beside it is not. -/
example : Json.parse? .strict "[\"NaN\"]" = some (.arr [.str "NaN"]) ∧
    Json.parse? .strict "[\"NaN\", NaN]" = none ∧
    Json.parse? .withConstants "[\"NaN\", NaN]" = some (.arr [.str "NaN", .num (.double .nan)]) :=
  ⟨rfl, rfl, rfl⟩

end RequestLine.Response
