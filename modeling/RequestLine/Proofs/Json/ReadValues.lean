import RequestLine.Proofs.Dictionary
import RequestLine.Proofs.Json.Entries
import RequestLine.Proofs.Json.Inside
import RequestLine.Proofs.Json.Values
import RequestLine.Proofs.Number.Rounding

/-!
# Values that were read

A value has no more entries than its text has code points, and a strict text spells no number that
is none. So the operations on keys and numbers that are not defined everywhere are defined on values
that were read.

* `Value.length_entries_le`: the bound on the entries.
* `operable_of_parse?`: the keys of a value of a strict text find its items, and every number in it
  is one.
-/

namespace RequestLine.Json

/-- The value is no number, or a number that is one. -/
def IsNumber : Json → Prop
  | .num (.double .nan) => False
  | _ => True

namespace Grammar

/-! ## Lengths -/

theorem Chars.length_le {t s : Text} (h : Chars t s) : s.length ≤ t.length := by
  induction h with
  | nil => exact Nat.le_refl 0
  | plain | escape | unit | pair =>
    simp only [unitText, List.length_cons, List.length_append]
    omega

theorem StringText.length_le {t s : Text} (h : StringText t s) : s.length ≤ t.length := by
  cases h with
  | quoted hchars =>
    have hle := hchars.length_le
    simp only [List.length_cons, List.length_append]
    omega

/-- A comma stands between each two pieces. -/
theorem Separated.length_pieces_le {ps : List Text} {t : Text} (h : Separated ps t) :
    ps.length ≤ t.length + 1 := by
  cases h with
  | none => exact Nat.zero_le _
  | some h =>
    induction h with
    | last => simp
    | cons =>
      simp only [List.length_cons, List.length_append]
      omega

/-- A value has no more entries than its text has code points. -/
theorem Value.length_entries_le {d : Dialect} {t : Text} {v : Json} (h : Value d t v) :
    v.entries.length ≤ t.length := by
  cases h with
  | constant hmem =>
    have hentries : ∀ p ∈ Reader.constants d, p.2.entries = [] := by
      cases d <;> simp [Reader.constants, entries]
    rw [hentries _ hmem]
    exact Nat.zero_le _
  | number => exact Nat.zero_le _
  | string hs =>
    rw [entries, length_indexed, List.length_map]
    exact hs.length_le
  | array _ hseparated =>
    have hle := hseparated.length_pieces_le
    rw [List.length_map] at hle
    rw [entries, length_indexed, List.length_map]
    simp only [List.length_cons, List.length_append]
    omega
  | @object members _ _ _ hseparated =>
    have hle := hseparated.length_pieces_le
    have hpairs := Dictionary.length_ofPairs_le (members.map Member.pair)
    rw [List.length_map] at hle hpairs
    rw [entries]
    simp only [List.length_cons, List.length_append]
    omega

theorem Value.nodup_keys {d : Dialect} {t : Text} {v : Json} (h : Value d t v) : v.keys.Nodup := by
  cases h with
  | constant hmem =>
    have hkeys : ∀ p ∈ Reader.constants d, p.2.keys = [] := by
      cases d <;> simp [Reader.constants, keys, entries]
    rw [hkeys _ hmem]
    exact List.nodup_nil
  | number => exact List.nodup_nil
  | string | array => exact nodup_keys_indexed _
  | object => exact Dictionary.nodup_keys_ofPairs _

/-! ## Numbers -/

theorem NumberText.isNumber {t : Text} {n : Number} (h : NumberText t n) : IsNumber (.num n) := by
  cases h with
  | integer => trivial
  | decimal =>
    generalize hx : Double.ofDecimal _ _ = x
    cases x with
    | finite | infinite => trivial
    | nan => exact absurd hx (Double.ofDecimal_ne_nan _ _)

theorem Value.everywhere_isNumber {t : Text} {v : Json} (h : Value .strict t v) :
    Everywhere IsNumber v := by
  induction h with
  | @constant t v hmem =>
    simp only [Reader.constants, List.mem_cons, Prod.mk.injEq, List.not_mem_nil, or_false] at hmem
    rcases hmem with ⟨-, rfl⟩ | ⟨-, rfl⟩ | ⟨-, rfl⟩ <;> exact (everywhere_scalar rfl).2 trivial
  | number hn => exact (everywhere_scalar rfl).2 hn.isNumber
  | string => exact (everywhere_scalar rfl).2 trivial
  | array _ _ ih =>
    refine everywhere_arr.2 ⟨trivial, fun v hv => ?_⟩
    obtain ⟨p, hp, rfl⟩ := List.mem_map.1 hv
    exact ih p hp
  | object _ _ _ ih =>
    refine everywhere_obj.2 ⟨trivial, fun p hp => ?_⟩
    obtain ⟨m, hm, rfl⟩ := List.mem_map.1 (Dictionary.mem_ofPairs hp)
    exact ih m hm

end Grammar

/-! ## Values of whole texts -/

/-- The operations on keys and on numbers are defined on the value. -/
structure Operable (v : Json) : Prop where
  addressable : v.Addressable
  numbers : v.Everywhere IsNumber

theorem operable_emptyObject : (Json.obj []).Operable where
  addressable := ⟨List.nodup_nil, Nat.zero_le _⟩
  numbers := everywhere_obj.2 ⟨trivial, fun _ hm => by cases hm⟩

theorem operable_of_parse? {t : Text} {v : Json} (h : parse? .strict t = some v)
    (ht : t.length ≤ 10 ^ digitLimit) : v.Operable := by
  cases parse?_eq_some_iff.1 h with
  | framed _ _ hvalue =>
    refine ⟨⟨hvalue.nodup_keys, ?_⟩, hvalue.everywhere_isNumber⟩
    have hle := hvalue.length_entries_le
    rw [keys, List.length_map]
    simp only [List.length_append] at ht
    omega

end RequestLine.Json
