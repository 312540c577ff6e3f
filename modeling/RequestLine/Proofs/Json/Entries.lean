import Mathlib.Data.List.Nodup
import RequestLine.Json.Entries
import RequestLine.Json.PlainText
import RequestLine.Proofs.Dictionary
import RequestLine.Proofs.Number.Reading

/-!
# Entries and look-ups

* `Json.Addressable`: what a value needs so that its keys find its items.
* `item?_of_mem_entries`: then they do.
* `parts`: the items of a value without their keys.
* `keys_find_parts`: what the keys of a value find, and what else a key of an object may find.
-/

namespace RequestLine.Json

/-- The keys of the value are distinct, as the names of every dictionary are, and there are no more
of them than index texts that can be read. -/
structure Addressable (v : Json) : Prop where
  distinct : v.keys.Nodup
  few : v.keys.length ≤ 10 ^ digitLimit

theorem mem_indexed {values : List Json} {e : Text × Json} (he : e ∈ indexed values 0) :
    ∃ i, values[i]? = some e.2 ∧ e.1 = decimalDigits i := by
  obtain ⟨p, hp, rfl⟩ := List.mem_map.1 he
  exact ⟨p.2, List.mem_zipIdx_iff_getElem?.1 hp, rfl⟩

theorem length_indexed (values : List Json) (start : Nat) :
    (indexed values start).length = values.length := by
  simp [indexed]

theorem nodup_keys_indexed (values : List Json) :
    ((indexed values 0).map Prod.fst).Nodup := by
  have hkeys : (indexed values 0).map Prod.fst = (values.zipIdx.map Prod.snd).map decimalDigits := by
    simp only [indexed, List.map_map]
    rfl
  have hinjective : Function.Injective decimalDigits := by
    intro m n h
    rw [← digitsValue_decimalDigits m, h, digitsValue_decimalDigits]
  rw [hkeys, List.zipIdx_map_snd]
  exact List.Nodup.map hinjective List.nodup_range'

theorem at?_of_getElem? {values : List Json} {i : Nat} {v : Json} (h : values[i]? = some v) :
    at? values i = .ok v := by
  have hi : ¬ (i : Int) < 0 := by omega
  simp only [at?, if_neg hi, Int.toNat_natCast, h]

theorem at?_of_mem_indexed {values : List Json} (h : values.length ≤ 10 ^ digitLimit)
    {e : Text × Json} (he : e ∈ indexed values 0) :
    ∃ i : Nat, readInteger? e.1 = some (i : Int) ∧ at? values i = .ok e.2 := by
  obtain ⟨i, hi, hkey⟩ := mem_indexed he
  have hlt : i < values.length := (List.getElem?_eq_some_iff.1 hi).1
  refine ⟨i, ?_, at?_of_getElem? hi⟩
  rw [hkey]
  exact readInteger?_decimalDigits ((length_decimalDigits_le_iff digitLimit_pos).2 (by omega))

/-- The keys of a value find its items. -/
theorem item?_of_mem_entries {v : Json} (h : v.Addressable) {e : Text × Json}
    (he : e ∈ v.entries) : v.item? e.1 = .ok e.2 := by
  cases v with
  | null | bool | num => cases he
  | obj members =>
    have hget : Dictionary.get? members e.1 = some e.2 := Dictionary.get?_of_mem h.distinct he
    simp only [item?, hget]
  | arr items =>
    have hfew : items.length ≤ 10 ^ digitLimit := by
      simpa [keys, entries, length_indexed] using h.few
    obtain ⟨i, hread, hat⟩ := at?_of_mem_indexed hfew he
    simp only [item?, hread, hat]
  | str s =>
    have hfew : (s.map fun c => Json.str [c]).length ≤ 10 ^ digitLimit := by
      simpa [keys, entries, length_indexed] using h.few
    obtain ⟨i, hread, hat⟩ := at?_of_mem_indexed hfew he
    simp only [item?, hread, hat]

/-! ## Parts -/

/-- The values that a value is made of: those of an object's members, the items of an array, the
texts of one code point each that make up a text. -/
def parts : Json → List Json
  | .obj members => members.map Prod.snd
  | .arr items => items
  | .str s => s.map fun c => .str [c]
  | .null | .bool _ | .num _ => []

theorem map_snd_indexed (values : List Json) (start : Nat) :
    (indexed values start).map Prod.snd = values := by
  rw [indexed, List.map_map]
  exact List.zipIdx_map_fst start values

theorem map_snd_entries (v : Json) : v.entries.map Prod.snd = v.parts := by
  cases v with
  | null | bool | num | obj => rfl
  | arr | str => exact map_snd_indexed _ 0

/-- Only the names of an object can come twice. -/
theorem addressable_of_names {v : Json} (hnames : ∀ ms, v = .obj ms → (Dictionary.keys ms).Nodup)
    (hfew : v.keys.length ≤ 10 ^ digitLimit) : v.Addressable where
  few := hfew
  distinct := by
    cases v with
    | null | bool | num => exact List.nodup_nil
    | obj ms => exact hnames ms rfl
    | arr | str => exact nodup_keys_indexed _

theorem forall₂_keys_parts {v : Json} (h : v.Addressable) :
    List.Forall₂ (fun k x => v.item? k = .ok x) v.keys v.parts := by
  rw [← map_snd_entries, keys, List.forall₂_map_left_iff, List.forall₂_map_right_iff,
    List.forall₂_same]
  exact fun e he => item?_of_mem_entries h he

theorem item?_obj_eq_ok_iff {ms : List (Text × Json)} (h : (Dictionary.keys ms).Nodup) {k : Text}
    {x : Json} : item? (.obj ms) k = .ok x ↔ (k, x) ∈ ms := by
  rw [← Dictionary.get?_eq_some_iff_mem h]
  cases hget : Dictionary.get? ms k <;> simp [item?, hget]

theorem item?_obj_eq_error_iff {ms : List (Text × Json)} {k : Text} {e : LookupError} :
    item? (.obj ms) k = .error e ↔ e = .noMember ∧ k ∉ Dictionary.keys ms := by
  rw [← Dictionary.get?_eq_none_iff]
  cases hget : Dictionary.get? ms k <;> simp [item?, hget, eq_comm]

/-- **Keys find what they were made from.** Let the names of an object be distinct, as those of a
dictionary are, and let there be no more keys than index texts that can be read. Then the keys of a
value are distinct, and one after the other they find the parts of the value, those of a text being
its code points. In an object a key is nothing but a name: it finds the members of that name, even
if it could be read as an index. -/
theorem keys_find_parts {v : Json} (hnames : ∀ ms, v = .obj ms → (Dictionary.keys ms).Nodup)
    (hfew : v.keys.length ≤ 10 ^ digitLimit) :
    v.keys.Nodup ∧
    List.Forall₂ (fun k x => v.item? k = .ok x) v.keys v.parts ∧
    (∀ s, v = .str s → v.parts.flatMap plainText = s) ∧
    ∀ ms, v = .obj ms → ∀ k,
      (∀ x, v.item? k = .ok x ↔ (k, x) ∈ ms) ∧
      ∀ e, v.item? k = .error e ↔ e = .noMember ∧ k ∉ Dictionary.keys ms := by
  have h := addressable_of_names hnames hfew
  refine ⟨h.distinct, forall₂_keys_parts h, ?_, ?_⟩
  · rintro s rfl
    simp [parts, List.flatMap_map, plainText]
  · rintro ms rfl k
    exact ⟨fun x => item?_obj_eq_ok_iff (hnames ms rfl), fun e => item?_obj_eq_error_iff⟩

/-- Names that are the indices of other members. -/
theorem keys_find_parts_numerals :
    (∀ ms, Json.obj [("1", .null), ("0", .str "a")] = .obj ms → (Dictionary.keys ms).Nodup) ∧
      (keys (.obj [("1", .null), ("0", .str "a")])).length ≤ 10 ^ digitLimit ∧
      List.Forall₂ (fun k x => item? (.obj [("1", .null), ("0", .str "a")]) k = .ok x)
        ["1", "0"] [.null, .str "a"] ∧
      item? (.obj [("1", .null), ("0", .str "a")]) "2" = .error .noMember := by
  have hnames : ∀ ms, Json.obj [("1", .null), ("0", .str "a")] = .obj ms →
      (Dictionary.keys ms).Nodup := by
    rintro ms ⟨⟩
    decide
  have hfew : (keys (.obj [("1", .null), ("0", .str "a")])).length ≤ 10 ^ digitLimit :=
    le_ten_pow_digitLimit (by rw [digitLimit]; decide)
  obtain ⟨-, hfound, -, hobject⟩ := keys_find_parts hnames hfew
  exact ⟨hnames, hfew, hfound, ((hobject _ rfl "2").2 _).2 ⟨rfl, by decide⟩⟩

end RequestLine.Json
