/-!
# Dictionaries

Pairs of a key and a value in the order in which the keys first came.

* `Dictionary.set`: a new key goes to the end, a known key keeps its place and takes the new value.
* `Dictionary.get?`: the value of a key.
* `Dictionary.ofPairs`: pairs set one after the other, so the last value of a key counts.
* `get?_set`, `keys_set_of_mem`, `nodup_keys_ofPairs`: what these do to each other.
-/

namespace RequestLine

/-- Keys with their values, in order. -/
abbrev Dictionary (κ ν : Type) := List (κ × ν)

namespace Dictionary

variable {κ ν : Type}

def keys (d : Dictionary κ ν) : List κ := d.map Prod.fst

variable [DecidableEq κ]

def set : Dictionary κ ν → κ → ν → Dictionary κ ν
  | [], k, v => [(k, v)]
  | (k₁, v₁) :: r, k, v => if k₁ = k then (k₁, v) :: r else (k₁, v₁) :: set r k v

def get? : Dictionary κ ν → κ → Option ν
  | [], _ => none
  | (k₁, v₁) :: r, k => if k₁ = k then some v₁ else get? r k

/-- The dictionary of pairs, the last value of each key counting. -/
def ofPairs (pairs : List (κ × ν)) : Dictionary κ ν :=
  pairs.foldl (fun d p => d.set p.1 p.2) []

theorem get?_set (d : Dictionary κ ν) (k k₂ : κ) (v : ν) :
    (d.set k v).get? k₂ = if k = k₂ then some v else d.get? k₂ := by
  induction d with
  | nil => simp [set, get?]
  | cons p r ih =>
    simp only [set]
    split <;> simp only [get?]
    · rename_i h
      subst h
      split <;> rfl
    · rw [ih]
      split
      · rename_i h h₁
        subst h₁
        rw [if_neg (fun h₂ => h h₂.symm)]
      · rfl

theorem keys_set_of_mem {d : Dictionary κ ν} {k : κ} (h : k ∈ d.keys) (v : ν) :
    (d.set k v).keys = d.keys := by
  induction d with
  | nil => simp [keys] at h
  | cons p r ih =>
    simp only [set]
    split
    · rfl
    · rename_i hne
      have hr : k ∈ keys r := by
        rcases List.mem_cons.1 h with h | h
        · exact absurd h.symm hne
        · exact h
      simpa [keys] using ih hr

theorem keys_set_of_not_mem {d : Dictionary κ ν} {k : κ} (h : k ∉ d.keys) (v : ν) :
    (d.set k v).keys = d.keys ++ [k] := by
  induction d with
  | nil => rfl
  | cons p r ih =>
    have hne : p.1 ≠ k := fun h₁ => h (List.mem_cons.2 (Or.inl h₁.symm))
    have hr : k ∉ keys r := fun h₁ => h (List.mem_cons.2 (Or.inr h₁))
    simp only [set, if_neg hne]
    simpa [keys] using ih hr

theorem nodup_keys_set {d : Dictionary κ ν} (h : d.keys.Nodup) (k : κ) (v : ν) :
    (d.set k v).keys.Nodup := by
  by_cases hk : k ∈ d.keys
  · rwa [keys_set_of_mem hk]
  · rw [keys_set_of_not_mem hk]
    exact List.nodup_append.2 ⟨h, by simp, fun a ha b hb => by
      rintro rfl
      exact hk (List.mem_singleton.1 hb ▸ ha)⟩

theorem nodup_keys_ofPairs (pairs : List (κ × ν)) : (ofPairs pairs).keys.Nodup := by
  suffices h : ∀ d : Dictionary κ ν, d.keys.Nodup →
      (pairs.foldl (fun d p => d.set p.1 p.2) d).keys.Nodup from h [] List.nodup_nil
  induction pairs with
  | nil => exact fun d h => h
  | cons p r ih => exact fun d h => ih _ (nodup_keys_set h p.1 p.2)

end Dictionary

end RequestLine
