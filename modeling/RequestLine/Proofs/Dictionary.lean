import Mathlib.Data.List.Induction
import RequestLine.Dictionary

/-!
# Dictionaries of pairs

* `get?_of_mem`: a key finds its value; `get?_eq_some_iff_mem`: and nothing else.
* `LastWins`: each key of some pairs in its first place with its last value; `lastWins_iff`: this is
  the dictionary of the pairs.
* `mem_ofPairs`: the entries of a dictionary are among the pairs it was made of.
* `ofPairs_of_nodup`: pairs with distinct keys are a dictionary as they stand.
* `length_ofPairs_le`: a dictionary has no more entries than the pairs it was made of.
-/

namespace RequestLine.Dictionary

variable {κ ν : Type} [DecidableEq κ]

theorem get?_of_mem {d : Dictionary κ ν} (hd : d.keys.Nodup) {p : κ × ν} (hp : p ∈ d) :
    d.get? p.1 = some p.2 := by
  induction d with
  | nil => cases hp
  | cons q r ih =>
    obtain ⟨hq, hr⟩ := List.nodup_cons.1 hd
    rcases List.mem_cons.1 hp with rfl | hp
    · simp [get?]
    · have hne : q.1 ≠ p.1 := fun h => hq (h ▸ List.mem_map_of_mem hp)
      rw [get?, if_neg hne]
      exact ih hr hp

theorem mem_of_get? {d : Dictionary κ ν} {k : κ} {v : ν} (h : d.get? k = some v) : (k, v) ∈ d := by
  induction d with
  | nil => cases h
  | cons q r ih =>
    rw [get?] at h
    split at h
    · rename_i hk
      cases h
      rw [← hk]
      exact List.mem_cons_self
    · exact List.mem_cons_of_mem q (ih h)

theorem get?_eq_some_iff_mem {d : Dictionary κ ν} (hd : d.keys.Nodup) {k : κ} {v : ν} :
    d.get? k = some v ↔ (k, v) ∈ d :=
  ⟨mem_of_get?, fun h => get?_of_mem hd h⟩

theorem get?_eq_none_iff {d : Dictionary κ ν} {k : κ} : d.get? k = none ↔ k ∉ d.keys := by
  induction d with
  | nil => simp [get?, keys]
  | cons q r ih =>
    rw [get?]
    split
    · simp_all [keys]
    · simp_all [keys, eq_comm]

/-- An entry that is found is found among the entries that are kept, if it is one of them. -/
theorem get?_filter {d : Dictionary κ ν} {k : κ} {v : ν} (h : d.get? k = some v)
    {p : κ × ν → Bool} (hp : p (k, v) = true) : get? (d.filter p) k = some v := by
  induction d with
  | nil => cases h
  | cons q r ih =>
    rw [get?] at h
    split at h
    · rename_i hk
      cases h
      obtain rfl := hk
      rw [List.filter_cons_of_pos hp, get?, if_pos rfl]
    · rename_i hk
      rw [List.filter_cons]
      split
      · rw [get?, if_neg hk, ih h]
      · exact ih h

theorem mem_set {d : Dictionary κ ν} {k : κ} {v : ν} {p : κ × ν} (hp : p ∈ d.set k v) :
    p ∈ d ∨ p = (k, v) := by
  induction d with
  | nil => exact .inr (List.mem_singleton.1 hp)
  | cons q r ih =>
    rw [set] at hp
    split at hp
    · rename_i hk
      rcases List.mem_cons.1 hp with rfl | hp
      · exact .inr (by rw [hk])
      · exact .inl (List.mem_cons_of_mem q hp)
    · rcases List.mem_cons.1 hp with rfl | hp
      · exact .inl List.mem_cons_self
      · rcases ih hp with hp | hp
        · exact .inl (List.mem_cons_of_mem q hp)
        · exact .inr hp

theorem mem_ofPairs {pairs : List (κ × ν)} {p : κ × ν} (hp : p ∈ ofPairs pairs) : p ∈ pairs := by
  suffices h : ∀ d : Dictionary κ ν,
      p ∈ pairs.foldl (fun d q => d.set q.1 q.2) d → p ∈ d ∨ p ∈ pairs by
    rcases h [] hp with hp | hp
    · cases hp
    · exact hp
  clear hp
  induction pairs with
  | nil => exact fun d hd => .inl hd
  | cons q r ih =>
    intro d hd
    rcases ih (d.set q.1 q.2) hd with hset | hr
    · rcases mem_set hset with hd | rfl
      · exact .inl hd
      · exact .inr List.mem_cons_self
    · exact .inr (List.mem_cons_of_mem q hr)

theorem set_of_not_mem {d : Dictionary κ ν} {k : κ} (hk : k ∉ d.keys) (v : ν) :
    d.set k v = d ++ [(k, v)] := by
  induction d with
  | nil => rfl
  | cons q r ih =>
    have hne : q.1 ≠ k := fun h => hk (List.mem_cons.2 (.inl h.symm))
    have hr : k ∉ keys r := fun h => hk (List.mem_cons.2 (.inr h))
    rw [set, if_neg hne, ih hr, List.cons_append]

/-- Pairs with distinct keys are a dictionary as they stand. -/
theorem ofPairs_of_nodup {pairs : Dictionary κ ν} (h : pairs.keys.Nodup) :
    ofPairs pairs = pairs := by
  suffices hall : ∀ d : Dictionary κ ν, (keys (d ++ pairs)).Nodup →
      pairs.foldl (fun d q => d.set q.1 q.2) d = d ++ pairs from hall [] h
  clear h
  induction pairs with
  | nil => exact fun d _ => (List.append_nil d).symm
  | cons q r ih =>
    intro d hd
    have hsplit : d ++ q :: r = (d ++ [q]) ++ r := by simp
    have hq : q.1 ∉ d.keys := by
      rw [keys, List.map_append, List.map_cons, List.nodup_append] at hd
      intro hmem
      exact hd.2.2 q.1 hmem q.1 List.mem_cons_self rfl
    rw [List.foldl_cons, set_of_not_mem hq, hsplit]
    exact ih (d ++ [q]) (hsplit ▸ hd)

theorem length_set_le (d : Dictionary κ ν) (k : κ) (v : ν) :
    (d.set k v).length ≤ d.length + 1 := by
  induction d with
  | nil => exact Nat.le_refl 1
  | cons q r ih =>
    rw [set]
    split
    · exact Nat.le_succ _
    · exact Nat.succ_le_succ ih

theorem length_ofPairs_le (pairs : List (κ × ν)) :
    (ofPairs pairs).length ≤ pairs.length := by
  suffices h : ∀ d : Dictionary κ ν,
      (pairs.foldl (fun d p => d.set p.1 p.2) d).length ≤ d.length + pairs.length by
    simpa [ofPairs] using h []
  induction pairs with
  | nil => exact fun d => Nat.le_refl _
  | cons q r ih =>
    intro d
    have hset := length_set_le d q.1 q.2
    have htail := ih (d.set q.1 q.2)
    rw [List.foldl_cons, List.length_cons]
    omega

/-! ## Repeated keys -/

/-- The dictionary has each key of the pairs once, in the order in which the keys first came, and
with the value that the key came with last. -/
structure LastWins (pairs : List (κ × ν)) (d : Dictionary κ ν) : Prop where
  distinct : d.keys.Nodup
  order : d.keys = (keys pairs).eraseDups
  last : ∀ before k v after, pairs = before ++ (k, v) :: after → k ∉ keys after → (k, v) ∈ d

theorem ofPairs_append_singleton (pairs : List (κ × ν)) (p : κ × ν) :
    ofPairs (pairs ++ [p]) = (ofPairs pairs).set p.1 p.2 := by
  rw [ofPairs, List.foldl_append]
  rfl

theorem keys_ofPairs (pairs : List (κ × ν)) : (ofPairs pairs).keys = (keys pairs).eraseDups := by
  induction pairs using List.reverseRecOn with
  | nil => rfl
  | append_singleton pairs p ih =>
    have hmem : p.1 ∈ (ofPairs pairs).keys ↔ p.1 ∈ keys pairs := by
      rw [ih]
      exact List.mem_eraseDups
    have hkeys : keys (pairs ++ [p]) = keys pairs ++ [p.1] := List.map_append
    rw [ofPairs_append_singleton, hkeys, List.eraseDups_append, ← ih]
    by_cases hp : p.1 ∈ keys pairs
    · rw [keys_set_of_mem (hmem.2 hp)]
      simp [List.removeAll, hp]
    · rw [keys_set_of_not_mem (fun h => hp (hmem.1 h))]
      simp [List.removeAll, hp, List.eraseDups_cons]

/-- The last value of a key counts, whatever comes after it. -/
theorem get?_ofPairs_last (before : List (κ × ν)) {k : κ} (v : ν) {after : List (κ × ν)}
    (h : k ∉ keys after) : (ofPairs (before ++ (k, v) :: after)).get? k = some v := by
  induction after using List.reverseRecOn with
  | nil => rw [ofPairs_append_singleton, get?_set, if_pos rfl]
  | append_singleton after p ih =>
    have hsplit : before ++ (k, v) :: (after ++ [p]) = (before ++ (k, v) :: after) ++ [p] := by simp
    rw [keys, List.map_append, List.mem_append, not_or] at h
    have hne : p.1 ≠ k := fun hp => h.2 (hp ▸ List.mem_cons_self)
    rw [hsplit, ofPairs_append_singleton, get?_set, if_neg hne]
    exact ih h.1

theorem lastWins_ofPairs (pairs : List (κ × ν)) : LastWins pairs (ofPairs pairs) where
  distinct := nodup_keys_ofPairs pairs
  order := keys_ofPairs pairs
  last before k v after hpairs hk := by
    rw [hpairs]
    exact mem_of_get? (get?_ofPairs_last before v hk)

/-- A key of some pairs has a place after which it does not come again. -/
theorem exists_last {pairs : List (κ × ν)} {k : κ} (h : k ∈ keys pairs) :
    ∃ before v after, pairs = before ++ (k, v) :: after ∧ k ∉ keys after := by
  induction pairs with
  | nil => cases h
  | cons p pairs ih =>
    by_cases hr : k ∈ keys pairs
    · obtain ⟨before, v, after, rfl, hafter⟩ := ih hr
      exact ⟨p :: before, v, after, rfl, hafter⟩
    · rcases List.mem_cons.1 h with rfl | h
      · exact ⟨[], p.2, pairs, rfl, hr⟩
      · exact absurd h hr

theorem eq_of_get?_eq {d₁ d₂ : Dictionary κ ν} (h₁ : d₁.keys.Nodup) (hkeys : d₁.keys = d₂.keys)
    (h : ∀ k ∈ d₁.keys, d₁.get? k = d₂.get? k) : d₁ = d₂ := by
  induction d₁ generalizing d₂ with
  | nil => exact (List.map_eq_nil_iff.1 hkeys.symm).symm
  | cons p r ih =>
    cases d₂ with
    | nil => cases hkeys
    | cons q s =>
      obtain ⟨hpq, hrs⟩ := List.cons.inj hkeys
      obtain ⟨hp, hr⟩ := List.nodup_cons.1 h₁
      have hvalue : p.2 = q.2 := by simpa [get?, hpq] using h p.1 List.mem_cons_self
      have htail : ∀ k ∈ keys r, get? r k = get? s k := by
        intro k hk
        have hne : p.1 ≠ k := fun hpk => hp (hpk ▸ hk)
        have hne₂ : q.1 ≠ k := hpq ▸ hne
        simpa [get?, hne, hne₂] using h k (List.mem_cons_of_mem _ hk)
      rw [Prod.ext hpq hvalue, ih hr hrs htail]

theorem LastWins.get?_eq {pairs : List (κ × ν)} {d : Dictionary κ ν} (h : LastWins pairs d)
    {before : List (κ × ν)} {k : κ} {v : ν} {after : List (κ × ν)}
    (hpairs : pairs = before ++ (k, v) :: after) (hk : k ∉ keys after) : d.get? k = some v :=
  get?_of_mem h.distinct (h.last before k v after hpairs hk)

/-- The dictionary of some pairs is the only one that is made so. -/
theorem lastWins_iff {pairs : List (κ × ν)} {d : Dictionary κ ν} :
    LastWins pairs d ↔ d = ofPairs pairs := by
  constructor
  · intro h
    refine eq_of_get?_eq h.distinct (h.order.trans (keys_ofPairs pairs).symm) fun k hk => ?_
    rw [h.order, List.mem_eraseDups] at hk
    obtain ⟨before, v, after, hpairs, hafter⟩ := exists_last hk
    rw [h.get?_eq hpairs hafter, (lastWins_ofPairs pairs).get?_eq hpairs hafter]
  · rintro rfl
    exact lastWins_ofPairs pairs

end RequestLine.Dictionary
