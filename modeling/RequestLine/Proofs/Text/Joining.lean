import RequestLine.Text.Basic

/-!
# Joined pieces

* `joinWith_append`: pieces joined in two parts.
* `mem_joinWith`: what stands in joined pieces stands in one of them or in the separator.
* `mem_joinWith_of_mem`: what stands in a piece stands in the joined pieces.
-/

namespace RequestLine.Text

theorem joinWith_cons_cons (separator p q : Text) (ps : List Text) :
    joinWith separator (p :: q :: ps) = p ++ (separator ++ joinWith separator (q :: ps)) := by
  rw [joinWith, List.intercalate_cons_cons, List.append_assoc, joinWith]

theorem joinWith_singleton (separator p : Text) : joinWith separator [p] = p := by
  rw [joinWith, List.intercalate_singleton]

/-- Pieces may be joined in two parts, unless one of these is empty. -/
theorem joinWith_append (separator : Text) {ps qs : List Text} (hps : ps ≠ []) (hqs : qs ≠ []) :
    joinWith separator (ps ++ qs) =
      joinWith separator ps ++ (separator ++ joinWith separator qs) := by
  induction ps with
  | nil => exact absurd rfl hps
  | cons p ps ih =>
    cases ps with
    | nil =>
      obtain ⟨q, qs, rfl⟩ := List.exists_cons_of_ne_nil hqs
      rw [List.singleton_append, joinWith_cons_cons, joinWith_singleton]
    | cons r ps =>
      rw [List.cons_append, List.cons_append, joinWith_cons_cons, ← List.cons_append,
        ih (List.cons_ne_nil r ps), joinWith_cons_cons, List.append_assoc, List.append_assoc]

theorem mem_joinWith {separator : Text} {ps : List Text} {c : CodePoint}
    (h : c ∈ joinWith separator ps) : c ∈ separator ∨ ∃ p ∈ ps, c ∈ p := by
  induction ps with
  | nil => cases h
  | cons p ps ih =>
    cases ps with
    | nil =>
      rw [joinWith_singleton] at h
      exact .inr ⟨p, List.mem_cons_self, h⟩
    | cons q ps =>
      rw [joinWith_cons_cons] at h
      rcases List.mem_append.1 h with h | h
      · exact .inr ⟨p, List.mem_cons_self, h⟩
      · rcases List.mem_append.1 h with h | h
        · exact .inl h
        · rcases ih h with h | ⟨r, hr, hc⟩
          · exact .inl h
          · exact .inr ⟨r, List.mem_cons_of_mem p hr, hc⟩

theorem mem_joinWith_of_mem (separator : Text) {ps : List Text} {p : Text} (hp : p ∈ ps)
    {c : CodePoint} (hc : c ∈ p) : c ∈ joinWith separator ps := by
  induction ps with
  | nil => cases hp
  | cons q ps ih =>
    cases ps with
    | nil =>
      rw [joinWith_singleton, ← List.mem_singleton.1 hp]
      exact hc
    | cons r ps =>
      rw [joinWith_cons_cons]
      rcases List.mem_cons.1 hp with rfl | hp
      · exact List.mem_append_left _ hc
      · exact List.mem_append_right _ (List.mem_append_right _ (ih hp))

end RequestLine.Text
