import Mathlib.Data.List.Forall2

/-!
# Traversals that can fail

`List.mapM` with errors stops at the first element that has one.

* `mapM_eq_ok_iff`: it succeeds when every element does, with their results in order.
* `mapM_eq_error_iff`: it fails with the error of the first element that fails.
* `mapM_eq_some_iff`, `mapM_eq_none_iff`: the same where a failure has no error.
* `forM_eq_ok_iff`: checks made one after the other all pass.
-/

namespace RequestLine

variable {α β ε : Type} {f : α → Except ε β}

theorem mapM_cons_of_ok {x : α} {y : β} (h : f x = .ok y) (xs : List α) :
    (x :: xs).mapM f = (xs.mapM f).map (y :: ·) := by
  rw [List.mapM_cons, h]
  cases xs.mapM f <;> rfl

theorem mapM_cons_of_error {x : α} {e : ε} (h : f x = .error e) (xs : List α) :
    (x :: xs).mapM f = .error e := by
  rw [List.mapM_cons, h]
  rfl

theorem mapM_eq_ok_iff {xs : List α} {ys : List β} :
    xs.mapM f = .ok ys ↔ List.Forall₂ (fun x y => f x = .ok y) xs ys := by
  induction xs generalizing ys with
  | nil =>
    rw [List.forall₂_nil_left_iff]
    exact ⟨fun h => (Except.ok.inj h).symm, fun h => h ▸ rfl⟩
  | cons x xs ih =>
    cases hx : f x with
    | error e =>
      rw [mapM_cons_of_error hx]
      refine ⟨fun h => (by cases h), fun h => ?_⟩
      cases h with
      | cons h₁ _ => rw [hx] at h₁; cases h₁
    | ok y =>
      rw [mapM_cons_of_ok hx]
      constructor
      · intro h
        cases hr : xs.mapM f with
        | error e => rw [hr] at h; cases h
        | ok zs =>
          rw [hr] at h
          cases h
          exact .cons hx (ih.1 hr)
      · intro h
        cases h with
        | cons h₁ h₂ =>
          rw [hx] at h₁
          cases h₁
          rw [ih.2 h₂]
          rfl

theorem forall₂_iff_getElem? {R : α → β → Prop} {xs : List α} {ys : List β} :
    List.Forall₂ R xs ys ↔
      xs.length = ys.length ∧
        ∀ (i : Nat) (x : α) (y : β), xs[i]? = some x → ys[i]? = some y → R x y := by
  rw [List.forall₂_iff_get]
  refine and_congr_right fun _ => ⟨fun h i x y hx hy => ?_, fun h i h₁ h₂ => ?_⟩
  · obtain ⟨h₁, rfl⟩ := List.getElem?_eq_some_iff.1 hx
    obtain ⟨h₂, rfl⟩ := List.getElem?_eq_some_iff.1 hy
    exact h i h₁ h₂
  · exact h i _ _ (List.getElem?_eq_getElem h₁) (List.getElem?_eq_getElem h₂)

theorem exists_of_mem_right {R : α → β → Prop} {xs : List α} {ys : List β}
    (h : List.Forall₂ R xs ys) {y : β} (hy : y ∈ ys) : ∃ x ∈ xs, R x y := by
  induction h with
  | nil => cases hy
  | cons hr _ ih =>
    rcases List.mem_cons.1 hy with rfl | hy
    · exact ⟨_, List.mem_cons_self, hr⟩
    · obtain ⟨x, hx, hxy⟩ := ih hy
      exact ⟨x, List.mem_cons_of_mem _ hx, hxy⟩

theorem exists_of_mem_left {R : α → β → Prop} {xs : List α} {ys : List β}
    (h : List.Forall₂ R xs ys) {x : α} (hx : x ∈ xs) : ∃ y, R x y :=
  have ⟨y, _, hxy⟩ := exists_of_mem_right h.flip hx
  ⟨y, hxy⟩

/-- What is related to a list is cut where the list is. -/
theorem exists_cut_right {R : α → β → Prop} {xs : List α} {before after : List β} {y : β}
    (h : List.Forall₂ R xs (before ++ y :: after)) :
    ∃ as x bs, xs = as ++ x :: bs ∧ R x y ∧ List.Forall₂ R bs after := by
  have hdrop := List.forall₂_drop_append xs before (y :: after) h
  obtain ⟨x, bs, hxy, hbs, hcut⟩ := List.forall₂_cons_right_iff.1 hdrop
  refine ⟨xs.take before.length, x, bs, ?_, hxy, hbs⟩
  rw [← hcut, List.take_append_drop]

/-- The error of a traversal is that of the first element with one. -/
theorem mapM_eq_error_iff {xs : List α} {e : ε} :
    xs.mapM f = .error e ↔
      ∃ (i : Nat) (x : α), xs[i]? = some x ∧ f x = .error e ∧
        ∀ j < i, ∀ y, xs[j]? = some y → ∃ z, f y = .ok z := by
  induction xs with
  | nil =>
    refine ⟨fun h => (by cases h), ?_⟩
    rintro ⟨i, x, hi, -⟩
    simp at hi
  | cons a xs ih =>
    cases ha : f a with
    | error e₁ =>
      rw [mapM_cons_of_error ha]
      constructor
      · intro h
        cases h
        exact ⟨0, a, rfl, ha, fun j hj => absurd hj (Nat.not_lt_zero j)⟩
      · rintro ⟨i, x, hi, hx, hlt⟩
        cases i with
        | zero =>
          cases hi
          rw [ha] at hx
          cases hx
          rfl
        | succ i =>
          obtain ⟨z, hz⟩ := hlt 0 (Nat.succ_pos i) a rfl
          rw [ha] at hz
          cases hz
    | ok y =>
      rw [mapM_cons_of_ok ha]
      constructor
      · intro h
        cases hr : xs.mapM f with
        | ok zs => rw [hr] at h; cases h
        | error e₁ =>
          rw [hr] at h
          cases h
          obtain ⟨i, x, hi, hx, hlt⟩ := ih.1 hr
          refine ⟨i + 1, x, hi, hx, fun j hj b hb => ?_⟩
          cases j with
          | zero => cases hb; exact ⟨y, ha⟩
          | succ j => exact hlt j (Nat.lt_of_succ_lt_succ hj) b hb
      · rintro ⟨i, x, hi, hx, hlt⟩
        cases i with
        | zero =>
          cases hi
          rw [ha] at hx
          cases hx
        | succ i =>
          rw [ih.2 ⟨i, x, hi, hx, fun j hj b hb => hlt (j + 1) (Nat.succ_lt_succ hj) b hb⟩]
          rfl

theorem bind_eq_ok_iff {x : Except ε α} {y : β} :
    x >>= f = .ok y ↔ ∃ a, x = .ok a ∧ f a = .ok y := by
  cases x with
  | error e => exact ⟨fun h => (by cases h), fun ⟨_, h, _⟩ => (by cases h)⟩
  | ok a => exact ⟨fun h => ⟨a, rfl, h⟩, fun ⟨_, h, hy⟩ => (by cases h; exact hy)⟩

theorem bind_eq_error_iff {x : Except ε α} {e : ε} :
    x >>= f = .error e ↔ x = .error e ∨ ∃ a, x = .ok a ∧ f a = .error e := by
  cases x with
  | error e₁ =>
    refine ⟨fun h => .inl (by cases h; rfl), ?_⟩
    rintro (h | ⟨a, h, -⟩) <;> cases h
    rfl
  | ok a =>
    refine ⟨fun h => .inr ⟨a, rfl, h⟩, ?_⟩
    rintro (h | ⟨b, h, hb⟩)
    · cases h
    · cases h
      exact hb

/-- What a traversal does on the elements is all that matters. -/
theorem mapM_congr {f' : α → Except ε β} {xs : List α} (h : ∀ x ∈ xs, f x = f' x) :
    xs.mapM f = xs.mapM f' := by
  induction xs with
  | nil => rfl
  | cons x xs ih =>
    obtain ⟨hx, hxs⟩ := List.forall_mem_cons.1 h
    rw [List.mapM_cons, List.mapM_cons, hx, ih hxs]

theorem forM_eq_ok_iff {check : α → Except ε Unit} {xs : List α} :
    xs.forM check = .ok () ↔ ∀ x ∈ xs, check x = .ok () := by
  induction xs with
  | nil => exact iff_of_true rfl fun _ hx => by cases hx
  | cons x xs ih =>
    have hcons : (x :: xs).forM check = check x >>= fun _ => xs.forM check := rfl
    rw [hcons, bind_eq_ok_iff, List.forall_mem_cons, ← ih]
    exact ⟨fun ⟨_, h⟩ => h, fun h => ⟨(), h⟩⟩

/-- Errors can be renamed before or after a traversal. -/
theorem mapM_mapError {ε₂ : Type} (g : ε → ε₂) (xs : List α) :
    xs.mapM (fun x => (f x).mapError g) = (xs.mapM f).mapError g := by
  induction xs with
  | nil => rfl
  | cons x xs ih =>
    cases hx : f x with
    | error e => rw [mapM_cons_of_error hx, mapM_cons_of_error (by rw [hx]; rfl)]; rfl
    | ok y =>
      rw [mapM_cons_of_ok hx, mapM_cons_of_ok (by rw [hx]; rfl), ih]
      cases xs.mapM f <;> rfl

/-! ## Without errors -/

variable {g : α → Option β}

theorem mapM_cons_of_some {x : α} {y : β} (h : g x = some y) (xs : List α) :
    (x :: xs).mapM g = (xs.mapM g).map (y :: ·) := by
  rw [List.mapM_cons, h]
  cases xs.mapM g <;> rfl

theorem mapM_cons_of_none {x : α} (h : g x = none) (xs : List α) : (x :: xs).mapM g = none := by
  rw [List.mapM_cons, h]
  rfl

theorem mapM_eq_some_iff {xs : List α} {ys : List β} :
    xs.mapM g = some ys ↔ List.Forall₂ (fun x y => g x = some y) xs ys := by
  induction xs generalizing ys with
  | nil =>
    rw [List.forall₂_nil_left_iff]
    exact ⟨fun h => (Option.some.inj h).symm, fun h => h ▸ rfl⟩
  | cons x xs ih =>
    rw [List.forall₂_cons_left_iff]
    cases hx : g x with
    | none => simp [mapM_cons_of_none hx]
    | some y => simp [mapM_cons_of_some hx, ih, eq_comm]

theorem mapM_eq_none_iff {xs : List α} : xs.mapM g = none ↔ ∃ x ∈ xs, g x = none := by
  induction xs with
  | nil => simp
  | cons x xs ih =>
    cases hx : g x with
    | none => simp [mapM_cons_of_none hx, hx]
    | some y => simp [mapM_cons_of_some hx, hx, ih]

end RequestLine
