import RequestLine.Proofs.Traversal
import RequestLine.Statement.Segment

/-!
# The pieces of a statement and the spacing between them

* `Cut`: the non-empty pieces between the pipes, as a relation; `cut_iff`: it is what `pieces` finds.
* `Spaced`, `SpacingFault`: the spacing that a piece has to have in its place, and how it can fail.
* `Placed`: pieces with their places, as a relation; `placed_segments`: these are the segments.
* `cleanSegments_eq_ok_iff`: the segments are cleaned when all pieces are spaced.
* `cleanSegments_eq_error_iff`: otherwise the fault is that of the first piece that is not.
-/

namespace RequestLine

/-! ## Cutting at pipes -/

/-- The longest non-empty pieces without a pipe, in order. -/
inductive Cut : Text → List Text → Prop
  | done : Cut [] []
  | skip {s : Text} {ps : List Text} : Cut s ps → Cut (pipe :: s) ps
  | last {p : Text} : p ≠ [] → pipe ∉ p → Cut p [p]
  | piece {p s : Text} {ps : List Text} :
      p ≠ [] → pipe ∉ p → Cut s ps → Cut (p ++ pipe :: s) (p :: ps)

@[simp]
theorem pieces_nil : pieces [] = [] := rfl

/-- A pipe is a cut wherever it stands. -/
theorem pieces_append_pipe (s t : Text) : pieces (s ++ pipe :: t) = pieces s ++ pieces t := by
  rw [pieces, List.splitOn_append_cons_self, List.filter_append]
  rfl

@[simp]
theorem pieces_pipe_cons (s : Text) : pieces (pipe :: s) = pieces s := pieces_append_pipe [] s

theorem pieces_of_not_mem {p : Text} (hp : p ≠ []) (h : pipe ∉ p) : pieces p = [p] := by
  rw [pieces, List.splitOn_eq_singleton h]
  simp [hp]

theorem pieces_piece {p : Text} (hp : p ≠ []) (h : pipe ∉ p) (s : Text) :
    pieces (p ++ pipe :: s) = p :: pieces s := by
  rw [pieces_append_pipe, pieces_of_not_mem hp h, List.singleton_append]

theorem cut_pieces (s : Text) : Cut s (pieces s) := by
  induction h : s.length using Nat.strongRecOn generalizing s with
  | ind n ih =>
    by_cases hs : s = []
    · subst hs
      exact .done
    by_cases hmem : pipe ∈ s
    · obtain ⟨p, r, rfl, hp⟩ := List.eq_append_cons_of_mem hmem
      have hr : Cut r (pieces r) := ih r.length (by simp at h; omega) r rfl
      by_cases hne : p = []
      · subst hne
        rw [List.nil_append, pieces_pipe_cons]
        exact .skip hr
      · rw [pieces_piece hne hp]
        exact .piece hne hp hr
    · rw [pieces_of_not_mem hs hmem]
      exact .last hs hmem

theorem cut_iff {s : Text} {ps : List Text} : Cut s ps ↔ pieces s = ps := by
  constructor
  · intro h
    induction h with
    | done => rfl
    | skip _ ih => rw [pieces_pipe_cons, ih]
    | last hp h => exact pieces_of_not_mem hp h
    | piece hp h _ ih => rw [pieces_piece hp h, ih]
  · rintro rfl
    exact cut_pieces s

theorem Cut.spec {s : Text} {ps : List Text} (h : Cut s ps) {p : Text} (hp : p ∈ ps) :
    pipe ∉ p ∧ ∀ c ∈ p, c ∈ s := by
  induction h with
  | done => cases hp
  | skip _ ih =>
    obtain ⟨hpipe, hmem⟩ := ih hp
    exact ⟨hpipe, fun c hc => List.mem_cons_of_mem pipe (hmem c hc)⟩
  | last _ hpipe =>
    rw [List.mem_singleton.1 hp]
    exact ⟨hpipe, fun c hc => hc⟩
  | piece _ hpipe _ ih =>
    rcases List.mem_cons.1 hp with rfl | hp
    · exact ⟨hpipe, fun c hc => List.mem_append_left _ hc⟩
    · obtain ⟨hpipe, hmem⟩ := ih hp
      refine ⟨hpipe, fun c hc => ?_⟩
      exact List.mem_append_right _ (List.mem_cons_of_mem pipe (hmem c hc))

theorem Cut.length_le {s : Text} {ps : List Text} (h : Cut s ps) {p : Text} (hp : p ∈ ps) :
    p.length ≤ s.length := by
  induction h with
  | done => cases hp
  | skip _ ih => exact Nat.le_succ_of_le (ih hp)
  | last => exact Nat.le_of_eq (congrArg List.length (List.mem_singleton.1 hp))
  | piece _ _ _ ih =>
    simp only [List.length_append, List.length_cons]
    rcases List.mem_cons.1 hp with rfl | hp
    · omega
    · have hle := ih hp
      omega

/-! ## Spacing -/

/-- Piece number `i` starts with no space if it is the first, with exactly one otherwise. -/
def SpacedBefore (i : Nat) (p : Text) : Prop :=
  if i = 0 then ¬ (" " : Text) <+: p else (" " : Text) <+: p ∧ ¬ ("  " : Text) <+: p

/-- Piece number `i` of `n` ends with exactly one space unless it is the last. -/
def SpacedAfter (n i : Nat) (p : Text) : Prop :=
  i + 1 < n → (" " : Text) <:+ p ∧ ¬ ("  " : Text) <:+ p

/-- Piece number `i` of `n` has the spaces that belong next to its pipes. -/
structure Spaced (n i : Nat) (p : Text) : Prop where
  before : SpacedBefore i p
  after : SpacedAfter n i p

/-- The fault at the start of piece number `i`. -/
inductive LeadingFault (i : Nat) (p : Text) : StatementError → Prop
  | unwanted : i = 0 → (" " : Text) <+: p → LeadingFault i p .pipeSpacing
  | missing : i ≠ 0 → ¬ (" " : Text) <+: p → LeadingFault i p .pipeSpacing
  | doubled : i ≠ 0 → ("  " : Text) <+: p → LeadingFault i p .doubledSpace

/-- The fault at the end of piece number `i` of `n`. -/
inductive TrailingFault (n i : Nat) (p : Text) : StatementError → Prop
  | missing : i + 1 < n → ¬ (" " : Text) <:+ p → TrailingFault n i p .pipeSpacing
  | doubled : i + 1 < n → ("  " : Text) <:+ p → TrailingFault n i p .doubledSpace

/-- The fault in the spacing of piece number `i` of `n`. The end of a piece is judged only when its
start is right. -/
inductive SpacingFault (n i : Nat) (p : Text) (e : StatementError) : Prop
  | leading : LeadingFault i p e → SpacingFault n i p e
  | trailing : SpacedBefore i p → TrailingFault n i p e → SpacingFault n i p e

theorem startsWith_iff {t start : Text} : t.startsWith start = true ↔ start <+: t :=
  List.isPrefixOf_iff_prefix

theorem endsWith_iff {t ending : Text} : t.endsWith ending = true ↔ ending <:+ t :=
  List.isSuffixOf_iff_suffix

/-- Two spaces at the start are one at the start. -/
theorem space_prefix_of_double {p : Text} (h : ("  " : Text) <+: p) : (" " : Text) <+: p :=
  List.IsPrefix.trans (by decide) h

theorem space_suffix_of_double {p : Text} (h : ("  " : Text) <:+ p) : (" " : Text) <:+ p :=
  List.IsSuffix.trans (by decide) h

namespace Segment

variable {p t : Text} {i n : Nat} {e : StatementError}

theorem isFirst_iff : (⟨p, i, n⟩ : Segment).isFirst = true ↔ i = 0 := by
  simp [isFirst]

theorem isLast_iff (h : i < n) : (⟨p, i, n⟩ : Segment).isLast = true ↔ ¬ i + 1 < n := by
  simp only [isLast, beq_iff_eq]
  omega

theorem leadingFault?_eq_none_iff :
    (⟨p, i, n⟩ : Segment).leadingFault? = none ↔ SpacedBefore i p := by
  unfold leadingFault? SpacedBefore
  simp only [isFirst_iff, ← startsWith_iff]
  by_cases hi : i = 0
  · simp [hi]
  · simp only [hi, if_false]
    cases p.startsWith " " <;> simp

theorem trailingFault?_eq_none_iff (h : i < n) :
    (⟨p, i, n⟩ : Segment).trailingFault? = none ↔ SpacedAfter n i p := by
  unfold trailingFault? SpacedAfter
  simp only [isLast_iff h, ← endsWith_iff]
  by_cases hi : i + 1 < n
  · simp only [hi, not_true_eq_false, if_false, true_implies]
    cases p.endsWith " " <;> simp
  · simp [hi]

theorem leadingFault?_eq_some_iff :
    (⟨p, i, n⟩ : Segment).leadingFault? = some e ↔ LeadingFault i p e := by
  unfold leadingFault?
  constructor
  · intro h
    split at h
    · rename_i hi
      split at h
      · rename_i hp
        cases h
        exact .unwanted (isFirst_iff.1 hi) (startsWith_iff.1 hp)
      · cases h
    · rename_i hi
      have hi₀ : i ≠ 0 := fun h₀ => hi (isFirst_iff.2 h₀)
      split at h
      · rename_i hp
        cases h
        exact .missing hi₀ fun hpre => by simp [startsWith_iff.2 hpre] at hp
      · split at h
        · rename_i hp
          cases h
          exact .doubled hi₀ (startsWith_iff.1 hp)
        · cases h
  · intro h
    cases h with
    | unwanted hi hp => simp [isFirst_iff.2 hi, startsWith_iff.2 hp]
    | missing hi hp => simp [isFirst_iff, hi, Bool.not_eq_true _ ▸ mt startsWith_iff.1 hp]
    | doubled hi hp =>
      simp [isFirst_iff, hi, startsWith_iff.2 hp, startsWith_iff.2 (space_prefix_of_double hp)]

theorem trailingFault?_eq_some_iff (h : i < n) :
    (⟨p, i, n⟩ : Segment).trailingFault? = some e ↔ TrailingFault n i p e := by
  unfold trailingFault?
  constructor
  · intro hf
    split at hf
    · cases hf
    · rename_i hi
      have hi₁ : i + 1 < n := by
        by_contra hlast
        exact hi ((isLast_iff h).2 hlast)
      split at hf
      · rename_i hp
        cases hf
        exact .missing hi₁ fun hsuf => by simp [endsWith_iff.2 hsuf] at hp
      · split at hf
        · rename_i hp
          cases hf
          exact .doubled hi₁ (endsWith_iff.1 hp)
        · cases hf
  · intro hf
    cases hf with
    | missing hi hp => simp [isLast_iff h, hi, Bool.not_eq_true _ ▸ mt endsWith_iff.1 hp]
    | doubled hi hp =>
      simp [isLast_iff h, hi, endsWith_iff.2 hp, endsWith_iff.2 (space_suffix_of_double hp)]

theorem fault?_eq_none_iff (h : i < n) : (⟨p, i, n⟩ : Segment).fault? = none ↔ Spaced n i p := by
  rw [fault?, Option.or_eq_none_iff, leadingFault?_eq_none_iff, trailingFault?_eq_none_iff h]
  exact ⟨fun h => ⟨h.1, h.2⟩, fun h => ⟨h.1, h.2⟩⟩

theorem fault?_eq_some_iff (h : i < n) :
    (⟨p, i, n⟩ : Segment).fault? = some e ↔ SpacingFault n i p e := by
  rw [fault?, Option.or_eq_some_iff, leadingFault?_eq_some_iff, leadingFault?_eq_none_iff,
    trailingFault?_eq_some_iff h]
  constructor
  · rintro (hl | ⟨hs, ht⟩)
    · exact .leading hl
    · exact .trailing hs ht
  · rintro (hl | ⟨hs, ht⟩)
    · exact .inl hl
    · exact .inr ⟨hs, ht⟩

theorem clean_eq_ok_iff (h : i < n) :
    (⟨p, i, n⟩ : Segment).clean = .ok t ↔ Spaced n i p ∧ p.trim = t := by
  rw [← fault?_eq_none_iff h]
  unfold clean
  split
  · rename_i e he
    simp [he]
  · rename_i he
    simp [he]

theorem clean_eq_error_iff (h : i < n) :
    (⟨p, i, n⟩ : Segment).clean = .error e ↔ SpacingFault n i p e := by
  rw [← fault?_eq_some_iff h]
  unfold clean
  split
  · rename_i e he
    simp [he]
  · rename_i he
    simp [he]

end Segment

/-! ## All segments -/

/-- Every piece has the spaces that belong next to its pipes. -/
def AllSpaced (ps : List Text) : Prop := ∀ i p, ps[i]? = some p → Spaced ps.length i p

theorem getElem?_segments (s : Text) (i : Nat) :
    (segments s)[i]? = (pieces s)[i]?.map fun p => ⟨p, i, (pieces s).length⟩ := by
  simp [segments, Option.map_map, Function.comp_def]

theorem length_segments (s : Text) : (segments s).length = (pieces s).length := by
  simp [segments]

/-- The segments hold the pieces in order. Each knows its place and the number of all, and only the
two at the ends are the first and the last. -/
structure Placed (ps : List Text) (gs : List Segment) : Prop where
  texts : gs.map Segment.text = ps
  index : ∀ (i : Nat) (g : Segment), gs[i]? = some g → g.index = i
  total : ∀ g ∈ gs, g.total = gs.length
  first : ∀ (i : Nat) (g : Segment), gs[i]? = some g → (g.isFirst = true ↔ i = 0)
  last : ∀ (i : Nat) (g : Segment), gs[i]? = some g → (g.isLast = true ↔ i + 1 = gs.length)

theorem placed_segments (s : Text) : Placed (pieces s) (segments s) := by
  have hplace : ∀ (i : Nat) (g : Segment), (segments s)[i]? = some g →
      ∃ p, g = ⟨p, i, (segments s).length⟩ ∧ i < (segments s).length := by
    intro i g hg
    have hlt := (List.getElem?_eq_some_iff.1 hg).1
    rw [getElem?_segments, Option.map_eq_some_iff] at hg
    obtain ⟨p, -, rfl⟩ := hg
    exact ⟨p, by rw [length_segments], hlt⟩
  constructor
  · apply List.ext_getElem?
    intro i
    rw [List.getElem?_map, getElem?_segments, Option.map_map]
    exact congrFun Option.map_id _
  · intro i g hg
    obtain ⟨p, rfl, -⟩ := hplace i g hg
    rfl
  · intro g hg
    obtain ⟨i, hi⟩ := List.getElem?_of_mem hg
    obtain ⟨p, rfl, -⟩ := hplace i g hi
    rfl
  · intro i g hg
    obtain ⟨p, rfl, -⟩ := hplace i g hg
    exact Segment.isFirst_iff
  · intro i g hg
    obtain ⟨p, rfl, hlt⟩ := hplace i g hg
    rw [Segment.isLast_iff hlt]
    omega

theorem cleanSegments_eq_ok_iff {s : Text} {ts : List Text} :
    cleanSegments (segments s) = .ok ts ↔
      AllSpaced (pieces s) ∧ (pieces s).map Text.trim = ts := by
  rw [cleanSegments, mapM_eq_ok_iff, forall₂_iff_getElem?, length_segments]
  simp only [getElem?_segments, Option.map_eq_some_iff]
  constructor
  · rintro ⟨hts, hclean⟩
    have hpiece : ∀ i p t, (pieces s)[i]? = some p → ts[i]? = some t →
        Spaced (pieces s).length i p ∧ p.trim = t := fun i p t hp ht =>
      (Segment.clean_eq_ok_iff (List.getElem?_eq_some_iff.1 hp).1).1
        (hclean i _ t ⟨p, hp, rfl⟩ ht)
    refine ⟨fun i p hp => ?_, List.ext_getElem? fun i => ?_⟩
    · have hi : i < ts.length := hts ▸ (List.getElem?_eq_some_iff.1 hp).1
      exact (hpiece i p _ hp (List.getElem?_eq_getElem hi)).1
    · rw [List.getElem?_map]
      cases hp : (pieces s)[i]? with
      | none =>
        rw [List.getElem?_eq_none_iff, hts, ← List.getElem?_eq_none_iff] at hp
        rw [hp, Option.map_none]
      | some p =>
        have hi : i < ts.length := hts ▸ (List.getElem?_eq_some_iff.1 hp).1
        have ht := List.getElem?_eq_getElem hi
        rw [ht, Option.map_some, (hpiece i p _ hp ht).2]
  · rintro ⟨hall, rfl⟩
    refine ⟨by simp, ?_⟩
    rintro i _ t ⟨p, hp, rfl⟩ ht
    rw [List.getElem?_map, hp] at ht
    rw [Segment.clean_eq_ok_iff (List.getElem?_eq_some_iff.1 hp).1]
    exact ⟨hall i p hp, Option.some.inj ht⟩

theorem cleanSegments_eq_error_iff {s : Text} {e : StatementError} :
    cleanSegments (segments s) = .error e ↔
      ∃ (i : Nat) (p : Text), (pieces s)[i]? = some p ∧ SpacingFault (pieces s).length i p e ∧
        ∀ j < i, ∀ q, (pieces s)[j]? = some q → Spaced (pieces s).length j q := by
  rw [cleanSegments, mapM_eq_error_iff]
  simp only [getElem?_segments, Option.map_eq_some_iff]
  constructor
  · rintro ⟨i, _, ⟨p, hp, rfl⟩, he, hlt⟩
    refine ⟨i, p, hp, (Segment.clean_eq_error_iff (List.getElem?_eq_some_iff.1 hp).1).1 he, ?_⟩
    intro j hj q hq
    obtain ⟨t, ht⟩ := hlt j hj _ ⟨q, hq, rfl⟩
    exact ((Segment.clean_eq_ok_iff (List.getElem?_eq_some_iff.1 hq).1).1 ht).1
  · rintro ⟨i, p, hp, hf, hlt⟩
    refine ⟨i, _, ⟨p, hp, rfl⟩,
      (Segment.clean_eq_error_iff (List.getElem?_eq_some_iff.1 hp).1).2 hf, ?_⟩
    rintro j hj _ ⟨q, hq, rfl⟩
    exact ⟨q.trim, (Segment.clean_eq_ok_iff (List.getElem?_eq_some_iff.1 hq).1).2
      ⟨hlt j hj q hq, rfl⟩⟩

end RequestLine
