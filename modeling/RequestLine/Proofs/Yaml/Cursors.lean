import Mathlib.Data.List.TakeWhile
import RequestLine.Proofs.Text.Joining
import RequestLine.Yaml.Tokens

/-!
# Moving through YAML texts

What a cursor is after some code points, and how it comes to the next token over spaces and line
feeds.

* `rest_skip`, `skip_skip`, `index_skip`, `line_skip`: the parts of a cursor that has moved.
* `Gap`: spaces and line feeds; `Tokens.toNextToken_gap`: no token starts there.
-/

namespace RequestLine.Yaml

/-- Spaces and line feeds. -/
def Gap (t : Text) : Prop := ∀ c ∈ t, c = CodePoint.ofChar ' ' ∨ c = CodePoint.ofChar '\n'

theorem gap_nil : Gap [] := fun _ hc => by cases hc

/-- A token may start with the code point: it is no space, break, comment or byte order mark. -/
structure StartsToken (c : CodePoint) : Prop where
  space : c ≠ CodePoint.ofChar ' '
  notBreak : isBreak c = false
  comment : c ≠ CodePoint.ofChar '#'
  mark : c ≠ CodePoint.ofNat 0xFEFF

/-- The text is at its end, or a token may start here. -/
def AtToken (t : Text) : Prop := ∀ c ∈ t.head?, StartsToken c

namespace Cursor

variable {c : Cursor}

theorem rest_advance (c : Cursor) : c.advance.rest = c.rest.tail := by
  unfold advance
  cases h : c.rest with
  | nil => exact h
  | cons x r =>
    simp only [List.tail_cons]
    split <;> rfl

theorem rest_skip (c : Cursor) (n : Nat) : (c.skip n).rest = c.rest.drop n := by
  induction n generalizing c with
  | zero => rfl
  | succ n ih => rw [skip, ih, rest_advance, List.drop_tail]

theorem skip_skip (c : Cursor) (m n : Nat) : (c.skip m).skip n = c.skip (m + n) := by
  induction m generalizing c with
  | zero => rw [skip, Nat.zero_add]
  | succ m ih => rw [skip, ih, Nat.add_right_comm, skip]

theorem advance_eq_skip (c : Cursor) : c.advance = c.skip 1 := rfl

theorem index_advance {x : CodePoint} {r : Text} (h : c.rest = x :: r) :
    c.advance.index = c.index + 1 := by
  unfold advance
  rw [h]
  dsimp only
  split <;> rfl

theorem index_skip {n : Nat} (h : n ≤ c.rest.length) : (c.skip n).index = c.index + n := by
  induction n generalizing c with
  | zero => rfl
  | succ n ih =>
    obtain ⟨x, r, hrest⟩ := List.exists_cons_of_length_pos (Nat.lt_of_lt_of_le n.succ_pos h)
    rw [skip, ih, index_advance hrest]
    · omega
    · rw [rest_advance, List.length_tail]
      omega

theorem line_advance {x : CodePoint} {r : Text} (h : c.rest = x :: r) (hx : isBreak x = false) :
    c.advance.line = c.line := by
  unfold advance
  rw [h]
  simp only [hx, Bool.false_and, Bool.false_eq_true, if_false]

/-- Only breaks end lines. -/
theorem line_skip {t r : Text} (h : c.rest = t ++ r) (ht : ∀ x ∈ t, isBreak x = false) :
    (c.skip t.length).line = c.line := by
  induction t generalizing c with
  | nil => rfl
  | cons x t ih =>
    obtain ⟨hx, ht⟩ := List.forall_mem_cons.1 ht
    rw [List.length_cons, skip, ih _ ht, line_advance h hx]
    rw [rest_advance, h, List.cons_append, List.tail_cons]

theorem takeWhile_eq (c : Cursor) (p : CodePoint → Bool) :
    c.takeWhile p = (c.rest.takeWhile p, c.skip (c.rest.takeWhile p).length) := rfl

theorem at_of_cons {x y : CodePoint} {r : Text} (h : c.rest = x :: r) :
    c.at_ y = decide (x = y) := by
  rw [at_, next?, h, List.head?_cons]
  by_cases hxy : x = y <;> simp [hxy]

/-- A text does not follow whose first code point is another one. -/
theorem follows_of_ne {x y : CodePoint} {r t : Text} (h : c.rest = x :: r) (hne : x ≠ y) :
    c.follows (y :: t) = false := by
  rw [follows, h, Text.startsWith, List.isPrefixOf_cons_cons]
  simp [hne.symm]

theorem takeBreak_of_atToken (h : AtToken c.rest) : c.takeBreak = ([], c) := by
  unfold takeBreak
  cases hrest : c.rest with
  | nil => rw [next?, hrest, List.head?_nil]
  | cons x r =>
    have hx := (h x (by rw [hrest, List.head?_cons, Option.mem_some_iff])).notBreak
    rw [next?, hrest, List.head?_cons]
    have hseparator : (x.val == 0x2028 || x.val == 0x2029) = false := by
      simp only [isBreak, Bool.or_eq_false_iff] at hx
      rw [hx.1.2, hx.2]
      rfl
    simp only [hseparator, hx, Bool.false_eq_true, if_false]

theorem takeBreak_lineFeed {r : Text} (h : c.rest = CodePoint.ofChar '\n' :: r) :
    c.takeBreak = (Text.ofString "\n", c.advance) := by
  have hfollows : c.follows "\r\n" = false := follows_of_ne h (by decide)
  unfold takeBreak
  rw [next?, h, List.head?_cons]
  simp only [hfollows]
  rfl

theorem skipComment_of_ne {x : CodePoint} {r : Text} (h : c.rest = x :: r)
    (hx : x ≠ CodePoint.ofChar '#') : c.skipComment = c := by
  rw [skipComment, at_of_cons h, decide_eq_false hx]
  rfl

theorem skipComment_of_atToken (h : AtToken c.rest) : c.skipComment = c := by
  cases hrest : c.rest with
  | nil =>
    rw [skipComment, at_, next?, hrest]
    rfl
  | cons x r =>
    have hx := h x (by rw [hrest, List.head?_cons, Option.mem_some_iff])
    exact skipComment_of_ne hrest hx.comment

theorem skipSpaces_eq (c : Cursor) :
    c.skipSpaces = c.skip (c.rest.takeWhile fun x => x.val == 0x20).length := rfl

theorem rest_skipSpaces (c : Cursor) :
    c.skipSpaces.rest = c.rest.dropWhile fun x => x.val == 0x20 := by
  rw [skipSpaces_eq, rest_skip]
  generalize hspaces : (c.rest.takeWhile fun x => x.val == 0x20) = spaces
  calc c.rest.drop spaces.length
      = (spaces ++ c.rest.dropWhile fun x => x.val == 0x20).drop spaces.length := by
        rw [← hspaces, List.takeWhile_append_dropWhile]
    _ = c.rest.dropWhile fun x => x.val == 0x20 := List.drop_left

end Cursor

/-! ## The next token -/

theorem StartsToken.val_ne {c : CodePoint} (h : StartsToken c) : (c.val == 0x20) = false := by
  rw [beq_eq_false_iff_ne]
  intro hval
  exact h.space (by rw [← CodePoint.ofNat_val c, hval]; rfl)

theorem AtToken.dropWhile_space {t : Text} (h : AtToken t) :
    (t.dropWhile fun x => x.val == 0x20) = t := by
  cases t with
  | nil => rfl
  | cons x t =>
    refine List.dropWhile_cons_of_neg ?_
    rw [(h x (by rw [List.head?_cons, Option.mem_some_iff])).val_ne]
    exact Bool.false_ne_true

/-- A gap is spaces, or spaces, a line feed and another gap. -/
theorem Gap.dropWhile_space {g : Text} (hg : Gap g) {t : Text} (ht : AtToken t) :
    ((g ++ t).dropWhile fun x => x.val == 0x20) = t ∨
      ∃ g', Gap g' ∧ g'.length < g.length ∧
        ((g ++ t).dropWhile fun x => x.val == 0x20) = CodePoint.ofChar '\n' :: (g' ++ t) := by
  induction g with
  | nil => exact .inl ht.dropWhile_space
  | cons c g ih =>
    obtain ⟨hc, htail⟩ := List.forall_mem_cons.1 hg
    rcases hc with rfl | rfl
    · rw [List.cons_append, List.dropWhile_cons_of_pos rfl]
      refine (ih htail).imp_right ?_
      rintro ⟨g', hg', hlength, hdrop⟩
      exact ⟨g', hg', Nat.lt_succ_of_lt hlength, hdrop⟩
    · exact .inr ⟨g, htail, Nat.lt_succ_self _, List.dropWhile_cons_of_neg (by decide)⟩

namespace Tokens

open Cursor

/-- No token starts in a gap. -/
theorem toNextToken_gap {fuel : Nat} {c : Cursor} {g t : Text} (hg : Gap g) (ht : AtToken t)
    (hrest : c.rest = g ++ t) (hfuel : g.length < fuel) :
    (toNextToken fuel c).1.rest = t := by
  induction fuel generalizing c g with
  | zero => exact absurd hfuel (Nat.not_lt_zero _)
  | succ fuel ih =>
    rcases hg.dropWhile_space ht with hdrop | ⟨g', hg', hlength, hdrop⟩
    · have hspaces : c.skipSpaces.rest = t := by rw [rest_skipSpaces, hrest, hdrop]
      have hat : AtToken c.skipSpaces.rest := by rwa [hspaces]
      simp only [toNextToken, skipComment_of_atToken hat, takeBreak_of_atToken hat]
      exact hspaces
    · have hspaces : c.skipSpaces.rest = CodePoint.ofChar '\n' :: (g' ++ t) := by
        rw [rest_skipSpaces, hrest, hdrop]
      simp only [toNextToken, skipComment_of_ne hspaces (by decide), takeBreak_lineFeed hspaces]
      refine ih hg' ?_ (by omega)
      rw [rest_advance, hspaces, List.tail_cons]

/-- At a token the cursor stays. -/
theorem toNextToken_of_atToken {fuel : Nat} {c : Cursor} (h : AtToken c.rest) :
    toNextToken fuel c = (c, false) := by
  cases fuel with
  | zero => rfl
  | succ fuel =>
    have hspaces : c.skipSpaces = c := by
      rw [skipSpaces_eq]
      cases hrest : c.rest with
      | nil => rfl
      | cons x r =>
        rw [hrest] at h
        rw [List.takeWhile_cons_of_neg]
        · rfl
        · rw [(h x (by rw [List.head?_cons, Option.mem_some_iff])).val_ne]
          exact Bool.false_ne_true
    simp only [toNextToken, hspaces, skipComment_of_atToken h, takeBreak_of_atToken h]
    rfl

end Tokens

end RequestLine.Yaml
