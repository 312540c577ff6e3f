import RequestLine.Proofs.Dictionary
import RequestLine.Proofs.Json.Constants

/-!
# Nesting

How deep a value goes, and how many brackets a text has open at once. Brackets in strings are none.

* `depth`: how many arrays and objects stand around the innermost value.
* `nesting`: the most brackets that are open at once in a text, whatever text it is.
* `Balanced`: a text leaves as many brackets open as there were before it; `balanced_value`.
* `depth_le_nesting`: no value is deeper than its text.
-/

namespace RequestLine.Json

open Grammar

/-! ## Depth -/

mutual

/-- How many arrays and objects stand around the innermost value. -/
def depth : Json → Nat
  | .null | .bool _ | .num _ | .str _ => 0
  | .arr items => depthOfItems items
  | .obj members => depthOfMembers members

def depthOfItems : List Json → Nat
  | [] => 0
  | v :: r => max (depth v + 1) (depthOfItems r)

def depthOfMembers : List (Text × Json) → Nat
  | [] => 0
  | (_, v) :: r => max (depth v + 1) (depthOfMembers r)

end

theorem depth_arr_le {items : List Json} {n : Nat} (h : ∀ v ∈ items, v.depth < n) :
    (Json.arr items).depth ≤ n := by
  rw [depth]
  induction items with
  | nil => exact Nat.zero_le n
  | cons v items ih =>
    obtain ⟨hv, hitems⟩ := List.forall_mem_cons.1 h
    exact Nat.max_le.2 ⟨hv, ih hitems⟩

theorem depth_obj_le {members : List (Text × Json)} {n : Nat} (h : ∀ m ∈ members, m.2.depth < n) :
    (Json.obj members).depth ≤ n := by
  rw [depth]
  induction members with
  | nil => exact Nat.zero_le n
  | cons m members ih =>
    obtain ⟨hm, hmembers⟩ := List.forall_mem_cons.1 h
    exact Nat.max_le.2 ⟨hm, ih hmembers⟩

/-! ## Open brackets -/

def isOpening (c : CodePoint) : Bool := c == CodePoint.ofChar '[' || c == CodePoint.ofChar '\x7b'

def isClosing (c : CodePoint) : Bool := c == CodePoint.ofChar ']' || c == CodePoint.ofChar '\x7d'

/-- How many brackets are open after a code point. -/
def Quoting.level (q : Quoting) (n : Nat) (c : CodePoint) : Nat :=
  if q ≠ outside then n else if isOpening c then n + 1 else if isClosing c then n - 1 else n

/-- The most brackets that are open at once, from `n` open ones on. -/
def deepest (q : Quoting) (n : Nat) : Text → Nat
  | [] => n
  | c :: r => max n (deepest (q.step c) (q.level n c) r)

/-- The most brackets that are open at once in a text. -/
def nesting (t : Text) : Nat := deepest .outside 0 t

theorem le_deepest (q : Quoting) (n : Nat) (t : Text) : n ≤ deepest q n t := by
  cases t with
  | nil => exact Nat.le_refl n
  | cons => exact Nat.le_max_left _ _

theorem deepest_le (q : Quoting) (n : Nat) (t : Text) : deepest q n t ≤ n + t.length := by
  induction t generalizing q n with
  | nil => exact Nat.le_refl n
  | cons c t ih =>
    have hlevel : q.level n c ≤ n + 1 := by
      unfold Quoting.level
      split_ifs <;> omega
    have htail := ih (q.step c) (q.level n c)
    rw [deepest, List.length_cons]
    omega

theorem nesting_le_length (t : Text) : nesting t ≤ t.length :=
  (deepest_le .outside 0 t).trans_eq (Nat.zero_add _)

/-- A code point that changes no number of brackets can be left out. -/
theorem deepest_cons_of_level {q : Quoting} {n : Nat} {c : CodePoint} (h : q.level n c = n)
    (t : Text) : deepest q n (c :: t) = deepest (q.step c) n t := by
  rw [deepest, h]
  exact Nat.max_eq_right (le_deepest _ n t)

/-! ## Balanced texts -/

/-- After the text as many brackets are open as before. -/
def Balanced (t : Text) : Prop :=
  ∀ n u, deepest .outside n (t ++ u) = max (n + nesting t) (deepest .outside n u)

namespace Balanced

variable {t u : Text}

theorem nesting_append (ht : Balanced t) (u : Text) :
    nesting (t ++ u) = max (nesting t) (nesting u) := by
  rw [nesting, ht 0 u, Nat.zero_add]
  rfl

theorem append (ht : Balanced t) (hu : Balanced u) : Balanced (t ++ u) := by
  intro n w
  rw [ht.nesting_append, List.append_assoc, ht, hu]
  omega

/-- A text that can be left out has no brackets. -/
theorem of_eq (h : ∀ n u, deepest .outside n (t ++ u) = deepest .outside n u) : Balanced t := by
  have hzero : nesting t = 0 := by
    have ht := h 0 []
    rwa [List.append_nil] at ht
  intro n u
  rw [h, hzero]
  exact (Nat.max_eq_right (le_deepest _ n u)).symm

theorem bracketed (ht : Balanced t) {a b : CodePoint} (ha : isOpening a = true)
    (hb : isOpening b = false) (hb' : isClosing b = true) (hq : a ≠ quotationMark)
    (hq' : b ≠ quotationMark) :
    Balanced (a :: (t ++ [b])) ∧ nesting (a :: (t ++ [b])) = nesting t + 1 := by
  have hopen : ∀ n, Quoting.level .outside n a = n + 1 := fun n => by simp [Quoting.level, ha]
  have hclose : ∀ n, Quoting.level .outside (n + 1) b = n := fun n => by
    simp [Quoting.level, hb, hb']
  have hstep : ∀ n u, deepest .outside n (a :: (t ++ [b]) ++ u) =
      max (n + (nesting t + 1)) (deepest .outside n u) := by
    intro n u
    have hrest := ht (n + 1) (b :: u)
    rw [deepest, hclose, Quoting.step, if_neg hq'] at hrest
    rw [List.cons_append, List.append_assoc, deepest, hopen, Quoting.step, if_neg hq]
    rw [List.singleton_append, hrest]
    have hn := le_deepest .outside n u
    omega
  have hnesting : nesting (a :: (t ++ [b])) = nesting t + 1 := by
    have hall := hstep 0 []
    rw [List.append_nil] at hall
    rw [nesting, hall, deepest]
    omega
  exact ⟨fun n u => by rw [hstep, hnesting], hnesting⟩

end Balanced

/-- The brackets, and the mark behind which brackets are none. -/
def marks : Text := openings ++ [CodePoint.ofChar ']', CodePoint.ofChar '\x7d']

theorem level_of_not_mem_marks {c : CodePoint} (h : c ∉ marks) (n : Nat) :
    Quoting.level .outside n c = n := by
  simp only [marks, openings, List.mem_append, List.mem_cons, List.not_mem_nil, or_false,
    not_or] at h
  simp [Quoting.level, isOpening, isClosing, h]

theorem balanced_of_not_mem_marks {t : Text} (h : ∀ c ∈ t, c ∉ marks) : Balanced t := by
  refine .of_eq fun n u => ?_
  induction t with
  | nil => rfl
  | cons c t ih =>
    obtain ⟨hc, htail⟩ := List.forall_mem_cons.1 h
    have hquote : c ≠ quotationMark := by
      rintro rfl
      exact hc (by decide)
    rw [List.cons_append, deepest_cons_of_level (level_of_not_mem_marks hc n), Quoting.step,
      if_neg hquote]
    exact ih htail

theorem balanced_blank {b : Text} (hb : Blank b) : Balanced b := by
  have hmarks : ∀ c ∈ marks, Reader.isBlank c = false := by decide
  refine balanced_of_not_mem_marks fun c hc hmem => ?_
  have hblank := hb c hc
  rw [hmarks c hmem] at hblank
  cases hblank

theorem balanced_number {t : Text} {n : Number} (h : NumberText t n) : Balanced t := by
  have hdigit : ∀ c ∈ marks, c.isDigit = false := by decide
  have hmark : ∀ c ∈ marks, c ∉ Text.ofString "+-.eE" := by decide
  refine balanced_of_not_mem_marks fun c hc hmem => ?_
  rcases h.isNumeral c hc with hnumeral | hnumeral
  · rw [hdigit c hmem] at hnumeral
    cases hnumeral
  · exact hmark c hmem hnumeral

/-! ## Strings -/

theorem deepest_inside_cons {c : CodePoint} (hquote : c ≠ quotationMark) (hback : c ≠ backslash)
    (n : Nat) (t : Text) : deepest .inside n (c :: t) = deepest .inside n t := by
  rw [deepest_cons_of_level rfl, Quoting.step, if_neg hquote, if_neg hback]

theorem deepest_escape (c : CodePoint) (n : Nat) (t : Text) :
    deepest .inside n (backslash :: c :: t) = deepest .inside n t := by
  rw [deepest_cons_of_level rfl]
  exact deepest_cons_of_level rfl t

theorem deepest_unitText {digits : Text} {k : Nat} (h : Hex.Writes 4 digits k) (n : Nat) (t : Text) :
    deepest .inside n (unitText digits ++ t) = deepest .inside n t := by
  rw [unitText, List.cons_append, List.cons_append, deepest_escape]
  have hall := h.hexValue?_ne_none
  clear h
  induction digits with
  | nil => rfl
  | cons c digits ih =>
    obtain ⟨hc, hdigits⟩ := List.forall_mem_cons.1 hall
    rw [List.cons_append, deepest_inside_cons]
    · exact ih hdigits
    · rintro rfl
      exact hc (by decide)
    · rintro rfl
      exact hc (by decide)

/-- The inside of a string opens and closes nothing. -/
theorem deepest_chars {t s : Text} (h : Chars t s) (n : Nat) (u : Text) :
    deepest .inside n (t ++ u) = deepest .inside n u := by
  induction h with
  | nil => rfl
  | plain hquote hback _ _ ih => rw [List.cons_append, deepest_inside_cons hquote hback, ih]
  | escape _ _ ih => rw [List.cons_append, List.cons_append, deepest_escape, ih]
  | unit hwrites _ _ _ ih => rw [List.append_assoc, deepest_unitText hwrites, ih]
  | pair hfirst hsecond _ _ _ _ ih =>
    rw [List.append_assoc, List.append_assoc, deepest_unitText hfirst, deepest_unitText hsecond, ih]

theorem balanced_string {t s : Text} (h : StringText t s) : Balanced t := by
  cases h with
  | quoted h =>
    refine .of_eq fun n u => ?_
    rw [List.cons_append, List.append_assoc, deepest_cons_of_level rfl]
    exact (deepest_chars h n _).trans (deepest_cons_of_level rfl u)

/-! ## Values -/

theorem balanced_items {ps : List Text} {t : Text} (h : Items ps t) (hps : ∀ p ∈ ps, Balanced p) :
    Balanced t ∧ ∀ p ∈ ps, nesting p ≤ nesting t := by
  induction h with
  | @last before p after hbefore hafter =>
    have hb := balanced_blank hbefore
    have hp := hps p List.mem_cons_self
    refine ⟨hb.append (hp.append (balanced_blank hafter)), List.forall_mem_singleton.2 ?_⟩
    rw [hb.nesting_append, hp.nesting_append]
    omega
  | @cons before p after t ps hbefore hafter _ ih =>
    obtain ⟨hp, hrest⟩ := List.forall_mem_cons.1 hps
    obtain ⟨ht, hle⟩ := ih hrest
    have hb := balanced_blank hbefore
    have ha := balanced_blank hafter
    have hcomma : Balanced [CodePoint.ofChar ','] := balanced_of_not_mem_marks (by decide)
    rw [← List.singleton_append (l := t)]
    refine ⟨hb.append (hp.append (ha.append (hcomma.append ht))), List.forall_mem_cons.2 ⟨?_, ?_⟩⟩
    · rw [hb.nesting_append, hp.nesting_append]
      omega
    · intro q hq
      have hq := hle q hq
      rw [hb.nesting_append, hp.nesting_append, ha.nesting_append, hcomma.nesting_append]
      omega

theorem balanced_separated {ps : List Text} {t : Text} (h : Separated ps t)
    (hps : ∀ p ∈ ps, Balanced p) : Balanced t ∧ ∀ p ∈ ps, nesting p ≤ nesting t := by
  cases h with
  | none hb => exact ⟨balanced_blank hb, fun p hp => by cases hp⟩
  | some h => exact balanced_items h hps

theorem balanced_member {m : Member} (hm : m.Spelled) (hv : Balanced m.valueText) :
    Balanced m.text ∧ nesting m.valueText ≤ nesting m.text := by
  have hname := balanced_string hm.name
  have hbefore := balanced_blank hm.before
  have hafter := balanced_blank hm.after
  have hcolon : Balanced [CodePoint.ofChar ':'] := balanced_of_not_mem_marks (by decide)
  rw [Member.text, ← List.singleton_append]
  refine ⟨hname.append (hbefore.append (hcolon.append (hafter.append hv))), ?_⟩
  rw [hname.nesting_append, hbefore.nesting_append, hcolon.nesting_append, hafter.nesting_append]
  omega

/-- A value leaves no bracket open, and its text is as deep as it is. -/
theorem balanced_value {d : Dialect} {t : Text} {v : Json} (h : Value d t v) :
    Balanced t ∧ v.depth ≤ nesting t := by
  induction h with
  | @constant t v hmem =>
    have hplain : ∀ p ∈ Reader.constants d, ∀ c ∈ p.1, c ∉ marks := by
      cases d <;> decide
    have hdepth : ∀ p ∈ Reader.constants d, p.2.depth = 0 := by
      cases d <;> simp [Reader.constants, depth]
    refine ⟨balanced_of_not_mem_marks (hplain _ hmem), ?_⟩
    rw [hdepth _ hmem]
    exact Nat.zero_le _
  | number hn => exact ⟨balanced_number hn, Nat.zero_le _⟩
  | string hs => exact ⟨balanced_string hs, Nat.zero_le _⟩
  | @array items t _ hseparated ih =>
    obtain ⟨hinner, hle⟩ := balanced_separated hseparated fun p hp => by
      obtain ⟨i, hi, rfl⟩ := List.mem_map.1 hp
      exact (ih i hi).1
    obtain ⟨hbalanced, hnesting⟩ := hinner.bracketed (a := '[') (b := ']') (by decide) (by decide)
      (by decide) (by decide) (by decide)
    refine ⟨hbalanced, hnesting ▸ depth_arr_le fun v hv => ?_⟩
    obtain ⟨i, hi, rfl⟩ := List.mem_map.1 hv
    exact Nat.lt_succ_of_le ((ih i hi).2.trans (hle _ (List.mem_map_of_mem hi)))
  | @object members t hspelled _ hseparated ih =>
    obtain ⟨hinner, hle⟩ := balanced_separated hseparated fun p hp => by
      obtain ⟨m, hm, rfl⟩ := List.mem_map.1 hp
      exact (balanced_member (hspelled m hm) (ih m hm).1).1
    obtain ⟨hbalanced, hnesting⟩ := hinner.bracketed (a := '\x7b') (b := '\x7d') (by decide)
      (by decide) (by decide) (by decide) (by decide)
    refine ⟨hbalanced, hnesting ▸ depth_obj_le fun p hp => ?_⟩
    obtain ⟨m, hm, rfl⟩ := List.mem_map.1 (Dictionary.mem_ofPairs hp)
    have hmember := (balanced_member (hspelled m hm) (ih m hm).1).2
    exact Nat.lt_succ_of_le ((ih m hm).2.trans (hmember.trans (hle _ (List.mem_map_of_mem hm))))

/-- No value is deeper than its text. -/
theorem depth_le_nesting {d : Dialect} {t : Text} {v : Json} (h : parse? d t = some v) :
    v.depth ≤ nesting t := by
  cases parse?_eq_some_iff.1 h with
  | @framed before u after _ hbefore _ hvalue =>
    obtain ⟨hbalanced, hdepth⟩ := balanced_value hvalue
    rw [(balanced_blank hbefore).nesting_append, hbalanced.nesting_append]
    omega

end RequestLine.Json
