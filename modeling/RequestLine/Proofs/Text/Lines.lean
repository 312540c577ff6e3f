import RequestLine.Text.Lines

/-!
# Lines

Every break is one code point once the carriage returns are gone, and the lines on both sides of a
break do not depend on each other.

* `Parted`: the lines of a text, as a relation; `parted_iff`: they are what `lines` finds.
* `filledLines_blank_append`, `filledLines_row_append`: the line before a break, blank or filled.
* `Rows`: a text in which some lines are rows, with blank rows anywhere; `filledLines_of_rows`: the
  lines are read back.
-/

namespace RequestLine

/-- The numbers of the code points that end a line. -/
def lineBreaks : List Nat :=
  [0x0A, 0x0B, 0x0C, 0x0D, 0x1C, 0x1D, 0x1E, 0x85, 0x2028, 0x2029]

theorem CodePoint.isLineBreak_iff {c : CodePoint} : c.isLineBreak = true ↔ c.val ∈ lineBreaks := by
  simp only [isLineBreak, lineBreaks, Bool.or_eq_true, Bool.and_eq_true, decide_eq_true_eq,
    beq_iff_eq, List.mem_cons, List.not_mem_nil, or_false]
  omega

theorem CodePoint.isBlank_of_isLineBreak {c : CodePoint} (h : c.isLineBreak = true) :
    c.isBlank = true := by
  simp only [isLineBreak, isBlank, Bool.or_eq_true, Bool.and_eq_true, decide_eq_true_eq,
    beq_iff_eq] at h ⊢
  omega

namespace Text

abbrev lineFeed : CodePoint := '\n'

abbrev carriageReturn : CodePoint := '\r'

/-- No code point of the text ends a line. -/
def Unbroken (l : Text) : Prop := ∀ c ∈ l, c.val ∉ lineBreaks

instance (l : Text) : Decidable (Unbroken l) :=
  inferInstanceAs (Decidable (∀ c ∈ l, c.val ∉ lineBreaks))

theorem Unbroken.cons {c : CodePoint} {l : Text} (hc : c.isLineBreak = false) (hl : Unbroken l) :
    Unbroken (c :: l) := by
  intro d hd
  rcases List.mem_cons.1 hd with rfl | hd
  · rw [← CodePoint.isLineBreak_iff, hc]
    exact Bool.false_ne_true
  · exact hl d hd

theorem Unbroken.head {c : CodePoint} {l : Text} (h : Unbroken (c :: l)) :
    c.isLineBreak = false :=
  Bool.eq_false_iff.2 fun hc => h c List.mem_cons_self (CodePoint.isLineBreak_iff.1 hc)

theorem Unbroken.tail {c : CodePoint} {l : Text} (h : Unbroken (c :: l)) : Unbroken l :=
  fun d hd => h d (List.mem_cons_of_mem c hd)

/-! ## The lines of a text -/

/-- The lines of a text. Every line but the last one has a break after it, and the last one is not
empty if it has none. -/
inductive Parted : Text → List Text → Prop
  | done : Parted [] []
  | last {l : Text} : l ≠ [] → Unbroken l → Parted l [l]
  | line {l t : Text} {c : CodePoint} {ls : List Text} : Unbroken l → c.val ∈ lineBreaks →
      Parted t ls → Parted (l ++ c :: t) (l :: ls)

theorem lines_break {c : CodePoint} (hc : c.isLineBreak = true) (t : Text) :
    lines (c :: t) = [] :: lines t := by
  rw [lines, if_pos hc]

theorem lines_cons {c : CodePoint} (hc : c.isLineBreak = false) {t l : Text} {ls : List Text}
    (h : lines t = l :: ls) : lines (c :: t) = (c :: l) :: ls := by
  rw [lines, if_neg (by simp [hc]), h]

theorem lines_ne_nil {t : Text} (h : t ≠ []) : lines t ≠ [] := by
  obtain ⟨c, r, rfl⟩ := List.exists_cons_of_ne_nil h
  rw [lines]
  split
  · exact List.cons_ne_nil _ _
  · split <;> exact List.cons_ne_nil _ _

theorem lines_of_unbroken {l : Text} (hne : l ≠ []) (h : Unbroken l) : lines l = [l] := by
  induction l with
  | nil => exact absurd rfl hne
  | cons c l ih =>
    cases l with
    | nil => simp [lines, h.head]
    | cons d l => exact lines_cons h.head (ih (List.cons_ne_nil d l) h.tail)

/-- A break ends a line. -/
theorem lines_unbroken_append {l : Text} (h : Unbroken l) {c : CodePoint}
    (hc : c.isLineBreak = true) (t : Text) : lines (l ++ c :: t) = l :: lines t := by
  induction l with
  | nil => exact lines_break hc t
  | cons d l ih => exact lines_cons h.head (ih h.tail)

theorem Parted.eq_nil {t : Text} (h : Parted t []) : t = [] := by
  cases h
  rfl

theorem parted_lines (t : Text) : Parted t t.lines := by
  induction t with
  | nil => exact .done
  | cons c r ih =>
    cases hc : c.isLineBreak with
    | true =>
      rw [lines_break hc]
      exact .line (l := []) (fun d hd => by cases hd) (CodePoint.isLineBreak_iff.1 hc) ih
    | false =>
      cases hr : lines r with
      | nil =>
        obtain rfl := (hr ▸ ih).eq_nil
        have hone : Unbroken [c] := .cons hc fun d hd => by cases hd
        rw [lines_of_unbroken (List.cons_ne_nil c []) hone]
        exact .last (List.cons_ne_nil c []) hone
      | cons l ls =>
        rw [lines_cons hc hr]
        rw [hr] at ih
        cases ih with
        | last _ hl => exact .last (List.cons_ne_nil c _) (.cons hc hl)
        | line hl hbreak ht => exact .line (.cons hc hl) hbreak ht

theorem parted_iff {t : Text} {ls : List Text} : Parted t ls ↔ t.lines = ls := by
  constructor
  · intro h
    induction h with
    | done => rfl
    | last hne hl => exact lines_of_unbroken hne hl
    | line hl hc _ ih => rw [lines_unbroken_append hl (CodePoint.isLineBreak_iff.2 hc), ih]
  · rintro rfl
    exact parted_lines t

/-! ## Filled lines -/

/-- What stands before a break and what stands after it have their lines apart. -/
theorem lines_append_break {c : CodePoint} (hc : c.isLineBreak = true) (t r : Text) :
    lines (t ++ c :: r) = lines (t ++ [c]) ++ lines r := by
  induction t with
  | nil =>
    rw [List.nil_append, List.nil_append, lines_break hc, lines_break hc]
    rfl
  | cons d t ih =>
    obtain ⟨l, ls, hls⟩ := List.exists_cons_of_ne_nil (lines_ne_nil (t := t ++ [c]) (by simp))
    rw [hls, List.cons_append] at ih
    rw [List.cons_append, List.cons_append]
    cases hd : d.isLineBreak with
    | true =>
      rw [lines_break hd, lines_break hd, ih, hls]
      rfl
    | false =>
      rw [lines_cons hd ih, lines_cons hd hls]
      rfl

theorem mem_of_mem_lines {t l : Text} (hl : l ∈ lines t) {c : CodePoint} (hc : c ∈ l) : c ∈ t := by
  have h := parted_lines t
  generalize lines t = ls at h hl
  induction h with
  | done => cases hl
  | last =>
    rw [List.mem_singleton.1 hl] at hc
    exact hc
  | line _ _ _ ih =>
    rcases List.mem_cons.1 hl with rfl | hl
    · exact List.mem_append_left _ hc
    · exact List.mem_append_right _ (List.mem_cons_of_mem _ (ih hl))

theorem filledLines_append_break {c : CodePoint} (hc : c.isLineBreak = true) (t r : Text) :
    filledLines (t ++ c :: r) = filledLines (t ++ [c]) ++ filledLines r := by
  rw [filledLines, lines_append_break hc, List.filter_append]
  rfl

/-- White space has no filled lines, whatever breaks there are in it. -/
theorem filledLines_of_blank {b : Text} (hb : ∀ c ∈ b, c.isBlank = true) :
    filledLines b = [] := by
  refine List.filter_eq_nil_iff.2 fun l hl => ?_
  have hblank : isBlank l = true := List.all_eq_true.2 fun c hc => hb c (mem_of_mem_lines hl hc)
  simp [hblank]

theorem filledLines_blank_append {b : Text} (hb : ∀ c ∈ b, c.isBlank = true) {c : CodePoint}
    (hc : c.isLineBreak = true) (r : Text) : filledLines (b ++ c :: r) = filledLines r := by
  have hall : ∀ d ∈ b ++ [c], d.isBlank = true := by
    intro d hd
    rcases List.mem_append.1 hd with hd | hd
    · exact hb d hd
    · rw [List.mem_singleton.1 hd]
      exact CodePoint.isBlank_of_isLineBreak hc
  rw [filledLines_append_break hc, filledLines_of_blank hall, List.nil_append]

/-- A line with more than white space in it. -/
structure IsRow (l : Text) : Prop where
  filled : l.isBlank = false
  unbroken : Unbroken l

theorem IsRow.ne_nil {l : Text} (h : IsRow l) : l ≠ [] := by
  rintro rfl
  cases h.filled

theorem IsRow.filledLines_eq {l : Text} (h : IsRow l) : filledLines l = [l] := by
  rw [filledLines, lines_of_unbroken h.ne_nil h.unbroken]
  simp [h.filled]

theorem filledLines_row_append {l : Text} (h : IsRow l) {c : CodePoint}
    (hc : c.isLineBreak = true) (r : Text) : filledLines (l ++ c :: r) = l :: filledLines r := by
  rw [filledLines, lines_unbroken_append h.unbroken hc, List.filter_cons_of_pos (by simp [h.filled])]
  rfl

/-! ## Carriage returns -/

theorem unifyBreaks_cons_of_ne {c : CodePoint} (h : c ≠ carriageReturn) (r : Text) :
    unifyBreaks (c :: r) = c :: unifyBreaks r := by
  cases r <;> simp [unifyBreaks, h]

theorem unifyBreaks_append {l : Text} (h : carriageReturn ∉ l) (r : Text) :
    unifyBreaks (l ++ r) = l ++ unifyBreaks r := by
  induction l with
  | nil => rfl
  | cons c l ih =>
    obtain ⟨hc, hl⟩ := not_or.1 (mt List.mem_cons.2 h)
    rw [List.cons_append, unifyBreaks_cons_of_ne (Ne.symm hc), ih hl, List.cons_append]

theorem unifyBreaks_of_not_mem {l : Text} (h : carriageReturn ∉ l) : unifyBreaks l = l := by
  have happend := unifyBreaks_append h []
  simpa [unifyBreaks] using happend

theorem unifyBreaks_return_feed (r : Text) :
    unifyBreaks (carriageReturn :: lineFeed :: r) = lineFeed :: unifyBreaks r := by
  simp [unifyBreaks]

theorem unifyBreaks_return {c : CodePoint} (h : c ≠ lineFeed) (r : Text) :
    unifyBreaks (carriageReturn :: c :: r) = lineFeed :: unifyBreaks (c :: r) := by
  simp [unifyBreaks, h]

/-! ## Rows -/

/-- What may stand at the end of a row. -/
def terminators : List Text := [[lineFeed], [carriageReturn, lineFeed], [carriageReturn]]

/-- White space that is no carriage return. -/
def BlankRow (b : Text) : Prop := ∀ c ∈ b, c.isBlank = true ∧ c ≠ carriageReturn

instance (b : Text) : Decidable (BlankRow b) :=
  inferInstanceAs (Decidable (∀ c ∈ b, c.isBlank = true ∧ c ≠ carriageReturn))

/-- A text in which some lines are rows, each with a terminator, with blank rows anywhere. The last
row may lack its terminator. -/
inductive Rows : List Text → Text → Prop
  | rest {b : Text} : BlankRow b → Rows [] b
  | last {l : Text} : IsRow l → Rows [l] l
  | blank {b e t : Text} {ls : List Text} : BlankRow b → e ∈ terminators → Rows ls t →
      Rows ls (b ++ (e ++ t))
  | line {l e t : Text} {ls : List Text} : IsRow l → e ∈ terminators → Rows ls t →
      Rows (l :: ls) (l ++ (e ++ t))

theorem BlankRow.isBlank {b : Text} (h : BlankRow b) : ∀ c ∈ b, c.isBlank = true :=
  fun c hc => (h c hc).1

theorem BlankRow.not_mem {b : Text} (h : BlankRow b) : carriageReturn ∉ b :=
  fun hc => (h _ hc).2 rfl

theorem IsRow.not_mem {l : Text} (h : IsRow l) : carriageReturn ∉ l :=
  fun hc => h.unbroken _ hc (by decide)

theorem filledLines_lineFeed (t : Text) : filledLines (lineFeed :: t) = filledLines t :=
  filledLines_blank_append (b := []) (fun c hc => by cases hc) (by decide) t

/-- A terminator becomes a line feed. The line feed after a carriage return may belong to what
follows, where it would be an empty line. -/
theorem exists_unifyBreaks_terminator {e : Text} (he : e ∈ terminators) (t : Text) :
    ∃ u : Text, unifyBreaks (e ++ t) = lineFeed :: u ∧
      u.filledLines = t.unifyBreaks.filledLines := by
  simp only [terminators, List.mem_cons, List.not_mem_nil, or_false] at he
  rcases he with rfl | rfl | rfl
  · exact ⟨_, unifyBreaks_cons_of_ne (by decide) t, rfl⟩
  · exact ⟨_, unifyBreaks_return_feed t, rfl⟩
  · cases t with
    | nil => exact ⟨[], rfl, rfl⟩
    | cons c t =>
      by_cases hc : c = lineFeed
      · subst hc
        refine ⟨_, unifyBreaks_return_feed t, ?_⟩
        rw [unifyBreaks_cons_of_ne (by decide), filledLines_lineFeed]
      · exact ⟨_, unifyBreaks_return hc t, rfl⟩

/-- The rows of a text are its filled lines. -/
theorem filledLines_of_rows {ls : List Text} {t : Text} (h : Rows ls t) :
    t.unifyBreaks.filledLines = ls := by
  induction h with
  | rest hb => rw [unifyBreaks_of_not_mem hb.not_mem, filledLines_of_blank hb.isBlank]
  | last hl => rw [unifyBreaks_of_not_mem hl.not_mem, hl.filledLines_eq]
  | @blank b e t ls hb he _ ih =>
    obtain ⟨u, hu, hfilled⟩ := exists_unifyBreaks_terminator he t
    rw [unifyBreaks_append hb.not_mem, hu, filledLines_blank_append hb.isBlank (by decide), hfilled,
      ih]
  | @line l e t ls hl he _ ih =>
    obtain ⟨u, hu, hfilled⟩ := exists_unifyBreaks_terminator he t
    rw [unifyBreaks_append hl.not_mem, hu, filledLines_row_append hl (by decide), hfilled, ih]

end Text

end RequestLine
