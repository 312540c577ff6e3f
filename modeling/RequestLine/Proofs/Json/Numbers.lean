import Mathlib.Data.List.TakeWhile
import RequestLine.Proofs.Json.Grammar

/-!
# Reading numbers

The reader takes as much of a number as it finds, so a number is read as it stands only where the
text that follows does not go on with it.

* `NumberEnds`: the texts that may follow.
* `readNumber_append`, `readNumber_sound`: in front of these a number is read, and whatever is read
  is one.
-/

namespace RequestLine.Json

namespace Reader

open Grammar

/-- The text does not begin with a digit. -/
def NoDigit (t : Text) : Prop := ∀ c r, t = c :: r → c.isDigit = false

/-- The text does not go on with a number. -/
def NumberEnds (t : Text) : Prop :=
  ∀ c r, t = c :: r → c.isDigit = false ∧ c ≠ '.' ∧ ¬ (c = 'e' ∨ c = 'E')

theorem NumberEnds.noDigit {t : Text} (h : NumberEnds t) : NoDigit t :=
  fun c r ht => (h c r ht).1

/-! ## Runs of digits -/

theorem takeWhile_digits {w r : Text} (hw : AllDigits w) (hr : NoDigit r) :
    (w ++ r).takeWhile CodePoint.isDigit = w := by
  rw [List.takeWhile_append_of_pos hw]
  cases r with
  | nil => exact List.append_nil w
  | cons c r =>
    have hc : ¬ c.isDigit = true := by simp [hr c r rfl]
    rw [List.takeWhile_cons_of_neg hc, List.append_nil]

theorem allDigits_takeWhile (t : Text) : AllDigits (t.takeWhile CodePoint.isDigit) :=
  fun _ hc => List.mem_takeWhile_imp hc

theorem takeWhile_append_drop (p : CodePoint → Bool) (t : Text) :
    t.takeWhile p ++ t.drop (t.takeWhile p).length = t :=
  List.prefix_iff_eq_append.1 (List.takeWhile_prefix p)

theorem noDigit_of_ne_nil {w r : Text} {c : CodePoint} (hc : c.isDigit = false) (hw : w = c :: r) :
    NoDigit w := by
  intro d s hd
  rw [hw] at hd
  obtain ⟨rfl, -⟩ := List.cons.inj hd
  exact hc

/-! ## The parts of a number -/

theorem wholePart_append {w r : Text} (hw : Whole w) (hr : NoDigit r) : wholePart (w ++ r) = w := by
  rw [wholePart, takeWhile_digits hw.allDigits hr]
  cases hw with
  | zero => rfl
  | digits _ hne _ => exact if_neg hne

theorem wholePart_sound {t : Text} (h : wholePart t ≠ []) :
    Whole (wholePart t) ∧ wholePart t ++ t.drop (wholePart t).length = t := by
  have hall := allDigits_takeWhile t
  have hprefix := List.takeWhile_prefix (l := t) CodePoint.isDigit
  unfold wholePart at h ⊢
  cases htake : t.takeWhile CodePoint.isDigit with
  | nil =>
    rw [htake] at h
    exact absurd rfl h
  | cons c r =>
    rw [htake] at hall hprefix
    dsimp only
    split
    · rename_i hc
      subst hc
      refine ⟨.zero, List.prefix_iff_eq_append.1 (List.IsPrefix.trans ?_ hprefix)⟩
      exact ⟨r, rfl⟩
    · rename_i hc
      refine ⟨.digits (hall c List.mem_cons_self) hc fun d hd => ?_,
        List.prefix_iff_eq_append.1 hprefix⟩
      exact hall d (List.mem_cons_of_mem c hd)

/-- The text after the fraction. -/
def afterFraction (t : Text) : Text :=
  if fractionPart t = [] then t else t.drop ((fractionPart t).length + 1)

theorem fractionPart_append {point digits r : Text} (h : Fraction point digits)
    (hr : NoDigit r) (hpoint : ∀ c s, r = c :: s → c ≠ '.') :
    fractionPart (point ++ r) = digits ∧ afterFraction (point ++ r) = r := by
  cases h with
  | absent =>
    have hnone : fractionPart r = [] := by
      cases r with
      | nil => rfl
      | cons c s => exact if_neg (hpoint c s rfl)
    rw [List.nil_append, afterFraction, if_pos hnone]
    exact ⟨hnone, rfl⟩
  | @point digits hne hall =>
    have hsome : fractionPart (CodePoint.ofChar '.' :: digits ++ r) = digits := by
      rw [List.cons_append, fractionPart, if_pos rfl, takeWhile_digits hall hr]
    refine ⟨hsome, ?_⟩
    rw [afterFraction, hsome, if_neg hne, List.cons_append, List.drop_succ_cons, List.drop_left]

theorem fractionPart_sound (t : Text) :
    ∃ point, Fraction point (fractionPart t) ∧ t = point ++ afterFraction t := by
  unfold afterFraction
  by_cases hne : fractionPart t = []
  · rw [if_pos hne, hne]
    exact ⟨[], .absent, rfl⟩
  · rw [if_neg hne]
    cases t with
    | nil => exact absurd rfl hne
    | cons c r =>
      by_cases hc : c = '.'
      · have hpart : fractionPart (c :: r) = r.takeWhile CodePoint.isDigit := if_pos hc
        rw [hpart] at hne ⊢
        refine ⟨c :: r.takeWhile CodePoint.isDigit, ?_, ?_⟩
        · subst hc
          exact .point hne (allDigits_takeWhile r)
        · rw [List.drop_succ_cons, List.cons_append, takeWhile_append_drop]
      · exact absurd (if_neg hc) hne

theorem splitSign_append {sign digits : Text} {negative : Bool} (h : Sign sign negative)
    (hne : digits ≠ []) (hall : AllDigits digits) (r : Text) :
    splitSign (sign ++ (digits ++ r)) = (negative, digits ++ r) := by
  cases h with
  | absent =>
    cases digits with
    | nil => exact absurd rfl hne
    | cons c s =>
      have hc := hall c List.mem_cons_self
      rw [List.nil_append, List.cons_append, splitSign, if_neg (ne_of_isDigit hc (by decide)),
        if_neg (ne_of_isDigit hc (by decide))]
  | plus => rfl
  | minus => rfl

theorem splitSign_sound (t : Text) :
    ∃ sign, Sign sign (splitSign t).1 ∧ t = sign ++ (splitSign t).2 := by
  cases t with
  | nil => exact ⟨[], .absent, rfl⟩
  | cons c r =>
    rw [splitSign]
    split
    · rename_i hc
      subst hc
      exact ⟨_, .minus, rfl⟩
    · split
      · rename_i hc
        subst hc
        exact ⟨_, .plus, rfl⟩
      · exact ⟨[], .absent, rfl⟩

theorem exponentPart?_power {e : CodePoint} {sign digits r : Text} {negative : Bool}
    (he : e = 'e' ∨ e = 'E') (hsign : Sign sign negative) (hne : digits ≠ [])
    (hall : AllDigits digits) (hr : NoDigit r) :
    exponentPart? (e :: (sign ++ digits) ++ r) =
      some (signed negative (digitsValue digits), r) := by
  rw [List.cons_append, List.append_assoc, exponentPart?, if_pos he,
    splitSign_append hsign hne hall]
  simp only [takeWhile_digits hall hr, if_neg hne, List.drop_left]
  rfl

theorem exponentPart?_absent {r : Text} (hr : ∀ c s, r = c :: s → ¬ (c = 'e' ∨ c = 'E')) :
    exponentPart? r = none := by
  cases r with
  | nil => rfl
  | cons c s => exact if_neg (hr c s rfl)

theorem exponentPart?_sound {t r : Text} {e : Int} (h : exponentPart? t = some (e, r)) :
    ∃ power, Exponent power e ∧ power ≠ [] ∧ t = power ++ r := by
  cases t with
  | nil => cases h
  | cons c s =>
    rw [exponentPart?] at h
    split at h
    · rename_i hc
      obtain ⟨sign, hsign, hs⟩ := splitSign_sound s
      dsimp only at h
      split at h
      · cases h
      · rename_i hne
        obtain ⟨he, hr⟩ := Prod.mk.inj (Option.some.inj h)
        refine ⟨c :: (sign ++ (splitSign s).2.takeWhile CodePoint.isDigit), ?_, List.cons_ne_nil _ _,
          ?_⟩
        · rw [← he]
          exact .power hc hsign hne (allDigits_takeWhile _)
        · rw [← hr, List.cons_append, List.append_assoc, takeWhile_append_drop, ← hs]
    · cases h

/-! ## What ends a part -/

theorem NumberEnds.nil : NumberEnds [] := fun _ _ h => by cases h

end Reader

namespace Grammar

open Reader

theorem Exponent.noDigit_append {power r : Text} {e : Int} (h : Exponent power e)
    (hr : NumberEnds r) : NoDigit (power ++ r) ∧ ∀ c s, power ++ r = c :: s → c ≠ '.' := by
  cases h with
  | absent => exact ⟨hr.noDigit, fun c s hs => (hr c s hs).2.1⟩
  | @power e sign digits _ he _ _ _ =>
    constructor
    · refine noDigit_of_ne_nil (c := e) ?_ rfl
      rcases he with rfl | rfl <;> decide
    · intro c s hs
      obtain ⟨rfl, -⟩ := List.cons.inj hs
      rcases he with rfl | rfl <;> decide

theorem Fraction.noDigit_append {point digits r : Text} (h : Fraction point digits)
    (hr : NoDigit r) : NoDigit (point ++ r) := by
  cases h with
  | absent => exact hr
  | point _ _ => exact noDigit_of_ne_nil (c := CodePoint.ofChar '.') (by decide) rfl

end Grammar

namespace Reader

open Grammar

/-! ## Numbers -/

/-- The number without its minus sign. -/
def readUnsigned (negative : Bool) (body : Text) : Option (Number × Text) :=
  let whole := wholePart body
  let rest := body.drop whole.length
  let fraction := fractionPart rest
  if whole = [] then none
  else
    match exponentPart? (afterFraction rest) with
    | some (e, r) =>
      some (.double (.ofDecimal negative ⟨digitsValue (whole ++ fraction), e - fraction.length⟩), r)
    | none =>
      if fraction = [] then
        if whole.length ≤ digitLimit then
          some (.int (signed negative (digitsValue whole)), afterFraction rest)
        else none
      else
        some (.double (.ofDecimal negative ⟨digitsValue (whole ++ fraction), -fraction.length⟩),
          afterFraction rest)

theorem readNumber_eq (t : Text) :
    readNumber t =
      readUnsigned (t.startsWith "-") (if t.startsWith "-" then t.drop 1 else t) := rfl

theorem readNumber_minus (negative : Bool) {w : Text} (hw : Whole w) (r : Text) :
    readNumber (minus negative ++ (w ++ r)) = readUnsigned negative (w ++ r) := by
  obtain ⟨c, s, rfl, hc⟩ := hw.exists_cons
  have hplain : Text.startsWith (c :: s ++ r) "-" = false := by
    have hne : CodePoint.ofChar '-' ≠ c := (ne_of_isDigit hc (by decide)).symm
    show ((CodePoint.ofChar '-' == c) && List.isPrefixOf [] (s ++ r)) = false
    rw [beq_false_of_ne hne, Bool.false_and]
  cases negative with
  | false =>
    show readNumber (c :: s ++ r) = _
    rw [readNumber_eq, hplain]
    rfl
  | true => rfl

theorem readNumber_sound_unsigned {t r : Text} {n : Number} (h : readNumber t = some (n, r)) :
    ∃ negative body, t = minus negative ++ body ∧ readUnsigned negative body = some (n, r) := by
  rw [readNumber_eq] at h
  cases hminus : t.startsWith "-" with
  | false =>
    rw [hminus] at h
    exact ⟨false, t, rfl, h⟩
  | true =>
    rw [hminus] at h
    obtain ⟨s, rfl⟩ := List.isPrefixOf_iff_prefix.1 hminus
    exact ⟨true, s, rfl, h⟩

/-- A number is read where the text after it does not go on with it. -/
theorem readNumber_append {t r : Text} {n : Number} (h : NumberText t n) (hr : NumberEnds r) :
    readNumber (t ++ r) = some (n, r) := by
  cases h with
  | @integer w negative hw hlen =>
    obtain ⟨hfraction, hafter⟩ :=
      fractionPart_append .absent hr.noDigit fun c s hs => (hr c s hs).2.1
    rw [List.nil_append] at hfraction hafter
    have hexponent : exponentPart? r = none :=
      exponentPart?_absent fun c s hs => (hr c s hs).2.2
    rw [List.append_assoc, readNumber_minus negative hw]
    simp only [readUnsigned, wholePart_append hw hr.noDigit, List.drop_left, hfraction, hafter,
      hexponent, if_neg hw.ne_nil, if_pos hlen, if_true]
  | @decimal w point fraction power e negative hw hpoint hpower hne =>
    have hpowerEnds := hpower.noDigit_append hr
    obtain ⟨hfraction, hafter⟩ := fractionPart_append hpoint hpowerEnds.1 hpowerEnds.2
    have hwholeDigit := hpoint.noDigit_append hpowerEnds.1
    rw [List.append_assoc, List.append_assoc, List.append_assoc, readNumber_minus negative hw]
    simp only [readUnsigned, wholePart_append hw hwholeDigit, List.drop_left, hfraction, hafter,
      if_neg hw.ne_nil]
    cases hpower with
    | absent =>
      have hexponent : exponentPart? ([] ++ r) = none :=
        exponentPart?_absent fun c s hs => (hr c s hs).2.2
      have hfractionNe : fraction ≠ [] := by
        cases hpoint with
        | absent => exact absurd rfl hne
        | point hdigits _ => exact hdigits
      rw [hexponent]
      simp only [if_neg hfractionNe, Int.zero_sub]
      rfl
    | power he hsign hdigits hall =>
      rw [exponentPart?_power he hsign hdigits hall hr.noDigit]

/-- Whatever is read as a number is one. -/
theorem readNumber_sound {t r : Text} {n : Number} (h : readNumber t = some (n, r)) :
    ∃ u, t = u ++ r ∧ NumberText u n := by
  obtain ⟨negative, body, ht, hread⟩ := readNumber_sound_unsigned h
  clear h
  subst ht
  unfold readUnsigned at hread
  dsimp only at hread
  split at hread
  · cases hread
  rename_i hwhole
  obtain ⟨hw, hbody⟩ := wholePart_sound hwhole
  obtain ⟨point, hpoint, hrest⟩ := fractionPart_sound (body.drop (wholePart body).length)
  split at hread
  · rename_i e s hexponent
    obtain ⟨power, hpower, hne, hs⟩ := exponentPart?_sound hexponent
    obtain ⟨rfl, rfl⟩ := Prod.mk.inj (Option.some.inj hread)
    refine ⟨_, ?_, .decimal negative hw hpoint hpower fun hnil => hne ?_⟩
    · rw [List.append_assoc, List.append_assoc, List.append_assoc, ← hs, ← hrest, hbody]
    · exact (List.append_eq_nil_iff.1 hnil).2
  · split at hread
    · rename_i hnone
      split at hread
      · rename_i hlen
        obtain ⟨rfl, rfl⟩ := Prod.mk.inj (Option.some.inj hread)
        refine ⟨_, ?_, .integer negative hw hlen⟩
        rw [List.append_assoc, afterFraction, if_pos hnone, hbody]
      · cases hread
    · rename_i hsome
      obtain ⟨rfl, rfl⟩ := Prod.mk.inj (Option.some.inj hread)
      rw [← Int.zero_sub]
      refine ⟨_, ?_, .decimal negative hw hpoint .absent ?_⟩
      · rw [List.append_nil, List.append_assoc, List.append_assoc, ← hrest, hbody]
      · rw [List.append_nil]
        intro hnil
        rw [hnil] at hpoint
        exact hsome hpoint.eq_nil

end Reader

end RequestLine.Json
