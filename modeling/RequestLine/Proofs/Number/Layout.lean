import RequestLine.Proofs.Json.DecimalTexts
import RequestLine.Proofs.Number.Significand

/-!
# Layouts of numbers

Where the digits of a number stand relative to the point is a matter of style, and the power of ten
makes up for it.

* `Layout`: digits before the point, digits after it, a power of ten.
* `Layout.Tidy`: none of them superfluous.
* `NumberStyle.layout`: the layout that a style gives to a significand, with the text of the style
  (`padded_layout`) and the digits of the significand (`layout_places`).
-/

namespace RequestLine

open Json.Grammar

/-- A number as it is laid out: the digits before the point, those after it, a power of ten. -/
structure Layout where
  whole : Text
  fraction : Text
  power : Option Int

namespace Layout

variable {l : Layout}

def fractionText (l : Layout) : Text :=
  if l.fraction = [] then [] else CodePoint.ofChar '.' :: l.fraction

/-- The mark of a power of ten, with its sign and the digits of its exponent. -/
def powerText (width : Nat) : Option Int → Text
  | none => []
  | some e =>
    (if e < 0 then Text.ofString "e-" else Text.ofString "e+") ++
      NumberStyle.pad width (decimalDigits e.natAbs)

/-- The text of a layout whose exponent has at least `width` digits. -/
def padded (width : Nat) (l : Layout) : Text :=
  l.whole ++ (l.fractionText ++ powerText width l.power)

/-- The text of a layout, with no superfluous digit in the exponent. -/
def text (l : Layout) : Text := l.padded 0

theorem pad_eq_self {width : Nat} {digits : Text} (h : width ≤ digits.length) :
    NumberStyle.pad width digits = digits := by
  rw [NumberStyle.pad, Nat.sub_eq_zero_of_le h]
  rfl

/-- An exponent has a digit anyway. -/
theorem padded_one (l : Layout) : l.padded 1 = l.text := by
  unfold text padded
  cases l.power with
  | none => rfl
  | some e =>
    have hdigits := List.length_pos_iff.2 (decimalDigits_ne_nil e.natAbs)
    rw [powerText, powerText, pad_eq_self hdigits, pad_eq_self (Nat.zero_le _)]

theorem fractionText_eq_nil_iff : l.fractionText = [] ↔ l.fraction = [] := by
  unfold fractionText
  by_cases h : l.fraction = []
  · rw [if_pos h]
    exact iff_of_true rfl h
  · rw [if_neg h]
    exact iff_of_false (List.cons_ne_nil _ _) h

theorem padded_of_fraction (h : l.fraction ≠ []) (width : Nat) :
    l.padded width = l.whole ++ CodePoint.ofChar '.' :: (l.fraction ++ powerText width l.power) := by
  rw [padded, fractionText, if_neg h, List.cons_append]

theorem powerText_eq_nil_iff {width : Nat} {power : Option Int} :
    powerText width power = [] ↔ power = none := by
  cases power with
  | none => exact iff_of_true rfl rfl
  | some e =>
    refine ⟨fun h => ?_, fun h => by cases h⟩
    rw [powerText] at h
    split at h <;> cases h

/-! ## Layouts as texts of the grammar -/

theorem fraction_fractionText (h : AllDigits l.fraction) : Fraction l.fractionText l.fraction := by
  unfold fractionText
  split_ifs with hnil
  · rw [hnil]
    exact .absent
  · exact .point hnil h

theorem signed_natAbs (i : Int) : signed (decide (i < 0)) i.natAbs = i := by
  by_cases hi : i < 0
  · simp only [signed, hi, decide_true, if_true]
    omega
  · simp only [signed, hi, decide_false]
    simp
    omega

theorem exponent_powerText (width : Nat) (power : Option Int) :
    Exponent (powerText width power) (power.getD 0) := by
  cases power with
  | none => exact .absent
  | some e =>
    rw [powerText, Option.getD_some]
    generalize hpad : NumberStyle.pad width (decimalDigits e.natAbs) = digits
    have hall : AllDigits digits := by
      rw [← hpad]
      exact (allDigits_zeros _).append (allDigits_decimalDigits _)
    have hne : digits ≠ [] := by
      rw [← hpad]
      exact fun hnil => decimalDigits_ne_nil _ (List.append_eq_nil_iff.1 hnil).2
    have hvalue : digitsValue digits = e.natAbs := by
      rw [← hpad, NumberStyle.pad, digitsValue_append, digitsValue_zeros, digitsValue_decimalDigits]
      omega
    have hpower := signed_natAbs e
    rw [← hvalue] at hpower
    by_cases hneg : e < 0
    · rw [if_pos hneg]
      rw [decide_eq_true hneg] at hpower
      have htext := Exponent.power (.inl rfl) .minus hne hall
      rwa [hpower] at htext
    · rw [if_neg hneg]
      rw [decide_eq_false hneg] at hpower
      have htext := Exponent.power (.inl rfl) .plus hne hall
      rwa [hpower] at htext

/-- The number that is laid out. -/
def value (l : Layout) : ℚ :=
  digitsValue (l.whole ++ l.fraction) * 10 ^ (l.power.getD 0 - l.fraction.length)

/-- No superfluous zero in front or behind the point, no point without digits after it, and no
power of ten that is one. -/
structure Tidy (l : Layout) : Prop where
  whole : Whole l.whole
  fraction : AllDigits l.fraction
  last : l.fraction.getLast? ≠ some (CodePoint.ofChar '0')
  power : l.power ≠ some 0

theorem Tidy.decimalText (h : l.Tidy) (negative : Bool) :
    DecimalText (minus negative ++ l.text) negative l.value :=
  .written negative h.whole (fraction_fractionText h.fraction) (exponent_powerText 0 l.power)

/-- The layout has the digits of a significand, with zeros around them, and the power of ten makes
up for the place of the point. -/
structure Places (l : Layout) (s : Significand) : Prop where
  whole : Whole l.whole
  fraction : AllDigits l.fraction
  digits : ∃ j : Nat, digitsValue (l.whole ++ l.fraction) = digitsValue s.digits * 10 ^ j ∧
    l.power.getD 0 - l.fraction.length + j = s.point - s.digits.length

theorem Places.value_eq {s : Significand} (h : l.Places s) : l.value = s.value := by
  obtain ⟨j, hdigits, hplace⟩ := h.digits
  unfold value Significand.value
  rw [hdigits, ← hplace, ten_zpow_add, zpow_natCast]
  push_cast
  ring

end Layout

/-! ## The layouts of the styles -/

namespace NumberStyle

variable {s : Significand}

/-- The number of zeros that a style puts behind the point of a single digit. -/
def mantissaZeros (style : NumberStyle) (s : Significand) : Nat :=
  if 1 < s.digits.length then 0 else style.mantissaFraction.toNat

/-- The layout that a style gives to a significand. -/
def layout (style : NumberStyle) (s : Significand) : Layout :=
  if style.lowest ≤ s.point ∧ s.point ≤ style.highest then
    if s.point ≤ 0 then
      ⟨[CodePoint.ofChar '0'], Text.replicate s.point.natAbs '0' ++ s.digits, none⟩
    else if s.digits.length ≤ s.point.toNat then
      ⟨s.digits ++ Text.replicate (s.point.toNat - s.digits.length) '0',
        Text.replicate style.wholeFraction.toNat '0', none⟩
    else ⟨s.digits.take s.point.toNat, s.digits.drop s.point.toNat, none⟩
  else
    ⟨s.digits.take 1, s.digits.drop 1 ++ Text.replicate (style.mantissaZeros s) '0',
      some (s.point - 1)⟩

/-- A layout has one of four shapes: all digits behind the point, all before it, some on either
side, or a power of ten behind the first. -/
@[elab_as_elim]
theorem layout_cases {motive : Layout → Prop} (style : NumberStyle) (s : Significand)
    (small : s.point ≤ 0 →
      motive ⟨[CodePoint.ofChar '0'], Text.replicate s.point.natAbs '0' ++ s.digits, none⟩)
    (large : 0 < s.point → s.digits.length ≤ s.point.toNat →
      motive ⟨s.digits ++ Text.replicate (s.point.toNat - s.digits.length) '0',
        Text.replicate style.wholeFraction.toNat '0', none⟩)
    (between : 0 < s.point → s.point.toNat < s.digits.length →
      motive ⟨s.digits.take s.point.toNat, s.digits.drop s.point.toNat, none⟩)
    (scientific : motive ⟨s.digits.take 1,
      s.digits.drop 1 ++ Text.replicate (style.mantissaZeros s) '0', some (s.point - 1)⟩) :
    motive (style.layout s) := by
  unfold layout
  split_ifs with hrange hpoint hlen
  · exact small hpoint
  · exact large (not_le.1 hpoint) hlen
  · exact between (not_le.1 hpoint) (not_le.1 hlen)
  · exact scientific

theorem layout_scientific {style : NumberStyle}
    (hrange : ¬ (style.lowest ≤ s.point ∧ s.point ≤ style.highest)) : style.layout s =
      ⟨s.digits.take 1, s.digits.drop 1 ++ Text.replicate (style.mantissaZeros s) '0',
        some (s.point - 1)⟩ :=
  if_neg hrange

/-- A significand is written as its layout. -/
theorem padded_layout (style : NumberStyle) (hs : s.Proper) :
    (style.layout s).padded style.exponentWidth = style.writeSignificand s := by
  unfold layout writeSignificand
  by_cases hrange : style.lowest ≤ s.point ∧ s.point ≤ style.highest
  · rw [if_pos hrange, if_pos hrange]
    unfold positional
    by_cases hpoint : s.point ≤ 0
    · have hne := List.append_ne_nil_of_right_ne_nil (Text.replicate s.point.natAbs '0') hs.nonempty
      rw [if_pos hpoint, if_pos hpoint, Layout.padded_of_fraction hne, Layout.powerText,
        List.append_nil, List.append_assoc]
      rfl
    · rw [if_neg hpoint, if_neg hpoint]
      dsimp only
      by_cases hlen : s.digits.length ≤ s.point.toNat
      · rw [if_pos hlen, if_pos hlen]
        cases style.wholeFraction <;> rfl
      · have hne : s.digits.drop s.point.toNat ≠ [] := mt List.drop_eq_nil_iff.1 hlen
        rw [if_neg hlen, if_neg hlen, Layout.padded_of_fraction hne, Layout.powerText,
          List.append_nil, List.append_assoc]
        rfl
  · rw [if_neg hrange, if_neg hrange]
    unfold scientific mantissaZeros
    dsimp only
    by_cases hlen : 1 < s.digits.length
    · have hne : s.digits.drop 1 ≠ [] := mt List.drop_eq_nil_iff.1 (Nat.not_le.2 hlen)
      rw [if_pos hlen, if_pos hlen, Text.replicate, List.replicate_zero, List.append_nil,
        Layout.padded_of_fraction hne, List.append_assoc, List.append_assoc]
      rfl
    · have hnil : s.digits.drop 1 = [] := List.drop_eq_nil_iff.2 (by omega)
      rw [if_neg hlen, if_neg hlen, hnil, List.append_assoc, List.append_assoc]
      cases style.mantissaFraction <;> rfl

/-- Every style shows the digits in their place. -/
theorem layout_places (style : NumberStyle) (hs : s.Proper) : (style.layout s).Places s := by
  have hpos := List.length_pos_iff.2 hs.nonempty
  refine style.layout_cases s (fun hpoint => ?_) (fun hpoint hlen => ?_) (fun hpoint hlen => ?_) ?_
  · refine ⟨.zero, (allDigits_zeros _).append hs.digits, 0, ?_, ?_⟩
    · rw [List.singleton_append, digitsValue_shifted, Nat.pow_zero, Nat.mul_one]
    · simp only [Option.getD_none, List.length_append, Text.replicate, List.length_replicate]
      omega
  · refine ⟨hs.whole_append (allDigits_zeros _), allDigits_zeros _,
      s.point.toNat - s.digits.length + style.wholeFraction.toNat, ?_, ?_⟩
    · rw [digitsValue_padded, digitsValue_padded, Nat.mul_assoc, ← Nat.pow_add]
    · simp only [Option.getD_none, Text.replicate, List.length_replicate]
      omega
  · refine ⟨hs.whole_take (by omega), hs.drop _, 0, ?_, ?_⟩
    · rw [List.take_append_drop, Nat.pow_zero, Nat.mul_one]
    · simp only [Option.getD_none, List.length_drop]
      omega
  · refine ⟨hs.whole_take Nat.one_pos, (hs.drop 1).append (allDigits_zeros _),
      style.mantissaZeros s, ?_, ?_⟩
    · rw [← List.append_assoc, List.take_append_drop, digitsValue_padded]
    · simp only [Option.getD_some, List.length_append, List.length_drop, Text.replicate,
        List.length_replicate]
      omega

theorem layout_power_eq_none_iff {style : NumberStyle} :
    (style.layout s).power = none ↔ style.lowest ≤ s.point ∧ s.point ≤ style.highest := by
  unfold layout
  by_cases hrange : style.lowest ≤ s.point ∧ s.point ≤ style.highest
  · rw [if_pos hrange]
    refine ⟨fun _ => hrange, fun _ => ?_⟩
    split_ifs <;> rfl
  · rw [if_neg hrange]
    refine ⟨fun h => ?_, fun h => absurd h hrange⟩
    cases h

/-- Where a whole number keeps a digit after the point, every positional form has one. -/
theorem layout_fraction_ne_nil {style : NumberStyle} (hstyle : style.wholeFraction = true)
    (hs : s.Proper) : (style.layout s).power = none → (style.layout s).fraction ≠ [] := by
  refine style.layout_cases s (fun _ _ => ?_) (fun _ _ _ => ?_) (fun _ hlen _ => ?_) fun h => ?_
  · exact List.append_ne_nil_of_right_ne_nil _ hs.nonempty
  · rw [hstyle]
    exact List.cons_ne_nil _ _
  · exact mt List.drop_eq_nil_iff.1 (not_le.2 hlen)
  · cases h

end NumberStyle

end RequestLine
