import RequestLine.Proofs.Json.Numbers
import RequestLine.Proofs.Number.Nearest

/-!
# The numbers that texts write

* `DecimalText`: a text with its sign and the number that it writes, exactly.
* `DecimalText.unique`: a text writes one number.
* `numberText_double_iff`: a number with a fraction or an exponent is the double nearest to what its
  text writes.
-/

namespace RequestLine.Json.Grammar

open Reader

/-- A number as its text writes it: the sign, true for minus, and the number without it. -/
inductive DecimalText : Text → Bool → ℚ → Prop
  | written {whole point fraction power : Text} {e : Int} (negative : Bool) : Whole whole →
      Fraction point fraction → Exponent power e →
      DecimalText (minus negative ++ (whole ++ (point ++ power))) negative
        (digitsValue (whole ++ fraction) * 10 ^ (e - fraction.length))

theorem DecimalText.isNumeral {t : Text} {negative : Bool} {q : ℚ}
    (h : DecimalText t negative q) : ∀ c ∈ t, IsNumeral c := by
  cases h with
  | written _ hwhole hpoint hpower => exact isNumeral_of_parts negative hwhole hpoint hpower

/-- A number without a fraction and an exponent. -/
def IntegerText (t : Text) (negative : Bool) (whole : Text) : Prop :=
  Whole whole ∧ t = minus negative ++ whole

theorem minus_append_inj {a b : Bool} {w v r s : Text} (hw : Whole w) (hv : Whole v)
    (h : minus a ++ (w ++ r) = minus b ++ (v ++ s)) : a = b ∧ w ++ r = v ++ s := by
  obtain ⟨c, w, rfl, hc⟩ := hw.exists_cons
  obtain ⟨d, v, rfl, hd⟩ := hv.exists_cons
  cases a with
  | false =>
    cases b with
    | false => exact ⟨rfl, h⟩
    | true =>
      obtain ⟨rfl, -⟩ := List.cons.inj h
      exact absurd hc (by decide)
  | true =>
    cases b with
    | false =>
      obtain ⟨rfl, -⟩ := List.cons.inj h
      exact absurd hd (by decide)
    | true => exact ⟨rfl, (List.cons.inj h).2⟩

theorem whole_append_inj {w v r s : Text} (hw : Whole w) (hv : Whole v) (hr : NoDigit r)
    (hs : NoDigit s) (h : w ++ r = v ++ s) : w = v ∧ r = s := by
  have hwhole := wholePart_append hw hr
  rw [h, wholePart_append hv hs] at hwhole
  subst hwhole
  exact ⟨rfl, List.append_cancel_left h⟩

theorem Exponent.unique {power : Text} {e f : Int} (h : Exponent power e) (h' : Exponent power f) :
    e = f := by
  cases h with
  | absent =>
    cases h'
    rfl
  | power he hsign hne hall =>
    have hread := exponentPart?_power he hsign hne hall NumberEnds.nil.noDigit
    generalize htext : _ :: (_ ++ _) = power at h' hread
    cases h' with
    | absent => cases htext
    | power he' hsign' hne' hall' =>
      rw [exponentPart?_power he' hsign' hne' hall' NumberEnds.nil.noDigit] at hread
      exact (Prod.mk.inj (Option.some.inj hread)).1.symm

/-- A text writes one number. -/
theorem DecimalText.unique {t : Text} {a b : Bool} {q r : ℚ} (h : DecimalText t a q)
    (h' : DecimalText t b r) : a = b ∧ q = r := by
  obtain @⟨whole, point, fraction, power, e, _, hwhole, hpoint, hpower⟩ := h
  generalize htext : minus a ++ (whole ++ (point ++ power)) = t at h'
  obtain @⟨whole', point', fraction', power', e', _, hwhole', hpoint', hpower'⟩ := h'
  obtain ⟨hsign, hdigits⟩ := minus_append_inj hwhole hwhole' htext
  have hends := hpower.noDigit_append NumberEnds.nil
  have hends' := hpower'.noDigit_append NumberEnds.nil
  rw [List.append_nil] at hends hends'
  obtain ⟨rfl, hrest⟩ := whole_append_inj hwhole hwhole' (hpoint.noDigit_append hends.1)
    (hpoint'.noDigit_append hends'.1) hdigits
  have hparts := fractionPart_append hpoint hends.1 hends.2
  rw [hrest] at hparts
  obtain ⟨hfraction, hafter⟩ := fractionPart_append hpoint' hends'.1 hends'.2
  rw [hfraction, hafter] at hparts
  obtain ⟨rfl, rfl⟩ := hparts
  rw [hpower.unique hpower']
  exact ⟨hsign, rfl⟩

theorem IntegerText.decimalText {t whole : Text} {negative : Bool}
    (h : IntegerText t negative whole) : DecimalText t negative (digitsValue whole) := by
  obtain ⟨hwhole, rfl⟩ := h
  have htext := DecimalText.written negative hwhole .absent .absent
  simpa using htext

/-- A number with a fraction or an exponent is the double nearest to what its text writes. -/
theorem numberText_double_iff {t : Text} {x : Double} : NumberText t (.double x) ↔
    ∃ negative q, DecimalText t negative q ∧ (∀ whole, ¬ IntegerText t negative whole) ∧
      Double.Nearest negative q x := by
  constructor
  · intro h
    cases h with
    | @decimal whole point fraction power e negative hwhole hpoint hpower hne =>
      refine ⟨negative, _, .written negative hwhole hpoint hpower, ?_,
        Double.nearest_ofDecimal negative ⟨digitsValue (whole ++ fraction), e - fraction.length⟩⟩
      rintro other ⟨hother, htext⟩
      rw [← List.append_nil other] at htext
      obtain ⟨-, hrest⟩ := minus_append_inj hwhole hother htext
      have hends := hpower.noDigit_append NumberEnds.nil
      rw [List.append_nil] at hends
      exact hne (whole_append_inj hwhole hother (hpoint.noDigit_append hends.1)
        NumberEnds.nil.noDigit hrest).2
  · rintro ⟨negative, q, ⟨_, hwhole, hpoint, hpower⟩, hno, hnearest⟩
    obtain rfl := hnearest.unique (Double.nearest_ofDecimal negative ⟨_, _⟩)
    refine .decimal negative hwhole hpoint hpower fun hnil => hno _ ⟨hwhole, ?_⟩
    rw [hnil, List.append_nil]

theorem numberText_int_iff {t : Text} {i : Int} : NumberText t (.int i) ↔
    ∃ negative whole, IntegerText t negative whole ∧ whole.length ≤ digitLimit ∧
      i = signed negative (digitsValue whole) := by
  constructor
  · intro h
    cases h with
    | integer negative hwhole hlen => exact ⟨negative, _, ⟨hwhole, rfl⟩, hlen, rfl⟩
  · rintro ⟨negative, whole, ⟨hwhole, rfl⟩, hlen, rfl⟩
    exact .integer negative hwhole hlen

end RequestLine.Json.Grammar
