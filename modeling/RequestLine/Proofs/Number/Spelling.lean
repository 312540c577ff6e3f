import RequestLine.Json.PlainText
import RequestLine.Proofs.Json.Values
import RequestLine.Proofs.Number.PlainNumbers

/-!
# One number in several spellings

The text of a number in a query or a header depends on the double that is nearest to it. Integers
below `2 ^ 53` are written without any rounding, and this makes no difference: no other decimal that
reads back as such an integer is as short.

* `Magnitude.value_of_reads_nat`: the shortest decimal of an exact integer is the integer.
* `text_int`: an integer is written as the double nearest to it.
* `text_of_nearest`: numbers in a JSON text with the same nearest double are written the same.
-/

namespace RequestLine

open Json.Grammar Json.Reader

/-! ## Exact integers -/

namespace Magnitude

variable {m : Magnitude} {d : Decimal} {n k : Nat}

theorem value_nat (n : Nat) : Decimal.value ⟨n, 0⟩ = n := by
  rw [Decimal.value, zpow_zero, mul_one]

/-- Integers up to `2 ^ 53` are doubles. -/
theorem representable_nat (h : n ≤ 2 ^ 53) : Representable (n * unitsOfOne) where
  below := by
    have hrange : 53 + unitExponent < rangeExponent := by
      rw [unitExponent, rangeExponent]
      decide
    calc n * unitsOfOne ≤ 2 ^ 53 * 2 ^ unitExponent := Nat.mul_le_mul_right _ h
      _ = 2 ^ (53 + unitExponent) := (Nat.pow_add 2 _ _).symm
      _ < 2 ^ rangeExponent := Nat.pow_lt_pow_right (by decide) hrange
  aligned := aligned_mul h unitExponent

theorem reads_nat_iff (h : n ≤ 2 ^ 53) : m.Reads ⟨n, 0⟩ ↔ m.units = n * unitsOfOne := by
  have hself := nearestTo_self (representable_nat h).aligned
  rw [reads_iff, value_nat, ← Nat.cast_mul]
  constructor
  · intro hread
    exact hread.unique hself
  · intro hunits
    rwa [hunits]

theorem eq_of_reads_nat (hm : m.Reads ⟨n, 0⟩) (hk : m.Reads ⟨k, 0⟩) (hn : n ≤ 2 ^ 53)
    (hk53 : k ≤ 2 ^ 53) : n = k := by
  rw [reads_nat_iff hn] at hm
  rw [reads_nat_iff hk53, hm] at hk
  exact Nat.mul_right_cancel unitsOfOne_pos hk

/-- The shortest decimal of an exact integer is the integer. With as many digits nothing else is as
near, and with fewer there is nothing between the integers next to it. -/
theorem value_of_reads_nat (hd : m.IsShortest d) (hn : n ≠ 0) (hlt : n < 2 ^ 53)
    (hread : m.Reads ⟨n, 0⟩) : d.value = n := by
  have hunits := (reads_nat_iff hlt.le).1 hread
  have hm : m.units ≠ 0 := by
    rw [hunits]
    exact Nat.mul_ne_zero hn unitsOfOne_pos.ne'
  have hvalue : m.value = n := by
    have hpos : (unitsOfOne : ℚ) ≠ 0 := Nat.cast_ne_zero.2 unitsOfOne_pos.ne'
    rw [value, hunits, Nat.cast_mul, mul_div_cancel_right₀ _ hpos]
  have hd0 := hd.reads.coefficient_ne_zero hm
  have hpos := Decimal.digitCount_pos hd0
  rcases (hd.fewest _ hread).lt_or_eq with hfewer | hequal
  · have hsize : 10 ^ d.digitCount ≤ n := by
      by_contra hsmall
      have hle := (Decimal.digitCount_le_iff (d := ⟨n, 0⟩) hn hpos).2 ⟨_, rfl, not_le.1 hsmall⟩
      omega
    have hten := Nat.le_self_pow hpos.ne' 10
    obtain ⟨e, he, hcoefficient⟩ := (Decimal.digitCount_le_iff hd0 hpos).1 le_rfl
    have hbelow := Decimal.value_le_or_le (b := n - 1) (g := 0) (by omega) hcoefficient
    have habove := Decimal.value_le_or_le (b := n) (g := 0) (by omega) hcoefficient
    rw [he, Nat.sub_add_cancel (Nat.pos_of_ne_zero hn)] at hbelow
    rw [he] at habove
    rcases hbelow with hbelow | hge
    · have hprev := hd.reads.of_between hread hbelow (Decimal.value_le_iff.2 (Nat.sub_le n 1))
      have := eq_of_reads_nat hprev hread (by omega) hlt.le
      omega
    · rcases habove with hle | habove
      · rw [← value_nat n]
        exact le_antisymm hle hge
      · have hnext := hread.of_between hd.reads (Decimal.value_le_iff.2 (Nat.le_succ n)) habove
        have := eq_of_reads_nat hnext hread (by omega) hlt.le
        omega
  · have hnear := hd.nearest _ hread hequal.symm
    rw [value_nat, hvalue, sub_self, abs_zero, abs_nonpos_iff, sub_eq_zero] at hnear
    exact hnear

end Magnitude

/-- An integer that is written positionally is written with its own digits. -/
theorem writeSignificand_nat {n : Nat} (hn : n ≠ 0) (hlt : n < 10 ^ 21) :
    NumberStyle.plain.writeSignificand (Decimal.significand ⟨n, 0⟩) = decimalDigits n := by
  obtain ⟨z, hz, hpoint⟩ := Decimal.exists_significand ⟨n, 0⟩
  have hproper := Decimal.significand_proper (d := ⟨n, 0⟩) hn
  have hpos := List.length_pos_iff.2 hproper.nonempty
  have hlen := (length_decimalDigits_le_iff (by decide)).2 hlt
  dsimp only at hz hpoint
  rw [hz, List.length_append, Text.replicate, List.length_replicate] at hlen
  have hrange : NumberStyle.plain.lowest ≤ (Decimal.significand ⟨n, 0⟩).point ∧
      (Decimal.significand ⟨n, 0⟩).point ≤ NumberStyle.plain.highest := by
    dsimp only [NumberStyle.plain]
    omega
  have hzeros : (Decimal.significand ⟨n, 0⟩).point.toNat -
      (Decimal.significand ⟨n, 0⟩).digits.length = z := by
    omega
  rw [NumberStyle.writeSignificand, if_pos hrange, NumberStyle.positional, if_neg (by omega)]
  dsimp only
  rw [if_pos (by omega), hzeros, hz]
  exact List.append_nil _

theorem integerText_eq (i : Int) : integerText i = minus (decide (i < 0)) ++ decimalDigits i.natAbs := by
  cases i with
  | ofNat n =>
    have hneg : ¬ Int.ofNat n < 0 := not_lt.2 (Int.natCast_nonneg n)
    rw [decide_eq_false hneg]
    rfl
  | negSucc n =>
    rw [decide_eq_true (Int.negSucc_lt_zero n)]
    rfl

theorem ofInt_zero : Double.ofInt 0 = .zero false := Double.ofDecimal_zero false 0

/-- An integer is written as the double that it is rounded to. -/
theorem text_int (i : Int) : (Number.int i).text = (Number.double (Double.ofInt i)).text := by
  by_cases hlt : i.natAbs < exactIntegerBound
  · by_cases hzero : i = 0
    · rw [hzero, ofInt_zero, text_zero]
      rfl
    · have hn : i.natAbs ≠ 0 := Int.natAbs_ne_zero.2 hzero
      have hbound : i.natAbs < 2 ^ 53 := hlt
      have hm : i.natAbs * unitsOfOne ≠ 0 := Nat.mul_ne_zero hn unitsOfOne_pos.ne'
      generalize hmag : (⟨_, Magnitude.representable_nat hbound.le⟩ : Magnitude) = m
      have hunits : m.units = i.natAbs * unitsOfOne := by rw [← hmag]
      have hread : m.Reads ⟨i.natAbs, 0⟩ := (Magnitude.reads_nat_iff hbound.le).2 hunits
      rw [← hunits] at hm
      have hofInt : Double.ofInt i = .finite (decide (i < 0)) m :=
        Double.ofDecimal_eq_finite_iff.2 hread
      have hshortest := Magnitude.isShortest_shortest hm
      have hvalue := Magnitude.value_of_reads_nat hshortest hn hbound hread
      rw [← Magnitude.value_nat] at hvalue
      rw [Number.text, if_pos hlt, hofInt, text_finite hm, integerText_eq,
        Decimal.significand_congr (Magnitude.shortest_ne_zero hm) hvalue,
        writeSignificand_nat hn (by omega)]
  · rw [Number.text, if_neg hlt]
    rfl

theorem nearest_ofInt (i : Int) :
    Double.Nearest (decide (i < 0)) ((i.natAbs : Nat) : ℚ) (Double.ofInt i) := by
  have hnearest := Double.nearest_ofDecimal (decide (i < 0)) ⟨i.natAbs, 0⟩
  rwa [Magnitude.value_nat] at hnearest

/-! ## Numbers in JSON texts -/

/-- What is read where a text writes a number is the number of the whole text. -/
theorem numberText_of_readNumber {t r s : Text} {negative : Bool} {q : ℚ} {n : Number}
    (h : DecimalText t negative q) (hr : NumberEnds r)
    (hread : readNumber (t ++ r) = some (n, s)) : NumberText t n := by
  have hnumber : ∀ {k}, NumberText t k → NumberText t n := by
    intro k hk
    rw [readNumber_append hk hr] at hread
    obtain ⟨rfl, -⟩ := Prod.mk.inj (Option.some.inj hread)
    exact hk
  obtain @⟨whole, point, fraction, power, e, _, hwhole, hpoint, hpower⟩ := h
  by_cases hne : point ++ power = []
  · by_cases hlen : whole.length ≤ digitLimit
    · apply hnumber
      rw [hne, List.append_nil]
      exact .integer negative hwhole hlen
    · -- an integer with too many digits is not read
      obtain ⟨hfraction, hafter⟩ :=
        fractionPart_append .absent hr.noDigit fun c u hu => (hr c u hu).2.1
      rw [List.nil_append] at hfraction hafter
      have hexponent : exponentPart? r = none :=
        exponentPart?_absent fun c u hu => (hr c u hu).2.2
      rw [hne, List.append_nil, List.append_assoc,
        readNumber_minus negative hwhole] at hread
      simp only [readUnsigned, wholePart_append hwhole hr.noDigit,
        List.drop_left, hfraction, hafter, hexponent, if_neg hwhole.ne_nil, if_neg hlen, if_true]
        at hread
      cases hread
  · exact hnumber (.decimal negative hwhole hpoint hpower hne)

theorem exists_whole_of_decimalText {t : Text} {negative : Bool} {q : ℚ}
    (h : DecimalText t negative q) :
    ∃ whole rest, Whole whole ∧ t = minus negative ++ (whole ++ rest) := by
  cases h with
  | written _ hwhole _ _ => exact ⟨_, _, hwhole, rfl⟩

/-- The value of a text that writes a number is that number. -/
theorem number_of_parse? {d : Json.Dialect} {before t after : Text} {negative : Bool} {q : ℚ}
    {v : Json} (hbefore : Blank before) (hafter : Blank after) (h : DecimalText t negative q)
    (hparse : Json.parse? d (before ++ (t ++ after)) = some v) :
    ∃ n, v = .num n ∧ NumberText t n := by
  have hends : NumberEnds after := by
    simpa using numberEnds_of_blank hafter NumberEnds.nil
  obtain ⟨whole, rest, hwhole, ht⟩ := exists_whole_of_decimalText h
  obtain ⟨c, r, hc, hbegins, -⟩ := exists_begins_of_whole negative hwhole rest
  rw [← ht] at hc
  have hsolid : Solid (t ++ after) := Solid.append ⟨c, r, hc, hbegins.solid⟩ after
  obtain ⟨k, hk⟩ : ∃ k, (before ++ (t ++ after)).length = k + 1 := by
    refine ⟨before.length + (r.length + after.length), ?_⟩
    rw [hc]
    simp only [List.length_append, List.length_cons]
    omega
  have hread : readValue d (k + 1) (minus negative ++ (whole ++ (rest ++ after))) = _ :=
    readValue_number hwhole k (rest ++ after)
  rw [← List.append_assoc whole, ← List.append_assoc (minus negative), ← ht] at hread
  rw [Json.parse?, hk, skipBlank_append hbefore hsolid, hread] at hparse
  cases hnumber : readNumber (t ++ after) with
  | none =>
    rw [hnumber] at hparse
    cases hparse
  | some x =>
    rw [hnumber] at hparse
    refine ⟨x.1, ?_, numberText_of_readNumber h hends hnumber⟩
    simp only [Option.map_some] at hparse
    split at hparse
    · exact (Option.some.inj hparse).symm
    · cases hparse

/-- A number is written as the double nearest to what its text writes. -/
theorem text_of_numberText {t : Text} {n : Number} {negative : Bool} {q : ℚ} {x : Double}
    (h : NumberText t n) (hdecimal : DecimalText t negative q)
    (hnearest : Double.Nearest negative q x) : n.text = (Number.double x).text := by
  cases n with
  | double y =>
    obtain ⟨negative', r, hwritten, -, hy⟩ := numberText_double_iff.1 h
    obtain ⟨rfl, rfl⟩ := hdecimal.unique hwritten
    rw [hnearest.unique hy]
  | int i =>
    obtain ⟨negative', whole, hinteger, -, rfl⟩ := numberText_int_iff.1 h
    obtain ⟨rfl, rfl⟩ := hdecimal.unique hinteger.decimalText
    generalize digitsValue whole = k at hnearest
    by_cases hk : k = 0
    · subst hk
      have hzero := Double.nearest_ofDecimal negative ⟨0, 0⟩
      rw [Magnitude.value_nat, Double.ofDecimal_zero] at hzero
      rw [hnearest.unique hzero, text_zero]
      cases negative <;> rfl
    · have hsign : decide (signed negative k < 0) = negative := by
        cases negative with
        | false => exact decide_eq_false (not_lt.2 (Int.natCast_nonneg k))
        | true => exact decide_eq_true (Int.neg_neg_of_pos (Int.natCast_pos.2 (by omega)))
      have habs : (signed negative k).natAbs = k := by
        cases negative with
        | false => exact Int.natAbs_natCast k
        | true => exact (Int.natAbs_neg _).trans (Int.natAbs_natCast k)
      have hint := nearest_ofInt (signed negative k)
      rw [hsign, habs] at hint
      rw [text_int, hnearest.unique hint]

theorem text_of_isZero {x : Double} (h : x.isZero = true) : (Number.double x).text = "0" := by
  cases x with
  | infinite | nan => cases h
  | finite negative m =>
    obtain rfl := Magnitude.eq_zero (beq_iff_eq.1 h)
    exact text_zero negative

/-- A text with white space around a number, and the double nearest to what the number writes. -/
inductive RoundsTo : Text → Double → Prop
  | framed {before t after : Text} {negative : Bool} {q : ℚ} {x : Double} : Blank before →
      Blank after → DecimalText t negative q → Double.Nearest negative q x →
      RoundsTo (before ++ (t ++ after)) x

theorem RoundsTo.plainText_eq {t : Text} {x : Double} {d : Json.Dialect} {v : Json}
    (h : RoundsTo t x) (hparse : Json.parse? d t = some v) :
    v.plainText = (Number.double x).text := by
  obtain ⟨hbefore, hafter, hdecimal, hnearest⟩ := h
  obtain ⟨n, rfl, hn⟩ := number_of_parse? hbefore hafter hdecimal hparse
  rw [Json.plainText]
  exact text_of_numberText hn hdecimal hnearest

/-- **One number in several spellings.** An integer is written as the double nearest to it. So
number texts that are accepted have the same text in queries and headers if they have the same
nearest double, or zeros of both signs. -/
theorem text_of_nearest :
    (∀ (i : Int) (x : Double), Double.Nearest (decide (i < 0)) |(i : ℚ)| x →
      (Number.int i).text = (Number.double x).text) ∧
      ∀ (t u : Text) (v w : Json) (x y : Double), Json.parse? .strict t = some v →
        Json.parse? .strict u = some w → RoundsTo t x → RoundsTo u y →
        x = y ∨ x.isZero = true ∧ y.isZero = true → v.plainText = w.plainText := by
  constructor
  · intro i x hx
    have hint := nearest_ofInt i
    rw [Nat.cast_natAbs, Int.cast_abs] at hint
    rw [text_int, hx.unique hint]
  · intro t u v w x y ht hu hx hy hsame
    rw [hx.plainText_eq ht, hy.plainText_eq hu]
    rcases hsame with rfl | ⟨hx0, hy0⟩
    · rfl
    · rw [text_of_isZero hx0, text_of_isZero hy0]

/-- An odd integer past `2 ^ 53` is written as its even neighbour. -/
example : (Number.int 9007199254740993).text = "9007199254740992" := by decide +kernel

end RequestLine
