import RequestLine.Proofs.Json.WrittenNumbers
import RequestLine.Proofs.Number.Shortest

/-!
# Numbers in queries and headers

Inside a query or a header the double `0.d₁ … dₖ * 10 ^ n` is written with its shortest digits:
positionally if the point lies within 21 places, with a power of ten otherwise.

* `Significand.LaidOut`: the layout that a significand has to get.
* `Magnitude.IsShortest.ten_pow_le_iff`: the digits pass a power of ten where the double passes the
  double of it.
* `text_double`: the text of every double, and that it tells finite doubles apart.
-/

namespace RequestLine

open Json.Grammar

/-! ## The layout of a significand -/

namespace Significand

variable {s : Significand}

/-- The layout that a significand gets: the same number, and a power of ten only outside the range
of the positional form. -/
structure LaidOut (s : Significand) (l : Layout) : Prop where
  tidy : l.Tidy
  value : l.value = s.value
  positional : l.power = none ↔ -5 ≤ s.point ∧ s.point ≤ 21
  scientific : ∀ e, l.power = some e →
    e = s.point - 1 ∧ l.whole = s.digits.take 1 ∧ l.fraction = s.digits.drop 1

theorem getLast?_drop_ne (hlast : s.digits.getLast? ≠ some (CodePoint.ofChar '0')) (k : Nat) :
    (s.digits.drop k).getLast? ≠ some (CodePoint.ofChar '0') := by
  rw [List.getLast?_drop]
  split_ifs
  · exact fun h => by cases h
  · exact hlast

theorem mantissaZeros_plain : NumberStyle.plain.mantissaZeros s = 0 := by
  unfold NumberStyle.mantissaZeros
  split_ifs <;> rfl

theorem getLast?_fraction_ne (hs : s.Proper)
    (hlast : s.digits.getLast? ≠ some (CodePoint.ofChar '0')) :
    (NumberStyle.plain.layout s).fraction.getLast? ≠ some (CodePoint.ofChar '0') := by
  refine NumberStyle.plain.layout_cases s (fun _ => ?_) (fun _ _ h => ?_) (fun _ _ => ?_) ?_
  · rw [List.getLast?_append_of_ne_nil _ hs.nonempty]
    exact hlast
  · cases h
  · exact getLast?_drop_ne hlast _
  · rw [mantissaZeros_plain, Text.replicate, List.replicate_zero, List.append_nil]
    exact getLast?_drop_ne hlast 1

/-- A power of ten is laid out only outside the positional range, behind all digits but one. -/
theorem layout_of_power {e : Int} (he : (NumberStyle.plain.layout s).power = some e) :
    ¬ (-5 ≤ s.point ∧ s.point ≤ 21) ∧ e = s.point - 1 ∧
      (NumberStyle.plain.layout s).whole = s.digits.take 1 ∧
      (NumberStyle.plain.layout s).fraction = s.digits.drop 1 := by
  have hrange : ¬ (-5 ≤ s.point ∧ s.point ≤ 21) := by
    intro h
    rw [NumberStyle.layout_power_eq_none_iff.2 h] at he
    cases he
  have hlayout := @NumberStyle.layout_scientific s .plain hrange
  rw [mantissaZeros_plain, Text.replicate, List.replicate_zero, List.append_nil] at hlayout
  rw [hlayout] at he ⊢
  exact ⟨hrange, (Option.some.inj he).symm, rfl, rfl⟩

theorem laidOut_layout (hs : s.Proper)
    (hlast : s.digits.getLast? ≠ some (CodePoint.ofChar '0')) :
    s.LaidOut (NumberStyle.plain.layout s) where
  tidy := by
    have hplaces := NumberStyle.plain.layout_places hs
    refine ⟨hplaces.whole, hplaces.fraction, getLast?_fraction_ne hs hlast, fun hpower => ?_⟩
    obtain ⟨hrange, hpoint, -⟩ := layout_of_power hpower
    omega
  value := (NumberStyle.plain.layout_places hs).value_eq
  positional := NumberStyle.layout_power_eq_none_iff
  scientific _ he := (layout_of_power he).2

/-- A significand is written as the layout that it has to get. -/
theorem exists_laidOut (hs : s.Proper)
    (hlast : s.digits.getLast? ≠ some (CodePoint.ofChar '0')) :
    ∃ l, s.LaidOut l ∧ NumberStyle.plain.writeSignificand s = l.text := by
  refine ⟨_, laidOut_layout hs hlast, ?_⟩
  rw [← NumberStyle.padded_layout _ hs]
  exact Layout.padded_one _

end Significand

/-! ## The range of the positional form -/

namespace Magnitude

variable {m p : Magnitude}

theorem value_le_iff : p.value ≤ m.value ↔ p.units ≤ m.units := by
  have hunits : (0 : ℚ) < unitsOfOne := by exact_mod_cast unitsOfOne_pos
  unfold value
  rw [div_le_div_iff_of_pos_right hunits, Nat.cast_le]

theorem eq_of_units_eq (h : p.units = m.units) : p = m := by
  obtain ⟨units, _⟩ := p
  obtain ⟨units', _⟩ := m
  dsimp only at h
  subst h
  rfl

/-- The shortest digits pass a power of ten where the magnitude passes the one of that power. Only
for the latter itself this needs a look at the digits: nine times the power below is another
magnitude, so the power is written with its own digit. -/
theorem IsShortest.ten_pow_le_iff {d : Decimal} {k : Int} (hd : m.IsShortest d)
    (hm : m.units ≠ 0) (hp : p.Reads ⟨1, k⟩) (hnine : ¬ p.Reads ⟨9, k - 1⟩) :
    10 ^ k ≤ d.value ↔ p.value ≤ m.value := by
  have hpower : Decimal.value ⟨1, k⟩ = 10 ^ k := by
    rw [Decimal.value, Nat.cast_one, one_mul]
  have hten : Decimal.value ⟨10, k - 1⟩ = Decimal.value ⟨1, k⟩ := by
    have hshift := Decimal.value_shift 1 1 (k - 1)
    rwa [Nat.cast_one, sub_add_cancel] at hshift
  rw [value_le_iff, ← hpower]
  constructor
  · intro hle
    exact Double.units_le_of_value_le hp hd.reads hle
  · intro hle
    by_contra hlt
    have hlt := not_le.1 hlt
    obtain rfl := eq_of_units_eq (le_antisymm hle (Double.units_le_of_value_le hd.reads hp hlt.le))
    have hone : Decimal.digitCount ⟨1, k⟩ ≤ 1 :=
      (Decimal.digitCount_le_iff Nat.one_ne_zero Nat.one_pos).2 ⟨_, rfl, Nat.one_lt_pow one_ne_zero
        (by decide)⟩
    have hcount := (hd.fewest _ hp).trans hone
    obtain ⟨e, hvalue, he⟩ :=
      (Decimal.digitCount_le_iff (hd.reads.coefficient_ne_zero hm) Nat.one_pos).1 hcount
    rcases Decimal.value_le_or_le (b := 9) (g := k - 1) (by decide) he with hbelow | habove
    · apply hnine
      rw [hvalue] at hbelow
      have hnext : Decimal.value ⟨9, k - 1⟩ ≤ Decimal.value ⟨1, k⟩ := by
        rw [← hten, Decimal.value_le_iff]
        decide
      exact hd.reads.of_between hp hbelow hnext
    · rw [hvalue, hten] at habove
      exact absurd habove (not_le.2 hlt)

/-- The digits `s` are those of a shortest decimal that reads back as `m`, with no zero at either
end. -/
structure Shows (m : Magnitude) (s : Significand) : Prop where
  shortest : ∃ d, m.IsShortest d ∧ d.value = s.value
  proper : s.Proper
  last : s.digits.getLast? ≠ some (CodePoint.ofChar '0')

theorem shows_significand (hm : m.units ≠ 0) : m.Shows m.shortest.significand where
  shortest := ⟨m.shortest, isShortest_shortest hm, m.shortest.value_significand.symm⟩
  proper := Decimal.significand_proper (shortest_ne_zero hm)
  last := m.shortest.getLast?_significand

theorem Shows.lt_point_iff {s : Significand} {k : Int} (hs : m.Shows s) (hm : m.units ≠ 0)
    (hp : p.Reads ⟨1, k⟩) (hnine : ¬ p.Reads ⟨9, k - 1⟩) : k < s.point ↔ p.value ≤ m.value := by
  obtain ⟨d, hd, hvalue⟩ := hs.shortest
  rw [← hs.proper.ten_pow_le_iff, ← hvalue, hd.ten_pow_le_iff hm hp hnine]

theorem exists_reads {d : Decimal} (h : (Double.ofDecimal false d).isFinite = true) :
    ∃ p : Magnitude, p.Reads d := by
  have hnearest := Double.nearest_ofDecimal false d
  generalize hread : Double.ofDecimal false d = x at h hnearest
  cases hnearest with
  | finite => exact ⟨_, hread⟩
  | infinite => cases h

theorem Reads.not_reads {d e : Decimal} (h : p.Reads d)
    (hne : Double.ofDecimal false e ≠ Double.ofDecimal false d) : ¬ p.Reads e :=
  fun he => hne (he.trans h.symm)

/-- The positional form is for the doubles from the one nearest to `10 ^ -6` up to the one nearest
to `10 ^ 21`, without the latter. -/
theorem Shows.positional_iff {s : Significand} (hs : m.Shows s) (hm : m.units ≠ 0) :
    -5 ≤ s.point ∧ s.point ≤ 21 ↔ ∃ low high : Magnitude, low.Reads ⟨1, -6⟩ ∧ high.Reads ⟨1, 21⟩ ∧
      low.value ≤ m.value ∧ m.value < high.value := by
  have hlow : ∀ {low : Magnitude}, low.Reads ⟨1, -6⟩ → (-6 < s.point ↔ low.value ≤ m.value) :=
    fun hp => hs.lt_point_iff hm hp (hp.not_reads (by decide +kernel))
  have hhigh : ∀ {high : Magnitude}, high.Reads ⟨1, 21⟩ → (21 < s.point ↔ high.value ≤ m.value) :=
    fun hp => hs.lt_point_iff hm hp (hp.not_reads (by decide +kernel))
  constructor
  · rintro ⟨hle, hge⟩
    obtain ⟨low, hl⟩ := exists_reads (d := ⟨1, -6⟩) (by decide +kernel)
    obtain ⟨high, hh⟩ := exists_reads (d := ⟨1, 21⟩) (by decide +kernel)
    refine ⟨low, high, hl, hh, (hlow hl).1 (by omega), ?_⟩
    rw [← not_le, ← hhigh hh]
    omega
  · rintro ⟨low, high, hl, hh, hle, hlt⟩
    rw [← hlow hl] at hle
    rw [← not_le, ← hhigh hh] at hlt
    omega

end Magnitude

/-! ## The text of a double -/

/-- The number that a finite double stands for. -/
def Double.value : Double → ℚ
  | .finite negative m => if negative then -m.value else m.value
  | .infinite _ | .nan => 0

section

variable {m : Magnitude}

theorem text_finite (hm : m.units ≠ 0) (negative : Bool) :
    (Number.double (.finite negative m)).text =
      minus negative ++ NumberStyle.plain.writeSignificand m.shortest.significand := by
  rw [Number.text, NumberStyle.write, if_neg hm]
  cases negative <;> rfl

theorem exists_layout (hm : m.units ≠ 0) : ∃ s l, m.Shows s ∧ s.LaidOut l ∧ ∀ negative,
    (Number.double (.finite negative m)).text = minus negative ++ l.text ∧
      DecimalText (minus negative ++ l.text) negative s.value := by
  have hshows := m.shows_significand hm
  obtain ⟨l, hl, htext⟩ := Significand.exists_laidOut hshows.proper hshows.last
  refine ⟨_, l, hshows, hl, fun negative => ⟨?_, ?_⟩⟩
  · rw [text_finite hm, htext]
  · rw [← hl.value]
    exact hl.tidy.decimalText negative

theorem text_zero (negative : Bool) : (Number.double (.zero negative)).text = "0" := by
  cases negative <;> rfl

/-- The text of a finite double writes a number that reads back as its magnitude, with the sign of
a double other than zero. -/
theorem exists_decimalText (negative : Bool) (m : Magnitude) : ∃ q,
    DecimalText (Number.double (.finite negative m)).text (negative && decide (m.units ≠ 0)) q ∧
      NearestTo (q * unitsOfOne) m.units := by
  by_cases hm : m.units = 0
  · obtain rfl := Magnitude.eq_zero hm
    refine ⟨(digitsValue (Text.ofString "0") : Nat), ?_, ?_⟩
    · have hzero : (negative && decide (Magnitude.zero.units ≠ 0)) = false := by
        rw [Bool.and_eq_false_iff]
        exact .inr rfl
      rw [hzero]
      change DecimalText (Number.double (.zero negative)).text false _
      rw [text_zero]
      exact IntegerText.decimalText ⟨.zero, rfl⟩
    · have hvalue : digitsValue (Text.ofString "0") = 0 := by decide
      rw [hvalue, Nat.cast_zero, zero_mul]
      exact_mod_cast nearestTo_self Magnitude.representable_zero.aligned
  · obtain ⟨s, l, hshows, -, htext⟩ := exists_layout hm
    obtain ⟨d, hd, hvalue⟩ := hshows.shortest
    obtain ⟨hwritten, hdecimal⟩ := htext negative
    refine ⟨s.value, ?_, ?_⟩
    · rw [hwritten, decide_eq_true hm, Bool.and_true]
      exact hdecimal
    · rw [← hvalue]
      exact Magnitude.reads_iff.1 hd.reads

theorem value_eq_of_text_eq {x y : Double} (hx : x.isFinite = true) (hy : y.isFinite = true)
    (h : (Number.double x).text = (Number.double y).text) : x.value = y.value := by
  cases x with
  | infinite | nan => cases hx
  | finite a m =>
    cases y with
    | infinite | nan => cases hy
    | finite b n =>
      obtain ⟨q, hq, hm⟩ := exists_decimalText a m
      obtain ⟨r, hr, hn⟩ := exists_decimalText b n
      rw [h] at hq
      obtain ⟨hsign, rfl⟩ := hq.unique hr
      obtain rfl := Magnitude.eq_of_units_eq (hm.unique hn)
      by_cases hzero : m.units = 0
      · have hvalue : m.value = 0 := by
          rw [Magnitude.value, hzero, Nat.cast_zero, zero_div]
        cases a <;> cases b <;> simp [Double.value, hvalue]
      · rw [decide_eq_true hzero, Bool.and_true, Bool.and_true] at hsign
        rw [hsign]

end

/-- **Numbers in queries and headers.** A finite double other than zero is laid out with the digits
of its shortest decimal, positionally in the range from `10 ^ -6` up to `10 ^ 21`, and its text
writes exactly the number of these digits; zeros and infinities have fixed texts. So texts tell
different numbers apart. -/
theorem text_double :
    (∀ m : Magnitude, m.units ≠ 0 → ∃ s l, m.Shows s ∧ s.LaidOut l ∧ ∀ negative,
      (Number.double (.finite negative m)).text = minus negative ++ l.text ∧
        DecimalText (minus negative ++ l.text) negative s.value) ∧
      (∀ (m : Magnitude) (s : Significand), m.units ≠ 0 → m.Shows s →
        (-5 ≤ s.point ∧ s.point ≤ 21 ↔ ∃ low high : Magnitude, low.Reads ⟨1, -6⟩ ∧
          high.Reads ⟨1, 21⟩ ∧ low.value ≤ m.value ∧ m.value < high.value)) ∧
      (∀ negative, (Number.double (.zero negative)).text = "0") ∧
      (∀ negative, (Number.double (.infinite negative)).text = minus negative ++ "Infinity") ∧
      ∀ x y : Double, x.isFinite = true → y.isFinite = true →
        (Number.double x).text = (Number.double y).text → x.value = y.value := by
  refine ⟨fun m hm => exists_layout hm, fun m s hm hs => hs.positional_iff hm, text_zero, ?_,
    fun x y => value_eq_of_text_eq⟩
  intro negative
  cases negative <;> rfl

/-- The positional form ends before `10 ^ 21`. -/
example : (Number.double (.ofDecimal true ⟨1, 21⟩)).text = "-1e+21" := by decide +kernel

end RequestLine
