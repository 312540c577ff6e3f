import Mathlib.Algebra.Order.Group.Pointwise.Interval
import RequestLine.Proofs.Number.Significand

/-!
# Shortest decimals

Among the decimals that read back as a magnitude the shortest one has the fewest significant digits
and, of those with as many, lies nearest.

* `Magnitude.IsShortest`: what this means, without a search.
* `Decimal.value_le_or_le`: no decimal of so many digits lies between two neighbours on their grid.
* `Magnitude.exists_onGrid`: seventeen digits are enough.
* `Magnitude.isShortest_shortest`: the search finds the shortest decimal.
-/

namespace RequestLine

/-! ## Decimals on one grid -/

namespace Decimal

variable {a b : Nat} {g : Int}

theorem value_le_iff : value ⟨a, g⟩ ≤ value ⟨b, g⟩ ↔ a ≤ b := by
  have hpos : (0 : ℚ) < 10 ^ g := zpow_pos (by norm_num) g
  unfold value
  rw [mul_le_mul_iff_left₀ hpos, Nat.cast_le]

/-- A decimal of at most `j` digits does not lie between neighbours that need as many. -/
theorem value_le_or_le {e : Decimal} {j : Nat} (hb : 10 ^ j ≤ b * 10) (he : e.coefficient < 10 ^ j) :
    e.value ≤ value ⟨b, g⟩ ∨ value ⟨b + 1, g⟩ ≤ e.value := by
  obtain ⟨c, a⟩ := e
  dsimp only at he
  rcases le_or_gt g a with hle | hlt
  · obtain ⟨k, rfl⟩ := Int.le.dest hle
    rw [← value_shift, value_le_iff, value_le_iff]
    omega
  · left
    obtain ⟨k, rfl⟩ := Int.le.dest hlt.le
    have hk : k ≠ 0 := by omega
    rw [← value_shift, value_le_iff]
    calc c ≤ b * 10 := (he.trans_le hb).le
      _ ≤ b * 10 ^ k := Nat.mul_le_mul_left b (Nat.le_self_pow hk 10)

end Decimal

/-! ## Reading back -/

theorem exists_nearestTo {q : ℚ} (hq : 0 ≤ q) : ∃ u, NearestTo q u := by
  refine ⟨nearestUnits q.num.toNat q.den, ?_⟩
  have hnearest := nearestTo_nearestUnits q.num.toNat q.den_pos
  have hnum : ((q.num.toNat : Nat) : ℚ) = (q.num : ℚ) := by
    exact_mod_cast Int.toNat_of_nonneg (Rat.num_nonneg.2 hq)
  rwa [hnum, Rat.num_div_den] at hnearest

/-- What lies between two numbers with the same nearest units has these, too. -/
theorem NearestTo.of_between {q q₁ q₂ : ℚ} {u : Nat} (h₁ : NearestTo q₁ u) (h₂ : NearestTo q₂ u)
    (hq : 0 ≤ q) (hle₁ : q₁ ≤ q) (hle₂ : q ≤ q₂) : NearestTo q u := by
  obtain ⟨v, hv⟩ := exists_nearestTo hq
  have huv : u = v := le_antisymm (h₁.le_of_le hv hle₁) (hv.le_of_le h₂ hle₂)
  rwa [huv]

namespace Magnitude

variable {m : Magnitude} {d e : Decimal} {cut j : Nat}

/-- The decimal reads back as the magnitude. -/
def Reads (m : Magnitude) (d : Decimal) : Prop := Double.ofDecimal false d = .finite false m

/-- Of the decimals that read back as `m`, `d` has the fewest digits, and of those with as many it
lies nearest. -/
structure IsShortest (m : Magnitude) (d : Decimal) : Prop where
  reads : m.Reads d
  fewest : ∀ e, m.Reads e → d.digitCount ≤ e.digitCount
  nearest : ∀ e, m.Reads e → e.digitCount = d.digitCount →
    |d.value - m.value| ≤ |e.value - m.value|

theorem value_mul_unitsOfOne (m : Magnitude) : m.value * unitsOfOne = m.units :=
  div_mul_cancel₀ _ (Nat.cast_ne_zero.2 unitsOfOne_pos.ne')

theorem reads_iff : m.Reads d ↔ NearestTo (d.value * unitsOfOne) m.units :=
  Double.ofDecimal_eq_finite_iff_nearestTo

theorem nearestTo_value (m : Magnitude) : NearestTo (m.value * unitsOfOne) m.units := by
  rw [m.value_mul_unitsOfOne]
  exact nearestTo_self m.representable.aligned

theorem mul_unitsOfOne_le {q r : ℚ} (h : q ≤ r) : q * unitsOfOne ≤ r * unitsOfOne :=
  mul_le_mul_of_nonneg_right h (Nat.cast_nonneg _)

theorem mul_unitsOfOne_nonneg (d : Decimal) : 0 ≤ d.value * unitsOfOne :=
  mul_nonneg d.value_nonneg (Nat.cast_nonneg _)

/-- A decimal between two that read back reads back, too. -/
theorem Reads.of_between {a b : Decimal} (ha : m.Reads a) (hb : m.Reads b)
    (hle₁ : a.value ≤ d.value) (hle₂ : d.value ≤ b.value) : m.Reads d := by
  rw [reads_iff] at ha hb ⊢
  exact ha.of_between hb (mul_unitsOfOne_nonneg d) (mul_unitsOfOne_le hle₁) (mul_unitsOfOne_le hle₂)

/-- So does one between the magnitude and a decimal that reads back. -/
theorem Reads.of_between_left (h : m.Reads e) (hed : e.value ≤ d.value) (hdm : d.value ≤ m.value) :
    m.Reads d := by
  rw [reads_iff] at h ⊢
  exact h.of_between m.nearestTo_value (mul_unitsOfOne_nonneg d) (mul_unitsOfOne_le hed)
    (mul_unitsOfOne_le hdm)

theorem Reads.of_between_right (h : m.Reads e) (hmd : m.value ≤ d.value) (hde : d.value ≤ e.value) :
    m.Reads d := by
  rw [reads_iff] at h ⊢
  exact m.nearestTo_value.of_between h (mul_unitsOfOne_nonneg d) (mul_unitsOfOne_le hmd)
    (mul_unitsOfOne_le hde)

theorem reads_of_close (h : 2 * (2 ^ 53 + 1) * |d.value - m.value| ≤ m.value) : m.Reads d := by
  have hunits : (0 : ℚ) ≤ unitsOfOne := Nat.cast_nonneg _
  rw [reads_iff]
  apply nearestTo_of_close m.representable.aligned
  rw [← m.value_mul_unitsOfOne, ← sub_mul, abs_mul, abs_of_nonneg hunits, ← mul_assoc]
  exact mul_le_mul_of_nonneg_right h hunits

theorem Reads.coefficient_ne_zero (h : m.Reads d) (hm : m.units ≠ 0) : d.coefficient ≠ 0 := by
  intro hzero
  obtain ⟨c, a⟩ := d
  dsimp only at hzero
  rw [hzero, Reads, Double.ofDecimal_zero] at h
  obtain ⟨-, rfl⟩ := Double.finite.inj h
  exact hm rfl

/-! ## Neighbours on a grid -/

/-- The neighbour on the grid `10 ^ (cut - unitExponent)` that is not greater. -/
def lower (m : Magnitude) (cut : Nat) : Decimal :=
  ⟨m.exactCoefficient / 10 ^ cut, cut - unitExponent⟩

/-- The neighbour that is greater. -/
def upper (m : Magnitude) (cut : Nat) : Decimal :=
  ⟨m.exactCoefficient / 10 ^ cut + 1, cut - unitExponent⟩

theorem value_eq_exact (m : Magnitude) :
    m.value = Decimal.value ⟨m.exactCoefficient, -unitExponent⟩ := by
  have hunits : (unitsOfOne : ℚ) = 2 ^ unitExponent := by
    rw [unitsOfOne]
    exact Nat.cast_pow 2 unitExponent
  have hten : (10 : ℚ) ^ unitExponent = 5 ^ unitExponent * 2 ^ unitExponent := by
    rw [← mul_pow]
    norm_num
  have hexact : (m.exactCoefficient : ℚ) = m.units * 5 ^ unitExponent := by
    rw [exactCoefficient]
    exact_mod_cast rfl
  unfold value Decimal.value
  dsimp only
  rw [zpow_neg, zpow_natCast, hten, hunits, hexact]
  field_simp

theorem grid_value (c : Nat) : Decimal.value ⟨c, cut - unitExponent⟩ =
    Decimal.value ⟨c * 10 ^ cut, -unitExponent⟩ := by
  rw [Decimal.value_shift, neg_add_eq_sub]

theorem lower_value_le : (m.lower cut).value ≤ m.value := by
  rw [value_eq_exact, lower, grid_value, Decimal.value_le_iff]
  exact Nat.div_mul_le_self _ _

theorem value_le_upper : m.value ≤ (m.upper cut).value := by
  have hlt := Nat.lt_div_mul_add (a := m.exactCoefficient) (Nat.pow_pos (n := cut) (by decide : 0 < 10))
  rw [value_eq_exact, upper, grid_value, Decimal.value_le_iff, Nat.succ_mul]
  exact hlt.le

theorem abs_lower_sub : |(m.lower cut).value - m.value| =
    Decimal.value ⟨m.exactCoefficient % 10 ^ cut, -unitExponent⟩ := by
  have hsplit : ((m.exactCoefficient / 10 ^ cut * 10 ^ cut + m.exactCoefficient % 10 ^ cut : Nat) : ℚ)
      = m.exactCoefficient := by
    rw [Nat.div_add_mod']
  rw [abs_sub_comm, abs_of_nonneg (sub_nonneg.2 lower_value_le), value_eq_exact, lower, grid_value]
  unfold Decimal.value
  dsimp only
  rw [← hsplit]
  push_cast
  ring

theorem abs_upper_sub : |(m.upper cut).value - m.value| =
    Decimal.value ⟨10 ^ cut - m.exactCoefficient % 10 ^ cut, -unitExponent⟩ := by
  have hrest := Nat.mod_lt m.exactCoefficient (Nat.pow_pos (n := cut) (by decide : 0 < 10))
  have hsplit : ((m.exactCoefficient / 10 ^ cut * 10 ^ cut + m.exactCoefficient % 10 ^ cut : Nat) : ℚ)
      = m.exactCoefficient := by
    rw [Nat.div_add_mod']
  rw [abs_of_nonneg (sub_nonneg.2 value_le_upper), value_eq_exact, upper, grid_value]
  unfold Decimal.value
  dsimp only
  rw [← hsplit, Nat.cast_sub hrest.le]
  push_cast
  ring

theorem onGrid?_eq (m : Magnitude) (cut : Nat) : m.onGrid? cut =
    if m.readsBack (m.lower cut) && ((2 * (m.exactCoefficient % 10 ^ cut) < 10 ^ cut ||
          (2 * (m.exactCoefficient % 10 ^ cut) == 10 ^ cut && (m.lower cut).coefficient % 2 == 0)) ||
        !m.readsBack (m.upper cut)) then some (m.lower cut)
    else if m.readsBack (m.upper cut) then some (m.upper cut)
    else none := rfl

/-- The ways in which a grid has a decimal: the neighbour that reads back, or the nearer one. -/
inductive Chosen (m : Magnitude) (cut : Nat) : Decimal → Prop
  | lower : m.Reads (m.lower cut) →
      (m.Reads (m.upper cut) → |(m.lower cut).value - m.value| ≤ |(m.upper cut).value - m.value|) →
      Chosen m cut (m.lower cut)
  | upper : m.Reads (m.upper cut) →
      (m.Reads (m.lower cut) → |(m.upper cut).value - m.value| ≤ |(m.lower cut).value - m.value|) →
      Chosen m cut (m.upper cut)

theorem chosen_of_onGrid (h : m.onGrid? cut = some d) : Chosen m cut d := by
  rw [onGrid?_eq] at h
  split_ifs at h with hlower hupper
  · obtain rfl := Option.some.inj h
    simp only [Bool.and_eq_true, Bool.or_eq_true, decide_eq_true_eq, beq_iff_eq, Bool.not_eq_true',
      readsBack_iff, ← Bool.not_eq_true] at hlower
    obtain ⟨hreads, hnear⟩ := hlower
    refine .lower hreads fun hupper => ?_
    rw [abs_lower_sub, abs_upper_sub, Decimal.value_le_iff]
    rcases hnear with hnear | hnot
    · omega
    · exact absurd hupper hnot
  · obtain rfl := Option.some.inj h
    simp only [Bool.and_eq_true, Bool.or_eq_true, decide_eq_true_eq, beq_iff_eq, Bool.not_eq_true',
      readsBack_iff, ← Bool.not_eq_true] at hlower hupper
    refine .upper hupper fun hreads => ?_
    rw [abs_lower_sub, abs_upper_sub, Decimal.value_le_iff]
    have hfar : ¬ 2 * (m.exactCoefficient % 10 ^ cut) < 10 ^ cut :=
      fun hlt => hlower ⟨hreads, .inl (.inl hlt)⟩
    omega

theorem exists_onGrid_of_reads (h : m.Reads (m.lower cut) ∨ m.Reads (m.upper cut)) :
    ∃ d, m.onGrid? cut = some d := by
  rw [onGrid?_eq]
  split_ifs with hlower hupper
  · exact ⟨_, rfl⟩
  · exact ⟨_, rfl⟩
  · rcases h with h | h
    · refine absurd ?_ hlower
      rw [Bool.and_eq_true, Bool.or_eq_true, Bool.not_eq_true', ← Bool.not_eq_true]
      exact ⟨(readsBack_iff m _).2 h, .inr hupper⟩
    · exact absurd ((readsBack_iff m _).2 h) hupper

/-! ## Few digits on a grid -/

/-- The grid on which the exact decimal keeps `j` digits. -/
structure Keeps (m : Magnitude) (cut j : Nat) : Prop where
  pos : 0 < j
  le : 10 ^ j ≤ m.exactCoefficient / 10 ^ cut * 10
  lt : m.exactCoefficient / 10 ^ cut < 10 ^ j

theorem Chosen.digitCount_le (h : Chosen m cut d) (hm : m.units ≠ 0) (hkeeps : m.Keeps cut j) :
    d.digitCount ≤ j := by
  have hlt := hkeeps.lt
  cases h with
  | lower hreads _ =>
    rw [Decimal.digitCount_le_iff (hreads.coefficient_ne_zero hm) hkeeps.pos]
    exact ⟨_, rfl, hlt⟩
  | upper hreads _ =>
    rw [Decimal.digitCount_le_iff (hreads.coefficient_ne_zero hm) hkeeps.pos]
    rcases Nat.lt_or_eq_of_le (Nat.succ_le_of_lt hlt) with hless | hpower
    · exact ⟨_, rfl, hless⟩
    · refine ⟨⟨1, cut - unitExponent + j⟩, ?_, Nat.one_lt_pow hkeeps.pos.ne' (by decide)⟩
      rw [← Decimal.value_shift, Nat.one_mul, ← hpower, Magnitude.upper]

/-- What reads back with at most `j` digits lies behind a neighbour that reads back, too. -/
theorem Reads.beside (h : m.Reads e) (hm : m.units ≠ 0) (hkeeps : m.Keeps cut j)
    (hcount : e.digitCount ≤ j) :
    e.value ≤ (m.lower cut).value ∧ m.Reads (m.lower cut) ∨
      (m.upper cut).value ≤ e.value ∧ m.Reads (m.upper cut) := by
  obtain ⟨c, hvalue, hc⟩ :=
    (Decimal.digitCount_le_iff (h.coefficient_ne_zero hm) hkeeps.pos).1 hcount
  rcases Decimal.value_le_or_le hkeeps.le hc (g := cut - unitExponent) with hle | hle
  · rw [hvalue] at hle
    exact .inl ⟨hle, h.of_between_left hle lower_value_le⟩
  · rw [hvalue] at hle
    exact .inr ⟨hle, h.of_between_right value_le_upper hle⟩

theorem Chosen.nearest (h : Chosen m cut d) (hm : m.units ≠ 0) (hkeeps : m.Keeps cut j)
    (he : m.Reads e) (hcount : e.digitCount ≤ j) :
    |d.value - m.value| ≤ |e.value - m.value| := by
  have hbeside := he.beside hm hkeeps hcount
  have hleft : e.value ≤ (m.lower cut).value →
      |(m.lower cut).value - m.value| ≤ |e.value - m.value| :=
    fun hle => Set.abs_sub_left_of_mem_uIcc (Set.mem_uIcc_of_ge hle lower_value_le)
  have hright : (m.upper cut).value ≤ e.value →
      |(m.upper cut).value - m.value| ≤ |e.value - m.value| :=
    fun hle => Set.abs_sub_left_of_mem_uIcc (Set.mem_uIcc_of_le value_le_upper hle)
  cases h with
  | lower _ hnear =>
    rcases hbeside with ⟨hle, _⟩ | ⟨hle, hupper⟩
    · exact hleft hle
    · exact (hnear hupper).trans (hright hle)
  | upper _ hnear =>
    rcases hbeside with ⟨hle, hlower⟩ | ⟨hle, _⟩
    · exact (hnear hlower).trans (hleft hle)
    · exact hright hle

/-! ## The search -/

theorem le_exactCoefficient (hm : m.units ≠ 0) : 10 ^ 17 ≤ m.exactCoefficient := by
  have hpower : 34 ≤ unitExponent := by
    rw [unitExponent]
    decide
  calc 10 ^ 17 ≤ 5 ^ 34 := by decide
    _ ≤ 5 ^ unitExponent := Nat.pow_le_pow_right (by decide) hpower
    _ ≤ m.exactCoefficient := Nat.le_mul_of_pos_left _ (Nat.pos_of_ne_zero hm)

theorem keeps_of_length (hm : m.units ≠ 0) (hpos : 0 < j) (hj : j ≤ 17) :
    m.Keeps ((decimalDigits m.exactCoefficient).length - j) j := by
  generalize hsize : (decimalDigits m.exactCoefficient).length = size
  have hlarge : ∀ {k}, 0 < k → (size ≤ k ↔ m.exactCoefficient < 10 ^ k) := by
    intro k hk
    rw [← hsize]
    exact length_decimalDigits_le_iff hk
  have hcut : 17 < size := by
    by_contra hle
    exact absurd (le_exactCoefficient hm) (Nat.not_le.2 ((hlarge (by decide)).1 (by omega)))
  have htop : 10 ^ (size - 1) ≤ m.exactCoefficient := by
    by_contra hlt
    have := (hlarge (by omega)).2 (Nat.not_le.1 hlt)
    omega
  refine ⟨hpos, ?_, ?_⟩
  · have hdiv : 10 ^ (j - 1) ≤ m.exactCoefficient / 10 ^ (size - j) := by
      rw [Nat.le_div_iff_mul_le (Nat.pow_pos (by decide)), ← Nat.pow_add]
      rwa [show j - 1 + (size - j) = size - 1 by omega]
    calc 10 ^ j = 10 ^ (j - 1) * 10 := by
          rw [← Nat.pow_succ]
          congr 1
          omega
      _ ≤ _ := Nat.mul_le_mul_right 10 hdiv
  · rw [Nat.div_lt_iff_lt_mul (Nat.pow_pos (by decide)), ← Nat.pow_add, Nat.add_sub_cancel' (by omega)]
    exact (hlarge (by omega)).1 le_rfl

/-- With seventeen digits the nearer neighbour reads back. -/
theorem reads_neighbour (hkeeps : m.Keeps cut 17) :
    m.Reads (m.lower cut) ∨ m.Reads (m.upper cut) := by
  have hgrid : 10 ^ 16 * 10 ^ cut ≤ m.exactCoefficient := by
    have hle := hkeeps.le
    calc 10 ^ 16 * 10 ^ cut ≤ m.exactCoefficient / 10 ^ cut * 10 ^ cut :=
          Nat.mul_le_mul_right _ (by omega)
      _ ≤ m.exactCoefficient := Nat.div_mul_le_self _ _
  -- the part of the grid that lies between, at most its half
  have hclose : ∀ {r}, 2 * r ≤ 10 ^ cut →
      2 * (2 ^ 53 + 1) * Decimal.value ⟨r, -unitExponent⟩ ≤ m.value := by
    intro r hr
    have hnat : 2 * (2 ^ 53 + 1) * r ≤ m.exactCoefficient := by omega
    have hscaled : 2 * (2 ^ 53 + 1) * Decimal.value ⟨r, -unitExponent⟩ =
        Decimal.value ⟨2 * (2 ^ 53 + 1) * r, -unitExponent⟩ := by
      unfold Decimal.value
      push_cast
      ring
    rw [value_eq_exact, hscaled, Decimal.value_le_iff]
    exact hnat
  by_cases hhalf : 2 * (m.exactCoefficient % 10 ^ cut) ≤ 10 ^ cut
  · left
    apply reads_of_close
    rw [abs_lower_sub]
    exact hclose hhalf
  · right
    apply reads_of_close
    rw [abs_upper_sub]
    exact hclose (by omega)

theorem exists_onGrid (hm : m.units ≠ 0) :
    ∃ d, m.onGrid? ((decimalDigits m.exactCoefficient).length - 17) = some d :=
  exists_onGrid_of_reads (reads_neighbour (keeps_of_length hm (by decide) le_rfl))

theorem exists_first_of_findSome? {α : Type} {f : Nat → Option α} {n : Nat} {x : α}
    (h : (List.range n).findSome? f = some x) : ∃ i < n, f i = some x ∧ ∀ k < i, f k = none := by
  induction n with
  | zero => cases h
  | succ n ih =>
    rw [List.range_succ, List.findSome?_append] at h
    cases hinit : (List.range n).findSome? f with
    | some y =>
      rw [hinit] at h
      obtain ⟨i, hi, hfound⟩ := ih (hinit.trans h)
      exact ⟨i, by omega, hfound⟩
    | none =>
      rw [hinit] at h
      refine ⟨n, Nat.lt_succ_self n, by simpa using h, fun k hk => ?_⟩
      exact List.findSome?_eq_none_iff.1 hinit k (List.mem_range.2 hk)

/-- **Shortest decimals.** The search finds the decimal of fewest digits that reads back, and the
nearest of these. -/
theorem isShortest_shortest (hm : m.units ≠ 0) : m.IsShortest m.shortest := by
  have hread := ofDecimal_shortest hm
  obtain ⟨i, hi, hfound, hfirst⟩ : ∃ i < 17,
      m.onGrid? ((decimalDigits m.exactCoefficient).length - (i + 1)) = some m.shortest ∧
        ∀ k < i, m.onGrid? ((decimalDigits m.exactCoefficient).length - (k + 1)) = none := by
    rw [shortest, if_neg hm]
    dsimp only
    cases hsearch : (List.range 17).findSome? fun i =>
        m.onGrid? ((decimalDigits m.exactCoefficient).length - (i + 1)) with
    | some d => exact exists_first_of_findSome? hsearch
    | none =>
      obtain ⟨d, hd⟩ := exists_onGrid hm
      have hnone := List.findSome?_eq_none_iff.1 hsearch 16 (List.mem_range.2 (by decide))
      rw [hd] at hnone
      cases hnone
  have hchosen := chosen_of_onGrid hfound
  have hkeeps := keeps_of_length hm (Nat.succ_pos i) (Nat.succ_le_of_lt hi)
  have hcount := hchosen.digitCount_le hm hkeeps
  refine ⟨hread, fun e he => ?_, fun e he hequal => hchosen.nearest hm hkeeps he (by omega)⟩
  by_contra hless
  -- a decimal of fewer digits would have been found on an earlier grid
  have hpos := Decimal.digitCount_pos (Reads.coefficient_ne_zero he hm)
  have hgrid := keeps_of_length hm hpos (by omega : e.digitCount ≤ 17)
  have hbeside := Reads.beside he hm hgrid le_rfl
  obtain ⟨d, hd⟩ := exists_onGrid_of_reads (hbeside.imp And.right And.right)
  have hnone := hfirst (e.digitCount - 1) (by omega)
  rw [Nat.sub_add_cancel hpos, hd] at hnone
  cases hnone

end Magnitude

end RequestLine
