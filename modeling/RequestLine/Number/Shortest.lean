import RequestLine.Number.Double

/-!
# Shortest decimals

The decimal of fewest digits that reads back as a given double. On the grid of `count` digits only
the two neighbours of the number can be nearest to it; the first grid on which one of them reads
back wins, the nearer of two, and of two equally near the one with an even last digit.

* `Magnitude.shortest`: that decimal.
* `ofDecimal_shortest`: it reads back.
-/

namespace RequestLine.Magnitude

/-- The coefficient of the exact decimal of the magnitude, whose exponent is `-unitExponent`. -/
def exactCoefficient (m : Magnitude) : Nat := m.units * Nat.pow 5 unitExponent

/-- Whether a decimal reads back as the magnitude. -/
def readsBack (m : Magnitude) (d : Decimal) : Bool :=
  Double.ofDecimal false d == .finite false m

/-- The decimal on the grid `10 ^ (cut - unitExponent)` that reads back and lies nearest, if there
is one. -/
def onGrid? (m : Magnitude) (cut : Nat) : Option Decimal :=
  let exact := m.exactCoefficient
  let grid := Nat.pow 10 cut
  let below : Decimal := ⟨exact / grid, cut - unitExponent⟩
  let above : Decimal := ⟨exact / grid + 1, cut - unitExponent⟩
  let rest := exact % grid
  let nearBelow := 2 * rest < grid || (2 * rest == grid && below.coefficient % 2 == 0)
  if m.readsBack below && (nearBelow || !m.readsBack above) then some below
  else if m.readsBack above then some above
  else none

/-- The shortest decimal that reads back as the magnitude. Seventeen digits are always enough; the
exact decimal stands behind them. -/
def shortest (m : Magnitude) : Decimal :=
  if m.units = 0 then ⟨0, 0⟩
  else
    let size := (decimalDigits m.exactCoefficient).length
    ((List.range 17).findSome? (fun i => m.onGrid? (size - (i + 1)))).getD
      ⟨m.exactCoefficient, -unitExponent⟩

theorem readsBack_iff (m : Magnitude) (d : Decimal) :
    m.readsBack d = true ↔ Double.ofDecimal false d = .finite false m := by
  simp [readsBack]

theorem onGrid?_readsBack {m : Magnitude} {cut : Nat} {d : Decimal} (h : m.onGrid? cut = some d) :
    m.readsBack d = true := by
  simp only [onGrid?] at h
  split at h
  · simp_all
  · split at h <;> simp_all

theorem unitExponent_eq : unitExponent = 1074 := by rw [unitExponent]

theorem exact_readsBack {m : Magnitude} (h : m.units ≠ 0) :
    m.readsBack ⟨m.exactCoefficient, -unitExponent⟩ = true := by
  rw [readsBack_iff]
  have hpos : 0 < m.units := Nat.pos_of_ne_zero h
  have hcoefficient : m.exactCoefficient ≠ 0 :=
    Nat.ne_of_gt (Nat.mul_pos hpos (Nat.pow_pos (by decide)))
  have hlog : unitExponent ≤ m.exactCoefficient.log2 := by
    rw [Nat.le_log2 hcoefficient]
    calc Nat.pow 2 unitExponent ≤ Nat.pow 5 unitExponent := Nat.pow_le_pow_left (by decide) _
      _ ≤ m.exactCoefficient := Nat.le_mul_of_pos_left _ hpos
  obtain ⟨e, he⟩ : ∃ e, unitExponent = e + 1 := ⟨1073, unitExponent_eq⟩
  have hten : Nat.pow 5 unitExponent * unitsOfOne = Nat.pow 10 (e + 1) :=
    (Nat.mul_pow 5 2 unitExponent).symm.trans (by rw [he]; rfl)
  have hexponent : (-(unitExponent : Int)) = .negSucc e := by rw [he]; rfl
  rw [Double.ofDecimal, if_neg hcoefficient, if_neg (by simp only; omega),
    if_neg (by simp only; omega)]
  simp only [hexponent, exactCoefficient]
  rw [Nat.mul_assoc, hten]
  exact Double.ofUnits_mul false m (Nat.pow_pos (by decide))

/-- The shortest decimal of a magnitude other than zero reads back as it. -/
theorem ofDecimal_shortest {m : Magnitude} (h : m.units ≠ 0) :
    Double.ofDecimal false m.shortest = .finite false m := by
  rw [← readsBack_iff, shortest, if_neg h]
  simp only
  cases hfound : (List.range 17).findSome? fun i =>
      m.onGrid? ((decimalDigits m.exactCoefficient).length - (i + 1)) with
  | some d =>
    obtain ⟨i, -, hgrid⟩ := List.exists_of_findSome?_eq_some hfound
    exact onGrid?_readsBack hgrid
  | none => exact exact_readsBack h

end RequestLine.Magnitude
