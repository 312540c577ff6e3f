import RequestLine.Number.Decimal

/-!
# Double-precision numbers

The finite numbers of IEEE 754 binary64 are whole multiples of `2 ^ -1074`, so a magnitude is a
natural number of these units, and two magnitudes are equal when their units are.

* `Magnitude`: units with at most 53 significant bits, below `2 ^ 1024` in value.
* `nearestUnits`: the representable units nearest to a quotient, a tie to the even neighbour.
* `Double.ofDecimal`: the nearest double of a decimal, infinite when that is out of range.
* `Double.add`, `Double.mul`: the nearest double of the exact sum, of the exact product.
-/

namespace RequestLine

/-- A unit is `2 ^ -unitExponent`, the least positive double. -/
@[irreducible]
def unitExponent : Nat := 1074

/-- The units of the number one. -/
def unitsOfOne : Nat := Nat.pow 2 unitExponent

/-- The finite doubles have fewer than `2 ^ rangeExponent` units: their values end below
`2 ^ 1024`. -/
@[irreducible]
def rangeExponent : Nat := 2098

/-- A binary64 number has `units` units. -/
structure Representable (units : Nat) : Prop where
  below : units < Nat.pow 2 rangeExponent
  aligned : Nat.pow 2 (units.log2 - 52) ∣ units

instance (units : Nat) : Decidable (Representable units) :=
  decidable_of_iff (units < Nat.pow 2 rangeExponent ∧ Nat.pow 2 (units.log2 - 52) ∣ units)
    ⟨fun h => ⟨h.1, h.2⟩, fun h => ⟨h.1, h.2⟩⟩

/-- The magnitude of a finite binary64 number, in units of `2 ^ -unitExponent`. -/
structure Magnitude where
  units : Nat
  representable : Representable units
  deriving DecidableEq

namespace Magnitude

theorem representable_zero : Representable 0 := ⟨Nat.two_pow_pos _, Nat.dvd_zero _⟩

def zero : Magnitude := ⟨0, representable_zero⟩

/-- The magnitude of `units` units, if there is one. -/
def ofUnits? (units : Nat) : Option Magnitude :=
  if h : Representable units then some ⟨units, h⟩ else none

end Magnitude

/-- The natural number nearest to `num / den`, the even one of two. -/
def roundHalfEven (num den : Nat) : Nat :=
  let q := num / den
  let r := num % den
  if 2 * r < den then q
  else if den < 2 * r then q + 1
  else if q % 2 = 0 then q else q + 1

/-- The units nearest to `num / den` that keep 53 significant bits, an even last bit on a tie. -/
def nearestUnits (num den : Nat) : Nat :=
  let scale := Nat.pow 2 ((num / den).log2 - 52)
  roundHalfEven num (den * scale) * scale

theorem roundHalfEven_mul {den : Nat} (hden : 0 < den) (q : Nat) :
    roundHalfEven (q * den) den = q := by
  simp [roundHalfEven, Nat.mul_div_cancel _ hden, hden]

/-- Representable units are their own nearest ones. -/
theorem nearestUnits_mul {units den : Nat} (h : Representable units) (hden : 0 < den) :
    nearestUnits (units * den) den = units := by
  obtain ⟨q, hq⟩ := h.aligned
  simp only [nearestUnits, Nat.mul_div_cancel _ hden]
  have hscale : 0 < Nat.pow 2 (units.log2 - 52) := Nat.two_pow_pos _
  have hnum : units * den = q * (den * Nat.pow 2 (units.log2 - 52)) := by
    conv => lhs; rw [hq]
    rw [Nat.mul_comm (Nat.pow 2 _) q, Nat.mul_assoc, Nat.mul_comm (Nat.pow 2 _) den]
  rw [hnum, roundHalfEven_mul (Nat.mul_pos hden hscale), Nat.mul_comm, ← hq]

/-- A binary64 number. -/
inductive Double
  | finite (negative : Bool) (magnitude : Magnitude)
  | infinite (negative : Bool)
  | nan
  deriving DecidableEq

namespace Double

def zero (negative : Bool) : Double := .finite negative .zero

/-- The double nearest to `num / den` units; infinite when the range ends below it. -/
def ofUnits (negative : Bool) (num den : Nat) : Double :=
  match Magnitude.ofUnits? (nearestUnits num den) with
  | some m => .finite negative m
  | none => .infinite negative

theorem ofUnits_mul (negative : Bool) (m : Magnitude) {den : Nat} (hden : 0 < den) :
    ofUnits negative (m.units * den) den = .finite negative m := by
  rw [ofUnits, nearestUnits_mul m.representable hden, Magnitude.ofUnits?, dif_pos m.representable]

/-- The double nearest to a decimal number with the given sign. A power of ten past the four
hundredth on either side decides the answer without being computed. -/
def ofDecimal (negative : Bool) (d : Decimal) : Double :=
  if d.coefficient = 0 then zero negative
  else if 400 < d.exponent then .infinite negative
  else if d.exponent + (d.coefficient.log2 + 1) < -400 then zero negative
  else
    match d.exponent with
    | .ofNat e => ofUnits negative (d.coefficient * Nat.pow 10 e * unitsOfOne) 1
    | .negSucc e => ofUnits negative (d.coefficient * unitsOfOne) (Nat.pow 10 (e + 1))

def ofInt (i : Int) : Double := ofDecimal (i < 0) ⟨i.natAbs, 0⟩

def isFinite : Double → Bool
  | .finite _ _ => true
  | .infinite _ | .nan => false

def isZero : Double → Bool
  | .finite _ m => m.units == 0
  | _ => false

def negate : Double → Double
  | .finite s m => .finite (!s) m
  | .infinite s => .infinite (!s)
  | .nan => .nan

/-- The double nearest to the sum. -/
def add : Double → Double → Double
  | .nan, _ | _, .nan => .nan
  | .infinite s, .infinite t => if s = t then .infinite s else .nan
  | .infinite s, .finite _ _ => .infinite s
  | .finite _ _, .infinite t => .infinite t
  | .finite s m, .finite t n =>
    if s = t then ofUnits s (m.units + n.units) 1
    else if m.units = n.units then zero false
    else if n.units < m.units then ofUnits s (m.units - n.units) 1
    else ofUnits t (n.units - m.units) 1

/-- The double nearest to the product. -/
def mul : Double → Double → Double
  | .nan, _ | _, .nan => .nan
  | .infinite s, .infinite t => .infinite (s != t)
  | .infinite s, .finite t n => if n.units = 0 then .nan else .infinite (s != t)
  | .finite s m, .infinite t => if m.units = 0 then .nan else .infinite (s != t)
  | .finite s m, .finite t n => ofUnits (s != t) (m.units * n.units) unitsOfOne

/-- The integer part, the fraction cut off; zero for what is not finite. -/
def truncate : Double → Int
  | .finite s m => if s then -(m.units / unitsOfOne : Nat) else (m.units / unitsOfOne : Nat)
  | _ => 0

end Double

end RequestLine
