import RequestLine.Json.PlainText
import RequestLine.Proofs.Json.ReadValues
import RequestLine.Proofs.Json.WrittenNumbers

/-!
# Plain texts step by step

The plain text of a value comes about by operations that are not defined everywhere: a look-up by
key, an integer made a double, the first of some digits, the digits of a number that may be none.
Here each of them says what it meets outside its domain.

* `Partial.Fault`: what that can be.
* `Partial.plainText`: the plain text of a value by such operations.
* `Partial.item_of_mem_entries`, `Partial.plainText_eq_ok`: on values that were read, every operation
  is within its domain, and the text is the plain text.
-/

namespace RequestLine.Partial

/-- What an operation meets outside its domain. -/
inductive Fault
  /-- No entry has the key. -/
  | noEntry
  /-- The index lies outside the sequence. -/
  | outOfRange
  /-- The operand is of a kind that the operation does not know. -/
  | wrongKind
  /-- The text names no integer, or no code of an error. -/
  | unreadable
  /-- The integer is past the doubles. -/
  | overflow
  /-- The text holds a surrogate and has no bytes. -/
  | unencodable
  /-- A field does not take the value. -/
  | illTyped
  /-- The text is nested deeper than texts are read. -/
  | tooDeep
  deriving DecidableEq

/-! ## Operations -/

/-- The item of a key. -/
def item (v : Json) (key : Text) : Except Fault Json :=
  match v.item? key with
  | .ok x => .ok x
  | .error .noMember => .error .noEntry
  | .error .notAnIndex => .error .unreadable
  | .error .outOfRange => .error .outOfRange
  | .error .notIndexable => .error .wrongKind

/-- The double of an integer that has one. -/
def doubleOf (i : Int) : Except Fault Double :=
  if (Double.ofInt i).isFinite then .ok (Double.ofInt i) else .error .overflow

/-- The double of an integer, an infinite one past the others. -/
def saturated (i : Int) : Except Fault Double :=
  match doubleOf i with
  | .error .overflow => .ok (.infinite (i < 0))
  | other => other

/-- The digits before an exponent, a point after the first of several. -/
def mantissa (digits : Text) : Except Fault Text :=
  if digits.length = 1 then .ok digits
  else
    match digits with
    | [] => .error .outOfRange
    | c :: r => .ok ([c] ++ ("." ++ r))

def scientific (s : Significand) : Except Fault Text := do
  let digits ← mantissa s.digits
  let power := s.point - 1
  let mark : Text := if power < 0 then "e-" else "e+"
  return digits ++ mark ++ NumberStyle.pad 1 (decimalDigits power.natAbs)

def significandText (s : Significand) : Except Fault Text :=
  if -5 ≤ s.point ∧ s.point ≤ 21 then .ok (NumberStyle.plain.positional s) else scientific s

/-- The text of a double; what is no number has no digits. -/
def doubleText : Double → Except Fault Text
  | .nan => .error .wrongKind
  | .infinite negative => .ok (if negative then "-Infinity" else "Infinity")
  | .finite negative m =>
    if m.units = 0 then .ok "0"
    else do
      let text ← significandText m.shortest.significand
      return if negative then CodePoint.ofChar '-' :: text else text

def numberText : Number → Except Fault Text
  | .int i =>
    if i.natAbs < exactIntegerBound then .ok (integerText i) else do doubleText (← saturated i)
  | .double x => doubleText x

mutual

/-- The plain text of a value. -/
def plainText : Json → Except Fault Text
  | .null => .ok "null"
  | .bool b => .ok (if b then "true" else "false")
  | .num n => numberText n
  | .str s => .ok s
  | .arr items => do return Text.joinWith "," (← plainItems items)
  | .obj _ => .ok "[object Object]"

def plainItems : List Json → Except Fault (List Text)
  | [] => .ok []
  | v :: r => do
    let text ← if v.isNull then .ok [] else plainText v
    return text :: (← plainItems r)

end

/-! ## Numbers -/

theorem ofInt_cases (i : Int) :
    (Double.ofInt i).isFinite = true ∨ Double.ofInt i = .infinite (i < 0) := by
  rw [Double.ofInt]
  by_cases hi : i.natAbs = 0
  · rw [hi, Double.ofDecimal_zero]
    exact .inl rfl
  · rw [Double.ofDecimal_eq_ofUnits _ hi, Double.ofUnits]
    split
    · exact .inl rfl
    · exact .inr rfl

theorem saturated_eq_ok (i : Int) : saturated i = .ok (Double.ofInt i) := by
  rw [saturated, doubleOf]
  rcases ofInt_cases i with hfinite | hinfinite
  · rw [if_pos hfinite]
  · rw [hinfinite]
    rfl

theorem mantissa_eq_ok {digits : Text} (h : digits ≠ []) :
    mantissa digits =
      .ok (digits.take 1 ++ if 1 < digits.length then "." ++ digits.drop 1 else []) := by
  obtain ⟨c, r, rfl⟩ := List.exists_cons_of_ne_nil h
  cases r with
  | nil => rfl
  | cons d r => simp [mantissa]

theorem scientific_eq_ok {s : Significand} (h : s.digits ≠ []) :
    scientific s = .ok (NumberStyle.plain.scientific s) := by
  rw [scientific, mantissa_eq_ok h]
  rfl

theorem significandText_eq_ok {s : Significand} (h : s.digits ≠ []) :
    significandText s = .ok (NumberStyle.plain.writeSignificand s) := by
  rw [significandText, scientific_eq_ok h]
  exact (apply_ite Except.ok _ _ _).symm

theorem doubleText_eq_ok {x : Double} (h : x ≠ .nan) :
    doubleText x = .ok (NumberStyle.plain.write x) := by
  cases x with
  | nan => exact absurd rfl h
  | infinite negative => cases negative <;> rfl
  | finite negative m =>
    rw [doubleText, NumberStyle.write]
    by_cases hm : m.units = 0
    · rw [if_pos hm, if_pos hm]
      cases negative <;> rfl
    · have hproper := Decimal.significand_proper (Magnitude.shortest_ne_zero hm)
      rw [if_neg hm, if_neg hm, significandText_eq_ok hproper.nonempty]
      rfl

theorem numberText_eq_ok {n : Number} (h : Json.IsNumber (.num n)) : numberText n = .ok n.text := by
  cases n with
  | int i =>
    rw [numberText, Number.text]
    split
    · rfl
    · rw [saturated_eq_ok]
      refine doubleText_eq_ok fun hnan => ?_
      exact Double.ofDecimal_ne_nan _ _ hnan
  | double x =>
    refine doubleText_eq_ok ?_
    rintro rfl
    exact h

/-! ## Values -/

theorem plainItems_eq_ok {items : List Json}
    (h : ∀ v ∈ items, plainText v = .ok v.plainText) :
    plainItems items = .ok (Json.plainItems items) := by
  induction items with
  | nil => rfl
  | cons v items ih =>
    have hv := h v List.mem_cons_self
    rw [plainItems, Json.plainItems, hv, ih fun w hw => h w (List.mem_cons_of_mem v hw)]
    split <;> rfl

/-- Every number in the value has a text, so the value has its plain text. -/
theorem plainText_eq_ok {v : Json} (h : v.Everywhere Json.IsNumber) :
    plainText v = .ok v.plainText := by
  induction v with
  | null | bool | str | obj => rfl
  | num n => exact numberText_eq_ok h.here
  | arr items ih =>
    rw [plainText, Json.plainText, plainItems_eq_ok fun v hv => ih v hv (h.item hv)]
    rfl

/-- The keys of a value find its items. -/
theorem item_of_mem_entries {v : Json} (h : v.Addressable) {e : Text × Json}
    (he : e ∈ v.entries) : item v e.1 = .ok e.2 := by
  rw [item, Json.item?_of_mem_entries h he]

theorem everywhere_of_mem_entries {v : Json} (h : v.Everywhere Json.IsNumber) {e : Text × Json}
    (he : e ∈ v.entries) : e.2.Everywhere Json.IsNumber := by
  cases v with
  | null | bool | num => cases he
  | obj members => exact h.member he
  | arr items =>
    obtain ⟨i, hi, -⟩ := Json.mem_indexed he
    exact h.item (List.mem_of_getElem? hi)
  | str s =>
    obtain ⟨i, hi, -⟩ := Json.mem_indexed he
    obtain ⟨c, -, hc⟩ := List.mem_map.1 (List.mem_of_getElem? hi)
    rw [← hc]
    exact (Json.everywhere_scalar rfl).2 trivial

end RequestLine.Partial
