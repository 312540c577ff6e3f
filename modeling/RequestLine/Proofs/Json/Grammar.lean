import RequestLine.Json.Reader
import RequestLine.Proofs.Number.Decimal
import RequestLine.Proofs.Text.Hex

/-!
# The grammar of JSON texts

RFC 8259 as relations between texts and what they stand for, with no reader in them.

* `Chars`, `StringText`: the inside of a string, a string.
* `Whole`, `Fraction`, `Exponent`, `NumberText`: the parts of a number, a number.
* `Items`, `Separated`: pieces with commas between them.
* `Value`, `Document`: a value, a value with white space around it.
-/

namespace RequestLine.Json.Grammar

/-! ## Strings -/

/-- The code point on both sides of a string. -/
abbrev quotationMark : CodePoint := '\x22'

/-- The code point that an escape starts with. -/
abbrev backslash : CodePoint := '\\'

/-- What may follow a backslash, with the code points that it stands for. -/
def escapes : List (CodePoint × CodePoint) :=
  [(CodePoint.ofChar '\x22', CodePoint.ofChar '\x22'), (CodePoint.ofChar '\\', CodePoint.ofChar '\\'),
    (CodePoint.ofChar '/', CodePoint.ofChar '/'), (CodePoint.ofChar 'b', CodePoint.ofChar '\x08'),
    (CodePoint.ofChar 'f', CodePoint.ofChar '\x0c'), (CodePoint.ofChar 'n', CodePoint.ofChar '\n'),
    (CodePoint.ofChar 'r', CodePoint.ofChar '\r'), (CodePoint.ofChar 't', CodePoint.ofChar '\t')]

/-- The first half of a surrogate pair. -/
def IsHigh (n : Nat) : Prop := 0xD800 ≤ n ∧ n ≤ 0xDBFF

/-- The second half of a surrogate pair. -/
def IsLow (n : Nat) : Prop := 0xDC00 ≤ n ∧ n ≤ 0xDFFF

/-- The escape with four digits. -/
def unitText (digits : Text) : Text := backslash :: CodePoint.ofChar 'u' :: digits

/-- The text begins with the escape of the second half of a pair. -/
def StartsLow (t : Text) : Prop :=
  ∃ digits n r, t = unitText digits ++ r ∧ Hex.Writes 4 digits n ∧ IsLow n

/-- The inside of a string with the text that it stands for. The escape of a first half stands for
itself only where no escape of a second half follows. -/
inductive Chars : Text → Text → Prop
  | nil : Chars [] []
  | plain {c : CodePoint} {t s : Text} : c ≠ quotationMark → c ≠ backslash → 0x20 ≤ c.val →
      Chars t s → Chars (c :: t) (c :: s)
  | escape {e c : CodePoint} {t s : Text} : (e, c) ∈ escapes → Chars t s →
      Chars (backslash :: e :: t) (c :: s)
  | unit {c : CodePoint} {digits t s : Text} {n : Nat} : Hex.Writes 4 digits n →
      ¬ (IsHigh n ∧ StartsLow t) → c = CodePoint.ofNat n → Chars t s →
      Chars (unitText digits ++ t) (c :: s)
  | pair {c : CodePoint} {first second t s : Text} {high low : Nat} : Hex.Writes 4 first high →
      Hex.Writes 4 second low → IsHigh high → IsLow low → c = Reader.joinSurrogates high low →
      Chars t s → Chars (unitText first ++ (unitText second ++ t)) (c :: s)

/-- A string with the text that it stands for. -/
inductive StringText : Text → Text → Prop
  | quoted {t s : Text} : Chars t s → StringText (quotationMark :: (t ++ [quotationMark])) s

/-! ## Numbers -/

/-- The digits before the point: a zero alone, or digits that do not start with one. -/
inductive Whole : Text → Prop
  | zero : Whole [CodePoint.ofChar '0']
  | digits {c : CodePoint} {r : Text} : c.isDigit = true → c ≠ '0' → AllDigits r → Whole (c :: r)

/-- A point with the digits after it, or neither. -/
inductive Fraction : Text → Text → Prop
  | absent : Fraction [] []
  | point {digits : Text} : digits ≠ [] → AllDigits digits →
      Fraction (CodePoint.ofChar '.' :: digits) digits

/-- The sign of an exponent, true for minus. -/
inductive Sign : Text → Bool → Prop
  | absent : Sign [] false
  | plus : Sign [CodePoint.ofChar '+'] false
  | minus : Sign [CodePoint.ofChar '-'] true

/-- The number with a sign. -/
def signed (negative : Bool) (n : Nat) : Int := if negative then -n else n

/-- A power of ten, or none. -/
inductive Exponent : Text → Int → Prop
  | absent : Exponent [] 0
  | power {e : CodePoint} {sign digits : Text} {negative : Bool} : e = 'e' ∨ e = 'E' →
      Sign sign negative → digits ≠ [] → AllDigits digits →
      Exponent (e :: (sign ++ digits)) (signed negative (digitsValue digits))

/-- The minus sign of a negative number. -/
def minus (negative : Bool) : Text := if negative then [CodePoint.ofChar '-'] else []

/-- A number. Without a fraction and an exponent it is an integer, which has at most `digitLimit`
digits; otherwise it is the nearest double. -/
inductive NumberText : Text → Number → Prop
  | integer {whole : Text} (negative : Bool) : Whole whole → whole.length ≤ digitLimit →
      NumberText (minus negative ++ whole) (.int (signed negative (digitsValue whole)))
  | decimal {whole point fraction power : Text} {e : Int} (negative : Bool) : Whole whole →
      Fraction point fraction → Exponent power e → point ++ power ≠ [] →
      NumberText (minus negative ++ (whole ++ (point ++ power)))
        (.double (.ofDecimal negative ⟨digitsValue (whole ++ fraction), e - fraction.length⟩))

theorem Whole.exists_cons {w : Text} (h : Whole w) : ∃ c r, w = c :: r ∧ c.isDigit = true := by
  cases h with
  | zero => exact ⟨_, _, rfl, by decide⟩
  | digits hc _ _ => exact ⟨_, _, rfl, hc⟩

theorem Whole.allDigits {w : Text} (h : Whole w) : AllDigits w := by
  cases h with
  | zero => exact allDigits_zeros 1
  | @digits c r hc _ hr =>
    intro d hd
    rcases List.mem_cons.1 hd with rfl | hd
    · exact hc
    · exact hr d hd

theorem Whole.ne_nil {w : Text} (h : Whole w) : w ≠ [] := by
  obtain ⟨c, r, rfl, -⟩ := h.exists_cons
  exact List.cons_ne_nil c r

theorem Fraction.eq_nil {digits : Text} (h : Fraction [] digits) : digits = [] := by
  cases h
  rfl

theorem NumberText.exists_whole {t : Text} {n : Number} (h : NumberText t n) :
    ∃ negative whole r, Whole whole ∧ t = minus negative ++ (whole ++ r) := by
  cases h with
  | @integer whole negative hw _ => exact ⟨negative, whole, [], hw, by rw [List.append_nil]⟩
  | decimal negative hw _ _ _ => exact ⟨negative, _, _, hw, rfl⟩

/-- The code points that numbers are made of. -/
def IsNumeral (c : CodePoint) : Prop := c.isDigit = true ∨ c ∈ Text.ofString "+-.eE"

theorem isNumeral_minus (negative : Bool) : ∀ c ∈ minus negative, IsNumeral c := by
  cases negative with
  | false => exact fun c hc => absurd hc List.not_mem_nil
  | true => exact fun c hc => .inr (by rw [List.mem_singleton.1 hc]; decide)

theorem Fraction.isNumeral {point digits : Text} (h : Fraction point digits) :
    ∀ c ∈ point, IsNumeral c := by
  cases h with
  | absent => exact fun c hc => absurd hc List.not_mem_nil
  | point _ hall =>
    intro c hc
    rcases List.mem_cons.1 hc with rfl | hc
    · exact .inr (by decide)
    · exact .inl (hall c hc)

theorem Exponent.isNumeral {power : Text} {e : Int} (h : Exponent power e) :
    ∀ c ∈ power, IsNumeral c := by
  cases h with
  | absent => exact fun c hc => absurd hc List.not_mem_nil
  | power he hsign _ hall =>
    intro c hc
    rcases List.mem_cons.1 hc with rfl | hc
    · rcases he with rfl | rfl <;> exact .inr (by decide)
    · rcases List.mem_append.1 hc with hc | hc
      · cases hsign with
        | absent => exact absurd hc List.not_mem_nil
        | plus | minus => exact .inr (by rw [List.mem_singleton.1 hc]; decide)
      · exact .inl (hall c hc)

/-- A number with all its parts is made of these code points. -/
theorem isNumeral_of_parts (negative : Bool) {whole point fraction power : Text} {e : Int}
    (hwhole : Whole whole) (hpoint : Fraction point fraction) (hpower : Exponent power e) :
    ∀ c ∈ minus negative ++ (whole ++ (point ++ power)), IsNumeral c := by
  intro c hc
  rcases List.mem_append.1 hc with hc | hc
  · exact isNumeral_minus negative c hc
  rcases List.mem_append.1 hc with hc | hc
  · exact .inl (hwhole.allDigits c hc)
  rcases List.mem_append.1 hc with hc | hc
  · exact hpoint.isNumeral c hc
  · exact hpower.isNumeral c hc

theorem NumberText.isNumeral {t : Text} {n : Number} (h : NumberText t n) :
    ∀ c ∈ t, IsNumeral c := by
  cases h with
  | integer negative hwhole _ =>
    have hall := isNumeral_of_parts negative hwhole .absent .absent
    rwa [List.append_nil, List.append_nil] at hall
  | decimal negative hwhole hpoint hpower _ =>
    exact isNumeral_of_parts negative hwhole hpoint hpower

/-! ## Values -/

/-- White space. -/
def Blank (t : Text) : Prop := ∀ c ∈ t, Reader.isBlank c = true

/-- At least one piece, white space around each, commas between them. -/
inductive Items : List Text → Text → Prop
  | last {before p after : Text} : Blank before → Blank after →
      Items [p] (before ++ (p ++ after))
  | cons {before p after t : Text} {ps : List Text} : Blank before → Blank after → Items ps t →
      Items (p :: ps) (before ++ (p ++ (after ++ CodePoint.ofChar ',' :: t)))

/-- What stands between brackets: white space, or pieces with commas between them. -/
inductive Separated : List Text → Text → Prop
  | none {t : Text} : Blank t → Separated [] t
  | some {ps : List Text} {t : Text} : Items ps t → Separated ps t

/-- A name with a value, and how they are spelled. -/
structure Member where
  name : Text
  value : Json
  nameText : Text
  beforeColon : Text
  afterColon : Text
  valueText : Text

namespace Member

/-- The text of a member. -/
def text (m : Member) : Text :=
  m.nameText ++ (m.beforeColon ++ CodePoint.ofChar ':' :: (m.afterColon ++ m.valueText))

/-- The name with the value. -/
def pair (m : Member) : Text × Json := (m.name, m.value)

/-- The name is a string, and only white space stands around the colon. -/
structure Spelled (m : Member) : Prop where
  name : StringText m.nameText m.name
  before : Blank m.beforeColon
  after : Blank m.afterColon

end Member

/-- A value with the text that it is written as. A repeated name keeps its first place and takes
its last value. -/
inductive Value (d : Dialect) : Text → Json → Prop
  | constant {t : Text} {v : Json} : (t, v) ∈ Reader.constants d → Value d t v
  | number {t : Text} {n : Number} : NumberText t n → Value d t (.num n)
  | string {t s : Text} : StringText t s → Value d t (.str s)
  | array {items : List (Text × Json)} {t : Text} : (∀ p ∈ items, Value d p.1 p.2) →
      Separated (items.map Prod.fst) t →
      Value d (CodePoint.ofChar '[' :: (t ++ [CodePoint.ofChar ']'])) (.arr (items.map Prod.snd))
  | object {members : List Member} {t : Text} : (∀ m ∈ members, m.Spelled) →
      (∀ m ∈ members, Value d m.valueText m.value) → Separated (members.map Member.text) t →
      Value d (CodePoint.ofChar '\x7b' :: (t ++ [CodePoint.ofChar '\x7d']))
        (.obj (Dictionary.ofPairs (members.map Member.pair)))

/-- A value with white space around it. -/
inductive Document (d : Dialect) : Text → Json → Prop
  | framed {before t after : Text} {v : Json} : Blank before → Blank after → Value d t v →
      Document d (before ++ (t ++ after)) v

/-! ## Pieces between brackets -/

theorem Blank.append {a b : Text} (ha : Blank a) (hb : Blank b) : Blank (a ++ b) := by
  intro c hc
  rcases List.mem_append.1 hc with hc | hc
  · exact ha c hc
  · exact hb c hc

theorem Items.blank_append {ps : List Text} {b t : Text} (hb : Blank b) (h : Items ps t) :
    Items ps (b ++ t) := by
  cases h with
  | last hbefore hafter =>
    rw [← List.append_assoc]
    exact .last (hb.append hbefore) hafter
  | cons hbefore hafter hrest =>
    rw [← List.append_assoc]
    exact .cons (hb.append hbefore) hafter hrest

theorem Items.append_blank {ps : List Text} {b t : Text} (h : Items ps t) (hb : Blank b) :
    Items ps (t ++ b) := by
  induction h with
  | last hbefore hafter =>
    rw [List.append_assoc, List.append_assoc]
    exact .last hbefore (hafter.append hb)
  | cons hbefore hafter _ ih =>
    rw [List.append_assoc, List.append_assoc, List.append_assoc, List.cons_append]
    exact .cons hbefore hafter ih

/-- The first piece begins the items, after white space. -/
theorem Items.exists_first {ps : List Text} {t : Text} (h : Items ps t) :
    ∃ b u p r, Blank b ∧ t = b ++ u ∧ p ∈ ps ∧ u = p ++ r ∧ Items ps u := by
  cases h with
  | @last before p after hbefore hafter =>
    exact ⟨before, p ++ after, p, after, hbefore, rfl, List.mem_cons_self, rfl,
      @Items.last [] p after (fun _ hc => by cases hc) hafter⟩
  | @cons before p after r ps hbefore hafter hrest =>
    exact ⟨before, _, p, _, hbefore, rfl, List.mem_cons_self, rfl,
      @Items.cons [] p after r ps (fun _ hc => by cases hc) hafter hrest⟩

theorem Items.length_le {ps : List Text} {t : Text} (h : Items ps t) (hps : ∀ p ∈ ps, p ≠ []) :
    ps.length ≤ t.length := by
  induction h with
  | @last before p after _ _ =>
    have hp := List.length_pos_iff.2 (hps p List.mem_cons_self)
    simp only [List.length_append, List.length_singleton]
    omega
  | cons _ _ _ ih =>
    have hrest := ih fun q hq => hps q (List.mem_cons_of_mem _ hq)
    simp only [List.length_append, List.length_cons]
    omega

theorem Separated.length_le {ps : List Text} {t p : Text} (h : Separated ps t) (hp : p ∈ ps) :
    p.length ≤ t.length := by
  cases h with
  | none => cases hp
  | some h =>
    induction h with
    | last =>
      rw [List.mem_singleton.1 hp]
      simp only [List.length_append]
      omega
    | cons _ _ _ ih =>
      simp only [List.length_append, List.length_cons]
      rcases List.mem_cons.1 hp with rfl | hp
      · omega
      · have := ih hp
        omega

/-! ## First code points -/

/-- The text begins with a code point that is no white space. -/
def Solid (t : Text) : Prop := ∃ c r, t = c :: r ∧ Reader.isBlank c = false

theorem Solid.append {t : Text} (h : Solid t) (r : Text) : Solid (t ++ r) := by
  obtain ⟨c, s, rfl, hc⟩ := h
  exact ⟨c, s ++ r, rfl, hc⟩

/-- The code points that a value can begin with are no white space and close nothing. -/
structure Begins (c : CodePoint) : Prop where
  solid : Reader.isBlank c = false
  bracket : c ≠ ']'
  brace : c ≠ '\x7d'

theorem begins_of_isDigit {c : CodePoint} (h : c.isDigit = true) : Begins c := by
  refine ⟨?_, ne_of_isDigit h (by decide), ne_of_isDigit h (by decide)⟩
  rw [isDigit_iff] at h
  simp only [Reader.isBlank, ← Bool.not_eq_true, Bool.or_eq_true, beq_iff_eq]
  omega

instance (c : CodePoint) : Decidable (Begins c) :=
  decidable_of_iff
    (Reader.isBlank c = false ∧ c ≠ CodePoint.ofChar ']' ∧ c ≠ CodePoint.ofChar '\x7d')
    ⟨fun h => ⟨h.1, h.2.1, h.2.2⟩, fun h => ⟨h.1, h.2, h.3⟩⟩

/-- The code points that begin a string, an array or an object. -/
def openings : Text :=
  [CodePoint.ofChar '\x22', CodePoint.ofChar '[', CodePoint.ofChar '\x7b']

theorem constants_spec (d : Dialect) : ∀ p ∈ Reader.constants d, 2 ≤ p.1.length ∧
    (∀ c ∈ p.1.head?, Begins c ∧ c ∉ openings) ∧ ∀ c ∈ p.1, c.isDigit = false := by
  cases d <;> decide

theorem StringText.exists_cons {t s : Text} (h : StringText t s) :
    ∃ r, t = quotationMark :: r := by
  cases h
  exact ⟨_, rfl⟩

/-- A text begins as a value does that is no string, array or object, if digits begin it. -/
theorem exists_begins_of_whole (negative : Bool) {w : Text} (hw : Whole w) (s : Text) :
    ∃ c r, minus negative ++ (w ++ s) = c :: r ∧ Begins c ∧ c ∉ openings := by
  obtain ⟨c, r, rfl, hc⟩ := hw.exists_cons
  cases negative with
  | false =>
    refine ⟨c, r ++ s, rfl, begins_of_isDigit hc, ?_⟩
    intro hmem
    have hopen : ∀ d ∈ openings, d.isDigit = false := by decide
    rw [hopen c hmem] at hc
    cases hc
  | true => exact ⟨CodePoint.ofChar '-', c :: (r ++ s), rfl, by decide, by decide⟩

theorem NumberText.exists_begins {t : Text} {n : Number} (h : NumberText t n) :
    ∃ c r, t = c :: r ∧ Begins c ∧ c ∉ openings := by
  obtain ⟨negative, w, s, hw, rfl⟩ := h.exists_whole
  exact exists_begins_of_whole negative hw s

theorem Value.exists_begins {d : Dialect} {t : Text} {v : Json} (h : Value d t v) :
    ∃ c r, t = c :: r ∧ Begins c := by
  cases h with
  | constant hmem =>
    obtain ⟨hlen, hhead, -⟩ := constants_spec d _ hmem
    cases t with
    | nil => cases hlen
    | cons c r => exact ⟨c, r, rfl, (hhead c rfl).1⟩
  | number hn =>
    obtain ⟨c, r, ht, hc, -⟩ := hn.exists_begins
    exact ⟨c, r, ht, hc⟩
  | string hs =>
    obtain ⟨r, rfl⟩ := hs.exists_cons
    exact ⟨_, r, rfl, by decide⟩
  | array => exact ⟨_, _, rfl, by decide⟩
  | object => exact ⟨_, _, rfl, by decide⟩

theorem Value.solid {d : Dialect} {t : Text} {v : Json} (h : Value d t v) : Solid t := by
  obtain ⟨c, r, ht, hc⟩ := h.exists_begins
  exact ⟨c, r, ht, hc.solid⟩

end RequestLine.Json.Grammar
