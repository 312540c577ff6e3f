import RequestLine.Proofs.Json.Grammar

/-!
# Places of a JSON text

The place that a code point leads to depends on nothing but the place before it: whether a value may
begin, a string is open, a number may go on. Brackets are not counted, so texts can keep to their
places and still be no values; but what leaves them is none.

* `Place.step`, `Place.run`: where a code point leads, where a text leads.
* `run_chars`, `run_number`, `fits_items`: the parts of a value keep to their places.
* `fits_value`: so does every value, and a comma or a bracket may follow it.
-/

namespace RequestLine.Json

open Grammar

/-- The places between the code points of a text. -/
inductive Place
  /-- A value may begin, or a bracket close if `closable`. -/
  | value (closable : Bool)
  /-- Behind a value. -/
  | after
  | string
  /-- Behind a backslash. -/
  | escape
  | word
  | minusSign
  | zero
  | whole
  | point
  | fraction
  /-- Behind the letter of an exponent. -/
  | mark
  | sign
  | exponent
  deriving DecidableEq

namespace Place

/-- What may follow a value. -/
def stepAfter (c : CodePoint) : Option Place :=
  if Reader.isBlank c then some .after
  else if c = ',' ∨ c = ':' then some (.value false)
  else if c = ']' ∨ c = '\x7d' then some .after
  else none

/-- What may begin a value. -/
def stepValue (closable : Bool) (c : CodePoint) : Option Place :=
  if Reader.isBlank c then some (.value closable)
  else if c = '\x22' then some .string
  else if c = '[' ∨ c = '\x7b' then some (.value true)
  else if c = '-' then some .minusSign
  else if c = '0' then some .zero
  else if c.isDigit then some .whole
  else if c = 't' ∨ c = 'f' ∨ c = 'n' then some .word
  else if closable ∧ (c = ']' ∨ c = '\x7d') then some .after
  else none

def stepExponent (c : CodePoint) : Option Place :=
  if c = 'e' ∨ c = 'E' then some .mark else stepAfter c

/-- The place that a code point leads to, if it may stand there. -/
def step : Place → CodePoint → Option Place
  | value closable, c => stepValue closable c
  | after, c => stepAfter c
  | string, c =>
    if c = '\x22' then some .after
    else if c = '\\' then some .escape
    else if c.val < 0x20 then none
    else some .string
  | escape, c => if c.val < 0x20 then none else some .string
  | word, c => if c ∈ Text.ofString "truefals" then some .word else stepAfter c
  | minusSign, c => if c = '0' then some .zero else if c.isDigit then some .whole else none
  | zero, c => if c = '.' then some .point else stepExponent c
  | whole, c =>
    if c.isDigit then some .whole else if c = '.' then some .point else stepExponent c
  | point, c => if c.isDigit then some .fraction else none
  | fraction, c => if c.isDigit then some .fraction else stepExponent c
  | mark, c =>
    if c = '+' ∨ c = '-' then some .sign else if c.isDigit then some .exponent else none
  | sign, c => if c.isDigit then some .exponent else none
  | exponent, c => if c.isDigit then some .exponent else stepAfter c

/-- The place that a text leads to, if it keeps to its places. -/
def run (p : Place) (t : Text) : Option Place := t.foldlM step p

/-- A value may end at the place. -/
def Complete (p : Place) : Prop :=
  p = .after ∨ p = .word ∨ p = .zero ∨ p = .whole ∨ p = .fraction ∨ p = .exponent

theorem run_cons (p : Place) (c : CodePoint) (t : Text) :
    p.run (c :: t) = (p.step c).bind fun q => q.run t := rfl

theorem run_append (p : Place) (t u : Text) : p.run (t ++ u) = (p.run t).bind fun q => q.run u :=
  List.foldlM_append

theorem run_append_of {p q : Place} {t : Text} (h : p.run t = some q) (u : Text) :
    p.run (t ++ u) = q.run u := by
  rw [run_append, h, Option.bind_some]

theorem run_cons_of {p q : Place} {c : CodePoint} (h : p.step c = some q) (t : Text) :
    p.run (c :: t) = q.run t := by
  rw [run_cons, h, Option.bind_some]

/-! ## White space and what follows a value -/

theorem isBlank_iff {c : CodePoint} : Reader.isBlank c = true ↔
    c = CodePoint.ofChar ' ' ∨ c = CodePoint.ofChar '\t' ∨ c = CodePoint.ofChar '\n' ∨
      c = CodePoint.ofChar '\r' := by
  have hval : ∀ d : Char, c = CodePoint.ofChar d ↔ c.val = d.toNat := by
    intro d
    constructor
    · rintro rfl
      rfl
    · intro h
      rw [← CodePoint.ofNat_val c, h, ← CodePoint.val_ofChar, CodePoint.ofNat_val]
  simp only [Reader.isBlank, Bool.or_eq_true, beq_iff_eq, hval]
  exact or_assoc.trans or_assoc

namespace Complete

variable {p : Place}

/-- Where a value may end, white space, a comma, a colon or a closing bracket may follow. -/
theorem step_eq (h : p.Complete) {c : CodePoint} (hc : Reader.isBlank c = true ∨ c = ',' ∨ c = ':' ∨
    c = ']' ∨ c = '\x7d') : p.step c = stepAfter c := by
  rw [isBlank_iff] at hc
  rcases hc with (rfl | rfl | rfl | rfl) | rfl | rfl | rfl | rfl <;>
    rcases h with rfl | rfl | rfl | rfl | rfl | rfl <;> rfl

theorem step_comma (h : p.Complete) : p.step ',' = some (.value false) :=
  h.step_eq (.inr (.inl rfl))

theorem step_colon (h : p.Complete) : p.step ':' = some (.value false) :=
  h.step_eq (.inr (.inr (.inl rfl)))

theorem step_bracket (h : p.Complete) : p.step ']' = some .after :=
  h.step_eq (.inr (.inr (.inr (.inl rfl))))

theorem step_brace (h : p.Complete) : p.step '\x7d' = some .after :=
  h.step_eq (.inr (.inr (.inr (.inr rfl))))

theorem run_blank (h : p.Complete) {b : Text} (hb : Blank b) :
    ∃ q : Place, p.run b = some q ∧ q.Complete := by
  induction b generalizing p with
  | nil => exact ⟨p, rfl, h⟩
  | cons c b ih =>
    have hc := hb c List.mem_cons_self
    have hstep : p.step c = some .after := by
      rw [h.step_eq (.inl hc), stepAfter, if_pos hc]
    rw [run_cons_of hstep]
    exact ih (.inl rfl) fun d hd => hb d (List.mem_cons_of_mem c hd)

end Complete

theorem run_value_blank (closable : Bool) {b : Text} (hb : Blank b) :
    (value closable).run b = some (value closable) := by
  induction b with
  | nil => rfl
  | cons c b ih =>
    have hstep : (value closable).step c = some (value closable) :=
      if_pos (hb c List.mem_cons_self)
    rw [run_cons_of hstep]
    exact ih fun d hd => hb d (List.mem_cons_of_mem c hd)

/-! ## Strings -/

theorem step_string {c : CodePoint} (hq : c ≠ quotationMark) (hb : c ≠ backslash)
    (hc : 0x20 ≤ c.val) : step .string c = some .string := by
  rw [step, if_neg hq, if_neg hb, if_neg (by omega)]

theorem run_unitText {digits : Text} {n : Nat} (h : Hex.Writes 4 digits n) :
    run .string (unitText digits) = some .string := by
  change run .string digits = some .string
  have hall := h.hexValue?_ne_none
  clear h
  induction digits with
  | nil => rfl
  | cons c digits ih =>
    have hc := hall c List.mem_cons_self
    have hval : 0x20 ≤ c.val := by
      by_contra hlt
      apply hc
      rw [← CodePoint.ofNat_val c]
      have hnone : ∀ k < 0x20, (CodePoint.ofNat k).hexValue? = none := by decide
      exact hnone c.val (by omega)
    rw [run_cons_of (step_string _ _ hval)]
    · exact ih fun d hd => hall d (List.mem_cons_of_mem c hd)
    · rintro rfl
      exact hc (by decide)
    · rintro rfl
      exact hc (by decide)

theorem run_chars {t s : Text} (h : Chars t s) : run .string t = some .string := by
  induction h with
  | nil => rfl
  | plain hq hb hc _ ih =>
    rw [run_cons_of (step_string hq hb hc)]
    exact ih
  | @escape e c t s hmem _ ih =>
    have hall : ∀ p ∈ escapes, step .escape p.1 = some .string := by decide
    rw [run_cons_of (q := .escape) rfl, run_cons_of (hall _ hmem)]
    exact ih
  | unit hwrites _ _ _ ih =>
    rw [run_append_of (run_unitText hwrites)]
    exact ih
  | pair hfirst hsecond _ _ _ _ ih =>
    rw [run_append_of (run_unitText hfirst), run_append_of (run_unitText hsecond)]
    exact ih

theorem run_stringText {t s : Text} (h : StringText t s) (closable : Bool) :
    (value closable).run t = some .after := by
  cases h with
  | quoted h =>
    rw [run_cons_of (q := .string) rfl, run_append_of (run_chars h)]
    rfl

/-! ## Numbers -/

/-- In a place where digits go on, a run of them stays. -/
theorem run_digits {p : Place} (hp : ∀ c : CodePoint, c.isDigit = true → p.step c = some p)
    {digits : Text} (h : AllDigits digits) : p.run digits = some p := by
  induction digits with
  | nil => rfl
  | cons c digits ih =>
    rw [run_cons_of (hp c (h c List.mem_cons_self))]
    exact ih fun d hd => h d (List.mem_cons_of_mem c hd)

/-- Digits after a place that only one can follow. -/
theorem run_digits_of_ne_nil {p q : Place} (hp : ∀ c : CodePoint, c.isDigit = true → p.step c = some q)
    (hq : ∀ c : CodePoint, c.isDigit = true → q.step c = some q) {digits : Text}
    (hne : digits ≠ []) (h : AllDigits digits) : p.run digits = some q := by
  cases digits with
  | nil => exact absurd rfl hne
  | cons c digits =>
    rw [run_cons_of (hp c (h c List.mem_cons_self))]
    exact run_digits hq fun d hd => h d (List.mem_cons_of_mem c hd)

theorem step_value_digit (closable : Bool) {c : CodePoint} (hc : c.isDigit = true) (h0 : c ≠ '0') :
    (value closable).step c = some .whole := by
  have hblank : ¬ Reader.isBlank c = true := by
    rw [(begins_of_isDigit hc).solid]
    exact Bool.false_ne_true
  have hbracket : ¬ (c = CodePoint.ofChar '[' ∨ c = CodePoint.ofChar '\x7b') := by
    rintro (rfl | rfl) <;> exact absurd hc (by decide)
  rw [step, stepValue, if_neg hblank, if_neg (ne_of_isDigit hc (by decide)), if_neg hbracket,
    if_neg (ne_of_isDigit hc (by decide)), if_neg h0, if_pos hc]

theorem run_whole {w : Text} (h : Whole w) (negative closable : Bool) :
    ∃ q : Place, (value closable).run (minus negative ++ w) = some q ∧ (q = .zero ∨ q = .whole) := by
  cases h with
  | zero =>
    refine ⟨.zero, ?_, .inl rfl⟩
    cases negative <;> rfl
  | @digits c r hc h0 hr =>
    have hstay : ∀ d : CodePoint, d.isDigit = true → step .whole d = some .whole :=
      fun d hd => if_pos hd
    have hgo := run_digits hstay hr
    refine ⟨.whole, ?_, .inr rfl⟩
    cases negative with
    | false =>
      change (value closable).run (c :: r) = _
      rw [run_cons_of (step_value_digit closable hc h0), hgo]
    | true =>
      have hfirst : step .minusSign c = some .whole := by
        rw [step, if_neg h0, if_pos hc]
      change run .minusSign (c :: r) = _
      rw [run_cons_of hfirst, hgo]

theorem run_fraction {p : Place} (hp : p = .zero ∨ p = .whole) {point digits : Text}
    (h : Fraction point digits) :
    ∃ q : Place, p.run point = some q ∧ (q = .zero ∨ q = .whole ∨ q = .fraction) := by
  cases h with
  | absent => exact ⟨p, rfl, hp.imp_right .inl⟩
  | point hne hall =>
    have hstep : p.step '.' = some .point := by
      rcases hp with rfl | rfl <;> rfl
    have hfirst : ∀ c : CodePoint, c.isDigit = true → step .point c = some .fraction :=
      fun c hc => if_pos hc
    have hgo : ∀ c : CodePoint, c.isDigit = true → step .fraction c = some .fraction :=
      fun c hc => if_pos hc
    refine ⟨.fraction, ?_, .inr (.inr rfl)⟩
    rw [run_cons_of hstep]
    exact run_digits_of_ne_nil hfirst hgo hne hall

theorem run_exponent {p : Place} (hp : p = .zero ∨ p = .whole ∨ p = .fraction) {power : Text}
    {e : Int} (h : Exponent power e) : ∃ q : Place, p.run power = some q ∧ q.Complete := by
  cases h with
  | absent =>
    refine ⟨p, rfl, ?_⟩
    rcases hp with rfl | rfl | rfl
    · exact .inr (.inr (.inl rfl))
    · exact .inr (.inr (.inr (.inl rfl)))
    · exact .inr (.inr (.inr (.inr (.inl rfl))))
  | @power e sign digits negative he hsign hne hall =>
    have hstep : p.step e = some .mark := by
      rcases he with rfl | rfl <;> rcases hp with rfl | rfl | rfl <;> rfl
    have hgo : ∀ c : CodePoint, c.isDigit = true → step .exponent c = some .exponent :=
      fun c hc => if_pos hc
    have hfirst : ∀ c : CodePoint, c.isDigit = true → step .sign c = some .exponent :=
      fun c hc => if_pos hc
    have hmark : ∀ c : CodePoint, c.isDigit = true → step .mark c = some .exponent := by
      intro c hc
      have hne : ¬ (c = CodePoint.ofChar '+' ∨ c = CodePoint.ofChar '-') := by
        rintro (rfl | rfl) <;> exact absurd hc (by decide)
      rw [step, if_neg hne, if_pos hc]
    refine ⟨.exponent, ?_, .inr (.inr (.inr (.inr (.inr rfl))))⟩
    rw [run_cons_of hstep]
    cases hsign with
    | absent => exact run_digits_of_ne_nil hmark hgo hne hall
    | plus | minus =>
      rw [run_append_of (q := .sign) rfl]
      exact run_digits_of_ne_nil hfirst hgo hne hall

theorem run_number {t : Text} {n : Number} (h : NumberText t n) (closable : Bool) :
    ∃ q : Place, (value closable).run t = some q ∧ q.Complete := by
  cases h with
  | integer negative hw _ =>
    obtain ⟨p, hp, hplace⟩ := run_whole hw negative closable
    refine ⟨p, hp, ?_⟩
    rcases hplace with rfl | rfl
    · exact .inr (.inr (.inl rfl))
    · exact .inr (.inr (.inr (.inl rfl)))
  | decimal negative hw hpoint hpower _ =>
    obtain ⟨p, hp, hplace⟩ := run_whole hw negative closable
    obtain ⟨q, hq, hplace⟩ := run_fraction hplace hpoint
    rw [← List.append_assoc, run_append_of hp, run_append_of hq]
    exact run_exponent hplace hpower

/-! ## Values -/

/-- A piece that may stand wherever a value may. -/
def Fits (t : Text) : Prop :=
  ∀ closable, ∃ q : Place, (value closable).run t = some q ∧ q.Complete

theorem Fits.blanks {b t a : Text} (h : Fits t) (hb : Blank b) (ha : Blank a) :
    Fits (b ++ (t ++ a)) := by
  intro closable
  obtain ⟨p, hp, hcomplete⟩ := h closable
  rw [run_append_of (run_value_blank closable hb), run_append_of hp]
  exact hcomplete.run_blank ha

theorem Fits.append_comma {t u : Text} (ht : Fits t) (hu : Fits u) :
    Fits (t ++ CodePoint.ofChar ',' :: u) := by
  intro closable
  obtain ⟨p, hp, hcomplete⟩ := ht closable
  rw [run_append_of hp, run_cons_of hcomplete.step_comma]
  exact hu false

theorem fits_items {ps : List Text} {t : Text} (h : Items ps t) (hps : ∀ p ∈ ps, Fits p) :
    Fits t := by
  induction h with
  | last hbefore hafter => exact (hps _ List.mem_cons_self).blanks hbefore hafter
  | @cons before p after t ps hbefore hafter _ ih =>
    have hfirst := (hps p List.mem_cons_self).blanks hbefore hafter
    have hrest := ih fun q hq => hps q (List.mem_cons_of_mem p hq)
    have hboth := hfirst.append_comma hrest
    rwa [List.append_assoc, List.append_assoc] at hboth

theorem run_separated {ps : List Text} {t : Text} (h : Separated ps t) (hps : ∀ p ∈ ps, Fits p) :
    ∃ q : Place, run (.value true) t = some q ∧ (q = .value true ∨ q.Complete) := by
  cases h with
  | none hb => exact ⟨_, run_value_blank true hb, .inl rfl⟩
  | some h =>
    obtain ⟨q, hq, hcomplete⟩ := fits_items h hps true
    exact ⟨q, hq, .inr hcomplete⟩

/-- Pieces between brackets or braces may stand wherever a value may. -/
theorem fits_separated {opening closing : CodePoint} {ps : List Text} {t : Text}
    (hopening : ∀ closable, (value closable).step opening = some (.value true))
    (hempty : (value true).step closing = some .after)
    (hclosing : ∀ q : Place, q.Complete → q.step closing = some .after)
    (h : Separated ps t) (hps : ∀ p ∈ ps, Fits p) : Fits (opening :: (t ++ [closing])) := by
  intro closable
  obtain ⟨q, hq, hplace⟩ := run_separated h hps
  have hclose : q.step closing = some .after := by
    rcases hplace with rfl | hcomplete
    · exact hempty
    · exact hclosing q hcomplete
  refine ⟨.after, ?_, .inl rfl⟩
  rw [run_cons_of (hopening closable), run_append_of hq, run_cons_of hclose]
  rfl

theorem fits_member {m : Member} (hm : m.Spelled) (hv : Fits m.valueText) : Fits m.text := by
  intro closable
  have hafter : Complete .after := .inl rfl
  obtain ⟨p, hp, hcomplete⟩ := hafter.run_blank hm.before
  have hvalue := hv false
  rw [← run_append_of (run_value_blank false hm.after)] at hvalue
  rw [Member.text, run_append_of (run_stringText hm.name closable), run_append_of hp,
    run_cons_of hcomplete.step_colon]
  exact hvalue

/-- A value may stand wherever one may begin, and nothing in it leaves its place. -/
theorem fits_value {t : Text} {v : Json} (h : Value .strict t v) : Fits t := by
  induction h with
  | @constant t v hmem =>
    have hall : ∀ p ∈ Reader.constants .strict, ∀ closable,
        (value closable).run p.1 = some .word := by decide
    exact fun closable => ⟨.word, hall _ hmem closable, .inr (.inl rfl)⟩
  | number hn => exact run_number hn
  | string hs => exact fun closable => ⟨.after, run_stringText hs closable, .inl rfl⟩
  | @array items t _ hseparated ih =>
    apply fits_separated (fun closable => by cases closable <;> rfl) rfl
      (fun q hq => hq.step_bracket) hseparated
    intro p hp
    obtain ⟨i, hi, rfl⟩ := List.mem_map.1 hp
    exact ih i hi
  | @object members t hspelled _ hseparated ih =>
    apply fits_separated (fun closable => by cases closable <;> rfl) rfl
      (fun q hq => hq.step_brace) hseparated
    intro p hp
    obtain ⟨m, hm, rfl⟩ := List.mem_map.1 hp
    exact fits_member (hspelled m hm) (ih m hm)

theorem fits_document {t : Text} {v : Json} (h : Document .strict t v) : Fits t := by
  cases h with
  | framed hbefore hafter hvalue => exact (fits_value hvalue).blanks hbefore hafter

end Place

end RequestLine.Json
