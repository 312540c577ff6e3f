import RequestLine.Proofs.Dictionary
import RequestLine.Proofs.Yaml.QuotedText

/-!
# Tokens between brackets

Outside all blocks a text of brackets, commas, colons and strings gives its tokens one by one, with
gaps between them. No key is required there, so none can be missing.

* `Flowing`: what is known of a state in which such a text is read.
* `Reading`: the tokens that all these states come to.
* `reading_open`, `reading_close`, `reading_comma`, `reading_string`, `reading_key`, `reading_end`:
  one step of the reading for each mark.
-/

namespace RequestLine.Yaml.Tokens

open Json.Grammar

/-! ## States -/

/-- The state has a text still to read and tokens found, inside so many brackets and in no block.
Where it is `opened`, a key may start. -/
structure Flowing (s : Tokens) (rest : Text) (found : List Token) (level : Nat) (opened : Bool) :
    Prop where
  text : s.cursor.rest = rest
  tokens : s.found = found
  count : s.count = found.length
  depth : s.flowLevel = level
  indent : s.indent = -1
  outer : s.outer = []
  allowed : opened = true → s.keyAllowed = true
  free : ∀ p ∈ s.keys, p.2.required = false

/-- The last token may be a key that a colon here would come for in time. -/
def Keyed (s : Tokens) : Prop :=
  ∃ k, s.keys.get? s.flowLevel = some k ∧ k.position + 1 = s.count ∧ k.line = s.cursor.line ∧
    s.cursor.index ≤ k.index + 1024

variable {s : Tokens} {rest r g : Text} {found : List Token} {level : Nat} {opened : Bool}

namespace Flowing

theorem withKeys (h : Flowing s rest found level opened) {keys : Dictionary Nat PossibleKey}
    (hkeys : ∀ p ∈ keys, p.2.required = false) :
    Flowing { s with keys := keys } rest found level opened :=
  ⟨h.text, h.tokens, h.count, h.depth, h.indent, h.outer, h.allowed, hkeys⟩

theorem dropStaleKeys (h : Flowing s rest found level opened) :
    ∃ s₁, s.dropStaleKeys = .ok s₁ ∧ Flowing s₁ rest found level opened ∧ s₁.cursor = s.cursor ∧
      (s.Keyed → s₁.Keyed) := by
  have hany : (s.keys.any fun p => s.isStale p.2 && p.2.required) = false := by
    rw [List.any_eq_false]
    intro p hp
    simp [h.free p hp]
  have hkept : ∀ p ∈ s.keys.filter fun p => !s.isStale p.2, p.2.required = false := fun p hp =>
    h.free p (List.mem_filter.1 hp).1
  refine ⟨{ s with keys := s.keys.filter fun p => !s.isStale p.2 }, ?_, h.withKeys hkept, rfl, ?_⟩
  · rw [Tokens.dropStaleKeys, hany]
    rfl
  · rintro ⟨k, hk, hposition, hline, hindex⟩
    refine ⟨k, Dictionary.get?_filter hk ?_, hposition, hline, hindex⟩
    have hfresh : s.isStale k = false := by
      simp only [isStale, hline, Bool.or_eq_false_iff, decide_eq_false_iff_not]
      exact ⟨fun hne => hne rfl, by omega⟩
    rw [hfresh]
    rfl

theorem dropKey (h : Flowing s rest found level opened) :
    ∃ s₁, s.dropKey = .ok s₁ ∧ Flowing s₁ rest found level opened ∧ s₁.cursor = s.cursor := by
  unfold Tokens.dropKey
  split
  · exact ⟨s, rfl, h, rfl⟩
  · rename_i k hk
    have hfree : k.required = false := h.free _ (Dictionary.mem_of_get? hk)
    rw [if_neg (by simp [hfree])]
    exact ⟨_, rfl, h.withKeys fun p hp => h.free p (List.mem_filter.1 hp).1, rfl⟩

/-- No key has to start outside all blocks. -/
theorem saveKey (h : Flowing s rest found level opened) :
    ∃ s₁, s.saveKey = .ok s₁ ∧ Flowing s₁ rest found level opened ∧ s₁.cursor = s.cursor ∧
      (s.keyAllowed = true → ∃ k, s₁.keys.get? level = some k ∧ k.position = found.length ∧
        k.index = s.cursor.index ∧ k.line = s.cursor.line) := by
  unfold Tokens.saveKey
  by_cases hallowed : s.keyAllowed = true
  · obtain ⟨s₁, hdrop, h₁, hcursor⟩ := h.dropKey
    have hfree : (!s₁.inFlow && s₁.indent == (s₁.cursor.column : Int)) = false := by
      have hne : (-1 : Int) ≠ (s₁.cursor.column : Int) := by omega
      rw [h₁.indent, beq_eq_false_iff_ne.2 hne, Bool.and_false]
    rw [if_pos hallowed, hdrop]
    refine ⟨_, rfl, h₁.withKeys fun p hp => ?_, hcursor, fun _ => ?_⟩
    · rcases Dictionary.mem_set hp with hp | rfl
      · exact h₁.free p hp
      · exact hfree
    · refine ⟨_, by rw [h₁.depth, Dictionary.get?_set, if_pos rfl], h₁.count, ?_, ?_⟩ <;>
        rw [hcursor]
  · rw [if_neg hallowed]
    exact ⟨s, rfl, h, rfl, fun hallowed₁ => absurd hallowed₁ hallowed⟩

/-- One more token of one code point, and the text after it. -/
theorem pushMark (h : Flowing s rest found level opened) (t : Token) (allowed : Bool) {n m : Nat}
    (hn : n = m) :
    Flowing { s.pushMark t 1 with flowLevel := n, keyAllowed := allowed } rest.tail (t :: found) m
      allowed where
  text := by rw [← h.text]; exact Cursor.rest_advance s.cursor
  tokens := congrArg (t :: ·) h.tokens
  count := congrArg (· + 1) h.count
  depth := hn
  indent := h.indent
  outer := h.outer
  allowed := id
  free := h.free

theorem unwind (h : Flowing s rest found level opened) (column : Int) : s.unwind column = s := by
  unfold Tokens.unwind
  split
  · rfl
  · have hindent := h.indent
    have houter := h.outer
    cases s
    simp only at hindent houter
    subst hindent houter
    rfl

theorem at_mark (h : Flowing s (g ++ rest) found level opened) (hg : Gap g) (hrest : AtToken rest) :
    s.cursor.at_ (CodePoint.ofNat 0xFEFF) = false := by
  rw [Cursor.at_, Cursor.next?, h.text, beq_eq_false_iff_ne]
  intro hhead
  cases g with
  | nil => exact (hrest _ hhead).mark rfl
  | cons c g =>
    obtain rfl := Option.some.inj hhead
    rcases hg _ List.mem_cons_self with h | h <;> exact absurd h (by decide)

/-- The state comes over a gap to the next token. -/
theorem approach (h : Flowing s (g ++ rest) found level opened) (hg : Gap g)
    (hrest : AtToken rest) :
    ∃ s₁, s.approach = .ok s₁ ∧ Flowing s₁ rest found level opened ∧
      (g = [] → s.Keyed → s₁.Keyed) := by
  have hlength : g.length < s.cursor.rest.length + 1 := by
    rw [h.text, List.length_append]
    omega
  have hnext := toNextToken_gap hg hrest h.text hlength
  have hstay : g = [] → toNextToken (s.cursor.rest.length + 1) s.cursor = (s.cursor, false) := by
    rintro rfl
    exact toNextToken_of_atToken (by rw [h.text]; exact hrest)
  unfold Tokens.approach
  simp only [h.at_mark hg hrest, Bool.false_eq_true, and_false, if_false]
  generalize toNextToken (s.cursor.rest.length + 1) s.cursor = p at hnext hstay
  obtain ⟨c, newLine⟩ := p
  have h₁ : Flowing
      { s with cursor := c, keyAllowed := s.keyAllowed || (newLine && !s.inFlow) } rest found level
      opened :=
    ⟨hnext, h.tokens, h.count, h.depth, h.indent, h.outer,
      fun hopened => by rw [h.allowed hopened, Bool.true_or], h.free⟩
  obtain ⟨s₂, hdrop, h₂, -, hkeyed⟩ := h₁.dropStaleKeys
  refine ⟨s₂, ?_, h₂, fun hg hs => hkeyed ?_⟩
  · simp only [hdrop, bind, Except.bind, h₂.unwind, pure, Except.pure]
  · obtain ⟨rfl, -⟩ := Prod.mk.inj (hstay hg)
    exact hs

/-- One step: over a gap, and by the token there. -/
theorem step (h : Flowing s (g ++ rest) found level opened) (hg : Gap g) {x : CodePoint}
    (hrest : rest = x :: r) (hx : StartsToken x) :
    ∃ s₁, Flowing s₁ rest found level opened ∧ (g = [] → s.Keyed → s₁.Keyed) ∧
      ∀ {s₂ found₂ level₂ opened₂ rest₂}, s₁.next x = .ok s₂ →
        Flowing s₂ rest₂ found₂ level₂ opened₂ →
        ∃ s₃, s.step = .ok (s₃, false) ∧ Flowing s₃ rest₂ found₂ level₂ opened₂ ∧
          (s₂.Keyed → s₃.Keyed) := by
  subst hrest
  have hat : AtToken (x :: r) := fun c hc => Option.mem_some_iff.1 hc ▸ hx
  obtain ⟨s₁, happroach, h₁, hkeyed⟩ := h.approach hg hat
  refine ⟨s₁, h₁, hkeyed, fun hnext h₂ => ?_⟩
  obtain ⟨s₃, hdrop, h₃, -, hkeyed₃⟩ := h₂.dropStaleKeys
  refine ⟨s₃, ?_, h₃, hkeyed₃⟩
  have hhead : s₁.cursor.next? = some x := by rw [Cursor.next?, h₁.text, List.head?_cons]
  simp only [Tokens.step, happroach, bind, Except.bind, hhead, hnext, hdrop, pure, Except.pure]

end Flowing

/-! ## Marks -/

/-- The brackets that open a collection, and their tokens. -/
def openings : List (CodePoint × Token) :=
  [(CodePoint.ofChar '[', .flowSequenceStart), (CodePoint.ofChar '\x7b', .flowMappingStart)]

/-- The brackets that close a collection, and their tokens. -/
def closings : List (CodePoint × Token) :=
  [(CodePoint.ofChar ']', .flowSequenceEnd), (CodePoint.ofChar '\x7d', .flowMappingEnd)]

theorem startsToken_of_mem_marks : ∀ x ∈ Text.ofString "[]\x7b\x7d,:\x22", StartsToken x := by
  have hall : ∀ x ∈ Text.ofString "[]\x7b\x7d,:\x22", x ≠ CodePoint.ofChar ' ' ∧ isBreak x = false ∧
      x ≠ CodePoint.ofChar '#' ∧ x ≠ CodePoint.ofNat 0xFEFF := by
    decide
  exact fun x hx => ⟨(hall x hx).1, (hall x hx).2.1, (hall x hx).2.2.1, (hall x hx).2.2.2⟩

section

variable {x : CodePoint} {t : Token}

/-- No line between documents starts with one of the marks. -/
theorem follows_marker (hrest : s.cursor.rest = x :: r)
    (hx : x ∈ Text.ofString "[]\x7b\x7d,:\x22") :
    s.cursor.follows "---" = false ∧ s.cursor.follows "..." = false := by
  have hall : ∀ x ∈ Text.ofString "[]\x7b\x7d,:\x22",
      x ≠ CodePoint.ofChar '-' ∧ x ≠ CodePoint.ofChar '.' := by
    decide
  exact ⟨Cursor.follows_of_ne hrest (hall x hx).1, Cursor.follows_of_ne hrest (hall x hx).2⟩

theorem next_open (hrest : s.cursor.rest = x :: r) (hx : (x, t) ∈ openings) :
    s.next x = s.openBracket t := by
  simp only [openings, List.mem_cons, Prod.mk.injEq, List.not_mem_nil, or_false] at hx
  rcases hx with ⟨rfl, rfl⟩ | ⟨rfl, rfl⟩ <;>
    · obtain ⟨hdashes, hdots⟩ := follows_marker hrest (by decide)
      simp only [next, hdashes, hdots, Bool.false_eq_true, and_false, if_false]
      rfl

theorem next_close (hrest : s.cursor.rest = x :: r) (hx : (x, t) ∈ closings) :
    s.next x = s.closeBracket t := by
  simp only [closings, List.mem_cons, Prod.mk.injEq, List.not_mem_nil, or_false] at hx
  rcases hx with ⟨rfl, rfl⟩ | ⟨rfl, rfl⟩ <;>
    · obtain ⟨hdashes, hdots⟩ := follows_marker hrest (by decide)
      simp only [next, hdashes, hdots, Bool.false_eq_true, and_false, if_false]
      rfl

theorem next_comma (hrest : s.cursor.rest = CodePoint.ofChar ',' :: r) :
    s.next (CodePoint.ofChar ',') = s.flowEntry := by
  obtain ⟨hdashes, hdots⟩ := follows_marker hrest (by decide)
  simp only [next, hdashes, hdots, Bool.false_eq_true, and_false, if_false]
  rfl

theorem next_colon (hrest : s.cursor.rest = CodePoint.ofChar ':' :: r) (hflow : s.inFlow = true) :
    s.next (CodePoint.ofChar ':') = s.value := by
  obtain ⟨hdashes, hdots⟩ := follows_marker hrest (by decide)
  simp only [next, hdashes, hdots, Bool.false_eq_true, and_false, if_false, hflow, Bool.true_or]
  rfl

theorem next_string (hrest : s.cursor.rest = quotationMark :: r) :
    s.next quotationMark = s.keyToken fun c => do
      let (text, c) ← takeQuoted true c
      return (.scalar text false, c) := by
  obtain ⟨hdashes, hdots⟩ := follows_marker hrest (by decide)
  simp only [next, hdashes, hdots, Bool.false_eq_true, and_false, if_false]
  rfl

end

/-! ## What the marks do -/

namespace Flowing

variable {x : CodePoint} {t : Token}

theorem openBracket (h : Flowing s (x :: r) found level opened) (t : Token) :
    ∃ s₁, s.openBracket t = .ok s₁ ∧ Flowing s₁ r (t :: found) (level + 1) true := by
  obtain ⟨s₁, hsave, h₁, -, -⟩ := h.saveKey
  exact ⟨_, by rw [Tokens.openBracket, hsave]; rfl, h₁.pushMark t true (congrArg (· + 1) h₁.depth)⟩

theorem closeBracket (h : Flowing s (x :: r) found (level + 1) opened) (t : Token) :
    ∃ s₁, s.closeBracket t = .ok s₁ ∧ Flowing s₁ r (t :: found) level false := by
  obtain ⟨s₁, hdrop, h₁, -⟩ := h.dropKey
  exact ⟨_, by rw [Tokens.closeBracket, hdrop]; rfl,
    h₁.pushMark t false (congrArg (· - 1) h₁.depth)⟩

theorem flowEntry (h : Flowing s (x :: r) found level opened) :
    ∃ s₁, s.flowEntry = .ok s₁ ∧ Flowing s₁ r (.flowEntry :: found) level true := by
  obtain ⟨s₁, hdrop, h₁, -⟩ := h.dropKey
  exact ⟨_, by rw [Tokens.flowEntry, hdrop]; rfl, h₁.pushMark .flowEntry true h₁.depth⟩

/-- A string is a scalar, and a key if a colon follows. -/
theorem string {u v : Text} (h : Flowing s (u ++ r) found level opened) (hu : StringText u v)
    (hprinted : ∀ c ∈ u, c.IsPrinted) :
    ∃ s₁, s.next quotationMark = .ok s₁ ∧
      Flowing s₁ r (.scalar v.halved false :: found) level false ∧
      (opened = true → u.length ≤ 1024 → s₁.Keyed) := by
  obtain ⟨s₁, hsave, h₁, hcursor, hkey⟩ := h.saveKey
  have htake := takeQuoted_string hu hprinted h₁.text
  have hrest : s.cursor.rest = quotationMark :: (u.tail ++ r) := by
    rw [h.text]
    cases hu
    rfl
  refine ⟨{ s₁.push (.scalar v.halved false) with
    cursor := s₁.cursor.skip u.length, keyAllowed := false }, ?_, ?_, ?_⟩
  · rw [next_string hrest, keyToken, hsave]
    simp only [bind, Except.bind, htake, pure, Except.pure]
  · refine ⟨?_, congrArg (_ :: ·) h₁.tokens, congrArg (· + 1) h₁.count, h₁.depth, h₁.indent,
      h₁.outer, fun hallowed => (by cases hallowed), h₁.free⟩
    rw [Cursor.rest_skip, h₁.text, List.drop_left]
  · intro hopened hlength
    obtain ⟨k, hget, hposition, hindex, hline⟩ := hkey (h.allowed hopened)
    refine ⟨k, ?_, ?_, ?_, ?_⟩
    · rw [← hget, ← h₁.depth]
      rfl
    · rw [hposition, ← h₁.count]
      rfl
    · rw [hline, ← hcursor]
      exact (Cursor.line_skip h₁.text fun c hc => (hprinted c hc).isBreak).symm
    · have hle : u.length ≤ s₁.cursor.rest.length := by
        rw [h₁.text, List.length_append]
        omega
      have hskip := Cursor.index_skip hle
      rw [hindex, ← hcursor]
      show (s₁.cursor.skip u.length).index ≤ s₁.cursor.index + 1024
      omega

/-- The colon after a key puts the mark of a key in front of it. -/
theorem value (h : Flowing s (x :: r) (t :: found) level opened) (hkey : s.Keyed)
    (hlevel : 0 < level) :
    ∃ s₁, s.value = .ok s₁ ∧ Flowing s₁ r (.value :: t :: .key :: found) level false := by
  obtain ⟨k, hget, hposition, -, -⟩ := hkey
  have hlater : s.count - k.position = 1 := by omega
  have hflow : s.inFlow = true := by
    rw [inFlow, h.depth]
    exact decide_eq_true (Nat.ne_of_gt hlevel)
  -- the key stands in front of the last token
  have h₁ : Flowing ({ s with keys := s.keys.filter fun p => p.1 ≠ s.flowLevel }.insert k.position
      .key) (x :: r) (t :: .key :: found) level opened := by
    refine ⟨h.text, ?_, ?_, h.depth, h.indent, h.outer, h.allowed, fun p hp => ?_⟩
    · simp only [insert, hlater, h.tokens]
      rfl
    · exact congrArg (· + 1) h.count
    · exact h.free p (List.mem_filter.1 hp).1
  have hflow₁ : ({ s with keys := s.keys.filter fun p => p.1 ≠ s.flowLevel }.insert k.position
      .key).inFlow = true := hflow
  refine ⟨_, ?_, h₁.pushMark .value false h₁.depth⟩
  simp only [Tokens.value, hget, hflow₁, if_true]
  rfl

end Flowing

/-! ## Reading on -/

/-- The tokens that a state comes to. -/
def Yields (s : Tokens) (ts : List Token) : Prop :=
  ∀ fuel, s.cursor.rest.length < fuel → readAll fuel s = ts

/-- The tokens that every state with the text still to read and the tokens found comes to. -/
def Reading (rest : Text) (found : List Token) (level : Nat) (opened : Bool)
    (ts : List Token) : Prop :=
  ∀ s, Flowing s rest found level opened → Yields s ts

variable {ts : List Token}

theorem yields_of_step {s₁ : Tokens} (hstep : s.step = .ok (s₁, false))
    (hlength : s₁.cursor.rest.length < s.cursor.rest.length) (h : Yields s₁ ts) : Yields s ts := by
  intro fuel hfuel
  obtain ⟨fuel, rfl⟩ := Nat.exists_eq_succ_of_ne_zero (Nat.ne_zero_of_lt hfuel)
  rw [readAll, hstep]
  exact h fuel (by omega)

/-- A token that leads on is read over a gap. -/
theorem reading_of_next {x : CodePoint} {rest₁ : Text} {found₁ : List Token} {level₁ : Nat}
    {opened₁ : Bool} (hg : Gap g) (hx : x ∈ Text.ofString "[]\x7b\x7d,:\x22")
    (hnext : ∀ s, Flowing s (x :: r) found level opened →
      ∃ s₁, s.next x = .ok s₁ ∧ Flowing s₁ rest₁ found₁ level₁ opened₁)
    (hlength : rest₁.length ≤ r.length) (h : Reading rest₁ found₁ level₁ opened₁ ts) :
    Reading (g ++ x :: r) found level opened ts := by
  intro s hs
  obtain ⟨s₁, h₁, -, hstep⟩ := hs.step hg rfl (startsToken_of_mem_marks x hx)
  obtain ⟨s₂, hnext, h₂⟩ := hnext s₁ h₁
  obtain ⟨s₃, hstep, h₃, -⟩ := hstep hnext h₂
  refine yields_of_step hstep ?_ (h s₃ h₃)
  rw [h₃.text, hs.text, List.length_append, List.length_cons]
  omega

theorem reading_open {x : CodePoint} {t : Token} (hg : Gap g) (hx : (x, t) ∈ openings)
    (h : Reading r (t :: found) (level + 1) true ts) :
    Reading (g ++ x :: r) found level opened ts := by
  have hmark : ∀ p ∈ openings, p.1 ∈ Text.ofString "[]\x7b\x7d,:\x22" := by
    simp only [openings, List.forall_mem_cons, List.not_mem_nil, false_implies, implies_true,
      and_true]
    decide
  refine reading_of_next hg (hmark _ hx) (fun s hs => ?_) (Nat.le_refl _) h
  rw [next_open hs.text hx]
  exact hs.openBracket t

theorem reading_close {x : CodePoint} {t : Token} (hg : Gap g) (hx : (x, t) ∈ closings)
    (h : Reading r (t :: found) level false ts) :
    Reading (g ++ x :: r) found (level + 1) opened ts := by
  have hmark : ∀ p ∈ closings, p.1 ∈ Text.ofString "[]\x7b\x7d,:\x22" := by
    simp only [closings, List.forall_mem_cons, List.not_mem_nil, false_implies, implies_true,
      and_true]
    decide
  refine reading_of_next hg (hmark _ hx) (fun s hs => ?_) (Nat.le_refl _) h
  rw [next_close hs.text hx]
  exact hs.closeBracket t

theorem reading_comma (hg : Gap g) (h : Reading r (.flowEntry :: found) level true ts) :
    Reading (g ++ CodePoint.ofChar ',' :: r) found level opened ts := by
  refine reading_of_next hg (by decide) (fun s hs => ?_) (Nat.le_refl _) h
  rw [next_comma hs.text]
  exact hs.flowEntry

theorem reading_string (hg : Gap g) {u v : Text} (hu : StringText u v)
    (hprinted : ∀ c ∈ u, c.IsPrinted)
    (h : Reading r (.scalar v.halved false :: found) level false ts) :
    Reading (g ++ (u ++ r)) found level opened ts := by
  obtain ⟨u', rfl⟩ : ∃ u', u = quotationMark :: u' := hu.exists_cons
  refine reading_of_next hg (by decide) (fun s hs => ?_) ?_ h
  · obtain ⟨s₁, hnext, h₁, -⟩ := hs.string hu hprinted
    exact ⟨s₁, hnext, h₁⟩
  · show r.length ≤ (u' ++ r).length
    rw [List.length_append]
    omega

/-- A string and the colon behind it. -/
theorem reading_key (hg : Gap g) {u v : Text} (hu : StringText u v)
    (hprinted : ∀ c ∈ u, c.IsPrinted) (hlength : u.length ≤ 1024) (hlevel : 0 < level)
    (h : Reading r (.value :: .scalar v.halved false :: .key :: found) level false ts) :
    Reading (g ++ (u ++ CodePoint.ofChar ':' :: r)) found level true ts := by
  intro s hs
  obtain ⟨u', hcons⟩ := hu.exists_cons
  have hrest : u ++ CodePoint.ofChar ':' :: r =
      quotationMark :: (u' ++ CodePoint.ofChar ':' :: r) := by
    rw [hcons]
    rfl
  obtain ⟨s₁, h₁, -, hstep⟩ := hs.step hg hrest (startsToken_of_mem_marks _ (by decide))
  obtain ⟨s₂, hnext, h₂, hkeyed⟩ := h₁.string hu hprinted
  obtain ⟨s₃, hstep, h₃, hkept⟩ := hstep hnext h₂
  obtain ⟨s₄, h₄, hkeyed₄, hstep₄⟩ :=
    Flowing.step (g := []) h₃ gap_nil rfl (startsToken_of_mem_marks _ (by decide))
  obtain ⟨s₅, hvalue, h₅⟩ := h₄.value (hkeyed₄ rfl (hkept (hkeyed rfl hlength))) hlevel
  have hflow : s₄.inFlow = true := by
    rw [inFlow, h₄.depth]
    exact decide_eq_true (Nat.ne_of_gt hlevel)
  obtain ⟨s₆, hstep₄, h₆, -⟩ := hstep₄ ((next_colon h₄.text hflow).trans hvalue) h₅
  refine yields_of_step hstep ?_ (yields_of_step hstep₄ ?_ (h s₆ h₆))
  · rw [h₃.text, hs.text, hrest]
    simp only [List.length_append, List.length_cons]
    omega
  · rw [h₆.text, h₃.text, List.length_cons]
    omega

/-- Nothing but a gap is left. -/
theorem reading_end (hg : Gap g) : Reading g found level opened found.reverse := by
  intro s hs fuel hfuel
  obtain ⟨fuel, rfl⟩ := Nat.exists_eq_succ_of_ne_zero (Nat.ne_zero_of_lt hfuel)
  have hs' : Flowing s (g ++ []) found level opened := by rwa [List.append_nil]
  obtain ⟨s₁, happroach, h₁, -⟩ := hs'.approach hg (fun c hc => by cases hc)
  obtain ⟨s₂, hdrop, h₂, -⟩ := h₁.dropKey
  have hhead : s₁.cursor.next? = none := by rw [Cursor.next?, h₁.text, List.head?_nil]
  have hstep : s.step = .ok ({ s₂ with keyAllowed := false }, true) := by
    simp only [step, happroach, bind, Except.bind, hhead, leaveDocument, h₁.unwind, hdrop, pure,
      Except.pure]
  rw [readAll, hstep]
  exact congrArg List.reverse h₂.tokens

/-- The tokens of a text are those that its beginning comes to. -/
theorem ofText_of_reading {t : Text} (h : Reading t [] 0 true ts) : ofText t = ts :=
  h (start t) ⟨rfl, rfl, rfl, rfl, rfl, rfl, fun _ => rfl, fun _ hp => by cases hp⟩ _
    (Nat.lt_succ_self _)

end RequestLine.Yaml.Tokens
