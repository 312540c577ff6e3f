import RequestLine.Proofs.Json.Printing
import RequestLine.Proofs.Source
import RequestLine.Proofs.Yaml.FlowData
import RequestLine.Proofs.Yaml.FlowTokens

/-!
# JSON statement files

A file with statements may be a JSON text. It is read as a YAML document, and the two languages
agree on all such texts in printable ASCII, but for the pairs of escapes that YAML does not know.

* `StatementsText`: the JSON texts of a list of statements, or of one statement.
* `StatementsText.parse?`: what they are in JSON; `load_statementsText`: what is loaded from them.
* `listText`, `payloadText`: how lists and objects with statements are written.
* `load_json_statements`: when the statements of a JSON text are loaded as they are.
-/

namespace RequestLine.Source

open Yaml Json.Grammar

/-! ## Texts -/

/-- A string in printable ASCII. -/
structure AsciiString (t s : Text) : Prop where
  string : StringText t s
  printed : ∀ c ∈ t, c.IsPrinted

/-- The name of the member that holds a statement, as a string. -/
def nameText : Text := Json.quote Json.Escape.ascii memberName

/-- An object whose only member is the statement. -/
inductive PayloadText : Text → Text → Prop
  | payload {g₁ g₂ g₃ t s : Text} : Gap g₁ → Gap g₂ → Gap g₃ → AsciiString t s →
      PayloadText (CodePoint.ofChar '\x7b' :: (g₁ ++ (nameText ++ CodePoint.ofChar ':' ::
        (g₂ ++ (t ++ (g₃ ++ [CodePoint.ofChar '\x7d'])))))) s

/-- An item of a list: the statement as a string or in an object. -/
inductive ItemText : Text → Text → Prop
  | string {t s : Text} : AsciiString t s → ItemText t s
  | payload {t s : Text} : PayloadText t s → ItemText t s

/-- The items of a list, with commas between them. -/
inductive ItemsText : Text → List Text → Prop
  | last {g₁ g₂ t s : Text} : Gap g₁ → ItemText t s → Gap g₂ → ItemsText (g₁ ++ (t ++ g₂)) [s]
  | more {g₁ g₂ t s u : Text} {ss : List Text} : Gap g₁ → ItemText t s → Gap g₂ →
      ItemsText u ss → ItemsText (g₁ ++ (t ++ (g₂ ++ CodePoint.ofChar ',' :: u))) (s :: ss)

/-- A list of statements, or one statement in an object. -/
inductive StatementsText : Text → List Text → Prop
  | list {g₁ g₂ u : Text} {ss : List Text} : Gap g₁ → ItemsText u ss → Gap g₂ →
      StatementsText (g₁ ++ CodePoint.ofChar '[' :: (u ++ CodePoint.ofChar ']' :: g₂)) ss
  | single {g₁ g₂ t s : Text} : Gap g₁ → PayloadText t s → Gap g₂ →
      StatementsText (g₁ ++ (t ++ g₂)) [s]

/-! ## Printed code points -/

theorem isPrinted_lower (width n : Nat) : ∀ c ∈ Hex.lower width n, c.IsPrinted := by
  have hdigit : ∀ m < 16, 0x20 ≤ (Hex.digit 0x61 m).val ∧ (Hex.digit 0x61 m).val ≤ 0x7E := by
    decide
  unfold Hex.lower
  induction width generalizing n with
  | zero => exact fun c hc => by cases hc
  | succ width ih =>
    rw [Hex.digits, List.forall_mem_append, List.forall_mem_singleton]
    exact ⟨ih _, hdigit _ (Nat.mod_lt n (by decide))⟩

theorem isPrinted_short {c : CodePoint} {t : Text} (h : Json.Escape.short? c = some t) :
    ∀ d ∈ t, d.IsPrinted := by
  have hall : ∀ t ∈ [Text.ofString "\\\x22", "\\\\", "\\n", "\\r", "\\t", "\\b", "\\f"],
      ∀ d ∈ t, 0x20 ≤ d.val ∧ d.val ≤ 0x7E := by
    decide
  refine hall t ?_
  unfold Json.Escape.short? at h
  repeat'
    split at h
    · obtain rfl := Option.some.inj h
      decide
  cases h

/-- A code point is written in printable ASCII. -/
theorem isPrinted_ascii (c : CodePoint) : ∀ d ∈ Json.Escape.ascii c, d.IsPrinted := by
  have hunit : ∀ n, ∀ d ∈ Json.Escape.unit n, d.IsPrinted := by
    have hstart : ∀ d ∈ Text.ofString "\\u", 0x20 ≤ d.val ∧ d.val ≤ 0x7E := by decide
    intro n
    rw [Json.Escape.unit, List.forall_mem_append]
    exact ⟨hstart, isPrinted_lower 4 n⟩
  unfold Json.Escape.ascii
  split
  · rename_i t ht
    exact isPrinted_short ht
  · split
    · rename_i hc
      rw [List.forall_mem_singleton]
      exact ⟨hc.1, Nat.le_of_lt_succ hc.2⟩
    · unfold Json.Escape.numeric
      split
      · exact hunit _
      · rw [List.forall_mem_append]
        exact ⟨hunit _, hunit _⟩

/-- A text without surrogates is such a string. -/
theorem asciiString_quote {s : Text} (hs : s.hasSurrogate = false) :
    AsciiString (Json.quote Json.Escape.ascii s) s where
  string := by
    have hscalar : ∀ c ∈ s, ¬ IsHigh c.val := fun c hc hhigh =>
      List.any_eq_false.1 hs c hc
        (CodePoint.isSurrogate_iff.2 ⟨hhigh.1, Nat.le_trans hhigh.2 (by decide)⟩)
    refine Json.stringText_quote (chars_flatMap spelling_ascii (List.Pairwise.isChain ?_))
    exact List.pairwise_of_forall_mem_list fun c hc _ _ hhigh => absurd hhigh (hscalar c hc)
  printed := by
    have hmark : ∀ c ∈ Text.ofString "\x22", 0x20 ≤ c.val ∧ c.val ≤ 0x7E := by decide
    rw [Json.quote, List.forall_mem_append, List.forall_mem_append]
    refine ⟨⟨hmark, fun c hc => ?_⟩, hmark⟩
    obtain ⟨d, -, hd⟩ := List.mem_flatMap.1 hc
    exact isPrinted_ascii d c hd

/-! ## What the texts are in JSON -/

/-- The value is the statement as a string, or an object with it. -/
inductive States : Json → Text → Prop
  | string (s : Text) : States (.str s) s
  | payload (s : Text) : States (.obj [(memberName, .str s)]) s

/-- The value is a list of statements, or an object with one. -/
inductive StatesAll : Json → List Text → Prop
  | list {vs : List Json} {ss : List Text} : List.Forall₂ States vs ss → StatesAll (.arr vs) ss
  | single (s : Text) : StatesAll (.obj [(memberName, .str s)]) [s]

theorem blank_of_gap {g : Text} (h : Gap g) : Blank g := by
  intro c hc
  rcases h c hc with rfl | rfl <;> decide

theorem asciiString_name : AsciiString nameText memberName := asciiString_quote (by decide)

theorem PayloadText.value {d : Json.Dialect} {t s : Text} (h : PayloadText t s) :
    Value d t (.obj [(memberName, .str s)]) := by
  cases h with
  | @payload g₁ g₂ g₃ t s h₁ h₂ h₃ ht =>
    let m : Member := ⟨memberName, .str s, nameText, [], g₂, t⟩
    have hspelled : ∀ m' ∈ [m], m'.Spelled :=
      List.forall_mem_singleton.2 ⟨asciiString_name.string, blank_of_gap gap_nil, blank_of_gap h₂⟩
    have hvalues : ∀ m' ∈ [m], Value d m'.valueText m'.value :=
      List.forall_mem_singleton.2 (.string ht.string)
    have htext : Separated ([m].map Member.text) (g₁ ++ (m.text ++ g₃)) :=
      .some (.last (blank_of_gap h₁) (blank_of_gap h₃))
    have hmembers : Dictionary.ofPairs ([m].map Member.pair) = [(memberName, .str s)] := rfl
    have hobject := Value.object hspelled hvalues htext
    rw [hmembers] at hobject
    simpa only [m, Member.text, List.nil_append, List.append_assoc, List.cons_append] using hobject

theorem ItemText.exists_value {d : Json.Dialect} {t s : Text} (h : ItemText t s) :
    ∃ v, Value d t v ∧ States v s := by
  cases h with
  | string ht => exact ⟨_, .string ht.string, .string s⟩
  | payload ht => exact ⟨_, ht.value, .payload s⟩

theorem ItemsText.exists_values {d : Json.Dialect} {u : Text} {ss : List Text}
    (h : ItemsText u ss) :
    ∃ items : List (Text × Json), (∀ p ∈ items, Value d p.1 p.2) ∧ Items (items.map Prod.fst) u ∧
      List.Forall₂ States (items.map Prod.snd) ss := by
  induction h with
  | @last g₁ g₂ t s h₁ ht h₂ =>
    obtain ⟨v, hv, hs⟩ := ht.exists_value (d := d)
    exact ⟨[(t, v)], List.forall_mem_singleton.2 hv, .last (blank_of_gap h₁) (blank_of_gap h₂),
      .cons hs .nil⟩
  | @more g₁ g₂ t s u ss h₁ ht h₂ _ ih =>
    obtain ⟨v, hv, hs⟩ := ht.exists_value (d := d)
    obtain ⟨items, hvalues, hitems, hss⟩ := ih
    exact ⟨(t, v) :: items, List.forall_mem_cons.2 ⟨hv, hvalues⟩,
      .cons (blank_of_gap h₁) (blank_of_gap h₂) hitems, .cons hs hss⟩

/-- In JSON the statements are what the text says. -/
theorem StatementsText.parse? {d : Json.Dialect} {t : Text} {ss : List Text}
    (h : StatementsText t ss) : ∃ v, Json.parse? d t = some v ∧ StatesAll v ss := by
  cases h with
  | list h₁ hu h₂ =>
    obtain ⟨items, hvalues, hitems, hss⟩ := hu.exists_values (d := d)
    have hdocument :=
      Document.framed (blank_of_gap h₁) (blank_of_gap h₂) (Value.array hvalues (.some hitems))
    refine ⟨_, Json.parse?_eq_some_iff.2 ?_, .list hss⟩
    simpa only [List.cons_append, List.append_assoc, List.nil_append] using hdocument
  | single h₁ ht h₂ =>
    exact ⟨_, Json.parse?_eq_some_iff.2 (.framed (blank_of_gap h₁) (blank_of_gap h₂) ht.value),
      .single _⟩

/-! ## What the texts are in YAML -/

/-- The item holds the statement. -/
inductive ItemOf : Item → Text → Prop
  | text (s : Text) : ItemOf (.text s) s
  | entry (s : Text) : ItemOf (.entry memberName s) s

section

open Tokens

variable {r g : Text} {found ts : List Token} {level : Nat} {opened : Bool}

theorem halved_memberName : memberName.halved = memberName :=
  Text.halved_eq_self_iff.2 (by decide)

theorem PayloadText.reading {t s : Text} (h : PayloadText t s) (hg : Gap g)
    (hr : Reading r ((Item.entry memberName s.halved).tokens.reverse ++ found) level false ts) :
    Reading (g ++ (t ++ r)) found level opened ts := by
  cases h with
  | @payload g₁ g₂ g₃ t s h₁ h₂ h₃ ht =>
    have hlength : nameText.length ≤ 1024 := by decide
    have hbrace : (CodePoint.ofChar '\x7b', Token.flowMappingStart) ∈ Tokens.openings :=
      .tail _ (.head _)
    have hclosing : (CodePoint.ofChar '\x7d', Token.flowMappingEnd) ∈ Tokens.closings :=
      .tail _ (.head _)
    have hend : Reading (g₃ ++ CodePoint.ofChar '\x7d' :: r)
        (.scalar s.halved false :: .value :: .scalar memberName.halved false :: .key ::
          .flowMappingStart :: found) (level + 1) false ts := by
      rw [halved_memberName]
      exact reading_close h₃ hclosing hr
    have hkey := reading_key h₁ asciiString_name.string asciiString_name.printed hlength
      (Nat.succ_pos level) (reading_string h₂ ht.string ht.printed hend)
    have hall : Reading _ found level opened ts := reading_open hg hbrace hkey
    simpa only [List.append_assoc, List.cons_append, List.nil_append] using hall

theorem ItemText.reading {t s : Text} (h : ItemText t s) :
    ∃ i, ItemOf i s.halved ∧ ∀ {g r found level ts}, Gap g →
      Reading r (i.tokens.reverse ++ found) level false ts →
      Reading (g ++ (t ++ r)) found level true ts := by
  cases h with
  | string ht =>
    exact ⟨.text s.halved, .text _, fun hg hr => reading_string hg ht.string ht.printed hr⟩
  | payload ht => exact ⟨.entry memberName s.halved, .entry _, fun hg hr => ht.reading hg hr⟩

/-- The tokens of the items of a list, and of its end. -/
theorem ItemsText.reading {u : Text} {ss : List Text} (h : ItemsText u ss) :
    ∃ first later, List.Forall₂ ItemOf (first :: later) (ss.map Text.halved) ∧
      ∀ {r found level ts},
        Reading r (.flowSequenceEnd ::
          ((first.tokens ++ Item.laterTokens later).reverse ++ found)) level false ts →
        Reading (u ++ CodePoint.ofChar ']' :: r) found (level + 1) true ts := by
  have hbracket : (CodePoint.ofChar ']', Token.flowSequenceEnd) ∈ Tokens.closings := .head _
  induction h with
  | @last g₁ g₂ t s h₁ ht h₂ =>
    obtain ⟨i, hi, hreading⟩ := ht.reading
    refine ⟨i, [], .cons hi .nil, fun {r found level ts} hr => ?_⟩
    have hend : Reading (g₂ ++ CodePoint.ofChar ']' :: r) (i.tokens.reverse ++ found) (level + 1)
        false ts := by
      refine reading_close h₂ hbracket ?_
      simpa [Item.laterTokens] using hr
    simpa only [List.append_assoc] using hreading h₁ hend
  | @more g₁ g₂ t s u ss h₁ ht h₂ _ ih =>
    obtain ⟨i, hi, hreading⟩ := ht.reading
    obtain ⟨first, later, hitems, hrest⟩ := ih
    refine ⟨i, first :: later, .cons hi hitems, fun {r found level ts} hr => ?_⟩
    have hcomma : Reading (g₂ ++ CodePoint.ofChar ',' :: (u ++ CodePoint.ofChar ']' :: r))
        (i.tokens.reverse ++ found) (level + 1) false ts := by
      refine reading_comma h₂ (hrest ?_)
      simpa [Item.laterTokens] using hr
    simpa only [List.append_assoc, List.cons_append] using hreading h₁ hcomma

/-- The tokens of a list of statements. -/
theorem ItemsText.ofText_list {g₁ g₂ u : Text} {ss : List Text} (h : ItemsText u ss) (h₁ : Gap g₁)
    (h₂ : Gap g₂) : ∃ first later, List.Forall₂ ItemOf (first :: later) (ss.map Text.halved) ∧
      Tokens.ofText (g₁ ++ CodePoint.ofChar '[' :: (u ++ CodePoint.ofChar ']' :: g₂)) =
        Item.listTokens first later := by
  obtain ⟨first, later, hitems, hreading⟩ := h.reading
  have hbracket : (CodePoint.ofChar '[', Token.flowSequenceStart) ∈ Tokens.openings := .head _
  have hall := ofText_of_reading (reading_open h₁ hbracket (hreading (reading_end h₂)))
  refine ⟨first, later, hitems, hall.trans ?_⟩
  simp only [Item.listTokens, List.reverse_cons, List.reverse_append, List.reverse_reverse,
    List.reverse_nil, List.nil_append, List.cons_append, List.append_assoc]

/-- The tokens of one statement in an object. -/
theorem PayloadText.ofText_single {g₁ g₂ t s : Text} (h : PayloadText t s) (h₁ : Gap g₁)
    (h₂ : Gap g₂) :
    Tokens.ofText (g₁ ++ (t ++ g₂)) = (Item.entry memberName s.halved).tokens := by
  rw [ofText_of_reading (h.reading h₁ (reading_end h₂)), List.append_nil, List.reverse_reverse]

end

/-! ## Loading -/

/-- The code point is printed or a line feed. -/
def IsPlain (c : CodePoint) : Prop := c.IsPrinted ∨ c = CodePoint.ofChar '\n'

theorem isPlain_mark : ∀ c ∈ Text.ofString "[]\x7b\x7d,:", IsPlain c := by
  have hall : ∀ c ∈ Text.ofString "[]\x7b\x7d,:", 0x20 ≤ c.val ∧ c.val ≤ 0x7E := by decide
  exact fun c hc => .inl (hall c hc)

theorem isPlain_of_gap {g : Text} (h : Gap g) : ∀ c ∈ g, IsPlain c := by
  have hspace : 0x20 ≤ (CodePoint.ofChar ' ').val ∧ (CodePoint.ofChar ' ').val ≤ 0x7E := by decide
  intro c hc
  rcases h c hc with rfl | rfl
  · exact .inl hspace
  · exact .inr rfl

theorem AsciiString.isPlain {t s : Text} (h : AsciiString t s) : ∀ c ∈ t, IsPlain c :=
  fun c hc => .inl (h.printed c hc)

theorem PayloadText.isPlain {t s : Text} (h : PayloadText t s) : ∀ c ∈ t, IsPlain c := by
  cases h with
  | payload h₁ h₂ h₃ ht =>
    simp only [List.forall_mem_append, List.forall_mem_cons]
    exact ⟨isPlain_mark _ (by decide), isPlain_of_gap h₁, asciiString_name.isPlain,
      isPlain_mark _ (by decide), isPlain_of_gap h₂, ht.isPlain, isPlain_of_gap h₃,
      isPlain_mark _ (by decide), isPlain_of_gap gap_nil⟩

theorem ItemText.isPlain {t s : Text} (h : ItemText t s) : ∀ c ∈ t, IsPlain c := by
  cases h with
  | string ht => exact ht.isPlain
  | payload ht => exact ht.isPlain

theorem ItemsText.isPlain {u : Text} {ss : List Text} (h : ItemsText u ss) :
    ∀ c ∈ u, IsPlain c := by
  induction h with
  | last h₁ ht h₂ =>
    simp only [List.forall_mem_append]
    exact ⟨isPlain_of_gap h₁, ht.isPlain, isPlain_of_gap h₂⟩
  | more h₁ ht h₂ _ ih =>
    simp only [List.forall_mem_append, List.forall_mem_cons]
    exact ⟨isPlain_of_gap h₁, ht.isPlain, isPlain_of_gap h₂, isPlain_mark _ (by decide), ih⟩

theorem StatementsText.isPlain {t : Text} {ss : List Text} (h : StatementsText t ss) :
    ∀ c ∈ t, IsPlain c := by
  cases h with
  | list h₁ hu h₂ =>
    simp only [List.forall_mem_append, List.forall_mem_cons]
    exact ⟨isPlain_of_gap h₁, isPlain_mark _ (by decide), hu.isPlain, isPlain_mark _ (by decide),
      isPlain_of_gap h₂⟩
  | single h₁ ht h₂ =>
    simp only [List.forall_mem_append]
    exact ⟨isPlain_of_gap h₁, ht.isPlain, isPlain_of_gap h₂⟩

theorem parse?_of_document {t : Text} {d : Document} {data : Data} (ht : ∀ c ∈ t, IsPlain c)
    (hd : Document.ofTokens? (Tokens.ofText t) = .ok (some d))
    (hdata : Data.ofDocument d = .ok data) : Data.parse? t = .ok data := by
  have hallowed : t.all Data.isAllowed = true := by
    rw [List.all_eq_true]
    intro c hc
    rcases ht c hc with ⟨hlow, hhigh⟩ | rfl
    · simp [Data.isAllowed, hlow, hhigh]
    · decide
  simp only [Data.parse?, hallowed, if_true, hd, bind, Except.bind, hdata]

/-- A text of printable ASCII is loaded from its bytes as it stands. -/
theorem load_of_isPlain (order : SetOrder) {t : Text} (ht : ∀ c ∈ t, IsPlain c) :
    load order (t.flatMap Utf8.encodePoint) = ofText order t := by
  have hlow : ∀ c ∈ t, c.val ≤ 0x7E := by
    intro c hc
    rcases ht c hc with ⟨-, hhigh⟩ | rfl
    · exact hhigh
    · decide
  have hreturn : Text.carriageReturn ∉ t := by
    intro hc
    rcases ht _ hc with ⟨hle, -⟩ | heq
    · exact absurd hle (by decide)
    · exact absurd heq (by decide)
  have hscalar : t.hasSurrogate = false := Text.hasSurrogate_of_forall fun c hc => by
    have hle := hlow c hc
    rw [← Bool.not_eq_true, CodePoint.isSurrogate_iff]
    omega
  rw [load_eq_ofText order (Utf8.decode?_flatMap_encodePoint hscalar),
    Text.unifyBreaks_of_not_mem hreturn]

theorem hasMember_of_item {data : Data} {v : Value} {name s : Text}
    (h : data.IsItem v (.entry name s)) : HasMember data v name (.atom (.str s)) := by
  cases h with
  | entry hmap => exact @HasMember.entry _ _ _ [] [] _ hmap fun p hp => by cases hp

theorem holds_of_item {data : Data} {v : Value} {i : Item} {s : Text} (hi : data.IsItem v i)
    (hs : ItemOf i s) : Holds data v s := by
  cases hs with
  | text =>
    cases hi
    exact .text s
  | entry => exact .member (hasMember_of_item hi)

theorem forall₂_holds {data : Data} {vs : List Yaml.Value} {items : List Item} {ss : List Text}
    (hvs : List.Forall₂ data.IsItem vs items) (hitems : List.Forall₂ ItemOf items ss) :
    List.Forall₂ (Holds data) vs ss := by
  induction hvs generalizing ss with
  | nil =>
    cases hitems
    exact .nil
  | cons hv _ ih =>
    cases hitems with
    | cons hi hitems => exact .cons (holds_of_item hv hi) (ih hitems)

/-- The statements of the text are loaded, their code points past the basic plane apart. -/
theorem load_statementsText (order : SetOrder) {t : Text} {ss : List Text}
    (h : StatementsText t ss) :
    load order (t.flatMap Utf8.encodePoint) = .ok (ss.map Text.halved) := by
  have hplain := h.isPlain
  rw [load_of_isPlain order hplain]
  cases h with
  | list h₁ hu h₂ =>
    obtain ⟨first, later, hitems, htokens⟩ := hu.ofText_list h₁ h₂
    obtain ⟨d, ids, hd, hroot, hids, hsize⟩ := Document.ofTokens?_listTokens first later
    obtain ⟨data, vs, hdata, hlist, hvs⟩ := Data.ofDocument_list hroot hids hsize
    have hne : vs ≠ [] := by
      rintro rfl
      cases hvs
    rw [ofText, parse?_of_document hplain (htokens ▸ hd) hdata]
    exact choose_of_list hlist hne (forall₂_holds hvs hitems)
  | single h₁ ht h₂ =>
    obtain ⟨d, hd, hhas⟩ := Document.ofTokens?_entry memberName _
    obtain ⟨data, hdata, hitem⟩ := Data.ofDocument_entry hhas
    rw [ofText, parse?_of_document hplain (ht.ofText_single h₁ h₂ ▸ hd) hdata]
    exact choose_of_member (hasMember_of_item hitem) rfl

/-! ## Written texts -/

/-- The object with a statement, with a gap behind the colon. -/
def payloadText (g s : Text) : Text :=
  CodePoint.ofChar '\x7b' :: (nameText ++ CodePoint.ofChar ':' ::
    (g ++ (Json.quote Json.Escape.ascii s ++ [CodePoint.ofChar '\x7d'])))

/-- The list of some texts, with a gap behind each comma. -/
def listText (g : Text) (texts : List Text) : Text :=
  CodePoint.ofChar '[' ::
    (Text.joinWith (CodePoint.ofChar ',' :: g) texts ++ [CodePoint.ofChar ']'])

theorem payloadText_spec {g s : Text} (hg : Gap g) (hs : s.hasSurrogate = false) :
    PayloadText (payloadText g s) s :=
  .payload gap_nil hg gap_nil (asciiString_quote hs)

theorem ItemsText.gap_append {g u : Text} {ss : List Text} (hg : Gap g) (h : ItemsText u ss) :
    ItemsText (g ++ u) ss := by
  have happend : ∀ {g₁}, Gap g₁ → Gap (g ++ g₁) := fun h₁ => List.forall_mem_append.2 ⟨hg, h₁⟩
  cases h with
  | last h₁ ht h₂ =>
    rw [← List.append_assoc]
    exact .last (happend h₁) ht h₂
  | more h₁ ht h₂ hu =>
    rw [← List.append_assoc]
    exact .more (happend h₁) ht h₂ hu

theorem itemsText_joinWith {g : Text} (hg : Gap g) {text : Text → Text} {ss : List Text}
    (hss : ss ≠ []) (htext : ∀ s ∈ ss, ItemText (text s) s) :
    ItemsText (Text.joinWith (CodePoint.ofChar ',' :: g) (ss.map text)) ss := by
  induction ss with
  | nil => exact absurd rfl hss
  | cons s ss ih =>
    obtain ⟨hs, htext⟩ := List.forall_mem_cons.1 htext
    cases ss with
    | nil =>
      rw [List.map_singleton, Text.joinWith_singleton]
      simpa using ItemsText.last gap_nil hs gap_nil
    | cons s₁ ss =>
      have hrest := (ih (List.cons_ne_nil _ _) htext).gap_append hg
      rw [List.map_cons, List.map_cons, Text.joinWith_cons_cons]
      exact @ItemsText.more [] [] _ _ _ _ gap_nil hs gap_nil hrest

theorem statementsText_listText {g : Text} (hg : Gap g) {text : Text → Text} {ss : List Text}
    (hss : ss ≠ []) (htext : ∀ s ∈ ss, ItemText (text s) s) :
    StatementsText (listText g (ss.map text)) ss :=
  @StatementsText.list [] [] _ _ gap_nil (itemsText_joinWith hg hss htext) gap_nil

theorem statementsText_payloadText {g s : Text} (hg : Gap g) (hs : s.hasSurrogate = false) :
    StatementsText (payloadText g s) [s] := by
  have hsingle := StatementsText.single gap_nil (payloadText_spec hg hs) gap_nil
  rwa [List.append_nil] at hsingle

theorem map_halved_eq_self_iff {ss : List Text} :
    ss.map Text.halved = ss ↔ ∀ s ∈ ss, ∀ c ∈ s, c.val < 0x10000 := by
  induction ss with
  | nil => simp
  | cons s ss ih => rw [List.map_cons, List.cons.injEq, Text.halved_eq_self_iff, ih,
      List.forall_mem_cons]

/-- **JSON statement files.** A JSON text in printable ASCII that is a list of statements, each a
string or an object with it, or an object with one statement, is loaded as these statements, but a
code point past the basic plane comes apart into its two surrogates. So exactly the statements of
the basic plane alone are loaded as they are in JSON. The written texts of all statements, with any
gaps behind commas and colons, are such texts. -/
theorem load_json_statements (order : SetOrder) (ss : List Text) :
    (∀ t, StatementsText t ss →
      (∃ v, Json.parse? .strict t = some v ∧ StatesAll v ss) ∧
      load order (t.flatMap Utf8.encodePoint) = .ok (ss.map Text.halved) ∧
      (load order (t.flatMap Utf8.encodePoint) = .ok ss ↔ ∀ s ∈ ss, ∀ c ∈ s, c.val < 0x10000)) ∧
    ((∀ s ∈ ss, s.hasSurrogate = false) → ∀ g, Gap g →
      (ss ≠ [] → StatementsText (listText g (ss.map (Json.quote Json.Escape.ascii))) ss ∧
        StatementsText (listText g (ss.map (payloadText g))) ss) ∧
      ∀ s ∈ ss, StatementsText (payloadText g s) [s]) := by
  refine ⟨fun t h => ⟨h.parse?, load_statementsText order h, ?_⟩,
    fun hs g hg => ⟨fun hss => ⟨?_, ?_⟩, ?_⟩⟩
  · rw [load_statementsText order h, Except.ok.injEq, map_halved_eq_self_iff]
  · exact statementsText_listText hg hss fun s hmem => .string (asciiString_quote (hs s hmem))
  · exact statementsText_listText hg hss fun s hmem => .payload (payloadText_spec hg (hs s hmem))
  · exact fun s hmem => statementsText_payloadText hg (hs s hmem)

/-- The list of one statement with a code point past the basic plane is not loaded as it is in
JSON. -/
theorem load_json_statements_astral :
    let s := Text.ofString "HTTP GET | URL u | QUERY \x7b\x22a\x22:\x22😀\x22\x7d"
    let t := (Json.arr [.str s]).asciiText
    s.hasSurrogate = false ∧ Json.parse? .strict t = some (.arr [.str s]) ∧
      load .written (t.flatMap Utf8.encodePoint) ≠ .ok [s] := by
  intro s t
  have hs : s.hasSurrogate = false := by decide
  have hstring := asciiString_quote hs
  have hitems : ∀ v ∈ [Json.str s], Value .strict (v.compact Json.Escape.ascii) v :=
    List.forall_mem_singleton.2 (.string hstring.string)
  have htext : StatementsText t [s] :=
    statementsText_listText gap_nil (List.cons_ne_nil s [])
      (List.forall_mem_singleton.2 (.string hstring))
  refine ⟨hs, Json.parse?_of_value (.arr_of hitems (separated_joinWith _)), fun hload => ?_⟩
  rw [load_statementsText .written htext, Except.ok.injEq, map_halved_eq_self_iff] at hload
  exact absurd (hload s List.mem_cons_self) (by decide)

end RequestLine.Source
