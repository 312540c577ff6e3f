import RequestLine.Proofs.Json.Nesting
import RequestLine.Proofs.Json.Partial
import RequestLine.Proofs.Statement.Acceptance
import RequestLine.Proofs.Statement.FullUrl
import RequestLine.Proofs.Text.Blank

/-!
# Reading a statement step by step

A statement is read by operations that are not defined everywhere: beside those of plain texts, the
encoding of a text with surrogates, the look-up of a section, the code of a missing keyword, the
reading of a JSON text that is nested deep, and the fields of sections and requests. Here each of
them says what it meets outside its domain, and only a query that cannot be encoded is turned into an
error of the statement.

* `Partial.Breakdown`: an error of the statement, or a fault.
* `Partial.Limits`: how deep JSON texts may be nested, and what fields make of values.
* `Partial.ofJson`: the request of a value by such operations.
* `Partial.ofJson_eq`: no fault is ever met, as long as the statement has at most
  `10 ^ digitLimit` code points, its JSON texts are nested within the limit, and fields hold the
  values that they are given.
-/

namespace RequestLine

/-- The codes that there are. -/
def errorCodes : List Text :=
  ["INVALID_PIPE_DEL_SPACING", "MULTIPLE_SPACES_FOUND", "MISSING_HTTP", "MISSING_URL",
    "MISSING_SPACE_AFTER_KEYWORD", "KEYWORDS_MUST_BE_UPPERCASE", "METHOD_MUST_BE_UPPERCASE",
    "INVALID_HTTP_METHOD", "UNKNOWN_KEYWORD", "INVALID_JSON", "INVALID_STATEMENT",
    "MALFORMED_QUERY", "EXECUTION_FAILED"]

namespace Partial

/-- How a value comes to no request. -/
inductive Breakdown
  /-- The statement breaks a rule. -/
  | rule (e : StatementError)
  /-- An operation was used outside its domain. -/
  | fault (f : Fault)

variable {α : Type}

/-- A result whose errors are errors of the statement. -/
def ruled (x : Except StatementError α) : Except Breakdown α := x.mapError .rule

/-- A result that is there, or else a fault. -/
def orFault (f : Fault) : Option α → Except Fault α
  | some x => .ok x
  | none => .error f

/-! ## Queries -/

def encode (t : Text) : Except Fault Text := orFault .unencodable (Percent.encode? t)

/-- The pair of a key of a query. -/
def pairText (query : Json) (key : Text) : Except Fault Text := do
  let name ← encode key
  let text ← encode (← plainText (← item query key))
  return name ++ "=" ++ text

/-- The URL with its query. -/
def fullUrl (url : Text) (query : Json) : Except Breakdown Text :=
  if query.keys = [] then .ok url
  else
    match query.keys.mapM (pairText query) with
    | .ok pairs => .ok (url ++ "?" ++ Text.joinWith "&" pairs)
    | .error .unencodable => .error (.rule .malformedQuery)
    | .error f => .error (.fault f)

/-! ## Sections -/

def checkKeyword (word : Text) : Except StatementError Unit :=
  if word ≠ word.upperCase ∧ (Keyword.ofName? word.upperCase).isSome then .error .keywordCase
  else if (Keyword.ofName? word).isNone then .error (.unknownKeyword word)
  else .ok ()

/-- The section of a trimmed text whose value is read by `readValue`; its keyword has to be one of
the five. -/
def sectionBy (readValue : Keyword → Text → Except Breakdown Json) (t : Text) :
    Except Breakdown Section := do
  let word := t.takeWhile (· ≠ CodePoint.ofChar ' ')
  match t.drop word.length with
  | [] => throw (.rule .missingSpace)
  | _ :: value =>
    ruled (checkKeyword word)
    if Text.startsWith value " " then throw (.rule .doubledSpace)
    match Keyword.ofName? word with
    | none => throw (.fault .illTyped)
    | some k => return ⟨k, ← readValue k value⟩

/-- The section of a trimmed text. -/
def readSection (t : Text) : Except Breakdown Section :=
  sectionBy (fun k value => ruled (Section.readValue k value)) t

/-- The error of a missing keyword, whose code is put together from its name. -/
def missing (k : Keyword) : Breakdown :=
  if (StatementError.missingKeyword k).code ∈ errorCodes then .rule (.missingKeyword k)
  else .fault .unreadable

/-- The values of sections among which the required ones have to be. -/
def aggregate (ss : List Section) : Except Breakdown Sections :=
  match Keyword.required.find? (fun k => ((Sections.collect ss).get? k).isNone) with
  | some k => .error (missing k)
  | none => .ok (Sections.collect ss)

/-! ## Limits -/

/-- What the surroundings make of JSON. -/
structure Limits where
  /-- How many brackets a JSON text may have open at once. -/
  nesting : Nat
  /-- What a field for JSON values holds after it was given one, unless it refuses it. -/
  field : Json → Option Json

namespace Limits

variable (l : Limits)

/-- The value as a field holds it. -/
def keep (v : Json) : Except Breakdown Json := (orFault .illTyped (l.field v)).mapError .fault

/-- The value that a text has after a keyword, as a field holds it. A JSON text that is nested too
deep is not read. -/
def readValue (k : Keyword) (t : Text) : Except Breakdown Json := do
  if k ∉ Keyword.required ∧ l.nesting < Json.nesting t then throw (.fault .tooDeep)
  l.keep (← ruled (Section.readValue k t))

/-- Fields hold the values that they are given, as long as these are not too deep. -/
def Lossless : Prop := ∀ v : Json, v.depth ≤ l.nesting → l.field v = some v

/-- Texts are nested and fields hold values up to the same depth. -/
def upTo (n : Nat) : Limits := ⟨n, fun v => if v.depth ≤ n then some v else none⟩

theorem lossless_upTo (n : Nat) : (upTo n).Lossless := fun _ hv => if_pos hv

/-- No JSON text in the statement is nested too deep. -/
def Admits (s : Text) : Prop :=
  ∀ p ∈ pieces s, ∀ k t, p.trim = sectionText k t → k ∉ Keyword.required →
    Json.nesting t ≤ l.nesting

end Limits

/-! ## Requests -/

/-- The value of a keyword that has to have one. -/
def entry (s : Sections) (k : Keyword) : Except Breakdown Json :=
  (orFault .noEntry (s.get? k)).mapError .fault

/-- The request of sections; its method has to be one of the two, its URL a text. -/
def build (l : Limits) (s : Sections) : Except Breakdown Request := do
  let url ← entry s .url
  let method ← entry s .http
  let query := s.valueOrEmpty .query
  let full ← fullUrl ((Request.textOf? url).getD []) query
  match Request.methodOf? method, Request.textOf? url with
  | some method, some url =>
    return ⟨method, url, ← l.keep (s.valueOrEmpty .headers), ← l.keep query,
      ← l.keep (s.valueOrEmpty .body), full⟩
  | _, _ => throw (.fault .illTyped)

/-- The request of a statement. -/
def parse (l : Limits) (statement : Text) : Except Breakdown Request :=
  if statement.isEmpty then .error (.rule .notAStatement)
  else do
    let texts ← ruled (cleanSegments (segments statement))
    build l (← aggregate (← texts.mapM (sectionBy l.readValue)))

/-- The request of a value. -/
def ofJson (l : Limits) : Json → Except Breakdown Request
  | .str statement => parse l statement
  | _ => .error (.rule .notAStatement)

/-! ## Queries have no faults -/

theorem mapM_orFault {β : Type} {f : Fault} {F : α → Except Fault β} {g : α → Option β}
    {xs : List α} (h : ∀ x ∈ xs, F x = orFault f (g x)) :
    xs.mapM F = orFault f (xs.mapM g) := by
  induction xs with
  | nil => rfl
  | cons x xs ih =>
    have hx := h x List.mem_cons_self
    have htail := ih fun y hy => h y (List.mem_cons_of_mem x hy)
    cases hg : g x with
    | none =>
      rw [hg] at hx
      rw [mapM_cons_of_error hx, mapM_cons_of_none hg]
      rfl
    | some y =>
      rw [hg] at hx
      rw [mapM_cons_of_ok hx, mapM_cons_of_some hg, htail]
      cases xs.mapM g <;> rfl

theorem pairText_eq {query : Json} (h : query.Operable) {e : Text × Json}
    (he : e ∈ query.entries) :
    pairText query e.1 = orFault .unencodable (encodePair? (e.1, e.2.plainText)) := by
  have hitem := item_of_mem_entries h.addressable he
  have htext := plainText_eq_ok (everywhere_of_mem_entries h.numbers he)
  unfold pairText encodePair? encode
  simp only [hitem, bind, Except.bind, htext]
  cases Percent.encode? e.1 with
  | none => rfl
  | some name => cases Percent.encode? e.2.plainText <;> rfl

/-- Only surrogates keep a query out of a URL, and they are reported. -/
theorem fullUrl_eq {query : Json} (h : query.Operable) (url : Text) :
    fullUrl url query =
      match fullUrl? url query with
      | some full => .ok full
      | none => .error (.rule .malformedQuery) := by
  have hpairs : query.keys.mapM (pairText query) =
      orFault .unencodable ((queryPairs query).mapM encodePair?) := by
    rw [Json.keys, queryPairs, List.mapM_map, List.mapM_map]
    exact mapM_orFault fun e he => pairText_eq h he
  by_cases hkeys : query.keys = []
  · rw [fullUrl, if_pos hkeys, fullUrl?_of_keys_eq_nil hkeys]
  · rw [fullUrl, if_neg hkeys, fullUrl?_of_keys_ne_nil hkeys, hpairs, queryText?]
    cases (queryPairs query).mapM encodePair? <;> rfl

/-! ## Sections have no faults -/

theorem upperCase_name (k : Keyword) : k.name.upperCase = k.name := by
  cases k <;> decide

theorem checkKeyword_eq (word : Text) :
    checkKeyword word = (Section.readKeyword word).map fun _ => () := by
  rw [checkKeyword, Section.readKeyword]
  cases hword : Keyword.ofName? word with
  | some k =>
    obtain rfl := Keyword.eq_name_of_ofName? hword
    simp [upperCase_name]
    rfl
  | none =>
    have hne : (Keyword.ofName? word.upperCase).isSome → word ≠ word.upperCase := by
      intro hsome heq
      rw [← heq, hword] at hsome
      cases hsome
    by_cases hsome : (Keyword.ofName? word.upperCase).isSome
    · simp [hsome, hne hsome]
      rfl
    · simp [hsome]
      rfl

/-- The keyword of a section is one of the five. -/
theorem readSection_eq (t : Text) : readSection t = ruled (Section.read t) := by
  unfold readSection sectionBy Section.read
  extract_lets word
  cases t.drop word.length with
  | nil => rfl
  | cons c value =>
    simp only [checkKeyword_eq]
    cases hword : Section.readKeyword word with
    | error e => rfl
    | ok k =>
      have hname : Keyword.ofName? word = some k := by
        rw [Section.readKeyword_eq_ok_iff.1 hword, Keyword.ofName?_name]
      by_cases hspace : Text.startsWith value " " = true
      · simp only [hspace, if_true]
        rfl
      · simp only [hspace, hname, bind, Except.bind]
        cases Section.readValue k value <;> rfl

theorem code_mem_errorCodes {k : Keyword} (hk : k ∈ Keyword.required) :
    (StatementError.missingKeyword k).code ∈ errorCodes := by
  cases k with
  | http | url => decide
  | headers | query | body => exact absurd hk (by decide)

/-- The code of a keyword that is missed is there. -/
theorem aggregate_eq (ss : List Section) : aggregate ss = ruled (Sections.ofList ss) := by
  rw [aggregate, Sections.ofList]
  cases hfind : Keyword.required.find? fun k => ((Sections.collect ss).get? k).isNone with
  | none => rfl
  | some k =>
    have hcode := code_mem_errorCodes (List.mem_of_find?_eq_some hfind)
    simp only [missing, if_pos hcode]
    rfl

/-- Only a value that a keyword and a space precede is read. -/
theorem sectionBy_congr {f g : Keyword → Text → Except Breakdown Json} {t : Text}
    (h : ∀ k v, t = sectionText k v → f k v = g k v) : sectionBy f t = sectionBy g t := by
  unfold sectionBy
  rcases Section.text_cases t with hspace | ⟨word, v, rfl, hspace, hno⟩ | ⟨k, v, rfl⟩
  · simp only [Section.takeWhile_of_not_mem hspace, List.drop_length]
  · have hnone : Keyword.ofName? word = none :=
      Option.eq_none_iff_forall_ne_some.2 fun k hk => hno k (Keyword.eq_name_of_ofName? hk)
    simp only [Section.takeWhile_append_space hspace, List.drop_left, hnone]
  · simp only [Section.sectionText_eq, Section.takeWhile_append_space (Section.space_not_mem_name k),
      List.drop_left, Keyword.ofName?_name, h k v rfl]

/-! ## Limits that are kept -/

section

variable {l : Limits} {ss : List Section}

theorem Limits.Lossless.keep_eq (hl : l.Lossless) {v : Json} (hv : v.depth ≤ l.nesting) :
    l.keep v = .ok v := by
  rw [keep, hl v hv]
  rfl

/-- A value is not nested deeper than its text, and a text not at all. -/
theorem depth_le_of_text {k : Keyword} {t : Text} {v : Json} {n : Nat}
    (htext : k ∈ Keyword.required → v = .str t)
    (hjson : k ∉ Keyword.required → Json.parse? .strict t = some v)
    (ht : k ∉ Keyword.required → Json.nesting t ≤ n) : v.depth ≤ n := by
  by_cases hk : k ∈ Keyword.required
  · rw [htext hk]
    exact Nat.zero_le n
  · exact (Json.depth_le_nesting (hjson hk)).trans (ht hk)

theorem Limits.Lossless.readValue_eq (hl : l.Lossless) {k : Keyword} {t : Text}
    (ht : k ∉ Keyword.required → Json.nesting t ≤ l.nesting) :
    l.readValue k t = ruled (Section.readValue k t) := by
  have hshallow : ¬ (k ∉ Keyword.required ∧ l.nesting < Json.nesting t) :=
    fun ⟨hk, hlt⟩ => Nat.not_lt.2 (ht hk) hlt
  rw [readValue, if_neg hshallow]
  cases hread : Section.readValue k t with
  | error e => rfl
  | ok v =>
    obtain ⟨htext, hjson⟩ := Section.text_of_readValue hread
    exact hl.keep_eq (depth_le_of_text htext hjson ht)

/-- No text of a short statement is nested too deep. -/
theorem Limits.admits_of_length_le {s : Text} (h : s.length ≤ l.nesting) : l.Admits s := by
  intro p hp k t htext _
  have hpiece := (cut_pieces s).length_le hp
  have htrim := Text.length_trim_le p
  have hnesting := Json.nesting_le_length t
  rw [htext, sectionText] at htrim
  simp only [List.length_append] at htrim
  omega

/-- The values of all sections can be held by fields. -/
def AllShallow (n : Nat) (ss : List Section) : Prop := ∀ c ∈ ss, c.value.depth ≤ n

theorem depth_valueOrEmpty {n : Nat} (h : AllShallow n ss) (k : Keyword) :
    ((Sections.collect ss).valueOrEmpty k).depth ≤ n := by
  have heffective := effective_iff.2 (rfl : (Sections.collect ss).valueOrEmpty k = _)
  generalize (Sections.collect ss).valueOrEmpty k = v at heffective
  cases heffective with
  | filled hlast => exact h _ hlast.mem
  | emptied | absent => exact Nat.zero_le n

end

/-! ## Requests have no faults -/

/-- The operations of a query are defined on the values of all optional sections. -/
def AllOperable (ss : List Section) : Prop :=
  ∀ c ∈ ss, c.keyword ∉ Keyword.required → c.value.Operable

theorem Writes.operable {t : Text} {c : Section} (h : Section.Writes t c)
    (ht : t.length ≤ 10 ^ digitLimit) (hk : c.keyword ∉ Keyword.required) : c.value.Operable := by
  obtain ⟨v, rfl, -, -, hread⟩ := h.value
  refine Json.operable_of_parse? (hread hk) (Nat.le_trans ?_ ht)
  simp only [sectionText, List.length_append]
  omega

theorem Writes.depth_le {t : Text} {c : Section} (h : Section.Writes t c) {n : Nat}
    (ht : ∀ k v, t = sectionText k v → k ∉ Keyword.required → Json.nesting v ≤ n) :
    c.value.depth ≤ n := by
  obtain ⟨v, htext, -, hvalue, hread⟩ := h.value
  exact depth_le_of_text hvalue hread (ht _ v htext)

section

variable {l : Limits} {s : Text} {ss : List Section}

theorem allOperable_of_readSections (h : Request.readSections s = .ok ss)
    (hs : s.length ≤ 10 ^ digitLimit) : AllOperable ss := by
  intro c hc hk
  obtain ⟨p, hp, hread⟩ := exists_of_mem_right (readSections_eq_ok_iff.1 h).2 hc
  have htrim := Text.length_trim_le p
  have hpiece := (cut_pieces s).length_le hp
  exact Writes.operable (Section.read_eq_ok_iff.1 hread) (by omega) hk

theorem allShallow_of_readSections (h : Request.readSections s = .ok ss) (hs : l.Admits s) :
    AllShallow l.nesting ss := by
  intro c hc
  obtain ⟨p, hp, hread⟩ := exists_of_mem_right (readSections_eq_ok_iff.1 h).2 hc
  exact Writes.depth_le (Section.read_eq_ok_iff.1 hread) (hs p hp)

theorem operable_valueOrEmpty (h : AllOperable ss) {k : Keyword} (hk : k ∉ Keyword.required) :
    ((Sections.collect ss).valueOrEmpty k).Operable := by
  have heffective := effective_iff.2 (rfl : (Sections.collect ss).valueOrEmpty k = _)
  generalize (Sections.collect ss).valueOrEmpty k = v at heffective
  cases heffective with
  | filled hlast => exact h _ hlast.mem hk
  | emptied | absent => exact Json.operable_emptyObject

theorem build_of_isLast (hl : l.Lossless) (h : AllOperable ss) (hdepth : AllShallow l.nesting ss)
    {m : Method} {url : Text} (hm : IsLast ss ⟨.http, .str m.name⟩)
    (hu : IsLast ss ⟨.url, .str url⟩) :
    build l (Sections.collect ss) = ruled (Request.ofReadSections ss) := by
  have hquery := operable_valueOrEmpty h (k := .query) (by decide)
  have hm₁ := Sections.get?_collect_eq_some_iff.2 hm
  have hu₁ := Sections.get?_collect_eq_some_iff.2 hu
  have hkeep := fun k => hl.keep_eq (depth_valueOrEmpty hdepth k)
  rw [Request.ofReadSections_of_isLast hm hu]
  simp only [build, entry, hm₁, hu₁, orFault, Except.mapError, bind, Except.bind, Request.textOf?,
    Request.methodOf?, Method.ofName?_name, Option.getD_some, fullUrl_eq hquery, hkeep]
  cases fullUrl? url ((Sections.collect ss).valueOrEmpty .query) <;> rfl

/-- Sections that were read have the entries that a request needs, and these are of the right
kind. -/
theorem build_aggregate_eq (hl : l.Lossless) (hss : AllWritten ss) (h : AllOperable ss)
    (hdepth : AllShallow l.nesting ss) :
    (aggregate ss >>= build l) = ruled (Request.ofReadSections ss) := by
  rw [aggregate_eq]
  rcases Request.ofReadSections_cases hss with ⟨hno, he⟩ | ⟨hhttp, hno, he⟩ | ⟨m, url, hm, hu⟩
  · rw [he, Sections.ofList_eq, if_pos (Sections.get?_collect_eq_none_iff.2 hno)]
    rfl
  · rw [he, Sections.ofList_eq, if_neg (Sections.get?_collect_ne_none_iff.2 hhttp),
      if_pos (Sections.get?_collect_eq_none_iff.2 hno)]
    rfl
  · have hhttp := Sections.get?_collect_ne_none_iff.2 ⟨_, hm.mem, rfl⟩
    have hurl := Sections.get?_collect_ne_none_iff.2 ⟨_, hu.mem, rfl⟩
    rw [Sections.ofList_eq, if_neg hhttp, if_neg hurl]
    exact build_of_isLast hl h hdepth hm hu

/-- The texts of a statement whose JSON is not nested too deep are read like any others. -/
theorem mapM_sectionBy_eq (hl : l.Lossless) (hs : l.Admits s) {texts : List Text}
    (htexts : cleanSegments (segments s) = .ok texts) :
    texts.mapM (sectionBy l.readValue) = ruled (texts.mapM Section.read) := by
  rw [ruled, ← mapM_mapError]
  refine mapM_congr fun t ht => ?_
  rw [← (cleanSegments_eq_ok_iff.1 htexts).2] at ht
  obtain ⟨p, hp, rfl⟩ := List.mem_map.1 ht
  refine Eq.trans ?_ (readSection_eq p.trim)
  exact sectionBy_congr fun k v hv => hl.readValue_eq fun hk => hs p hp k v hv hk

theorem parse_eq (hl : l.Lossless) (hnesting : l.Admits s) (hs : s.length ≤ 10 ^ digitLimit) :
    parse l s = ruled (Request.parse s) := by
  rw [parse, Request.parse]
  split
  · rfl
  cases hsections : Request.readSections s with
  | error e =>
    rcases bind_eq_error_iff.1 hsections with htexts | ⟨texts, htexts, hmap⟩
    · rw [htexts]
      rfl
    · rw [htexts]
      show (texts.mapM (sectionBy l.readValue) >>= fun ss => aggregate ss >>= build l) = _
      rw [mapM_sectionBy_eq hl hnesting htexts, hmap]
      rfl
  | ok ss =>
    obtain ⟨texts, htexts, hmap⟩ := bind_eq_ok_iff.1 hsections
    rw [htexts]
    show (texts.mapM (sectionBy l.readValue) >>= fun ss => aggregate ss >>= build l) = _
    rw [mapM_sectionBy_eq hl hnesting htexts, hmap]
    exact build_aggregate_eq hl (allWritten_of_readAs (readSections_eq_ok_iff.1 hsections).2)
      (allOperable_of_readSections hsections hs) (allShallow_of_readSections hsections hnesting)

end

/-- No operation is used outside its domain: a value describes a request or breaks a rule. -/
theorem ofJson_eq {l : Limits} {v : Json} (hl : l.Lossless)
    (hnesting : ∀ s, v = .str s → l.Admits s)
    (h : ∀ s, v = .str s → s.length ≤ 10 ^ digitLimit) :
    ofJson l v = ruled (Request.ofJson v) := by
  cases v with
  | str s => exact parse_eq hl (hnesting s rfl) (h s rfl)
  | _ => rfl

end Partial

end RequestLine
