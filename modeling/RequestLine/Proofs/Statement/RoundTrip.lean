import RequestLine.Proofs.Json.StatementText
import RequestLine.Proofs.Statement.Acceptance
import RequestLine.Proofs.Statement.Joined

/-!
# Written requests read back

A statement gives its request only what can be written again: the URL was trimmed and cut from its
neighbours at pipes, the values were read from texts without raw surrogates, and no value is an
empty scalar.

* `Request.Restorable`: the requests of this kind; `restorable_of_parse`: statements describe such
  requests, unless a number is infinite.
* `parse_written_of_restorable`: the statement of such a request describes it.
* `parse_written`: so a request that was read is read again from its statement.
-/

namespace RequestLine

/-! ## Restorable requests -/

/-- The URL begins with no space, ends with no white space, and has no pipe. -/
structure PlainUrl (url : Text) : Prop where
  start : ¬ (" " : Text) <+: url
  last : url.EndsSolid
  pipe : pipe ∉ url

/-- The value is no empty scalar, and every value in it can be written and read. -/
structure Json.Lasting (v : Json) : Prop where
  filled : v.isEmptyValue = false
  writable : Everywhere (Writable Text.Joined) v

/-- The request can be written as a statement and read from it. -/
structure Request.Restorable (r : Request) : Prop where
  url : PlainUrl r.url
  headers : r.headers.Lasting
  query : r.query.Lasting
  body : r.body.Lasting
  fullUrl : fullUrl? r.url r.query = some r.fullUrl

/-- No value of the request holds an infinite number. -/
structure Request.FiniteNumbers (r : Request) : Prop where
  headers : r.headers.Everywhere fun x => ¬ x.IsInfinite
  query : r.query.Everywhere fun x => ¬ x.IsInfinite
  body : r.body.Everywhere fun x => ¬ x.IsInfinite

/-! ## What statements describe -/

variable {s : Text} {ps : List Text} {ss : List Section}

/-- What is left of the keyword's space would have been trimmed if no URL followed it. -/
theorem Accepted.plainUrl (h : Accepted s ps ss) {url : Text} (hurl : ⟨.url, .str url⟩ ∈ ss) :
    PlainUrl url := by
  obtain ⟨p, hp, hwrites⟩ := exists_of_mem_right h.written hurl
  obtain ⟨u, htrim, hstart, hvalue, -⟩ := hwrites.value
  obtain rfl : url = u := Json.str.inj (hvalue (List.mem_cons_of_mem _ List.mem_cons_self))
  obtain ⟨hpipe, -⟩ := h.cut.spec hp
  have hne : p.trim ≠ [] := by
    rw [htrim]
    exact List.cons_ne_nil _ _
  have hends := Text.endsSolid_trim hne
  rw [htrim] at hends
  have hurlNe : url ≠ [] := by
    rintro rfl
    obtain ⟨r, c, heq, hc⟩ := hends
    have hlast : Text.ofString "URL" ++ [Section.space] = r ++ [c] := heq
    have hspace := List.singleton_inj.1 (List.append_inj' hlast rfl).2
    exact ne_space_of_not_isBlank hc hspace.symm
  refine ⟨hstart, hends.of_append hurlNe, fun hmem => hpipe (Text.mem_of_mem_trim ?_)⟩
  rw [htrim]
  exact List.mem_append_right _ hmem

/-- The value of an optional keyword is written somewhere in the statement. -/
theorem Accepted.exists_value (h : Accepted s ps ss) {k : Keyword} (hk : k ∉ Keyword.required)
    {v : Json} (hv : ⟨k, v⟩ ∈ ss) :
    ∃ t, (∀ c ∈ t, c ∈ s) ∧ Json.Grammar.Value .strict t v := by
  obtain ⟨p, hp, hwrites⟩ := exists_of_mem_right h.written hv
  obtain ⟨u, htrim, -, -, hread⟩ := hwrites.value
  obtain ⟨-, hmem⟩ := h.cut.spec hp
  have hsource : ∀ c ∈ u, c ∈ s := by
    intro c hc
    refine hmem c (Text.mem_of_mem_trim ?_)
    rw [htrim]
    exact List.mem_append_right _ hc
  obtain ⟨before, t, after, hu, hvalue⟩ :
      ∃ before t after, u = before ++ (t ++ after) ∧ Json.Grammar.Value .strict t v := by
    cases Json.parse?_eq_some_iff.1 (hread hk) with
    | framed _ _ hvalue => exact ⟨_, _, _, rfl, hvalue⟩
  refine ⟨t, fun c hc => hsource c ?_, hvalue⟩
  rw [hu]
  exact List.mem_append_right _ (List.mem_append_left _ hc)

theorem Accepted.writable (h : Accepted s ps ss) (hs : s.hasSurrogate = false) {k : Keyword}
    (hk : k ∉ Keyword.required) {v : Json} (hv : ⟨k, v⟩ ∈ ss)
    (hfinite : v.Everywhere fun x => ¬ x.IsInfinite) :
    v.Everywhere (Json.Writable Text.Joined) := by
  obtain ⟨t, ht, hvalue⟩ := h.exists_value hk hv
  refine hvalue.everywhere_writable (fun u s hstring hu => hstring.joined hu) (fun c hc => ?_)
    hfinite
  by_contra hsurrogate
  rw [Text.hasSurrogate, List.any_eq_false] at hs
  exact hs c (ht c hc) (by simpa using hsurrogate)

theorem Accepted.lasting (h : Accepted s ps ss) (hs : s.hasSurrogate = false) {k : Keyword}
    (hk : k ∉ Keyword.required) {v : Json} (hv : Effective ss k v)
    (hfinite : v.Everywhere fun x => ¬ x.IsInfinite) : v.Lasting := by
  cases hv with
  | filled hlast hfilled => exact ⟨hfilled, h.writable hs hk hlast.mem hfinite⟩
  | emptied | absent => exact ⟨rfl, Json.writable_emptyObject _⟩

/-- A statement describes a request that can be written again. -/
theorem restorable_of_parse {r : Request} (hs : s.hasSurrogate = false)
    (h : Request.parse s = .ok r) (hr : r.FiniteNumbers) : r.Restorable := by
  obtain ⟨ps, ss, ha, hd⟩ := parse_eq_ok_iff_describes.1 h
  exact ⟨ha.plainUrl hd.url.mem, ha.lasting hs (by decide) hd.headers hr.headers,
    ha.lasting hs (by decide) hd.query hr.query, ha.lasting hs (by decide) hd.body hr.body,
    hd.fullUrl⟩

/-! ## Written statements -/

namespace Request

/-- The value that a request has for a keyword. -/
def valueOf (r : Request) : Keyword → Json
  | .http => .str r.method.name
  | .url => .str r.url
  | .headers => r.headers
  | .query => r.query
  | .body => r.body

/-- The sections of the statement of a request. -/
def writtenSections (r : Request) : List Section := Keyword.all.map fun k => ⟨k, r.valueOf k⟩

/-- Every keyword has one section, which is the last of that keyword. -/
theorem isLast_writtenSections (r : Request) (k : Keyword) :
    IsLast r.writtenSections ⟨k, r.valueOf k⟩ := by
  have hk : k ∈ Keyword.all := by cases k <;> decide
  have hnodup : Keyword.all.Nodup := by decide
  obtain ⟨before, after, hsplit⟩ := List.append_of_mem hk
  rw [hsplit, List.nodup_append, List.nodup_cons] at hnodup
  refine ⟨before.map fun k => ⟨k, r.valueOf k⟩, after.map fun k => ⟨k, r.valueOf k⟩, ?_, ?_⟩
  · rw [writtenSections, hsplit, List.map_append, List.map_cons]
  · intro c hc heq
    obtain ⟨k₁, hk₁, rfl⟩ := List.mem_map.1 hc
    have hkey : k₁ = k := heq
    exact hnodup.2.1.1 (hkey ▸ hk₁)

variable {r : Request}

theorem Restorable.lasting (h : r.Restorable) {k : Keyword} (hk : k ∉ Keyword.required) :
    (r.valueOf k).Lasting := by
  cases k with
  | http | url => exact absurd (by decide) hk
  | headers => exact h.headers
  | query => exact h.query
  | body => exact h.body

theorem valueText_eq_statementText (r : Request) {k : Keyword} (hk : k ∉ Keyword.required) :
    r.valueText k = (r.valueOf k).statementText := by
  cases k with
  | http | url => exact absurd (by decide) hk
  | headers | query | body => rfl

/-- The text of a value stands in a section as it is. -/
theorem Restorable.valueText (h : r.Restorable) (k : Keyword) :
    ¬ (" " : Text) <+: r.valueText k ∧ (r.valueText k).EndsSolid ∧ pipe ∉ r.valueText k := by
  by_cases hk : k ∈ Keyword.required
  · cases k with
    | http =>
      show ¬ (" " : Text) <+: r.method.name ∧ r.method.name.EndsSolid ∧ pipe ∉ r.method.name
      cases r.method with
      | get => exact ⟨by decide, ⟨Text.ofString "GE", 'T', rfl, by decide⟩, by decide⟩
      | post => exact ⟨by decide, ⟨Text.ofString "POS", 'T', rfl, by decide⟩, by decide⟩
    | url => exact ⟨h.url.start, h.url.last, h.url.pipe⟩
    | headers | query | body => exact absurd hk (by decide)
  · rw [valueText_eq_statementText r hk]
    have hwritable := (h.lasting hk).writable
    have hvalue := Json.value_statementText (d := .strict) hwritable
    exact ⟨hvalue.not_space_prefix, hvalue.endsSolid, Json.pipe_not_mem_statementText hwritable⟩

theorem Restorable.joinable (h : r.Restorable) (k : Keyword) :
    Joinable (sectionText k (r.valueText k)) := by
  obtain ⟨-, hlast, hpipe⟩ := h.valueText k
  have hfirst : ∃ c u, sectionText k (r.valueText k) = c :: u ∧ c.isBlank = false := by
    cases k <;> exact ⟨_, _, rfl, by decide⟩
  refine ⟨⟨hfirst, hlast.append _⟩, fun hmem => ?_⟩
  rw [sectionText, List.mem_append] at hmem
  rcases hmem with hmem | hmem
  · cases k <;> exact absurd hmem (by decide)
  · exact hpipe hmem

theorem Restorable.writes (h : r.Restorable) (k : Keyword) :
    Section.Writes (sectionText k (r.valueText k)) ⟨k, r.valueOf k⟩ := by
  by_cases hk : k ∈ Keyword.required
  · cases k with
    | http => exact .http r.method
    | url => exact .url h.url.start
    | headers | query | body => exact absurd hk (by decide)
  · have hread := Json.parse?_statementText (d := .strict) (h.lasting hk).writable
    rw [← valueText_eq_statementText r hk] at hread
    exact .json hk (h.valueText k).1 hread

theorem Restorable.effective (h : r.Restorable) {k : Keyword} (hk : k ∉ Keyword.required) :
    Effective r.writtenSections k (r.valueOf k) :=
  .filled (isLast_writtenSections r k) (h.lasting hk).filled

theorem Restorable.describes (h : r.Restorable) : Describes r.writtenSections r where
  method := isLast_writtenSections r .http
  url := isLast_writtenSections r .url
  headers := h.effective (k := .headers) (by decide)
  query := h.effective (k := .query) (by decide)
  body := h.effective (k := .body) (by decide)
  fullUrl := h.fullUrl

theorem Restorable.readSections (h : r.Restorable) :
    readSections r.written = .ok r.writtenSections := by
  have hjoinable : ∀ c ∈ Keyword.all.map fun k => sectionText k (r.valueText k), Joinable c := by
    intro c hc
    obtain ⟨k, -, rfl⟩ := List.mem_map.1 hc
    exact h.joinable k
  refine readSections_joinSections hjoinable ?_
  rw [writtenSections, List.forall₂_map_left_iff, List.forall₂_map_right_iff, List.forall₂_same]
  exact fun k _ => Section.read_eq_ok_iff.2 (h.writes k)

/-- The statement of a request describes it, if the request can be written. -/
theorem parse_written_of_restorable (h : r.Restorable) : parse r.written = .ok r := by
  have hread := h.readSections
  have hne : r.written ≠ [] := List.cons_ne_nil _ _
  have hall : AllWritten r.writtenSections := by
    intro c hc
    obtain ⟨k, -, rfl⟩ := List.mem_map.1 hc
    exact ⟨_, h.writes k⟩
  exact parse_eq_ok_iff.2 ⟨hne, _, hread, (ofReadSections_eq_ok_iff hall).2 h.describes⟩

end Request

/-- **Written requests read back.** The statement of a request that a statement without raw
surrogates describes, infinite numbers apart, describes the same request. -/
theorem parse_written {r : Request} (hs : s.hasSurrogate = false) (h : Request.parse s = .ok r)
    (hr : r.FiniteNumbers) : Request.parse r.written = .ok r :=
  Request.parse_written_of_restorable (restorable_of_parse hs h hr)

/-- An escaped pipe and a lone surrogate are written and read again, and an empty query is one. -/
theorem parse_written_escapes :
    ∃ r, Request.parse "HTTP GET | URL u | BODY [\"\\u007c\\ud800\"] | QUERY \"\"" = .ok r ∧
      r.FiniteNumbers ∧ Request.parse r.written = .ok r := by
  have hread : Request.parse "HTTP GET | URL u | BODY [\"\\u007c\\ud800\"] | QUERY \"\"" =
      .ok ⟨.get, "u", .obj [], .obj [], .arr [.str [pipe, CodePoint.ofNat 0xD800]], "u"⟩ := by
    rfl
  have hempty : (Json.obj []).Everywhere fun x => ¬ x.IsInfinite :=
    Json.everywhere_obj.2 ⟨id, fun _ hm => by cases hm⟩
  have hbody : (Json.arr [.str [pipe, CodePoint.ofNat 0xD800]]).Everywhere
      fun x => ¬ x.IsInfinite := by
    refine Json.everywhere_arr.2 ⟨id, fun v hv => ?_⟩
    rw [List.mem_singleton.1 hv]
    exact (Json.everywhere_scalar rfl).2 id
  exact ⟨_, hread, ⟨hempty, hempty, hbody⟩,
    parse_written (by decide) hread ⟨hempty, hempty, hbody⟩⟩

end RequestLine
