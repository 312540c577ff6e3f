import RequestLine.Proofs.Statement.FullUrl
import RequestLine.Proofs.Statement.Sections

/-!
# The accepted statements

* `Accepted`: the grammar of statements, condition by condition.
* `Describes`: the request that sections describe.
* `parse_eq_ok_iff_accepted`: the statements of the grammar are those that describe a request, and
  it is the one that their sections describe.
-/

namespace RequestLine

/-! ## Requests of sections -/

/-- The request takes its method, its URL and its values from the last section of each keyword. -/
structure Describes (ss : List Section) (r : Request) : Prop where
  method : IsLast ss ⟨.http, .str r.method.name⟩
  url : IsLast ss ⟨.url, .str r.url⟩
  headers : Effective ss .headers r.headers
  query : Effective ss .query r.query
  body : Effective ss .body r.body
  fullUrl : fullUrl? r.url r.query = some r.fullUrl

/-- Every section is written by some text. -/
def AllWritten (ss : List Section) : Prop := ∀ c ∈ ss, ∃ t, Section.Writes t c

theorem allWritten_of_readAs {ps : List Text} {ss : List Section} (h : ReadAs ps ss) :
    AllWritten ss := by
  intro c hc
  obtain ⟨p, -, hp⟩ := exists_of_mem_right h hc
  exact ⟨p.trim, Section.read_eq_ok_iff.1 hp⟩

theorem exists_isLast {ss : List Section} {k : Keyword} (h : ∃ c ∈ ss, c.keyword = k) :
    ∃ v, IsLast ss ⟨k, v⟩ := by
  obtain ⟨v, hv⟩ := Option.ne_none_iff_exists'.1 (Sections.get?_collect_ne_none_iff.2 h)
  exact ⟨v, Sections.get?_collect_eq_some_iff.1 hv⟩

theorem exists_isLast_http {ss : List Section} (hss : AllWritten ss)
    (h : ∃ c ∈ ss, c.keyword = .http) : ∃ m : Method, IsLast ss ⟨.http, .str m.name⟩ := by
  obtain ⟨v, hv⟩ := exists_isLast h
  obtain ⟨t, ht⟩ := hss _ hv.mem
  generalize hc : (⟨.http, v⟩ : Section) = c at ht
  cases ht with
  | http m => exact ⟨m, hc ▸ hv⟩
  | url => cases hc
  | json hk => cases hc; exact absurd (by decide) hk

theorem exists_isLast_url {ss : List Section} (hss : AllWritten ss)
    (h : ∃ c ∈ ss, c.keyword = .url) : ∃ url : Text, IsLast ss ⟨.url, .str url⟩ := by
  obtain ⟨v, hv⟩ := exists_isLast h
  obtain ⟨t, ht⟩ := hss _ hv.mem
  generalize hc : (⟨.url, v⟩ : Section) = c at ht
  cases ht with
  | http m => cases hc
  | url => exact ⟨_, hc ▸ hv⟩
  | json hk => cases hc; exact absurd (by decide) hk

namespace Sections

theorem ofList_eq (ss : List Section) :
    ofList ss =
      if (collect ss).get? .http = none then .error (.missingKeyword .http)
      else if (collect ss).get? .url = none then .error (.missingKeyword .url)
      else .ok (collect ss) := by
  unfold ofList Keyword.required
  cases hhttp : (collect ss).get? .http with
  | none => simp [List.find?, hhttp]
  | some m => cases hurl : (collect ss).get? .url <;> simp [List.find?, hhttp, hurl]

end Sections

namespace Request

theorem ofReadSections_of_no_http {ss : List Section} (h : ∀ c ∈ ss, c.keyword ≠ .http) :
    ofReadSections ss = .error (.missingKeyword .http) := by
  rw [ofReadSections, Sections.ofList_eq, if_pos (Sections.get?_collect_eq_none_iff.2 h)]
  rfl

theorem ofReadSections_of_no_url {ss : List Section} (hhttp : ∃ c ∈ ss, c.keyword = .http)
    (h : ∀ c ∈ ss, c.keyword ≠ .url) : ofReadSections ss = .error (.missingKeyword .url) := by
  rw [ofReadSections, Sections.ofList_eq, if_neg (Sections.get?_collect_ne_none_iff.2 hhttp),
    if_pos (Sections.get?_collect_eq_none_iff.2 h)]
  rfl

theorem ofReadSections_of_isLast {ss : List Section} {m : Method} {url : Text}
    (hm : IsLast ss ⟨.http, .str m.name⟩) (hu : IsLast ss ⟨.url, .str url⟩) :
    ofReadSections ss =
      match fullUrl? url ((Sections.collect ss).valueOrEmpty .query) with
      | none => .error .malformedQuery
      | some full =>
        .ok ⟨m, url, (Sections.collect ss).valueOrEmpty .headers,
          (Sections.collect ss).valueOrEmpty .query, (Sections.collect ss).valueOrEmpty .body,
          full⟩ := by
  have hm₁ := Sections.get?_collect_eq_some_iff.2 hm
  have hu₁ := Sections.get?_collect_eq_some_iff.2 hu
  rw [ofReadSections, Sections.ofList_eq, hm₁, hu₁]
  simp only [reduceCtorEq, if_false, bind, Except.bind, ofSections, hm₁, hu₁, textOf?, methodOf?,
    Method.ofName?_name, Option.getD_some]
  cases fullUrl? url ((Sections.collect ss).valueOrEmpty .query) <;> rfl

/-- Sections that were read lack a required keyword, or have a method and a URL. -/
theorem ofReadSections_cases {ss : List Section} (hss : AllWritten ss) :
    ((∀ c ∈ ss, c.keyword ≠ .http) ∧ ofReadSections ss = .error (.missingKeyword .http)) ∨
      ((∃ c ∈ ss, c.keyword = .http) ∧ (∀ c ∈ ss, c.keyword ≠ .url) ∧
        ofReadSections ss = .error (.missingKeyword .url)) ∨
      ∃ (m : Method) (url : Text),
        IsLast ss ⟨.http, .str m.name⟩ ∧ IsLast ss ⟨.url, .str url⟩ := by
  by_cases hhttp : ∃ c ∈ ss, c.keyword = .http
  · by_cases hurl : ∃ c ∈ ss, c.keyword = .url
    · obtain ⟨m, hm⟩ := exists_isLast_http hss hhttp
      obtain ⟨url, hu⟩ := exists_isLast_url hss hurl
      exact .inr (.inr ⟨m, url, hm, hu⟩)
    · have hno : ∀ c ∈ ss, c.keyword ≠ .url := fun c hc hk => hurl ⟨c, hc, hk⟩
      exact .inr (.inl ⟨hhttp, hno, ofReadSections_of_no_url hhttp hno⟩)
  · have hno : ∀ c ∈ ss, c.keyword ≠ .http := fun c hc hk => hhttp ⟨c, hc, hk⟩
    exact .inl ⟨hno, ofReadSections_of_no_http hno⟩

/-- Sections that were read make the request that they describe, and no other. -/
theorem ofReadSections_eq_ok_iff {ss : List Section} (hss : AllWritten ss) {r : Request} :
    ofReadSections ss = .ok r ↔ Describes ss r := by
  constructor
  · intro h
    rcases ofReadSections_cases hss with ⟨-, he⟩ | ⟨-, -, he⟩ | ⟨m, url, hm, hu⟩
    · rw [he] at h
      cases h
    · rw [he] at h
      cases h
    · rw [ofReadSections_of_isLast hm hu] at h
      split at h
      · cases h
      · rename_i full hfull
        cases h
        exact ⟨hm, hu, effective_iff.2 rfl, effective_iff.2 rfl, effective_iff.2 rfl, hfull⟩
  · intro h
    rw [ofReadSections_of_isLast h.method h.url, effective_iff.1 h.query, h.fullUrl,
      effective_iff.1 h.headers, effective_iff.1 h.body]

end Request

/-! ## Accepted statements -/

/-- The statements of the grammar, with their pieces and the sections that these write. -/
structure Accepted (s : Text) (ps : List Text) (ss : List Section) : Prop where
  nonempty : s ≠ []
  cut : Cut s ps
  spaced : AllSpaced ps
  written : List.Forall₂ (fun p c => Section.Writes (Text.trim p) c) ps ss
  required : ∀ k ∈ Keyword.required, ∃ c ∈ ss, c.keyword = k
  encodable : ∀ q, Effective ss .query q →
    ∀ p ∈ queryPairs q, p.1.hasSurrogate = false ∧ p.2.hasSurrogate = false

theorem Accepted.allWritten {s : Text} {ps : List Text} {ss : List Section}
    (h : Accepted s ps ss) : AllWritten ss := fun _ hc =>
  let ⟨p, _, hp⟩ := exists_of_mem_right h.written hc
  ⟨p.trim, hp⟩

/-- The sections of an accepted statement describe a request. -/
theorem Accepted.exists_describes {s : Text} {ps : List Text} {ss : List Section}
    (h : Accepted s ps ss) : ∃ r, Describes ss r := by
  obtain ⟨m, hm⟩ := exists_isLast_http h.allWritten (h.required .http (by decide))
  obtain ⟨url, hu⟩ := exists_isLast_url h.allWritten (h.required .url (by decide))
  have hquery := h.encodable _ (effective_iff.2 rfl)
  cases hfull : fullUrl? url ((Sections.collect ss).valueOrEmpty .query) with
  | none =>
    obtain ⟨p, hp, hsurrogate⟩ := fullUrl?_eq_none_iff.1 hfull
    simp [hquery p hp] at hsurrogate
  | some full =>
    exact ⟨⟨m, url, _, _, _, full⟩, hm, hu, effective_iff.2 rfl, effective_iff.2 rfl,
      effective_iff.2 rfl, hfull⟩

theorem parse_eq_ok_iff {s : Text} {r : Request} :
    Request.parse s = .ok r ↔
      s ≠ [] ∧ ∃ ss, Request.readSections s = .ok ss ∧ Request.ofReadSections ss = .ok r := by
  unfold Request.parse
  by_cases hs : s = []
  · simp [hs]
  · rw [if_neg (by simpa using hs), bind_eq_ok_iff]
    simp [hs]

theorem parse_eq_ok_iff_describes {s : Text} {r : Request} :
    Request.parse s = .ok r ↔ ∃ ps ss, Accepted s ps ss ∧ Describes ss r := by
  rw [parse_eq_ok_iff]
  constructor
  · rintro ⟨hs, ss, hread, hmake⟩
    obtain ⟨hspaced, hsections⟩ := readSections_eq_ok_iff.1 hread
    have hwritten : List.Forall₂ (fun p c => Section.Writes (Text.trim p) c) (pieces s) ss :=
      hsections.imp fun _ _ => Section.read_eq_ok_iff.1
    have hall : AllWritten ss := fun c hc =>
      let ⟨p, _, hp⟩ := exists_of_mem_right hwritten hc
      ⟨Text.trim p, hp⟩
    have hd := (Request.ofReadSections_eq_ok_iff hall).1 hmake
    refine ⟨pieces s, ss, ⟨hs, cut_pieces s, hspaced, hwritten, ?_, ?_⟩, hd⟩
    · intro k hk
      cases k with
      | http => exact ⟨_, hd.method.mem, rfl⟩
      | url => exact ⟨_, hd.url.mem, rfl⟩
      | headers | query | body => exact absurd hk (by decide)
    · intro q hq p hp
      rw [effective_iff, effective_iff.1 hd.query] at hq
      subst hq
      have hsome : fullUrl? r.url r.query ≠ none := by simp [hd.fullUrl]
      rw [Ne, fullUrl?_eq_none_iff] at hsome
      by_contra hsurrogate
      refine hsome ⟨p, hp, ?_⟩
      cases h₁ : p.1.hasSurrogate <;> simp_all
  · rintro ⟨ps, ss, ha, hd⟩
    obtain rfl := cut_iff.1 ha.cut
    have hread : Request.readSections s = .ok ss :=
      readSections_eq_ok_iff.2 ⟨ha.spaced, ha.written.imp fun _ _ => Section.read_eq_ok_iff.2⟩
    exact ⟨ha.nonempty, ss, hread, (Request.ofReadSections_eq_ok_iff ha.allWritten).2 hd⟩

/-- **The accepted statements.** A text describes a request exactly when it is a statement of the
grammar, and the request is the one that the sections of the statement describe. -/
theorem parse_eq_ok_iff_accepted (s : Text) :
    ((∃ r, Request.parse s = .ok r) ↔ ∃ ps ss, Accepted s ps ss) ∧
      ∀ r, Request.parse s = .ok r ↔ ∃ ps ss, Accepted s ps ss ∧ Describes ss r := by
  refine ⟨⟨?_, ?_⟩, fun _ => parse_eq_ok_iff_describes⟩
  · rintro ⟨r, hr⟩
    obtain ⟨ps, ss, ha, -⟩ := parse_eq_ok_iff_describes.1 hr
    exact ⟨ps, ss, ha⟩
  · rintro ⟨ps, ss, ha⟩
    obtain ⟨r, hd⟩ := ha.exists_describes
    exact ⟨r, parse_eq_ok_iff_describes.2 ⟨ps, ss, ha, hd⟩⟩

end RequestLine
