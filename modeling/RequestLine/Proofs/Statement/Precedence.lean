import RequestLine.Proofs.Statement.Acceptance

/-!
# Which error is reported

A statement may break several rules at once. The spacing of all pieces is judged before any section
is read, all sections are read before the required keywords are looked for, and the query comes
last; within a stage the first piece with a fault decides.

* `Rejected`: the statements with an error, and the error.
* `parse_eq_error_iff_rejected`: this is the error reported.
-/

namespace RequestLine

/-- The pieces of a rejected statement with the error reported. Each case rules out the cases
before it. -/
inductive Rejected (ps : List Text) : StatementError → Prop
  /-- Piece number `i` is the first with a fault in its spacing, whatever the sections are. -/
  | spacing {i : Nat} {p : Text} {e : StatementError} : ps[i]? = some p →
      SpacingFault ps.length i p e → (∀ j < i, ∀ q, ps[j]? = some q → Spaced ps.length j q) →
      Rejected ps e
  /-- Piece number `i` is the first that is no section. -/
  | unread {i : Nat} {p : Text} {e : StatementError} : AllSpaced ps → ps[i]? = some p →
      Section.read p.trim = .error e →
      (∀ j < i, ∀ q, ps[j]? = some q → ∃ c, Section.read (Text.trim q) = .ok c) → Rejected ps e
  | noMethod {ss : List Section} : AllSpaced ps → ReadAs ps ss → (∀ c ∈ ss, c.keyword ≠ .http) →
      Rejected ps (.missingKeyword .http)
  | noUrl {ss : List Section} : AllSpaced ps → ReadAs ps ss → (∃ c ∈ ss, c.keyword = .http) →
      (∀ c ∈ ss, c.keyword ≠ .url) → Rejected ps (.missingKeyword .url)
  /-- The last query section has a key or an item that cannot be encoded. -/
  | query {ss : List Section} {q : Json} : AllSpaced ps → ReadAs ps ss →
      (∃ c ∈ ss, c.keyword = .http) → (∃ c ∈ ss, c.keyword = .url) → IsLast ss ⟨.query, q⟩ →
      (∃ p ∈ queryPairs q, p.1.hasSurrogate = true ∨ p.2.hasSurrogate = true) →
      Rejected ps .malformedQuery

theorem queryPairs_of_isEmptyValue {q : Json} (h : q.isEmptyValue = true) :
    queryPairs q = [] := by
  cases q with
  | null | bool | num => rfl
  | str s => rw [List.isEmpty_iff.1 h]; rfl
  | arr | obj => cases h

/-- Empty scalars have no pairs, so a query with a surrogate is the value of a section. -/
theorem Effective.exists_surrogate_iff {ss : List Section} {v : Json}
    (h : Effective ss .query v) :
    (∃ p ∈ queryPairs v, p.1.hasSurrogate = true ∨ p.2.hasSurrogate = true) ↔
      ∃ q, IsLast ss ⟨.query, q⟩ ∧
        ∃ p ∈ queryPairs q, p.1.hasSurrogate = true ∨ p.2.hasSurrogate = true := by
  cases h with
  | filled hl _ =>
    refine ⟨fun hp => ⟨v, hl, hp⟩, ?_⟩
    rintro ⟨q, hq, hp⟩
    rwa [← hq.value_unique hl]
  | emptied hl he =>
    refine ⟨fun ⟨p, hp, _⟩ => (by cases hp), ?_⟩
    rintro ⟨q, hq, p, hp, -⟩
    rw [hq.value_unique hl, queryPairs_of_isEmptyValue he] at hp
    cases hp
  | absent ha =>
    refine ⟨fun ⟨p, hp, _⟩ => (by cases hp), ?_⟩
    rintro ⟨q, hq, -⟩
    exact absurd rfl (ha _ hq.mem)

/-- Sections that were read and do not make a request lack a required keyword, or else their last
query has a surrogate. -/
theorem rejected_of_ofReadSections {ps : List Text} {ss : List Section} {e : StatementError}
    (hspaced : AllSpaced ps) (hread : ReadAs ps ss) (h : Request.ofReadSections ss = .error e) :
    Rejected ps e := by
  rcases Request.ofReadSections_cases (allWritten_of_readAs hread) with
    ⟨hno, he⟩ | ⟨hhttp, hno, he⟩ | ⟨m, url, hm, hu⟩
  · rw [he] at h
    cases h
    exact .noMethod hspaced hread hno
  · rw [he] at h
    cases h
    exact .noUrl hspaced hread hhttp hno
  · rw [Request.ofReadSections_of_isLast hm hu] at h
    split at h
    · rename_i hnone
      cases h
      obtain ⟨q, hq, hp⟩ :=
        (effective_iff.2 rfl).exists_surrogate_iff.1 (fullUrl?_eq_none_iff.1 hnone)
      exact .query hspaced hread ⟨_, hm.mem, rfl⟩ ⟨_, hu.mem, rfl⟩ hq hp
    · cases h

theorem ofReadSections_of_surrogate {ss : List Section} (hss : AllWritten ss)
    (hhttp : ∃ c ∈ ss, c.keyword = .http) (hurl : ∃ c ∈ ss, c.keyword = .url) {q : Json}
    (hq : IsLast ss ⟨.query, q⟩)
    (hp : ∃ p ∈ queryPairs q, p.1.hasSurrogate = true ∨ p.2.hasSurrogate = true) :
    Request.ofReadSections ss = .error .malformedQuery := by
  obtain ⟨m, hm⟩ := exists_isLast_http hss hhttp
  obtain ⟨url, hu⟩ := exists_isLast_url hss hurl
  have hnone : fullUrl? url ((Sections.collect ss).valueOrEmpty .query) = none :=
    fullUrl?_eq_none_iff.2 ((effective_iff.2 rfl).exists_surrogate_iff.2 ⟨q, hq, hp⟩)
  rw [Request.ofReadSections_of_isLast hm hu, hnone]

theorem parse_eq_error_iff {s : Text} (hs : s ≠ []) {e : StatementError} :
    Request.parse s = .error e ↔
      Request.readSections s = .error e ∨
        ∃ ss, Request.readSections s = .ok ss ∧ Request.ofReadSections ss = .error e := by
  rw [Request.parse, if_neg (by simpa using hs), bind_eq_error_iff]

/-- **Which error is reported.** The error of a statement that describes no request is the first in
the order of the stages and, within a stage, of the pieces. -/
theorem parse_eq_error_iff_rejected {s : Text} (hs : s ≠ []) (e : StatementError) :
    Request.parse s = .error e ↔ ∃ ps, Cut s ps ∧ Rejected ps e := by
  rw [parse_eq_error_iff hs]
  constructor
  · intro h
    refine ⟨pieces s, cut_pieces s, ?_⟩
    rcases h with h | ⟨ss, hread, hmake⟩
    · rcases readSections_eq_error_iff.1 h with ⟨i, p, hp, hf, hlt⟩ | ⟨hall, i, p, hp, hf, hlt⟩
      · exact .spacing hp hf hlt
      · exact .unread hall hp hf hlt
    · obtain ⟨hspaced, hread⟩ := readSections_eq_ok_iff.1 hread
      exact rejected_of_ofReadSections hspaced hread hmake
  · rintro ⟨ps, hcut, h⟩
    obtain rfl := cut_iff.1 hcut
    cases h with
    | spacing hp hf hlt => exact .inl (readSections_eq_error_iff.2 (.inl ⟨_, _, hp, hf, hlt⟩))
    | unread hall hp hf hlt =>
      exact .inl (readSections_eq_error_iff.2 (.inr ⟨hall, _, _, hp, hf, hlt⟩))
    | noMethod hspaced hread hno =>
      exact .inr ⟨_, readSections_eq_ok_iff.2 ⟨hspaced, hread⟩,
        Request.ofReadSections_of_no_http hno⟩
    | noUrl hspaced hread hhttp hno =>
      exact .inr ⟨_, readSections_eq_ok_iff.2 ⟨hspaced, hread⟩,
        Request.ofReadSections_of_no_url hhttp hno⟩
    | query hspaced hread hhttp hurl hq hp =>
      exact .inr ⟨_, readSections_eq_ok_iff.2 ⟨hspaced, hread⟩,
        ofReadSections_of_surrogate (allWritten_of_readAs hread) hhttp hurl hq hp⟩

/-- The spacing of the last piece is reported, although the first is no section, no section has a
URL and the query has a surrogate. -/
theorem parse_eq_error_iff_rejected_late_spacing :
    Text.ofString "get x | QUERY \x7b\"a\": \"\\ud800\"\x7d |HTTP GET" ≠ [] ∧
      ∃ ps, Cut "get x | QUERY \x7b\"a\": \"\\ud800\"\x7d |HTTP GET" ps ∧
        Rejected ps .pipeSpacing :=
  ⟨by decide, (parse_eq_error_iff_rejected (by decide) .pipeSpacing).1 rfl⟩

end RequestLine
