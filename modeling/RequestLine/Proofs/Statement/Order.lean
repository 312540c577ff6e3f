import Mathlib.Logic.Relation
import RequestLine.Proofs.Statement.Acceptance
import RequestLine.Proofs.Statement.Joined

/-!
# The order of sections

The last section of a keyword counts. Sections before it with the same keyword leave no trace, and
it does not matter where the sections of the other keywords stand.

* `Sections.get?_collect_append`: later sections hide the earlier ones of their keywords.
* `Request.ofReadSections_congr`: a request depends on five values alone.
* `Rearranges`: an exchange of neighbours with different keywords, or the removal of a section whose
  keyword comes again.
* `parse_joinSections_rearranged`: statements that differ by such changes, or by sections of an
  optional keyword that end in an empty scalar, have the same outcome.
-/

namespace RequestLine

/-! ## The values that count -/

namespace Sections

theorem get?_collect_append (ss ts : List Section) (k : Keyword) :
    (collect (ss ++ ts)).get? k = ((collect ts).get? k).or ((collect ss).get? k) := by
  induction ts using List.reverseRecOn with
  | nil =>
    rw [List.append_nil]
    rfl
  | append_singleton ts c ih =>
    rw [← List.append_assoc, get?_collect_append_singleton, get?_collect_append_singleton, ih]
    split <;> rfl

theorem get?_collect_singleton (c : Section) (k : Keyword) :
    (collect [c]).get? k = if c.keyword = k then some c.value else none :=
  get?_collect_append_singleton [] c k

theorem get?_collect_swap {c d : Section} (hne : c.keyword ≠ d.keyword)
    (before after : List Section) (k : Keyword) :
    (collect (before ++ d :: c :: after)).get? k =
      (collect (before ++ c :: d :: after)).get? k := by
  have hpair : (collect [d, c]).get? k = (collect [c, d]).get? k := by
    rw [show [d, c] = [d] ++ [c] from rfl, show [c, d] = [c] ++ [d] from rfl,
      get?_collect_append, get?_collect_append, get?_collect_singleton, get?_collect_singleton]
    by_cases hc : c.keyword = k
    · have hd : d.keyword ≠ k := fun hd => hne (hc.trans hd.symm)
      rw [if_pos hc, if_neg hd]
      rfl
    · rw [if_neg hc]
      exact (Option.or_none).symm
  have hsplit : ∀ x y : Section, before ++ x :: y :: after = before ++ ([x, y] ++ after) :=
    fun _ _ => rfl
  rw [hsplit, hsplit, get?_collect_append, get?_collect_append, get?_collect_append before,
    get?_collect_append [c, d], hpair]

theorem get?_collect_drop {c : Section} {after : List Section}
    (h : ∃ d ∈ after, d.keyword = c.keyword) (before : List Section) (k : Keyword) :
    (collect (before ++ after)).get? k = (collect (before ++ c :: after)).get? k := by
  have htail : (collect (c :: after)).get? k = (collect after).get? k := by
    rw [← List.singleton_append, get?_collect_append, get?_collect_singleton]
    by_cases hk : c.keyword = k
    · obtain ⟨v, hv⟩ := Option.ne_none_iff_exists'.1
        (get?_collect_ne_none_iff (k := k).2 (hk ▸ h))
      rw [hv]
      rfl
    · rw [if_neg hk, Option.or_none]
  rw [get?_collect_append, get?_collect_append, htail]

theorem get?_collect_filter (ss : List Section) (k l : Keyword) :
    (collect (ss.filter (·.keyword ≠ k))).get? l =
      if l = k then none else (collect ss).get? l := by
  induction ss using List.reverseRecOn with
  | nil =>
    rw [List.filter_nil]
    split <;> rfl
  | append_singleton ss c ih =>
    rw [List.filter_append, get?_collect_append, ih, get?_collect_append_singleton]
    by_cases hc : c.keyword = k
    · rw [List.filter_cons_of_neg (by simp [hc])]
      by_cases hl : l = k
      · rw [if_pos hl, if_pos hl]
        rfl
      · have hne : c.keyword ≠ l := fun h => hl (h.symm.trans hc)
        rw [if_neg hl, if_neg hl, if_neg hne]
        rfl
    · rw [List.filter_cons_of_pos (by simp [hc]), List.filter_nil, get?_collect_singleton]
      by_cases hl : l = k
      · have hne : c.keyword ≠ l := fun h => hc (h.trans hl)
        rw [if_pos hl, if_pos hl, if_neg hne]
        rfl
      · rw [if_neg hl, if_neg hl]
        split <;> rfl

theorem valueOrEmpty_congr {s t : Sections} {k : Keyword} (h : t.get? k = s.get? k) :
    t.valueOrEmpty k = s.valueOrEmpty k := by
  rw [valueOrEmpty, valueOrEmpty, h]

/-- An empty scalar counts as little as no section. -/
theorem valueOrEmpty_of_isEmptyValue {s t : Sections} {k : Keyword} {v : Json}
    (hs : s.get? k = some v) (hv : v.isEmptyValue = true) (ht : t.get? k = none) :
    t.valueOrEmpty k = s.valueOrEmpty k := by
  simp only [valueOrEmpty, hs, ht, hv, if_true]

end Sections

/-- The request of sections depends on the last method and URL and on the values of the optional
keywords. -/
theorem Request.ofReadSections_congr {ss ts : List Section}
    (hrequired : ∀ k ∈ Keyword.required,
      (Sections.collect ts).get? k = (Sections.collect ss).get? k)
    (hvalues : ∀ k ∉ Keyword.required,
      (Sections.collect ts).valueOrEmpty k = (Sections.collect ss).valueOrEmpty k) :
    ofReadSections ts = ofReadSections ss := by
  have hhttp := hrequired .http (by decide)
  have hurl := hrequired .url (by decide)
  rw [ofReadSections, ofReadSections, Sections.ofList_eq, Sections.ofList_eq, hhttp, hurl]
  split
  · rfl
  · split
    · rfl
    · simp only [bind, Except.bind, ofSections, hhttp, hurl, hvalues .headers (by decide),
        hvalues .query (by decide), hvalues .body (by decide)]

theorem Request.ofReadSections_congr_get? {ss ts : List Section}
    (h : ∀ k, (Sections.collect ts).get? k = (Sections.collect ss).get? k) :
    ofReadSections ts = ofReadSections ss :=
  ofReadSections_congr (fun k _ => h k) fun k _ => Sections.valueOrEmpty_congr (h k)

/-! ## The texts of sections -/

/-- The text of a section, as it stands between two pipes without the spaces next to these. -/
structure SectionText (c : Text) : Prop where
  pipe : pipe ∉ c
  trimmed : c.trim = c
  read : ∃ x, Section.read c = .ok x

/-- The keyword of a section's text. -/
def keywordOf? (c : Text) : Option Keyword := (Section.read c).toOption.map Section.keyword

/-- The sections of some texts. -/
def sectionsOf (cs : List Text) : List Section := cs.filterMap fun c => (Section.read c).toOption

theorem SectionText.joinable {c : Text} (h : SectionText c) : Joinable c := by
  refine ⟨Text.trimmed_of_trim_eq h.trimmed ?_, h.pipe⟩
  rintro rfl
  obtain ⟨x, hx⟩ := h.read
  cases hx

theorem keywordOf?_of_read {c : Text} {x : Section} (hx : Section.read c = .ok x) :
    keywordOf? c = some x.keyword := by
  rw [keywordOf?, hx]
  rfl

theorem sectionsOf_append (cs ds : List Text) :
    sectionsOf (cs ++ ds) = sectionsOf cs ++ sectionsOf ds := List.filterMap_append

theorem sectionsOf_cons {c : Text} {x : Section} (hx : Section.read c = .ok x) (cs : List Text) :
    sectionsOf (c :: cs) = x :: sectionsOf cs :=
  List.filterMap_cons_some (by rw [hx]; rfl)

theorem forall₂_sectionsOf {cs : List Text} (hcs : ∀ c ∈ cs, SectionText c) :
    List.Forall₂ (fun t c => Section.read t = .ok c) cs (sectionsOf cs) := by
  induction cs with
  | nil => exact .nil
  | cons c cs ih =>
    obtain ⟨x, hx⟩ := (hcs c List.mem_cons_self).read
    rw [sectionsOf_cons hx]
    exact .cons hx (ih fun d hd => hcs d (List.mem_cons_of_mem c hd))

theorem allWritten_sectionsOf {cs : List Text} (hcs : ∀ c ∈ cs, SectionText c) :
    AllWritten (sectionsOf cs) := by
  intro x hx
  obtain ⟨c, -, hc⟩ := exists_of_mem_right (forall₂_sectionsOf hcs) hx
  exact ⟨c, Section.read_eq_ok_iff.1 hc⟩

theorem exists_mem_sectionsOf {cs : List Text} (hcs : ∀ c ∈ cs, SectionText c) {c : Text}
    (hc : c ∈ cs) : ∃ x ∈ sectionsOf cs, keywordOf? c = some x.keyword := by
  obtain ⟨x, hx⟩ := (hcs c hc).read
  exact ⟨x, List.mem_filterMap.2 ⟨c, hc, by rw [hx]; rfl⟩, keywordOf?_of_read hx⟩

theorem sectionsOf_filter (cs : List Text) (k : Keyword) :
    sectionsOf (cs.filter (keywordOf? · ≠ some k)) = (sectionsOf cs).filter (·.keyword ≠ k) := by
  induction cs with
  | nil => rfl
  | cons c cs ih =>
    cases hx : Section.read c with
    | error e =>
      have hnone : sectionsOf (c :: cs) = sectionsOf cs :=
        List.filterMap_cons_none (by rw [hx]; rfl)
      have hkeyword : keywordOf? c = none := by
        rw [keywordOf?, hx]
        rfl
      rw [hnone, List.filter_cons_of_pos (by simp [hkeyword]), ← ih]
      exact List.filterMap_cons_none (by rw [hx]; rfl)
    | ok x =>
      have hkeyword := keywordOf?_of_read hx
      rw [sectionsOf_cons hx]
      by_cases hk : x.keyword = k
      · rw [List.filter_cons_of_neg (by simp [hkeyword, hk]),
          List.filter_cons_of_neg (by simp [hk]), ih]
      · rw [List.filter_cons_of_pos (by simp [hkeyword, hk]),
          List.filter_cons_of_pos (by simp [hk]), sectionsOf_cons hx, ih]

/-- The outcome of joined texts is that of their sections. -/
theorem parse_joinSections {cs : List Text} (hne : cs ≠ []) (hcs : ∀ c ∈ cs, SectionText c) :
    Request.parse (joinSections cs) = Request.ofReadSections (sectionsOf cs) := by
  have hjoinable : ∀ c ∈ cs, Joinable c := fun c hc => (hcs c hc).joinable
  have hread := readSections_joinSections hjoinable (forall₂_sectionsOf hcs)
  rw [Request.parse, if_neg (by simpa using joinSections_ne_nil hjoinable hne), hread]
  rfl

/-! ## Changes -/

/-- A change to the texts of sections that leaves the last section of each keyword. -/
inductive Rearranges : List Text → List Text → Prop
  | swap {before after : List Text} {c d : Text} : keywordOf? c ≠ keywordOf? d →
      Rearranges (before ++ c :: d :: after) (before ++ d :: c :: after)
  | drop {before after : List Text} {c : Text} : (∃ d ∈ after, keywordOf? d = keywordOf? c) →
      Rearranges (before ++ c :: after) (before ++ after)

/-- What a change keeps. -/
structure SameSections (cs ds : List Text) : Prop where
  nonempty : ds ≠ []
  texts : ∀ d ∈ ds, SectionText d
  values : ∀ k,
    (Sections.collect (sectionsOf ds)).get? k = (Sections.collect (sectionsOf cs)).get? k

theorem Rearranges.sameSections {cs ds : List Text} (h : Rearranges cs ds)
    (hcs : ∀ c ∈ cs, SectionText c) : SameSections cs ds := by
  cases h with
  | @swap before after c d hne =>
    obtain ⟨x, hx⟩ := (hcs c (by simp)).read
    obtain ⟨y, hy⟩ := (hcs d (by simp)).read
    rw [keywordOf?_of_read hx, keywordOf?_of_read hy] at hne
    have hkeywords : x.keyword ≠ y.keyword := fun h => hne (congrArg some h)
    refine ⟨by simp, fun e he => hcs e ?_, fun k => ?_⟩
    · simp only [List.mem_append, List.mem_cons] at he ⊢
      tauto
    · simp only [sectionsOf_append, sectionsOf_cons hx, sectionsOf_cons hy]
      exact Sections.get?_collect_swap hkeywords _ _ k
  | @drop before after c hlater =>
    obtain ⟨d, hd, hkeyword⟩ := hlater
    obtain ⟨x, hx⟩ := (hcs c (by simp)).read
    have hafter : ∀ e ∈ after, SectionText e := fun e he => hcs e (by simp [he])
    obtain ⟨y, hy, hdy⟩ := exists_mem_sectionsOf hafter hd
    rw [hdy, keywordOf?_of_read hx] at hkeyword
    refine ⟨?_, fun e he => hcs e ?_, fun k => ?_⟩
    · intro hnil
      rw [(List.append_eq_nil_iff.1 hnil).2] at hd
      cases hd
    · rcases List.mem_append.1 he with he | he
      · exact List.mem_append_left _ he
      · exact List.mem_append_right _ (List.mem_cons_of_mem c he)
    · simp only [sectionsOf_append, sectionsOf_cons hx]
      exact Sections.get?_collect_drop ⟨y, hy, Option.some.inj hkeyword⟩ _ k

/-- Any number of changes keeps what one keeps. -/
theorem sameSections_of_rearranged {cs ds : List Text} (hne : cs ≠ [])
    (hcs : ∀ c ∈ cs, SectionText c) (h : Relation.ReflTransGen Rearranges cs ds) :
    SameSections cs ds := by
  induction h with
  | refl => exact ⟨hne, hcs, fun _ => rfl⟩
  | tail _ hstep ih =>
    have hlast := hstep.sameSections ih.texts
    exact ⟨hlast.nonempty, hlast.texts, fun k => (hlast.values k).trans (ih.values k)⟩

/-! ## Outcomes -/

/-- Sections that were read can only lack a required keyword or have a query with a surrogate. -/
theorem Request.ofReadSections_error {ss : List Section} (hss : AllWritten ss)
    {e : StatementError} (h : ofReadSections ss = .error e) :
    e = .missingKeyword .http ∨ e = .missingKeyword .url ∨ e = .malformedQuery := by
  rcases ofReadSections_cases hss with ⟨-, he⟩ | ⟨-, -, he⟩ | ⟨m, url, hm, hu⟩
  · rw [he] at h
    cases h
    exact .inl rfl
  · rw [he] at h
    cases h
    exact .inr (.inl rfl)
  · rw [ofReadSections_of_isLast hm hu] at h
    split at h
    · cases h
      exact .inr (.inr rfl)
    · cases h

/-- The sections of an optional keyword that end in an empty scalar make no difference. -/
theorem Request.ofReadSections_filter {ss : List Section} {k : Keyword} {v : Json}
    (hk : k ∉ Keyword.required) (hlast : IsLast ss ⟨k, v⟩) (hv : v.isEmptyValue = true) :
    ofReadSections (ss.filter (·.keyword ≠ k)) = ofReadSections ss := by
  refine ofReadSections_congr (fun l hl => ?_) fun l _ => ?_
  · have hne : l ≠ k := fun h => hk (h ▸ hl)
    rw [Sections.get?_collect_filter, if_neg hne]
  · have hfilter := Sections.get?_collect_filter ss k l
    by_cases hl : l = k
    · rw [if_pos hl] at hfilter
      subst hl
      exact Sections.valueOrEmpty_of_isEmptyValue (Sections.get?_collect_eq_some_iff.2 hlast) hv
        hfilter
    · rw [if_neg hl] at hfilter
      exact Sections.valueOrEmpty_congr hfilter

theorem not_rearranges_nil {ds : List Text} : ¬ Rearranges [] ds := by
  intro h
  generalize hcs : ([] : List Text) = cs at h
  cases h <;> exact List.append_ne_nil_of_right_ne_nil _ (List.cons_ne_nil _ _) hcs.symm

/-- Changes do not show in the outcome. -/
theorem parse_joinSections_of_rearranged {cs ds : List Text} (hcs : ∀ c ∈ cs, SectionText c)
    (h : Relation.ReflTransGen Rearranges cs ds) :
    Request.parse (joinSections ds) = Request.parse (joinSections cs) := by
  rcases eq_or_ne cs [] with rfl | hne
  · -- nothing can be changed about no sections
    rcases Relation.ReflTransGen.cases_head h with rfl | ⟨es, hfirst, -⟩
    · rfl
    · exact absurd hfirst not_rearranges_nil
  · have hsame := sameSections_of_rearranged hne hcs h
    rw [parse_joinSections hne hcs, parse_joinSections hsame.nonempty hsame.texts]
    exact Request.ofReadSections_congr_get? hsame.values

theorem isLast_sectionsOf {before after : List Text} {c : Text} {x : Section}
    (hx : Section.read c = .ok x) (hafter : ∀ d ∈ after, keywordOf? d ≠ some x.keyword) :
    IsLast (sectionsOf (before ++ c :: after)) x := by
  refine ⟨sectionsOf before, sectionsOf after, ?_, fun y hy hkeyword => ?_⟩
  · rw [sectionsOf_append, sectionsOf_cons hx]
  · obtain ⟨d, hd, hread⟩ := List.mem_filterMap.1 hy
    obtain ⟨z, hz⟩ : ∃ z, Section.read d = .ok z := by
      cases hr : Section.read d with
      | ok z => exact ⟨z, rfl⟩
      | error e =>
        rw [hr] at hread
        cases hread
    rw [hz] at hread
    cases hread
    exact hafter d hd (by rw [keywordOf?_of_read hz, hkeyword])

/-- The texts of an optional keyword make no difference if the last of them holds an empty scalar
and there are other texts. -/
theorem parse_joinSections_filter {before after : List Text} {c : Text} {k : Keyword} {v : Json}
    (hcs : ∀ d ∈ before ++ c :: after, SectionText d) (hk : k ∉ Keyword.required)
    (hother : ∃ d ∈ before ++ c :: after, keywordOf? d ≠ some k)
    (hread : Section.read c = .ok ⟨k, v⟩) (hlast : ∀ d ∈ after, keywordOf? d ≠ some k)
    (hv : v.isEmptyValue = true) :
    Request.parse (joinSections ((before ++ c :: after).filter (keywordOf? · ≠ some k))) =
      Request.parse (joinSections (before ++ c :: after)) := by
  have hne : (before ++ c :: after).filter (keywordOf? · ≠ some k) ≠ [] := by
    obtain ⟨d, hd, hdk⟩ := hother
    exact List.ne_nil_of_mem (List.mem_filter.2 ⟨hd, by simpa using hdk⟩)
  have htexts : ∀ d ∈ (before ++ c :: after).filter (keywordOf? · ≠ some k), SectionText d :=
    fun d hd => hcs d (List.mem_of_mem_filter hd)
  rw [parse_joinSections hne htexts, parse_joinSections (by simp) hcs, sectionsOf_filter]
  exact Request.ofReadSections_filter hk (isLast_sectionsOf hread hlast) hv

/-- **Only the last section of a keyword matters, and the order does not.** Statements of sections
that differ by changes have the same outcome. It is a request, or one of three errors unless there
are no sections at all. The sections of an optional keyword may go if the last holds an empty
scalar. -/
theorem parse_joinSections_rearranged {cs : List Text} (hcs : ∀ c ∈ cs, SectionText c) :
    (∀ ds, Relation.ReflTransGen Rearranges cs ds →
        Request.parse (joinSections ds) = Request.parse (joinSections cs)) ∧
      (cs ≠ [] → ∀ e, Request.parse (joinSections cs) = .error e →
        e = .missingKeyword .http ∨ e = .missingKeyword .url ∨ e = .malformedQuery) ∧
      ((∀ l ∈ Keyword.required, ∃ c ∈ cs, keywordOf? c = some l) →
        ∀ k ∉ Keyword.required, ∀ before c after v, cs = before ++ c :: after →
          Section.read c = .ok ⟨k, v⟩ → (∀ d ∈ after, keywordOf? d ≠ some k) →
          v.isEmptyValue = true →
          Request.parse (joinSections (cs.filter (keywordOf? · ≠ some k))) =
            Request.parse (joinSections cs)) := by
  refine ⟨fun ds h => parse_joinSections_of_rearranged hcs h, fun hne e h => ?_, ?_⟩
  · rw [parse_joinSections hne hcs] at h
    exact Request.ofReadSections_error (allWritten_sectionsOf hcs) h
  · rintro hrequired k hk before c after v rfl hread hlast hv
    obtain ⟨d, hd, hhttp⟩ := hrequired .http (by decide)
    have hother : keywordOf? d ≠ some k := by
      intro h
      rw [hhttp] at h
      cases h
      exact hk (by decide)
    exact parse_joinSections_filter hcs hk ⟨d, hd, hother⟩ hread hlast hv

/-- Sections of which the last query overrides one that cannot be encoded. -/
def overridingSections : List Text :=
  ["HTTP GET", "QUERY \x7b\"a\": \"\\ud800\"\x7d", "URL u", "QUERY \"\""]

/-- The overridden query may go and the URL may come first; both queries may go, as the last one is
the empty text. -/
theorem parse_joinSections_rearranged_overriding :
    (∀ c ∈ overridingSections, SectionText c) ∧
      Request.parse (joinSections ["URL u", "HTTP GET", "QUERY \"\""]) =
        Request.parse (joinSections overridingSections) ∧
      Request.parse (joinSections (overridingSections.filter (keywordOf? · ≠ some .query))) =
        Request.parse (joinSections overridingSections) := by
  have hcs : ∀ c ∈ overridingSections, SectionText c := by
    intro c hc
    simp only [overridingSections, List.mem_cons, List.not_mem_nil, or_false] at hc
    rcases hc with rfl | rfl | rfl | rfl <;> exact ⟨by decide, by decide, _, rfl⟩
  have hdrop : Rearranges overridingSections ["HTTP GET", "URL u", "QUERY \"\""] :=
    @Rearranges.drop ["HTTP GET"] _ _ ⟨"QUERY \"\"", by simp, rfl⟩
  have hswap : Rearranges ["HTTP GET", "URL u", "QUERY \"\""] ["URL u", "HTTP GET", "QUERY \"\""] :=
    @Rearranges.swap [] _ _ _ (by decide)
  obtain ⟨hsame, -, hempty⟩ := parse_joinSections_rearranged hcs
  refine ⟨hcs, hsame _ ((Relation.ReflTransGen.single hdrop).tail hswap), ?_⟩
  refine hempty (by decide) .query (by decide) ["HTTP GET", _, "URL u"] "QUERY \"\"" []
    (.str []) rfl rfl ?_ rfl
  intro d hd
  cases hd

/-- No sections at all are no statement, which is none of the three errors. -/
theorem parse_joinSections_nil :
    (∀ c ∈ ([] : List Text), SectionText c) ∧
      Request.parse (joinSections []) = .error .notAStatement ∧
      ¬ (StatementError.notAStatement = .missingKeyword .http ∨
        StatementError.notAStatement = .missingKeyword .url ∨
        StatementError.notAStatement = .malformedQuery) :=
  ⟨fun _ h => absurd h List.not_mem_nil, rfl, by decide⟩

end RequestLine
