import RequestLine.Proofs.Statement.Partial

/-!
# What a text is as a section

Every text is a section, or it breaks one rule first. The rules have an order: a space, a keyword,
no second space, a value that the keyword takes. Upper case may change the length of a word and may
bring letters of other scripts into a keyword or a method.

* `Section.Faulty`: the texts that are no section, with the error of each.
* `Section.read_classified`: a text is read as the section that it writes, or has its error.
-/

namespace RequestLine

theorem Keyword.isSome_ofName? {t : Text} : (ofName? t).isSome ↔ ∃ k : Keyword, t = k.name := by
  rw [Option.isSome_iff_exists]
  refine exists_congr fun k => ⟨eq_name_of_ofName?, ?_⟩
  rintro rfl
  exact ofName?_name k

theorem Method.isSome_ofName? {t : Text} : (ofName? t).isSome ↔ ∃ m : Method, t = m.name := by
  rw [Option.isSome_iff_exists]
  refine exists_congr fun m => ⟨eq_name_of_ofName?, ?_⟩
  rintro rfl
  exact ofName?_name m

namespace Section

/-! ## Faults -/

/-- The texts that are no section, with the error reported. -/
inductive Faulty : Text → StatementError → Prop
  | noSpace {t : Text} : space ∉ t → Faulty t .missingSpace
  /-- Only its case keeps the word from being a keyword, whatever follows it. -/
  | wrongCase {word v : Text} (k : Keyword) : space ∉ word → (∀ l : Keyword, word ≠ l.name) →
      word.upperCase = k.name → Faulty (word ++ space :: v) .keywordCase
  | unknown {word v : Text} : space ∉ word → (∀ l : Keyword, word ≠ l.name) →
      (∀ l : Keyword, word.upperCase ≠ l.name) → Faulty (word ++ space :: v) (.unknownKeyword word)
  | secondSpace {k : Keyword} {v : Text} : (" " : Text) <+: v →
      Faulty (sectionText k v) .doubledSpace
  | methodCase {v : Text} (m : Method) : ¬ (" " : Text) <+: v → (∀ l : Method, v ≠ l.name) →
      v.upperCase = m.name → Faulty (sectionText .http v) .methodCase
  | noMethod {v : Text} : ¬ (" " : Text) <+: v → (∀ l : Method, v ≠ l.name) →
      (∀ l : Method, v.upperCase ≠ l.name) → Faulty (sectionText .http v) .unsupportedMethod
  | noJson {k : Keyword} {v : Text} : k ∉ Keyword.required → ¬ (" " : Text) <+: v →
      Json.parse? .strict v = none → Faulty (sectionText k v) (.malformedJson k)

/-- One of two errors is reported. -/
theorem ite_error_eq_iff {α : Type} {p : Prop} [Decidable p] {a b e : StatementError} :
    (if p then Except.error a else .error b : Except StatementError α) = .error e ↔
      p ∧ e = a ∨ ¬ p ∧ e = b := by
  split_ifs with hp <;> simp [hp, eq_comm]

theorem readKeyword_eq_error_iff {word : Text} {e : StatementError} :
    readKeyword word = .error e ↔ (∀ l : Keyword, word ≠ l.name) ∧
      ((∃ k : Keyword, word.upperCase = k.name) ∧ e = .keywordCase ∨
        (∀ l : Keyword, word.upperCase ≠ l.name) ∧ e = .unknownKeyword word) := by
  unfold readKeyword
  cases hword : Keyword.ofName? word with
  | some k => exact iff_of_false nofun fun h => h.1 k (Keyword.eq_name_of_ofName? hword)
  | none =>
    have hne : ∀ l : Keyword, word ≠ l.name := by
      rintro l rfl
      rw [Keyword.ofName?_name] at hword
      cases hword
    simp only
    rw [ite_error_eq_iff, Keyword.isSome_ofName?, not_exists]
    exact ⟨fun h => ⟨hne, h⟩, fun h => h.2⟩

theorem checkMethod_eq_error_iff {word : Text} {e : StatementError} :
    checkMethod word = .error e ↔ (∀ l : Method, word ≠ l.name) ∧
      ((∃ m : Method, word.upperCase = m.name) ∧ e = .methodCase ∨
        (∀ l : Method, word.upperCase ≠ l.name) ∧ e = .unsupportedMethod) := by
  unfold checkMethod
  by_cases hword : (Method.ofName? word).isSome
  · obtain ⟨m, hm⟩ := Method.isSome_ofName?.1 hword
    rw [if_pos hword]
    exact iff_of_false nofun fun h => h.1 m hm
  · have hne := not_exists.1 (mt Method.isSome_ofName?.2 hword)
    rw [if_neg hword, ite_error_eq_iff, Method.isSome_ofName?, not_exists]
    exact ⟨fun h => ⟨hne, h⟩, fun h => h.2⟩

theorem readValue_json_eq_error_iff {k : Keyword} (hk : k ∉ Keyword.required) {v : Text}
    {e : StatementError} :
    readValue k v = .error e ↔ Json.parse? .strict v = none ∧ e = .malformedJson k := by
  unfold readValue
  cases k with
  | http => exact absurd (by decide) hk
  | url => exact absurd (by decide) hk
  | headers | query | body =>
    simp only
    cases Json.parse? .strict v <;> simp [eq_comm]

theorem readValue_http_eq_error_iff {v : Text} {e : StatementError} :
    readValue .http v = .error e ↔ checkMethod v = .error e := by
  unfold readValue
  simp only
  cases checkMethod v <;> simp

/-- The fault of a value whose keyword and space are right. -/
theorem faulty_of_readValue {k : Keyword} {v : Text} {e : StatementError}
    (hv : ¬ (" " : Text) <+: v) (h : readValue k v = .error e) : Faulty (sectionText k v) e := by
  by_cases hk : k ∈ Keyword.required
  · cases k with
    | http =>
      rw [readValue_http_eq_error_iff, checkMethod_eq_error_iff] at h
      obtain ⟨hne, ⟨⟨m, hm⟩, rfl⟩ | ⟨hupper, rfl⟩⟩ := h
      · exact .methodCase m hv hne hm
      · exact .noMethod hv hne hupper
    | url => cases h
    | headers | query | body => exact absurd hk (by decide)
  · obtain ⟨hread, rfl⟩ := (readValue_json_eq_error_iff hk).1 h
    exact .noJson hk hv hread

theorem faulty_of_read {t : Text} {e : StatementError} (h : read t = .error e) : Faulty t e := by
  rcases text_cases t with hmem | ⟨word, v, rfl, hword, hne⟩ | ⟨k, v, rfl⟩
  · rw [read_of_not_mem hmem] at h
    cases h
    exact .noSpace hmem
  · rw [read_append_space hword] at h
    cases hk : readKeyword word with
    | error e₁ =>
      rw [hk] at h
      cases h
      obtain ⟨-, ⟨⟨k, hupper⟩, rfl⟩ | ⟨hupper, rfl⟩⟩ := readKeyword_eq_error_iff.1 hk
      · exact .wrongCase k hword hne hupper
      · exact .unknown hword hne hupper
    | ok k => exact absurd (readKeyword_eq_ok_iff.1 hk) (hne k)
  · rcases read_sectionText_eq_error_iff.1 h with ⟨hv, rfl⟩ | ⟨hv, hvalue⟩
    · exact .secondSpace hv
    · exact faulty_of_readValue hv hvalue

theorem Faulty.read_eq {t : Text} {e : StatementError} (h : Faulty t e) : read t = .error e := by
  cases h with
  | noSpace hmem => exact read_of_not_mem hmem
  | wrongCase k hword hne hupper =>
    rw [read_append_space hword, readKeyword_eq_error_iff.2 ⟨hne, .inl ⟨⟨k, hupper⟩, rfl⟩⟩]
  | unknown hword hne hupper =>
    rw [read_append_space hword, readKeyword_eq_error_iff.2 ⟨hne, .inr ⟨hupper, rfl⟩⟩]
  | secondSpace hv => exact read_sectionText_eq_error_iff.2 (.inl ⟨hv, rfl⟩)
  | methodCase m hv hne hupper =>
    have hmethod := checkMethod_eq_error_iff.2 ⟨hne, .inl ⟨⟨m, hupper⟩, rfl⟩⟩
    exact read_sectionText_eq_error_iff.2 (.inr ⟨hv, readValue_http_eq_error_iff.2 hmethod⟩)
  | noMethod hv hne hupper =>
    have hmethod := checkMethod_eq_error_iff.2 ⟨hne, .inr ⟨hupper, rfl⟩⟩
    exact read_sectionText_eq_error_iff.2 (.inr ⟨hv, readValue_http_eq_error_iff.2 hmethod⟩)
  | noJson hk hv hread =>
    have hvalue := (readValue_json_eq_error_iff hk).2 ⟨hread, rfl⟩
    exact read_sectionText_eq_error_iff.2 (.inr ⟨hv, hvalue⟩)

/-- **What a text is as a section.** A text is read exactly as the section that it writes, whose
keyword and value text make it up, or it has exactly the error of the first rule that it breaks. It
makes no difference whether a word is first compared with its own upper case. -/
theorem read_classified (t : Text) :
    (∀ c, read t = .ok c ↔ Writes t c) ∧
      (∀ e, read t = .error e ↔ Faulty t e) ∧
      (∀ c, read t = .ok c → ∃ v : Text,
        t = c.keyword.name ++ space :: v ∧ ¬ (" " : Text) <+: v ∧
          (c.keyword ∈ Keyword.required → c.value = .str v) ∧
          (c.keyword ∉ Keyword.required → Json.parse? .strict v = some c.value)) ∧
      Partial.readSection t = Partial.ruled (read t) := by
  refine ⟨fun c => read_eq_ok_iff, fun e => ⟨faulty_of_read, Faulty.read_eq⟩, fun c h => ?_,
    Partial.readSection_eq t⟩
  obtain ⟨v, ht, hv⟩ := (read_eq_ok_iff.1 h).value
  exact ⟨v, ht.trans (sectionText_eq c.keyword v), hv⟩

/-- A long s, two spaces and no method after a word in the wrong case; a ligature in a method; a
URL that white space of another kind starts. -/
theorem read_classified_wrong_case :
    Faulty "headerſ  GET" .keywordCase ∧ Faulty "HTTP poﬆ" .methodCase ∧
      ∃ v : Text, Text.ofString "URL \u00a0 x" = Keyword.url.name ++ space :: v ∧
        (Json.str "\u00a0 x") = .str v := by
  refine ⟨((read_classified _).2.1 _).1 rfl, ((read_classified _).2.1 _).1 rfl, ?_⟩
  obtain ⟨v, ht, -, hv, -⟩ := (read_classified "URL \u00a0 x").2.2.1 ⟨.url, .str "\u00a0 x"⟩ rfl
  exact ⟨v, ht, hv (by decide)⟩

end Section

end RequestLine
