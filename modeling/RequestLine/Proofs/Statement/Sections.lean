import Mathlib.Data.List.Induction
import Mathlib.Data.List.TakeWhile
import RequestLine.Proofs.Statement.Pieces
import RequestLine.Statement.Request
import RequestLine.Statement.Written

/-!
# The sections of a statement

* `Section.text_cases`: what the first space of a text can follow.
* `Section.Writes`: the form of a section's text; `Section.read_eq_ok_iff`: these are the texts that
  are read; `Section.Writes.value`: what such a text is made of.
* `IsLast`: the section of a keyword that counts; `get?_collect_eq_some_iff`: a statement's
  dictionary holds the values of these.
* `Effective`: the value that a request takes for an optional keyword.
* `readSections_eq_ok_iff`, `readSections_eq_error_iff`: what reading all sections gives.
-/

namespace RequestLine

/-! ## One section -/

namespace Section

/-- The text of a section: a keyword, one space, and a value that starts with none. -/
inductive Writes : Text → Section → Prop
  | http (m : Method) : Writes (sectionText .http m.name) ⟨.http, .str m.name⟩
  | url {v : Text} : ¬ (" " : Text) <+: v → Writes (sectionText .url v) ⟨.url, .str v⟩
  | json {k : Keyword} {v : Text} {x : Json} : k ∉ Keyword.required → ¬ (" " : Text) <+: v →
      Json.parse? .strict v = some x → Writes (sectionText k v) ⟨k, x⟩

/-- The code point that separates a keyword from its value. -/
def space : CodePoint := ' '

theorem takeWhile_append_space {word : Text} (h : space ∉ word) (v : Text) :
    (word ++ space :: v).takeWhile (· ≠ CodePoint.ofChar ' ') = word := by
  rw [List.takeWhile_append_of_pos]
  · simp [space]
  · rintro c hc
    refine decide_eq_true ?_
    rintro rfl
    exact h hc

theorem read_append_space {word : Text} (h : space ∉ word) (v : Text) :
    read (word ++ space :: v) =
      match readKeyword word with
      | .error e => .error e
      | .ok k =>
        if v.startsWith " " then .error .doubledSpace
        else (readValue k v).map fun x => ⟨k, x⟩ := by
  unfold read
  simp only [takeWhile_append_space h, List.drop_left]
  cases readKeyword word with
  | error e => rfl
  | ok k =>
    by_cases hv : v.startsWith " " = true
    · simp only [bind, Except.bind, hv, if_true]
      rfl
    · simp only [bind, Except.bind, hv]
      cases readValue k v <;> rfl

theorem takeWhile_of_not_mem {t : Text} (h : space ∉ t) :
    t.takeWhile (· ≠ CodePoint.ofChar ' ') = t := by
  rw [List.takeWhile_eq_self_iff]
  rintro c hc
  refine decide_eq_true ?_
  rintro rfl
  exact h hc

theorem read_of_not_mem {t : Text} (h : space ∉ t) : read t = .error .missingSpace := by
  unfold read
  simp only [takeWhile_of_not_mem h, List.drop_length]
  rfl

theorem sectionText_eq (k : Keyword) (v : Text) : sectionText k v = k.name ++ space :: v :=
  List.append_assoc _ _ _

theorem space_not_mem_name (k : Keyword) : space ∉ k.name := by
  cases k <;> decide

theorem readKeyword_eq_ok_iff {word : Text} {k : Keyword} :
    readKeyword word = .ok k ↔ word = k.name := by
  unfold readKeyword
  constructor
  · intro h
    split at h
    · rename_i k₁ hk
      cases h
      exact Keyword.eq_name_of_ofName? hk
    · split at h <;> cases h
  · rintro rfl
    rw [Keyword.ofName?_name]

/-- A text has no space, a word before its first one that is no keyword, or a keyword there. -/
theorem text_cases (t : Text) :
    space ∉ t ∨
      (∃ word v : Text, t = word ++ space :: v ∧ space ∉ word ∧ ∀ k : Keyword, word ≠ k.name) ∨
      ∃ (k : Keyword) (v : Text), t = sectionText k v := by
  by_cases hmem : space ∈ t
  · obtain ⟨word, v, rfl, hword⟩ := List.eq_append_cons_of_mem hmem
    by_cases hk : ∃ k : Keyword, word = k.name
    · obtain ⟨k, rfl⟩ := hk
      exact .inr (.inr ⟨k, v, (sectionText_eq k v).symm⟩)
    · exact .inr (.inl ⟨word, v, rfl, hword, not_exists.1 hk⟩)
  · exact .inl hmem

theorem read_sectionText (k : Keyword) (v : Text) :
    read (sectionText k v) =
      if v.startsWith " " then .error .doubledSpace
      else (readValue k v).map fun x => ⟨k, x⟩ := by
  rw [sectionText_eq, read_append_space (space_not_mem_name k), readKeyword_eq_ok_iff.2 rfl]

theorem read_sectionText_eq_ok_iff {k : Keyword} {v : Text} {c : Section} :
    read (sectionText k v) = .ok c ↔
      ¬ (" " : Text) <+: v ∧ ∃ x, readValue k v = .ok x ∧ c = ⟨k, x⟩ := by
  rw [read_sectionText, ← startsWith_iff]
  split_ifs with hv
  · simp [hv]
  · cases readValue k v <;> simp [hv, Except.map, eq_comm]

theorem read_sectionText_eq_error_iff {k : Keyword} {v : Text} {e : StatementError} :
    read (sectionText k v) = .error e ↔
      (" " : Text) <+: v ∧ e = .doubledSpace ∨
        ¬ (" " : Text) <+: v ∧ readValue k v = .error e := by
  rw [read_sectionText, ← startsWith_iff]
  split_ifs with hv
  · simp [hv, eq_comm]
  · cases readValue k v <;> simp [hv, Except.map]

theorem checkMethod_eq_ok_iff {word : Text} :
    checkMethod word = .ok () ↔ ∃ m : Method, word = m.name := by
  unfold checkMethod
  constructor
  · intro h
    split at h
    · rename_i hm
      obtain ⟨m, hm⟩ := Option.isSome_iff_exists.1 hm
      exact ⟨m, Method.eq_name_of_ofName? hm⟩
    · split at h <;> cases h
  · rintro ⟨m, rfl⟩
    rw [Method.ofName?_name]
    rfl

theorem readValue_http_eq_ok_iff {v : Text} {x : Json} :
    readValue .http v = .ok x ↔ ∃ m : Method, v = m.name ∧ x = .str m.name := by
  unfold readValue
  constructor
  · intro h
    simp only at h
    split at h
    · rename_i hc
      cases h
      obtain ⟨m, rfl⟩ := checkMethod_eq_ok_iff.1 hc
      exact ⟨m, rfl, rfl⟩
    · cases h
  · rintro ⟨m, rfl, rfl⟩
    simp only [checkMethod_eq_ok_iff.2 ⟨m, rfl⟩]

theorem readValue_json_eq_ok_iff {k : Keyword} (hk : k ∉ Keyword.required) {v : Text} {x : Json} :
    readValue k v = .ok x ↔ Json.parse? .strict v = some x := by
  unfold readValue
  cases k with
  | http => exact absurd (by decide) hk
  | url => exact absurd (by decide) hk
  | headers | query | body =>
    simp only
    cases Json.parse? .strict v <;> simp

/-- The value of a required keyword is its text, that of any other what the text denotes. -/
theorem text_of_readValue {k : Keyword} {v : Text} {x : Json} (h : readValue k v = .ok x) :
    (k ∈ Keyword.required → x = .str v) ∧
      (k ∉ Keyword.required → Json.parse? .strict v = some x) := by
  refine ⟨fun hk => ?_, fun hk => (readValue_json_eq_ok_iff hk).1 h⟩
  cases k with
  | http =>
    obtain ⟨m, rfl, rfl⟩ := readValue_http_eq_ok_iff.1 h
    rfl
  | url =>
    cases h
    rfl
  | headers | query | body => exact absurd hk (by decide)

theorem not_prefix_name (m : Method) : ¬ (" " : Text) <+: m.name := by
  cases m <;> decide

/-- The texts that are read are the texts of the sections. -/
theorem read_eq_ok_iff {t : Text} {c : Section} : read t = .ok c ↔ Writes t c := by
  constructor
  · intro h
    rcases text_cases t with hmem | ⟨word, v, rfl, hword, hne⟩ | ⟨k, v, rfl⟩
    · rw [read_of_not_mem hmem] at h
      cases h
    · rw [read_append_space hword] at h
      cases hk : readKeyword word with
      | error e =>
        rw [hk] at h
        cases h
      | ok k => exact absurd (readKeyword_eq_ok_iff.1 hk) (hne k)
    · obtain ⟨hv, x, hx, rfl⟩ := read_sectionText_eq_ok_iff.1 h
      by_cases hk : k ∈ Keyword.required
      · cases k with
        | http =>
          obtain ⟨m, rfl, rfl⟩ := readValue_http_eq_ok_iff.1 hx
          exact .http m
        | url =>
          cases hx
          exact .url hv
        | headers | query | body => exact absurd hk (by decide)
      · exact .json hk hv ((readValue_json_eq_ok_iff hk).1 hx)
  · intro h
    cases h with
    | http m =>
      have hread := readValue_http_eq_ok_iff.2 ⟨m, rfl, rfl⟩
      exact read_sectionText_eq_ok_iff.2 ⟨not_prefix_name m, _, hread, rfl⟩
    | url hv => exact read_sectionText_eq_ok_iff.2 ⟨hv, _, rfl, rfl⟩
    | json hk hv hx =>
      exact read_sectionText_eq_ok_iff.2 ⟨hv, _, (readValue_json_eq_ok_iff hk).2 hx, rfl⟩

/-- The text of a section is its keyword, one space and the text of its value, which is the value
itself after the required keywords. -/
theorem Writes.value {t : Text} {c : Section} (h : Writes t c) : ∃ v : Text,
    t = sectionText c.keyword v ∧ ¬ (" " : Text) <+: v ∧
      (c.keyword ∈ Keyword.required → c.value = .str v) ∧
      (c.keyword ∉ Keyword.required → Json.parse? .strict v = some c.value) := by
  have hhttp : Keyword.http ∈ Keyword.required := by decide
  have hurl : Keyword.url ∈ Keyword.required := by decide
  cases h with
  | http m => exact ⟨m.name, rfl, not_prefix_name m, fun _ => rfl, fun hk => absurd hhttp hk⟩
  | @url v hv => exact ⟨v, rfl, hv, fun _ => rfl, fun hk => absurd hurl hk⟩
  | @json k v x hk hv hread =>
    exact ⟨v, rfl, hv, fun hrequired => absurd hrequired hk, fun _ => hread⟩

end Section

/-! ## The section that counts -/

/-- The last section of its keyword. -/
def IsLast (ss : List Section) (c : Section) : Prop :=
  ∃ before after, ss = before ++ c :: after ∧ ∀ d ∈ after, d.keyword ≠ c.keyword

theorem not_isLast_nil (c : Section) : ¬ IsLast [] c := by
  rintro ⟨before, after, h, -⟩
  simp at h

theorem isLast_append_singleton {ss : List Section} {c d : Section} :
    IsLast (ss ++ [c]) d ↔ d = c ∨ (c.keyword ≠ d.keyword ∧ IsLast ss d) := by
  constructor
  · rintro ⟨before, after, h, hafter⟩
    rcases List.eq_nil_or_concat after with rfl | ⟨after, e, rfl⟩
    · exact .inl (List.append_inj' h rfl |>.2 |> List.singleton_inj.1).symm
    · rw [List.concat_eq_append, ← List.cons_append, ← List.append_assoc] at h
      obtain ⟨rfl, he⟩ := List.append_inj' h rfl
      obtain rfl := List.singleton_inj.1 he
      exact .inr ⟨hafter c (by simp), before, after, rfl, fun x hx => hafter x (by simp [hx])⟩
  · rintro (rfl | ⟨hne, before, after, rfl, hafter⟩)
    · exact ⟨ss, [], rfl, by simp⟩
    · refine ⟨before, after ++ [c], by simp, fun x hx => ?_⟩
      rcases List.mem_append.1 hx with hx | hx
      · exact hafter x hx
      · rw [List.mem_singleton.1 hx]
        exact hne

theorem IsLast.mem {ss : List Section} {c : Section} (h : IsLast ss c) : c ∈ ss := by
  obtain ⟨before, after, rfl, -⟩ := h
  simp

namespace Sections

theorem get?_collect_append_singleton (ss : List Section) (c : Section) (k : Keyword) :
    (collect (ss ++ [c])).get? k = if c.keyword = k then some c.value else (collect ss).get? k := by
  rw [← Dictionary.get?_set]
  simp [collect, Dictionary.ofPairs]

theorem get?_collect_eq_some_iff {ss : List Section} {k : Keyword} {v : Json} :
    (collect ss).get? k = some v ↔ IsLast ss ⟨k, v⟩ := by
  induction ss using List.reverseRecOn with
  | nil => exact ⟨fun h => (by cases h), fun h => absurd h (not_isLast_nil _)⟩
  | append_singleton ss c ih =>
    rw [get?_collect_append_singleton, isLast_append_singleton, ← ih]
    by_cases hk : c.keyword = k
    · subst hk
      rw [if_pos rfl, Option.some.injEq]
      constructor
      · rintro rfl
        exact .inl rfl
      · rintro (h | h)
        · exact congrArg Section.value h.symm
        · exact absurd rfl h.1
    · have hne : (⟨k, v⟩ : Section) ≠ c := fun h => hk (h ▸ rfl)
      simp [hk, hne]

theorem get?_collect_eq_none_iff {ss : List Section} {k : Keyword} :
    (collect ss).get? k = none ↔ ∀ c ∈ ss, c.keyword ≠ k := by
  induction ss using List.reverseRecOn with
  | nil => simp [collect, Dictionary.ofPairs, Dictionary.get?]
  | append_singleton ss c ih =>
    rw [get?_collect_append_singleton]
    by_cases hk : c.keyword = k
    · simp [hk]
    · simp [hk, ih, or_imp, forall_and]

theorem get?_collect_ne_none_iff {ss : List Section} {k : Keyword} :
    (collect ss).get? k ≠ none ↔ ∃ c ∈ ss, c.keyword = k := by
  rw [Ne, get?_collect_eq_none_iff]
  simp

end Sections

theorem IsLast.value_unique {ss : List Section} {k : Keyword} {v w : Json}
    (hv : IsLast ss ⟨k, v⟩) (hw : IsLast ss ⟨k, w⟩) : v = w := by
  rw [← Sections.get?_collect_eq_some_iff] at hv hw
  exact Option.some.inj (hv.symm.trans hw)

/-- The value that sections give to an optional keyword: that of the last section of the keyword,
the empty object where that is an empty scalar or where there is no such section. -/
inductive Effective (ss : List Section) (k : Keyword) : Json → Prop
  | filled {v : Json} : IsLast ss ⟨k, v⟩ → v.isEmptyValue = false → Effective ss k v
  | emptied {v : Json} : IsLast ss ⟨k, v⟩ → v.isEmptyValue = true → Effective ss k (.obj [])
  | absent : (∀ c ∈ ss, c.keyword ≠ k) → Effective ss k (.obj [])

theorem effective_iff {ss : List Section} {k : Keyword} {v : Json} :
    Effective ss k v ↔ (Sections.collect ss).valueOrEmpty k = v := by
  unfold Sections.valueOrEmpty
  constructor
  · intro h
    cases h with
    | filled hl hv => simp [Sections.get?_collect_eq_some_iff.2 hl, hv]
    | emptied hl hv => simp [Sections.get?_collect_eq_some_iff.2 hl, hv]
    | absent ha => simp [Sections.get?_collect_eq_none_iff.2 ha]
  · intro h
    split at h
    · rename_i w hw
      rw [Sections.get?_collect_eq_some_iff] at hw
      split at h
      · rename_i he
        subst h
        exact .emptied hw he
      · rename_i he
        subst h
        exact .filled hw (Bool.not_eq_true _ ▸ he)
    · rename_i hn
      subst h
      exact .absent (Sections.get?_collect_eq_none_iff.1 hn)

/-! ## All sections -/

/-- The trimmed pieces are read as the sections, in order. -/
def ReadAs (ps : List Text) (ss : List Section) : Prop :=
  List.Forall₂ (fun p c => Section.read (Text.trim p) = .ok c) ps ss

theorem readSections_eq_ok_iff {s : Text} {ss : List Section} :
    Request.readSections s = .ok ss ↔ AllSpaced (pieces s) ∧ ReadAs (pieces s) ss := by
  rw [Request.readSections, bind_eq_ok_iff]
  constructor
  · rintro ⟨ts, hts, hread⟩
    obtain ⟨hspaced, rfl⟩ := cleanSegments_eq_ok_iff.1 hts
    rw [mapM_eq_ok_iff, List.forall₂_map_left_iff] at hread
    exact ⟨hspaced, hread⟩
  · rintro ⟨hspaced, hread⟩
    refine ⟨_, cleanSegments_eq_ok_iff.2 ⟨hspaced, rfl⟩, ?_⟩
    rwa [mapM_eq_ok_iff, List.forall₂_map_left_iff]

/-- The spacing of all pieces is judged before the first section is read. -/
theorem readSections_eq_error_iff {s : Text} {e : StatementError} :
    Request.readSections s = .error e ↔
      (∃ (i : Nat) (p : Text), (pieces s)[i]? = some p ∧ SpacingFault (pieces s).length i p e ∧
        ∀ j < i, ∀ q, (pieces s)[j]? = some q → Spaced (pieces s).length j q) ∨
      (AllSpaced (pieces s) ∧
        ∃ (i : Nat) (p : Text), (pieces s)[i]? = some p ∧ Section.read p.trim = .error e ∧
          ∀ j < i, ∀ q, (pieces s)[j]? = some q → ∃ c, Section.read (Text.trim q) = .ok c) := by
  rw [Request.readSections, bind_eq_error_iff, cleanSegments_eq_error_iff]
  refine or_congr_right ⟨?_, ?_⟩
  · rintro ⟨ts, hts, hread⟩
    obtain ⟨hspaced, rfl⟩ := cleanSegments_eq_ok_iff.1 hts
    rw [mapM_eq_error_iff] at hread
    simp only [List.getElem?_map, Option.map_eq_some_iff] at hread
    obtain ⟨i, _, ⟨p, hp, rfl⟩, he, hlt⟩ := hread
    exact ⟨hspaced, i, p, hp, he, fun j hj q hq => hlt j hj _ ⟨q, hq, rfl⟩⟩
  · rintro ⟨hspaced, i, p, hp, he, hlt⟩
    refine ⟨_, cleanSegments_eq_ok_iff.2 ⟨hspaced, rfl⟩, ?_⟩
    rw [mapM_eq_error_iff]
    simp only [List.getElem?_map, Option.map_eq_some_iff]
    refine ⟨i, _, ⟨p, hp, rfl⟩, he, ?_⟩
    rintro j hj _ ⟨q, hq, rfl⟩
    exact hlt j hj q hq

end RequestLine
