import RequestLine.Proofs.Json.Entries
import RequestLine.Proofs.Text.Joining
import RequestLine.Proofs.Text.Percent
import RequestLine.Proofs.Traversal
import RequestLine.Statement.FullUrl

/-!
# The query of a full URL reads back

* `decodeQuery?`: the pairs that a query text names, cut at `&` and each at its only `=`.
* `fullUrl?_eq_none_iff`: only surrogates keep a query out of a URL.
* `decodeQuery?_of_queryText?`: the text of a query names its pairs.
* `fullUrl?_reads_back`: so the pairs can be read off a full URL, and it determines them.
-/

namespace RequestLine

/-! ## Decoding -/

/-- The key and the text that one part of a query names. -/
def decodePair? (part : Text) : Option (Text × Text) :=
  match part.splitOn (CodePoint.ofChar '=') with
  | [key, text] => (Percent.decode? key).bind fun k => (Percent.decode? text).map fun t => (k, t)
  | _ => none

/-- The pairs that the text of a query names. -/
def decodeQuery? (t : Text) : Option (List (Text × Text)) :=
  (t.splitOn (CodePoint.ofChar '&')).mapM decodePair?

/-! ## One pair -/

theorem encodePair?_eq_some_iff {p : Text × Text} {u : Text} :
    encodePair? p = some u ↔
      ∃ k t, Percent.encode? p.1 = some k ∧ Percent.encode? p.2 = some t ∧
        k ++ CodePoint.ofChar '=' :: t = u := by
  unfold encodePair?
  cases Percent.encode? p.1 with
  | none => simp
  | some k =>
    cases Percent.encode? p.2 with
    | none => simp
    | some t =>
      simp only [Option.bind_eq_bind, Option.bind_some, Option.some.injEq, List.append_assoc]
      constructor
      · rintro rfl
        exact ⟨k, t, rfl, rfl, rfl⟩
      · rintro ⟨_, _, rfl, rfl, rfl⟩
        rfl

theorem encodePair?_eq_none_iff {p : Text × Text} :
    encodePair? p = none ↔ p.1.hasSurrogate = true ∨ p.2.hasSurrogate = true := by
  rw [← Percent.encode?_eq_none_iff, ← Percent.encode?_eq_none_iff]
  unfold encodePair?
  cases Percent.encode? p.1 <;> cases Percent.encode? p.2 <;> simp

/-- A part of a query names its pair. -/
theorem decodePair?_of_encodePair? {p : Text × Text} {u : Text} (h : encodePair? p = some u) :
    decodePair? u = some p := by
  obtain ⟨k, t, hk, ht, rfl⟩ := encodePair?_eq_some_iff.1 h
  have hsplit : (k ++ CodePoint.ofChar '=' :: t).splitOn (CodePoint.ofChar '=') = [k, t] := by
    rw [List.splitOn_append_cons_self_of_not_mem (Percent.not_mem_of_encode? hk).2,
      List.splitOn_eq_singleton (Percent.not_mem_of_encode? ht).2]
  simp only [decodePair?, hsplit, Percent.decode?_of_encode? hk, Percent.decode?_of_encode? ht]
  rfl

theorem mem_of_encodePair? {p : Text × Text} {u : Text} (h : encodePair? p = some u)
    {c : CodePoint} (hc : c ∈ u) :
    Percent.isUnreserved c = true ∨ c = '%' ∨ c = '=' := by
  obtain ⟨k, t, hk, ht, rfl⟩ := encodePair?_eq_some_iff.1 h
  rcases List.mem_append.1 hc with hc | hc
  · exact (Percent.mem_of_encode? hk hc).imp_right .inl
  · rcases List.mem_cons.1 hc with rfl | hc
    · exact .inr (.inr rfl)
    · exact (Percent.mem_of_encode? ht hc).imp_right .inl

/-- The separator of pairs stands in none of them. -/
theorem not_mem_of_encodePair? {p : Text × Text} {u : Text} (h : encodePair? p = some u) :
    CodePoint.ofChar '&' ∉ u := by
  intro hc
  rcases mem_of_encodePair? h hc with hu | hp | he
  · exact (Percent.isUnreserved_spec hu).2.2.1 rfl
  · exact absurd hp (by decide)
  · exact absurd he (by decide)

/-! ## All pairs -/

theorem queryPairs_eq_nil_iff {q : Json} : queryPairs q = [] ↔ q.keys = [] := by
  simp [queryPairs, Json.keys]

theorem queryText?_eq_some_iff {q : Json} {t : Text} :
    queryText? q = some t ↔
      ∃ parts, List.Forall₂ (fun p u => encodePair? p = some u) (queryPairs q) parts ∧
        [CodePoint.ofChar '&'].intercalate parts = t := by
  simp only [queryText?, Option.map_eq_some_iff, mapM_eq_some_iff]
  rfl

/-- The text of a query names its pairs. -/
theorem decodeQuery?_of_queryText? {q : Json} (hq : q.keys ≠ []) {t : Text}
    (h : queryText? q = some t) : decodeQuery? t = some (queryPairs q) := by
  obtain ⟨parts, hparts, rfl⟩ := queryText?_eq_some_iff.1 h
  have hne : parts ≠ [] := by
    rintro rfl
    rw [List.forall₂_nil_right_iff] at hparts
    exact hq (queryPairs_eq_nil_iff.1 hparts)
  have hamp : ∀ u ∈ parts, CodePoint.ofChar '&' ∉ u := by
    intro u hu
    obtain ⟨p, -, hp⟩ := exists_of_mem_right hparts hu
    exact not_mem_of_encodePair? hp
  rw [decodeQuery?, List.splitOn_intercalate _ hamp hne, mapM_eq_some_iff]
  exact (List.Forall₂.flip hparts).imp fun u p hp => decodePair?_of_encodePair? hp

theorem mem_of_queryText? {q : Json} {t : Text} (h : queryText? q = some t) {c : CodePoint}
    (hc : c ∈ t) : Percent.isUnreserved c = true ∨ c ∈ Text.ofString "%=&" := by
  obtain ⟨parts, hparts, rfl⟩ := queryText?_eq_some_iff.1 h
  rcases Text.mem_joinWith hc with hc | ⟨u, hu, hcu⟩
  · rw [List.mem_singleton.1 hc]
    exact .inr (by decide)
  · obtain ⟨p, -, hp⟩ := exists_of_mem_right hparts hu
    rcases mem_of_encodePair? hp hcu with hr | rfl | rfl
    · exact .inl hr
    · exact .inr (by decide)
    · exact .inr (by decide)

theorem queryText?_eq_none_iff {q : Json} :
    queryText? q = none ↔ ∃ p ∈ queryPairs q, p.1.hasSurrogate = true ∨ p.2.hasSurrogate = true := by
  simp only [queryText?, Option.map_eq_none_iff, mapM_eq_none_iff, encodePair?_eq_none_iff]

/-! ## Full URLs -/

theorem fullUrl?_of_keys_eq_nil {q : Json} (hq : q.keys = []) (url : Text) :
    fullUrl? url q = some url := by
  have he : q.entries = [] := List.map_eq_nil_iff.1 hq
  simp [fullUrl?, he]

theorem fullUrl?_of_keys_ne_nil {q : Json} (hq : q.keys ≠ []) (url : Text) :
    fullUrl? url q = (queryText? q).map fun t => url ++ "?" ++ t := by
  have he : q.entries ≠ [] := fun he => hq (by simp [Json.keys, he])
  simp [fullUrl?, he]

/-- Only surrogates keep a query out of a URL. -/
theorem fullUrl?_eq_none_iff {url : Text} {q : Json} :
    fullUrl? url q = none ↔
      ∃ p ∈ queryPairs q, p.1.hasSurrogate = true ∨ p.2.hasSurrogate = true := by
  by_cases hq : q.keys = []
  · simp [fullUrl?_of_keys_eq_nil hq, queryPairs_eq_nil_iff.2 hq]
  · rw [fullUrl?_of_keys_ne_nil hq, Option.map_eq_none_iff, queryText?_eq_none_iff]

/-- Each pair of a query is a key with the plain text of the item that the key finds. -/
theorem forall₂_keys_queryPairs {q : Json} (hq : q.Addressable) :
    List.Forall₂ (fun k p => p.1 = k ∧ ∃ v, q.item? k = .ok v ∧ p.2 = v.plainText) q.keys
      (queryPairs q) := by
  rw [Json.keys, queryPairs, List.forall₂_map_left_iff, List.forall₂_map_right_iff,
    List.forall₂_same]
  exact fun e he => ⟨rfl, e.2, Json.item?_of_mem_entries hq he, rfl⟩

/-- **The query of a full URL reads back.** A full URL is the URL alone if the query has no keys.
Otherwise it goes on with a question mark and a text of unreserved code points, percent signs and
separators, which names the pairs of the query in order. Two queries with the same full URL have
the same pairs. -/
theorem fullUrl?_reads_back {url full : Text} {q : Json} (h : fullUrl? url q = some full) :
    (q.keys = [] → full = url) ∧
    (q.keys ≠ [] → ∃ t, full = url ++ "?" ++ t ∧
      (∀ c ∈ t, Percent.isUnreserved c = true ∨ c ∈ Text.ofString "%=&") ∧
      decodeQuery? t = some (queryPairs q)) ∧
    (q.Addressable →
      List.Forall₂ (fun k p => p.1 = k ∧ ∃ v, q.item? k = .ok v ∧ p.2 = v.plainText) q.keys
        (queryPairs q)) ∧
    ∀ q₂ : Json, fullUrl? url q₂ = some full → q.keys ≠ [] → q₂.keys ≠ [] →
      queryPairs q₂ = queryPairs q := by
  have hread : ∀ {q : Json}, fullUrl? url q = some full → q.keys ≠ [] →
      ∃ t, queryText? q = some t ∧ full = url ++ "?" ++ t := by
    intro q h hq
    rw [fullUrl?_of_keys_ne_nil hq, Option.map_eq_some_iff] at h
    obtain ⟨t, ht, rfl⟩ := h
    exact ⟨t, ht, rfl⟩
  refine ⟨fun hq => ?_, fun hq => ?_, forall₂_keys_queryPairs, fun q₂ h₂ hq hq₂ => ?_⟩
  · rw [fullUrl?_of_keys_eq_nil hq] at h
    exact (Option.some.inj h).symm
  · obtain ⟨t, ht, hfull⟩ := hread h hq
    exact ⟨t, hfull, fun c hc => mem_of_queryText? ht hc, decodeQuery?_of_queryText? hq ht⟩
  · obtain ⟨t, ht, hfull⟩ := hread h hq
    obtain ⟨t₂, ht₂, hfull₂⟩ := hread h₂ hq₂
    obtain rfl : t₂ = t := List.append_cancel_left (hfull₂.symm.trans hfull)
    have hpairs := decodeQuery?_of_queryText? hq ht
    rw [decodeQuery?_of_queryText? hq₂ ht₂] at hpairs
    exact Option.some.inj hpairs

/-- Reserved code points, an empty text, a nested array and a code point past ASCII. -/
theorem fullUrl?_reads_back_reserved :
    fullUrl? "u?" (.obj [("a&b", .str "="), ("é", .arr [.str "%", .null, .arr [.bool true]]),
      ("", .str "")]) = some "u??a%26b=%3D&%C3%A9=%25%2C%2Ctrue&=" ∧
    ∃ t, Text.ofString "u??a%26b=%3D&%C3%A9=%25%2C%2Ctrue&=" = "u?" ++ "?" ++ t ∧
      (∀ c ∈ t, Percent.isUnreserved c = true ∨ c ∈ Text.ofString "%=&") ∧
      decodeQuery? t = some (queryPairs (.obj [("a&b", .str "="),
        ("é", .arr [.str "%", .null, .arr [.bool true]]), ("", .str "")])) := by
  have h : fullUrl? "u?" (.obj [("a&b", .str "="),
      ("é", .arr [.str "%", .null, .arr [.bool true]]), ("", .str "")]) =
      some "u??a%26b=%3D&%C3%A9=%25%2C%2Ctrue&=" := by decide
  exact ⟨h, (fullUrl?_reads_back h).2.1 (by decide)⟩

end RequestLine
