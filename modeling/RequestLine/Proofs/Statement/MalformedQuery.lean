import RequestLine.Proofs.Json.Surrogates
import RequestLine.Proofs.Statement.Partial

/-!
# Which queries are malformed

A query is malformed for one reason only: a key or the plain text of an item holds a surrogate. The
keys of arrays and texts are indices, and an object shows nothing of its members where it is an item
itself, so the reason can be read off the shape of the query.

* `Json.Unencodable`: the shapes.
* `exists_hasSurrogate_queryPairs_iff`: they are those of which a pair holds a surrogate.
* `fullUrl?_eq_none_iff_unencodable`: no other query is malformed, and every other one has a URL.
-/

namespace RequestLine

/-- A text with a surrogate, an object with one in a name or shown by a member, or an array with an
item that shows one. -/
inductive Json.Unencodable : Json → Prop
  | text {s : Text} {c : CodePoint} : c ∈ s → c.isSurrogate = true → Unencodable (.str s)
  | name {m : Text × Json} {members : List (Text × Json)} {c : CodePoint} : m ∈ members →
      c ∈ m.1 → c.isSurrogate = true → Unencodable (.obj members)
  | member {m : Text × Json} {members : List (Text × Json)} : m ∈ members →
      m.2.ShowsSurrogate → Unencodable (.obj members)
  | item {v : Json} {items : List Json} : v ∈ items → v.ShowsSurrogate → Unencodable (.arr items)

namespace Json

theorem exists_mem_indexed {values : List Json} {v : Json} (hv : v ∈ values) :
    ∃ e ∈ indexed values 0, e.2 = v := by
  obtain ⟨i, hi, rfl⟩ := List.mem_iff_getElem.1 hv
  exact ⟨_, List.mem_map.2 ⟨(values[i], i), by simp [List.mem_zipIdx_iff_getElem?], rfl⟩, rfl⟩

/-- The keys of places hold no surrogate, so one has to be shown by a value. -/
theorem exists_hasSurrogate_indexed_iff {values : List Json} :
    (∃ e ∈ indexed values 0, e.1.hasSurrogate = true ∨ e.2.plainText.hasSurrogate = true) ↔
      ∃ v ∈ values, v.ShowsSurrogate := by
  constructor
  · rintro ⟨e, he, hkey | htext⟩
    · obtain ⟨i, -, hi⟩ := mem_indexed he
      rw [hi, hasSurrogate_decimalDigits] at hkey
      cases hkey
    · obtain ⟨i, hi, -⟩ := mem_indexed he
      exact ⟨e.2, List.mem_of_getElem? hi, hasSurrogate_plainText_iff.1 htext⟩
  · rintro ⟨v, hv, hshows⟩
    obtain ⟨e, he, rfl⟩ := exists_mem_indexed hv
    exact ⟨e, he, .inr (hasSurrogate_plainText_iff.2 hshows)⟩

theorem exists_hasSurrogate_entries_iff {q : Json} :
    (∃ e ∈ q.entries, e.1.hasSurrogate = true ∨ e.2.plainText.hasSurrogate = true) ↔
      q.Unencodable := by
  cases q with
  | null | bool | num => exact iff_of_false (fun ⟨_, he, _⟩ => absurd he List.not_mem_nil) nofun
  | str s =>
    rw [entries, exists_hasSurrogate_indexed_iff]
    constructor
    · rintro ⟨v, hv, hshows⟩
      obtain ⟨c, hc, rfl⟩ := List.mem_map.1 hv
      cases hshows with
      | text hmem hsurrogate =>
        rw [List.mem_singleton.1 hmem] at hsurrogate
        exact .text hc hsurrogate
    · rintro (⟨hc, hsurrogate⟩ | _)
      exact ⟨_, List.mem_map.2 ⟨_, hc, rfl⟩, .text List.mem_cons_self hsurrogate⟩
  | arr items =>
    rw [entries, exists_hasSurrogate_indexed_iff]
    constructor
    · rintro ⟨v, hv, hshows⟩
      exact .item hv hshows
    · rintro (_ | _ | _ | ⟨hv, hshows⟩)
      exact ⟨_, hv, hshows⟩
  | obj members =>
    constructor
    · rintro ⟨m, hm, hname | htext⟩
      · obtain ⟨c, hc, hsurrogate⟩ := Text.hasSurrogate_iff.1 hname
        exact .name hm hc hsurrogate
      · exact .member hm (hasSurrogate_plainText_iff.1 htext)
    · rintro (_ | ⟨hm, hc, hsurrogate⟩ | ⟨hm, hshows⟩)
      · exact ⟨_, hm, .inl (Text.hasSurrogate_iff.2 ⟨_, hc, hsurrogate⟩)⟩
      · exact ⟨_, hm, .inr (hasSurrogate_plainText_iff.2 hshows)⟩

end Json

theorem exists_hasSurrogate_queryPairs_iff {q : Json} :
    (∃ p ∈ queryPairs q, p.1.hasSurrogate = true ∨ p.2.hasSurrogate = true) ↔ q.Unencodable := by
  simp only [← Json.exists_hasSurrogate_entries_iff, queryPairs, List.mem_map,
    exists_exists_and_eq_and]

/-- **Which queries are malformed.** A query keeps a URL from being built exactly if it has one of
the shapes. Let the names of the query be distinct, its numbers be numbers, and its entries be no
more than `10 ^ digitLimit`, and let each operation say what it meets outside its domain: then the
query is reported as malformed, any other query has its URL, and nothing else is ever met. -/
theorem fullUrl?_eq_none_iff_unencodable (url : Text) (q : Json) :
    (fullUrl? url q = none ↔ q.Unencodable) ∧
      (q.Operable →
        (Partial.fullUrl url q = .error (.rule .malformedQuery) ↔ q.Unencodable) ∧
          (¬ q.Unencodable →
            ∃ full, fullUrl? url q = some full ∧ Partial.fullUrl url q = .ok full)) := by
  have hnone : fullUrl? url q = none ↔ q.Unencodable := by
    rw [fullUrl?_eq_none_iff, exists_hasSurrogate_queryPairs_iff]
  refine ⟨hnone, fun hq => ?_⟩
  rw [Partial.fullUrl_eq hq, ← hnone]
  cases fullUrl? url q with
  | none => simp
  | some full => simp

/-- A surrogate in an array of arrays, and one that an object in an array hides. -/
theorem fullUrl?_eq_none_iff_unencodable_nested :
    Partial.fullUrl "u" (.arr [.arr [.null, .str [CodePoint.ofNat 0xD800]]]) =
        .error (.rule .malformedQuery) ∧
      ∃ full, Partial.fullUrl "u" (.arr [.obj [("a", .str [CodePoint.ofNat 0xD800])]]) =
        .ok full := by
  have hsurrogate : (CodePoint.ofNat 0xD800).isSurrogate = true := by decide
  have hshown : Json.parse? .strict "[[null, \"\\ud800\"]]" =
      some (.arr [.arr [.null, .str [CodePoint.ofNat 0xD800]]]) := rfl
  have hhidden : Json.parse? .strict "[\x7b\"a\": \"\\ud800\"\x7d]" =
      some (.arr [.obj [("a", .str [CodePoint.ofNat 0xD800])]]) := rfl
  obtain ⟨-, hfirst⟩ := fullUrl?_eq_none_iff_unencodable "u"
    (.arr [.arr [.null, .str [CodePoint.ofNat 0xD800]]])
  obtain ⟨-, hsecond⟩ := fullUrl?_eq_none_iff_unencodable "u"
    (.arr [.obj [("a", .str [CodePoint.ofNat 0xD800])]])
  refine ⟨(hfirst (Json.operable_of_parse? hshown ?_)).1.2 ?_, ?_⟩
  · exact le_ten_pow_digitLimit (by rw [digitLimit]; decide)
  · refine .item List.mem_cons_self (.item (List.mem_cons_of_mem _ List.mem_cons_self) ?_)
    exact .text List.mem_cons_self hsurrogate
  · obtain ⟨full, -, hfull⟩ := (hsecond (Json.operable_of_parse? hhidden
        (le_ten_pow_digitLimit (by rw [digitLimit]; decide)))).2 (by
      rintro (_ | _ | _ | ⟨hv, hshows⟩)
      rw [List.mem_singleton.1 hv] at hshows
      cases hshows)
    exact ⟨full, hfull⟩

end RequestLine
