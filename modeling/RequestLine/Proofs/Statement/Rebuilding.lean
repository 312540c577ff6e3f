import RequestLine.Proofs.Statement.RoundTrip

/-!
# What requests are like

No rule speaks of the URL of a request or of the shape of its values. What they are like follows
from how a statement is cut, trimmed and collected, and it is what makes a request one that its own
values build again.

* `Json.EmptyScalar`: the scalars that no value of a request is.
* `Request.Settled`: the conditions; `settled_of_parse`: statements describe such requests.
* `ofSections_of_get?`: a request is built again from any dictionary of its values.
-/

namespace RequestLine

/-! ## Empty scalars -/

/-- Null, false, the zeros and the empty text. -/
inductive Json.EmptyScalar : Json → Prop
  | null : EmptyScalar .null
  | no : EmptyScalar (.bool false)
  | integer : EmptyScalar (.num (.int 0))
  | double (negative : Bool) : EmptyScalar (.num (.double (.zero negative)))
  | text : EmptyScalar (.str [])

theorem Double.isZero_iff {x : Double} : x.isZero = true ↔ ∃ negative, x = .zero negative := by
  constructor
  · intro h
    cases x with
    | finite negative m =>
      have hunits : m.units = 0 := by simpa [isZero] using h
      exact ⟨negative, congrArg (finite negative) (Magnitude.eq_zero hunits)⟩
    | infinite | nan => cases h
  · rintro ⟨negative, rfl⟩
    rfl

theorem Json.isEmptyValue_iff {v : Json} : v.isEmptyValue = true ↔ v.EmptyScalar := by
  constructor
  · intro h
    cases v with
    | null => exact .null
    | bool b =>
      cases b with
      | false => exact .no
      | true => cases h
    | num n =>
      cases n with
      | int i =>
        obtain rfl : i = 0 := by simpa [isEmptyValue, Number.isZero] using h
        exact .integer
      | double x =>
        obtain ⟨negative, rfl⟩ := Double.isZero_iff.1 h
        exact .double negative
    | str s =>
      obtain rfl : s = [] := List.isEmpty_iff.1 h
      exact .text
    | arr | obj => cases h
  · rintro (_ | _ | _ | _ | _) <;> rfl

theorem Effective.isEmptyValue {ss : List Section} {k : Keyword} {v : Json}
    (h : Effective ss k v) : v.isEmptyValue = false := by
  cases h with
  | filled _ hv => exact hv
  | emptied | absent => rfl

theorem Effective.not_emptyScalar {ss : List Section} {k : Keyword} {v : Json}
    (h : Effective ss k v) : ¬ v.EmptyScalar := by
  rw [← Json.isEmptyValue_iff, h.isEmptyValue]
  exact Bool.false_ne_true

/-! ## Building again -/

namespace Request

/-- The values of a request by keyword. -/
def sections (r : Request) : Sections := Keyword.all.map fun k => (k, r.valueOf k)

theorem get?_sections (r : Request) (k : Keyword) : r.sections.get? k = some (r.valueOf k) := by
  cases k <;> rfl

variable {r : Request}

theorem valueOrEmpty_of_get? {d : Sections} {k : Keyword} {v : Json} (hd : d.get? k = some v)
    (hv : ¬ v.EmptyScalar) : d.valueOrEmpty k = v := by
  rw [← Json.isEmptyValue_iff] at hv
  rw [Sections.valueOrEmpty, hd]
  exact if_neg hv

/-- A request is built again from its values, in whatever order they stand. -/
theorem ofSections_of_get? {d : Sections} (hd : ∀ k, d.get? k = some (r.valueOf k))
    (hvalues : ∀ k ∉ Keyword.required, ¬ (r.valueOf k).EmptyScalar)
    (hfull : fullUrl? r.url r.query = some r.fullUrl) : ofSections d = .ok r := by
  have hvalue : ∀ k ∉ Keyword.required, d.valueOrEmpty k = r.valueOf k := fun k hk =>
    valueOrEmpty_of_get? (hd k) (hvalues k hk)
  have hquery : d.valueOrEmpty .query = r.query := hvalue .query (by decide)
  have hheaders : d.valueOrEmpty .headers = r.headers := hvalue .headers (by decide)
  have hbody : d.valueOrEmpty .body = r.body := hvalue .body (by decide)
  have hurl : d.get? .url = some (.str r.url) := hd .url
  have hhttp : d.get? .http = some (.str r.method.name) := hd .http
  unfold ofSections
  simp only [hurl, hhttp, hquery, hheaders, hbody, textOf?, methodOf?, Option.getD_some, hfull,
    Method.ofName?_name]

/-! ## Requests of statements -/

/-- What a request of a statement is like. -/
structure Settled (r : Request) : Prop where
  method : r.method.name = Text.ofString "GET" ∨ r.method.name = Text.ofString "POST"
  filled : r.url ≠ []
  url : PlainUrl r.url
  values : ∀ v ∈ [r.headers, r.query, r.body], ¬ v.EmptyScalar
  bare : r.query.keys = [] → r.fullUrl = r.url
  extended : r.query.keys ≠ [] → (r.url ++ Text.ofString "?") <+: r.fullUrl
  rebuilt : ofSections r.sections = .ok r

theorem settled_of_describes {s : Text} {ps : List Text} {ss : List Section}
    (ha : Accepted s ps ss) (hd : Describes ss r) : r.Settled where
  method := by cases r.method <;> decide
  filled := (ha.plainUrl hd.url.mem).last.ne_nil
  url := ha.plainUrl hd.url.mem
  values := by
    simp only [List.forall_mem_cons, List.not_mem_nil, false_implies, implies_true, and_true]
    exact ⟨hd.headers.not_emptyScalar, hd.query.not_emptyScalar, hd.body.not_emptyScalar⟩
  bare hq := by
    have hfull := hd.fullUrl
    rw [fullUrl?_of_keys_eq_nil hq] at hfull
    exact (Option.some.inj hfull).symm
  extended hq := by
    have hfull := hd.fullUrl
    rw [fullUrl?_of_keys_ne_nil hq, Option.map_eq_some_iff] at hfull
    obtain ⟨t, -, ht⟩ := hfull
    exact ⟨t, ht⟩
  rebuilt := by
    refine ofSections_of_get? r.get?_sections (fun k hk => ?_) hd.fullUrl
    cases k with
    | http | url => exact absurd (by decide) hk
    | headers => exact hd.headers.not_emptyScalar
    | query => exact hd.query.not_emptyScalar
    | body => exact hd.body.not_emptyScalar

end Request

/-- **What requests are like.** The method of a request that a statement describes is one of the
two. Its URL is not empty, has no pipe, begins with no space and ends with no white space. None of
its values is an empty scalar. Its full URL is the URL, followed by a question mark if the query has
keys. Its own values build it again. -/
theorem settled_of_parse {s : Text} {r : Request} (h : Request.parse s = .ok r) : r.Settled := by
  obtain ⟨ps, ss, ha, hd⟩ := parse_eq_ok_iff_describes.1 h
  exact Request.settled_of_describes ha hd

/-- White space of other kinds around the URL, a zero with a sign, a pipe at the start, and an empty
query that one with a key overrides. -/
theorem settled_of_parse_overriding :
    ∃ r, Request.parse
        "|HTTP POST | URL \u3000x y\u00a0 | HEADERS -0e9 | QUERY \"\" | QUERY [{}]" = .ok r ∧
      r.fullUrl = Text.ofString "\u3000x y?0=%5Bobject%20Object%5D" ∧ r.Settled := by
  have hread : Request.readSections
      "|HTTP POST | URL \u3000x y\u00a0 | HEADERS -0e9 | QUERY \"\" | QUERY [{}]" =
        .ok [⟨.http, .str "POST"⟩, ⟨.url, .str "\u3000x y"⟩,
          ⟨.headers, .num (.double (.zero true))⟩, ⟨.query, .str []⟩, ⟨.query, .arr [.obj []]⟩] := by
    rfl
  have hparse := parse_eq_ok_iff.2 ⟨by decide, _, hread, rfl⟩
  exact ⟨_, hparse, by decide, settled_of_parse hparse⟩

end RequestLine
