import RequestLine.Proofs.Exchange.Calls
import RequestLine.Proofs.Json.RepeatedNames
import RequestLine.Proofs.Statement.Acceptance

/-!
# Repeated members of a request

The query and the headers of a request are JSON values, so their members are distinct. Each member
of the query is one pair of the full URL, and each member of the headers one header of the call.

* `LastText`: the text after a keyword that counts among some pieces.
* `MembersOf`: the members that pieces give to a keyword; `Accepted.membersOf`: those of an accepted
  statement.
* `repeated_members`: what repeated members come to, in values, full URLs and headers.
-/

namespace RequestLine

/-! ## The text that counts -/

/-- The last piece of the keyword has this text after the keyword. -/
def LastText (ps : List Text) (k : Keyword) (v : Text) : Prop :=
  ∃ before p after, ps = before ++ p :: after ∧ Text.trim p = sectionText k v ∧
    ∀ q ∈ after, ∀ w, Text.trim q ≠ sectionText k w

/-- The pieces are the texts of the sections, in order. -/
abbrev WrittenBy (ps : List Text) (ss : List Section) : Prop :=
  List.Forall₂ (fun p c => Section.Writes (Text.trim p) c) ps ss

namespace Section

theorem sectionText_inj {k l : Keyword} {v w : Text} (h : sectionText k v = sectionText l w) :
    k = l ∧ v = w := by
  rw [sectionText_eq, sectionText_eq] at h
  have hname : k.name = l.name := by
    have hword := congrArg (List.takeWhile (· ≠ CodePoint.ofChar ' ')) h
    rwa [takeWhile_append_space (space_not_mem_name k),
      takeWhile_append_space (space_not_mem_name l)] at hword
  have hkeyword := congrArg Keyword.ofName? hname
  rw [Keyword.ofName?_name, Keyword.ofName?_name] at hkeyword
  obtain rfl := Option.some.inj hkeyword
  exact ⟨rfl, (List.cons.inj (List.append_cancel_left h)).2⟩

theorem Writes.of_sectionText {k : Keyword} {v : Text} {c : Section}
    (h : Writes (sectionText k v) c) (hk : k ∉ Keyword.required) :
    c.keyword = k ∧ Json.parse? .strict v = some c.value := by
  obtain ⟨w, hw, -, -, hjson⟩ := h.value
  obtain ⟨rfl, rfl⟩ := sectionText_inj hw
  exact ⟨rfl, hjson hk⟩

end Section

theorem WrittenBy.exists_lastText {ps : List Text} {ss : List Section} (h : WrittenBy ps ss)
    {k : Keyword} (hk : k ∉ Keyword.required) {x : Json} (hlast : IsLast ss ⟨k, x⟩) :
    ∃ v, LastText ps k v ∧ Json.parse? .strict v = some x := by
  obtain ⟨before, after, rfl, hafter⟩ := hlast
  obtain ⟨bs, p, as, rfl, hp, has⟩ := exists_cut_right h
  obtain ⟨v, hv, -, -, hjson⟩ := hp.value
  refine ⟨v, ⟨bs, p, as, rfl, hv, fun q hq w hw => ?_⟩, hjson hk⟩
  obtain ⟨c, hc, hqc⟩ := exists_of_mem_right has.flip hq
  rw [hw] at hqc
  exact hafter c hc (hqc.of_sectionText hk).1

theorem WrittenBy.exists_isLast {ps : List Text} {ss : List Section} (h : WrittenBy ps ss)
    {k : Keyword} (hk : k ∉ Keyword.required) {v : Text} (hlast : LastText ps k v) :
    ∃ x, IsLast ss ⟨k, x⟩ ∧ Json.parse? .strict v = some x := by
  obtain ⟨before, p, after, rfl, hp, hafter⟩ := hlast
  obtain ⟨bs, ⟨l, x⟩, as, rfl, hc, has⟩ := exists_cut_right h.flip
  rw [hp] at hc
  obtain ⟨rfl, hjson⟩ := hc.of_sectionText hk
  refine ⟨x, ⟨bs, as, rfl, fun d hd hkeyword => ?_⟩, hjson⟩
  obtain ⟨q, hq, hqd⟩ := exists_of_mem_right has.flip hd
  obtain ⟨w, hw, -⟩ := hqd.value
  exact hafter q hq w (hkeyword ▸ hw)

/-! ## The members that pieces give -/

/-- The members that pieces give to a keyword: those of the object that the last text of the keyword
writes, and none where that text writes an empty scalar or there is no such text. -/
inductive MembersOf (ps : List Text) (k : Keyword) : List (Text × Json) → Prop
  | written {v : Text} {ms : List (Text × Json)} : LastText ps k v →
      Json.MergedText .strict v (.obj ms) → MembersOf ps k ms
  | emptied {v : Text} {x : Json} : LastText ps k v → Json.MergedText .strict v x →
      x.isEmptyValue = true → MembersOf ps k []
  | absent : (∀ v, ¬ LastText ps k v) → MembersOf ps k []

theorem MembersOf.nodup {ps : List Text} {k : Keyword} {ms : List (Text × Json)}
    (h : MembersOf ps k ms) : (Dictionary.keys ms).Nodup := by
  cases h with
  | written _ htext => exact Json.nodup_of_parse? (Json.parse?_eq_some_iff_mergedText.2 htext) .here
  | emptied | absent => exact List.nodup_nil

theorem Accepted.membersOf {s : Text} {ps : List Text} {ss : List Section} (h : Accepted s ps ss)
    {k : Keyword} (hk : k ∉ Keyword.required) {ms : List (Text × Json)}
    (hms : Effective ss k (.obj ms)) : MembersOf ps k ms := by
  have hwritten : WrittenBy ps ss := h.written
  generalize hv : Json.obj ms = v at hms
  cases hms with
  | filled hlast _ =>
    subst hv
    obtain ⟨t, ht, hparse⟩ := hwritten.exists_lastText hk hlast
    exact .written ht (Json.parse?_eq_some_iff_mergedText.1 hparse)
  | emptied hlast hempty =>
    cases hv
    obtain ⟨t, ht, hparse⟩ := hwritten.exists_lastText hk hlast
    exact .emptied ht (Json.parse?_eq_some_iff_mergedText.1 hparse) hempty
  | absent hno =>
    cases hv
    refine .absent fun t ht => ?_
    obtain ⟨x, hlast, -⟩ := hwritten.exists_isLast hk ht
    exact hno _ hlast.mem rfl

/-! ## Full URLs and headers -/

theorem Describes.fullUrl_of_members {ss : List Section} {r : Request} (h : Describes ss r)
    {ms : List (Text × Json)} (hms : r.query = .obj ms) :
    (ms = [] → r.fullUrl = r.url) ∧
      (ms ≠ [] → ∃ t, r.fullUrl = r.url ++ "?" ++ t ∧
        decodeQuery? t = some (ms.map fun m => (m.1, m.2.plainText))) := by
  have hfull := h.fullUrl
  rw [hms] at hfull
  constructor
  · rintro rfl
    rw [fullUrl?_of_keys_eq_nil rfl] at hfull
    exact (Option.some.inj hfull).symm
  · intro hne
    have hkeys := Json.keys_obj_ne_nil hne
    rw [fullUrl?_of_keys_ne_nil hkeys, Option.map_eq_some_iff] at hfull
    obtain ⟨t, ht, hurl⟩ := hfull
    exact ⟨t, hurl.symm, decodeQuery?_of_queryText? hkeys ht⟩

/-- The headers of a call have the names of the members, in order. -/
theorem HeadedBy.names_eq {ms : List (Text × Json)} {headers : List (Text × Text)}
    (h : HeadedBy (.obj ms) headers) : headers.map Prod.fst = Dictionary.keys ms := by
  rw [← forall₂_members_iff.1 (h.members ms rfl), List.map_map]
  rfl

/-- **Repeated members count once.** A text that is read has a value in which the names of each
object are distinct, in the order in which they first came, each with its last value. The query of
an accepted statement gets its members so from the last text of its keyword, and each member is one
pair of the full URL, in order; the same holds of the headers and of the names in a call. -/
theorem repeated_members :
    (∀ (t : Text) (v : Json), Json.parse? .strict t = some v ↔ Json.MergedText .strict t v) ∧
    (∀ (t : Text) (v : Json), Json.parse? .strict t = some v →
      ∀ ms, Json.Inside (.obj ms) v → (ms.map Prod.fst).Nodup) ∧
    ∀ (s : Text) (r : Request), Request.parse s = .ok r → ∃ ps, Cut s ps ∧
      (∀ ms, r.query = .obj ms →
        MembersOf ps .query ms ∧ (ms.map Prod.fst).Nodup ∧
          (ms = [] → r.fullUrl = r.url) ∧
          (ms ≠ [] → ∃ t, r.fullUrl = r.url ++ "?" ++ t ∧
            decodeQuery? t = some (ms.map fun m => (m.1, m.2.plainText)))) ∧
      ∀ (c : Client) (session : Session), ∀ call ∈ (c.send r session).calls,
        (call.headers.map Prod.fst).Nodup ∧
          ∀ ms, r.headers = .obj ms →
            MembersOf ps .headers ms ∧
              call.headers = ms.map fun m => (m.1, m.2.plainText) := by
  refine ⟨fun _ _ => Json.parse?_eq_some_iff_mergedText,
    fun _ _ hparse _ hms => Json.nodup_of_parse? hparse hms, fun s r hr => ?_⟩
  obtain ⟨ps, ss, haccepted, hdescribes⟩ := parse_eq_ok_iff_describes.1 hr
  have hheaders : ∀ ms, r.headers = .obj ms → MembersOf ps .headers ms := fun ms hms =>
    haccepted.membersOf (by decide) (hms ▸ hdescribes.headers)
  refine ⟨ps, haccepted.cut, fun ms hms => ?_, fun c session call hcall => ?_⟩
  · have hquery : MembersOf ps .query ms :=
      haccepted.membersOf (by decide) (hms ▸ hdescribes.query)
    exact ⟨hquery, hquery.nodup, hdescribes.fullUrl_of_members hms⟩
  · have hheaded := (Client.sentAs_of_mem_calls hcall).2.headers
    constructor
    · by_cases hobject : ∃ ms, r.headers = .obj ms
      · obtain ⟨ms, hms⟩ := hobject
        rw [hms] at hheaded
        rw [hheaded.names_eq]
        exact (hheaders ms hms).nodup
      · rw [hheaded.none fun ms hms => hobject ⟨ms, hms⟩]
        exact List.nodup_nil
    · intro ms hms
      rw [hms] at hheaded
      exact ⟨hheaders ms hms, (forall₂_members_iff.1 (hheaded.members ms rfl)).symm⟩

/-- The name `a` comes again, spelled with an escape. -/
example : (Request.parse
    "HTTP GET | URL u | QUERY \x7b\"a\":\"x\",\"b\":\"y\",\"\\u0061\":\"z\"\x7d").toOption.map
      Request.fullUrl = some "u?a=z&b=y" := by
  decide +kernel

end RequestLine
