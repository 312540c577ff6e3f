import Mathlib.Data.List.Forall2
import RequestLine.Proofs.Exchange.Answers

/-!
# What is sent

A request makes one call at most. Into the call go its method, its URL, its headers and, for a POST,
its body; the query and the full URL stay behind.

* `Carries`: the payload of a request.
* `SentAs`: the call of a request; `Call.ofRequest?_eq_some_iff`: a request is sent as that one.
* `SentAs.congr`: requests that agree in what is sent are sent alike.
* `calls_send`: the calls that sending a request makes.
-/

namespace RequestLine

/-! ## Payloads -/

/-- The values without keys: the scalars apart from texts, and whatever is empty. -/
inductive Json.Keyless : Json → Prop
  | null : Keyless .null
  | bool (b : Bool) : Keyless (.bool b)
  | num (n : Number) : Keyless (.num n)
  | text : Keyless (.str [])
  | items : Keyless (.arr [])
  | members : Keyless (.obj [])

/-- What has keys is a text, an array or an object that is not empty. -/
theorem Json.keyless_or_filled (v : Json) :
    v.Keyless ∨ (∃ t, v = .str t ∧ t ≠ []) ∨ (∃ values, v = .arr values ∧ values ≠ []) ∨
      ∃ members, v = .obj members ∧ members ≠ [] := by
  cases v with
  | null => exact .inl .null
  | bool b => exact .inl (.bool b)
  | num n => exact .inl (.num n)
  | str t =>
    by_cases ht : t = []
    · exact .inl (ht ▸ .text)
    · exact .inr (.inl ⟨t, rfl, ht⟩)
  | arr values =>
    by_cases hvalues : values = []
    · exact .inl (hvalues ▸ .items)
    · exact .inr (.inr (.inl ⟨values, rfl, hvalues⟩))
  | obj members =>
    by_cases hmembers : members = []
    · exact .inl (hmembers ▸ .members)
    · exact .inr (.inr (.inr ⟨members, rfl, hmembers⟩))

theorem Json.Keyless.keys_eq {v : Json} (h : v.Keyless) : v.keys = [] := by
  cases h <;> rfl

theorem Json.keys_str_ne_nil {t : Text} (ht : t ≠ []) : (Json.str t).keys ≠ [] := by
  simpa [keys, entries, indexed] using ht

theorem Json.keys_arr_ne_nil {values : List Json} (h : values ≠ []) :
    (Json.arr values).keys ≠ [] := by
  simpa [keys, entries, indexed] using h

theorem Json.keys_obj_ne_nil {members : List (Text × Json)} (h : members ≠ []) :
    (Json.obj members).keys ≠ [] := by
  simpa [keys, entries] using h

/-- The payload of a request: the bytes of the text of a POST, its array or its object, each unless
it is empty, and no payload otherwise. -/
inductive Carries (r : Request) : Payload → Prop
  | raw {t : Text} : r.method = .post → r.body = .str t → t ≠ [] → t.hasSurrogate = false →
      Carries r (.raw (t.flatMap Utf8.encodePoint))
  | items {values : List Json} : r.method = .post → r.body = .arr values → values ≠ [] →
      Carries r (.json r.body)
  | members {members : List (Text × Json)} : r.method = .post → r.body = .obj members →
      members ≠ [] → Carries r (.json r.body)
  | nothing : (r.method = .post → r.body.Keyless) → Carries r .none

theorem Carries.congr {r r₂ : Request} {p : Payload} (h : Carries r p)
    (hmethod : r₂.method = r.method) (hbody : r.method = .post → r₂.body = r.body) :
    Carries r₂ p := by
  cases h with
  | raw hpost hr hne hs =>
    exact .raw (hmethod.trans hpost) ((hbody hpost).trans hr) hne hs
  | items hpost hr hne =>
    rw [← hbody hpost] at hr ⊢
    exact .items (hmethod.trans hpost) hr hne
  | members hpost hr hne =>
    rw [← hbody hpost] at hr ⊢
    exact .members (hmethod.trans hpost) hr hne
  | nothing hkeyless =>
    refine .nothing fun hpost => ?_
    rw [hmethod] at hpost
    rw [hbody hpost]
    exact hkeyless hpost

/-- The bytes of a payload are those of the body. -/
theorem Carries.decode_raw {r : Request} {bytes : List UInt8} (h : Carries r (.raw bytes)) :
    ∃ t, r.body = .str t ∧ Utf8.decode? bytes = some t := by
  cases h with
  | raw _ hbody _ hs => exact ⟨_, hbody, Utf8.decode?_flatMap_encodePoint hs⟩

namespace Call

section

variable {r : Request} {p : Payload}

theorem payload?_of_keyless (h : r.method = .post → r.body.Keyless) :
    payload? r = some .none := by
  cases hmethod : r.method with
  | get => simp only [payload?, hmethod]
  | post =>
    have hkeys := (h hmethod).keys_eq
    simp only [payload?, hmethod, hkeys, List.isEmpty_nil, if_true]

theorem payload?_of_text (hpost : r.method = .post) {t : Text} (hbody : r.body = .str t)
    (ht : t ≠ []) : payload? r = (Utf8.encode? t).map .raw := by
  have hkeys : ¬ (Json.str t).keys.isEmpty = true :=
    fun h => Json.keys_str_ne_nil ht (List.isEmpty_iff.1 h)
  simp only [payload?, hpost, hbody, if_neg hkeys]

theorem payload?_of_items (hpost : r.method = .post) {values : List Json}
    (hbody : r.body = .arr values) (hvalues : values ≠ []) :
    payload? r = some (.json r.body) := by
  have hkeys : ¬ (Json.arr values).keys.isEmpty = true :=
    fun h => Json.keys_arr_ne_nil hvalues (List.isEmpty_iff.1 h)
  simp only [payload?, hpost, hbody, if_neg hkeys]

theorem payload?_of_members (hpost : r.method = .post) {members : List (Text × Json)}
    (hbody : r.body = .obj members) (hmembers : members ≠ []) :
    payload? r = some (.json r.body) := by
  have hkeys : ¬ (Json.obj members).keys.isEmpty = true :=
    fun h => Json.keys_obj_ne_nil hmembers (List.isEmpty_iff.1 h)
  simp only [payload?, hpost, hbody, if_neg hkeys]

theorem carries_of_payload? (h : payload? r = some p) : Carries r p := by
  by_cases hkeyless : r.method = .post → r.body.Keyless
  · rw [payload?_of_keyless hkeyless] at h
    cases h
    exact .nothing hkeyless
  · rw [Classical.not_imp] at hkeyless
    obtain ⟨hpost, hfilled⟩ := hkeyless
    rcases r.body.keyless_or_filled with hk | ⟨t, hbody, ht⟩ | ⟨vs, hbody, hvs⟩ | ⟨ms, hbody, hms⟩
    · exact absurd hk hfilled
    · rw [payload?_of_text hpost hbody ht, Option.map_eq_some_iff] at h
      obtain ⟨bytes, hbytes, rfl⟩ := h
      obtain ⟨hs, rfl⟩ := Utf8.encode?_eq_some_iff.1 hbytes
      exact .raw hpost hbody ht hs
    · rw [payload?_of_items hpost hbody hvs] at h
      cases h
      exact .items hpost hbody hvs
    · rw [payload?_of_members hpost hbody hms] at h
      cases h
      exact .members hpost hbody hms

theorem payload?_of_carries (h : Carries r p) : payload? r = some p := by
  cases h with
  | raw hpost hbody ht hs =>
    rw [payload?_of_text hpost hbody ht, Utf8.encode?_eq_some_iff.2 ⟨hs, rfl⟩]
    rfl
  | items hpost hbody hvalues => exact payload?_of_items hpost hbody hvalues
  | members hpost hbody hmembers => exact payload?_of_members hpost hbody hmembers
  | nothing hkeyless => exact payload?_of_keyless hkeyless

theorem payload?_eq_some_iff : payload? r = some p ↔ Carries r p :=
  ⟨carries_of_payload?, payload?_of_carries⟩

end

end Call

/-! ## Calls -/

/-- The headers of a call: the members of an object in order, each with its plain text, and none for
another value. -/
structure HeadedBy (v : Json) (headers : List (Text × Text)) : Prop where
  members : ∀ ms, v = .obj ms →
    List.Forall₂ (fun (m : Text × Json) (h : Text × Text) => h.1 = m.1 ∧ h.2 = m.2.plainText) ms
      headers
  none : (∀ ms, v ≠ .obj ms) → headers = []

theorem forall₂_members_iff {ms : List (Text × Json)} {headers : List (Text × Text)} :
    List.Forall₂ (fun (m : Text × Json) (h : Text × Text) => h.1 = m.1 ∧ h.2 = m.2.plainText) ms
        headers ↔
      ms.map (fun m => (m.1, m.2.plainText)) = headers := by
  have heq : List.Forall₂ (· = ·) (ms.map fun m => (m.1, m.2.plainText)) headers ↔
      ms.map (fun m => (m.1, m.2.plainText)) = headers := by
    rw [List.forall₂_eq_eq_eq]
  rw [← heq, List.forall₂_map_left_iff]
  constructor
  · exact fun h => h.imp fun _ _ hp => Prod.ext hp.1.symm hp.2.symm
  · exact fun h => h.imp fun _ _ hp => ⟨congrArg Prod.fst hp.symm, congrArg Prod.snd hp.symm⟩

theorem headedBy_iff {v : Json} {headers : List (Text × Text)} :
    HeadedBy v headers ↔ Call.headersOf v = headers := by
  constructor
  · intro h
    cases v with
    | obj ms => exact forall₂_members_iff.1 (h.members ms rfl)
    | _ => exact (h.none fun _ hv => by cases hv).symm
  · rintro rfl
    cases v with
    | obj ms =>
      refine ⟨fun ms₁ hms => ?_, fun h => absurd rfl (h ms)⟩
      cases hms
      exact forall₂_members_iff.2 rfl
    | _ => exact ⟨(fun _ hv => by cases hv), fun _ => rfl⟩

/-- The call of a request: its method, its URL, its headers and its payload, with a timeout. -/
structure SentAs (timeout : Option Number) (r : Request) (call : Call) : Prop where
  method : call.method = r.method
  url : call.url = r.url
  timeout : call.timeout = timeout
  headers : HeadedBy r.headers call.headers
  payload : Carries r call.payload

theorem SentAs.congr {timeout : Option Number} {r r₂ : Request} {call : Call}
    (h : SentAs timeout r call) (hmethod : r₂.method = r.method) (hurl : r₂.url = r.url)
    (hheaders : r₂.headers = r.headers) (hbody : r.method = .post → r₂.body = r.body) :
    SentAs timeout r₂ call where
  method := h.method.trans hmethod.symm
  url := h.url.trans hurl.symm
  timeout := h.timeout
  headers := hheaders ▸ h.headers
  payload := h.payload.congr hmethod hbody

/-- A request is sent as its call, and as no other one. -/
theorem Call.ofRequest?_eq_some_iff {timeout : Option Number} {r : Request} {call : Call} :
    ofRequest? timeout r = some call ↔ SentAs timeout r call := by
  rw [ofRequest?, Option.map_eq_some_iff]
  constructor
  · rintro ⟨p, hp, rfl⟩
    exact ⟨rfl, rfl, rfl, headedBy_iff.2 rfl, payload?_eq_some_iff.1 hp⟩
  · rintro ⟨hmethod, hurl, htimeout, hheaders, hpayload⟩
    obtain ⟨method, url, headers, timeout, payload⟩ := call
    cases hmethod
    cases hurl
    cases htimeout
    cases headedBy_iff.1 hheaders
    exact ⟨payload, payload?_eq_some_iff.2 hpayload, rfl⟩

theorem Call.ofRequest?_congr (timeout : Option Number) {r r₂ : Request}
    (hmethod : r₂.method = r.method) (hurl : r₂.url = r.url) (hheaders : r₂.headers = r.headers)
    (hbody : r.method = .post → r₂.body = r.body) :
    ofRequest? timeout r₂ = ofRequest? timeout r := by
  have hbody₂ : r₂.method = .post → r.body = r₂.body := fun hpost =>
    (hbody (hmethod.symm.trans hpost)).symm
  refine Option.ext fun call => ?_
  rw [ofRequest?_eq_some_iff, ofRequest?_eq_some_iff]
  exact ⟨fun h => h.congr hmethod.symm hurl.symm hheaders.symm hbody₂,
    fun h => h.congr hmethod hurl hheaders hbody⟩

/-! ## Sending -/

namespace Client

variable (c : Client) (r : Request) (s : Session)

/-- A request makes its call, if it has one and the clock shows a time. -/
theorem calls_send_eq :
    (c.send r s).calls =
      if milliseconds? s.clock.first = none then [] else (Call.ofRequest? c.timeout r).toList := by
  unfold send
  cases Call.ofRequest? c.timeout r with
  | none => simp
  | some call =>
    cases milliseconds? s.clock.first with
    | none => rfl
    | some start =>
      simp only [reduceCtorEq, if_false, Option.toList_some]
      split
      · rfl
      · split <;> rfl

theorem send_of_unencodableBody {r : Request} (h : r.UnencodableBody) :
    c.send r s = ⟨.error (.interrupted .unencodableBody), [], [], s⟩ := by
  rw [send, (Call.ofRequest?_eq_none_iff c.timeout).2 h]

theorem calls_send_eq_nil_iff :
    (c.send r s).calls = [] ↔ r.UnencodableBody ∨ milliseconds? s.clock.first = none := by
  rw [calls_send_eq, ← Call.ofRequest?_eq_none_iff c.timeout]
  cases milliseconds? s.clock.first <;> simp

theorem sentAs_of_mem_calls {c : Client} {r : Request} {s : Session} {call : Call}
    (h : call ∈ (c.send r s).calls) :
    (c.send r s).calls = [call] ∧ SentAs c.timeout r call := by
  rw [calls_send_eq] at h ⊢
  split at h
  · cases h
  · rename_i htime
    rw [Option.mem_toList] at h
    rw [if_neg htime, h]
    exact ⟨rfl, Call.ofRequest?_eq_some_iff.1 h⟩

end Client

/-- **What is sent.** A request makes no call exactly if it is a POST whose text has no bytes, and
then nothing at all happens, or if the clock shows no time. Otherwise it makes one call, which holds
its method, its URL, the timeout, its headers and its payload; a raw payload is the UTF-8 form of
the body. Nothing else of the request counts for the call. -/
theorem calls_send (c : Client) (r : Request) (s : Session) :
    ((c.send r s).calls = [] ↔
        r.UnencodableBody ∨ Client.milliseconds? s.clock.first = none) ∧
      (r.UnencodableBody → c.send r s = ⟨.error (.interrupted .unencodableBody), [], [], s⟩) ∧
      (∀ call ∈ (c.send r s).calls,
        (c.send r s).calls = [call] ∧ SentAs c.timeout r call ∧
          ∀ bytes, call.payload = .raw bytes → ∃ t, r.body = .str t ∧ Utf8.decode? bytes = some t) ∧
      ∀ r₂ : Request, r₂.method = r.method → r₂.url = r.url → r₂.headers = r.headers →
        (r.method = .post → r₂.body = r.body) → (c.send r₂ s).calls = (c.send r s).calls := by
  refine ⟨c.calls_send_eq_nil_iff r s, c.send_of_unencodableBody s, fun call hcall => ?_,
    fun r₂ hmethod hurl hheaders hbody => ?_⟩
  · obtain ⟨hcalls, hsent⟩ := Client.sentAs_of_mem_calls hcall
    refine ⟨hcalls, hsent, fun bytes hbytes => ?_⟩
    have hcarries := hsent.payload
    rw [hbytes] at hcarries
    exact hcarries.decode_raw
  · rw [Client.calls_send_eq, Client.calls_send_eq,
      Call.ofRequest?_congr c.timeout hmethod hurl hheaders hbody]

end RequestLine
