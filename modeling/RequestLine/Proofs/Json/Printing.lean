import RequestLine.Proofs.Dictionary
import RequestLine.Proofs.Json.Escapes
import RequestLine.Proofs.Json.Inside
import RequestLine.Proofs.Json.Values
import RequestLine.Proofs.Json.WrittenNumbers
import RequestLine.Proofs.Number.Reading
import RequestLine.Proofs.Text.Joining

/-!
# Written values read back

* `Writable`: what a value has to be, apart from the values in it, to be read from its text.
* `Value.everywhere_writable`: the values that are read are so at every depth, unless a number is
  infinite.
* `Value.arr_of`, `Value.obj_of`: arrays and objects from the texts of what stands in them.
* `value_compact`: the compact text of such a value is a value of the grammar, and that one.
* `parse?_statementText`: it is read from its text in a statement.
-/

namespace RequestLine.Json

/-- The number can be read, the texts are of a kind `P`, the names are distinct. -/
def Writable (P : Text → Prop) : Json → Prop
  | .null | .bool _ | .arr _ => True
  | .num n => n.Readable
  | .str s => P s
  | .obj members => (Dictionary.keys members).Nodup ∧ ∀ m ∈ members, P m.1

theorem writable_emptyObject (P : Text → Prop) : (Json.obj []).Everywhere (Writable P) :=
  everywhere_obj.2 ⟨⟨List.nodup_nil, fun _ hm => by cases hm⟩, fun _ hm => by cases hm⟩

/-- The infinite numbers. -/
def IsInfinite : Json → Prop
  | .num (.double (.infinite _)) => True
  | _ => False

namespace Grammar

variable {d : Dialect}

/-! ## Values that were read -/

theorem Separated.mem {ps : List Text} {t p : Text} (h : Separated ps t) (hp : p ∈ ps)
    {c : CodePoint} (hc : c ∈ p) : c ∈ t := by
  cases h with
  | none => cases hp
  | some h =>
    induction h with
    | last =>
      rw [List.mem_singleton.1 hp] at hc
      exact List.mem_append_right _ (List.mem_append_left _ hc)
    | cons _ _ _ ih =>
      refine List.mem_append_right _ ?_
      rcases List.mem_cons.1 hp with rfl | hp
      · exact List.mem_append_left _ hc
      · exact List.mem_append_right _ (List.mem_append_right _ (List.mem_cons_of_mem _ (ih hp)))

theorem NumberText.readable {t : Text} {n : Number} (h : NumberText t n)
    (hfinite : ¬ IsInfinite (.num n)) : n.Readable := by
  cases h with
  | @integer whole negative hwhole hlen =>
    have habs : (signed negative (digitsValue whole)).natAbs = digitsValue whole := by
      cases negative <;> simp [signed]
    have hlt : digitsValue whole < 10 ^ digitLimit :=
      Nat.lt_of_lt_of_le (digitsValue_lt hwhole.allDigits) (Nat.pow_le_pow_right (by decide) hlen)
    show (decimalDigits (signed negative (digitsValue whole)).natAbs).length ≤ digitLimit
    rw [habs]
    exact (length_decimalDigits_le_iff digitLimit_pos).2 hlt
  | decimal =>
    generalize hx : Double.ofDecimal _ _ = x at hfinite ⊢
    cases x with
    | finite => rfl
    | infinite => exact absurd trivial hfinite
    | nan => exact absurd hx (Double.ofDecimal_ne_nan _ _)

theorem StringText.joined {t s : Text} (h : StringText t s)
    (ht : ∀ c ∈ t, c.isSurrogate = false) : Text.Joined s := by
  cases h with
  | quoted hchars =>
    refine hchars.joined fun c hc => ht c ?_
    exact List.mem_cons_of_mem _ (List.mem_append_left _ hc)

/-- Strict texts have values that can be written, infinite numbers apart. What is known of the code
points of a text says of which kind the texts in its value are. -/
theorem Value.everywhere_writable {A : CodePoint → Prop} {P : Text → Prop}
    (hstring : ∀ u s, StringText u s → (∀ c ∈ u, A c) → P s) {t : Text} {v : Json}
    (h : Value .strict t v) (ht : ∀ c ∈ t, A c)
    (hfinite : Everywhere (fun x => ¬ IsInfinite x) v) : Everywhere (Writable P) v := by
  induction h with
  | @constant t v hmem =>
    simp only [Reader.constants, List.mem_cons, Prod.mk.injEq, List.not_mem_nil, or_false] at hmem
    rcases hmem with ⟨-, rfl⟩ | ⟨-, rfl⟩ | ⟨-, rfl⟩ <;> exact (everywhere_scalar rfl).2 trivial
  | number hn => exact (everywhere_scalar rfl).2 (hn.readable hfinite.here)
  | string hs => exact (everywhere_scalar rfl).2 (hstring _ _ hs ht)
  | @array items t _ hseparated ih =>
    refine everywhere_arr.2 ⟨trivial, fun v hv => ?_⟩
    obtain ⟨p, hp, rfl⟩ := List.mem_map.1 hv
    refine ih p hp (fun c hc => ht c ?_) (hfinite.item hv)
    have hmem := hseparated.mem (List.mem_map_of_mem hp) hc
    exact List.mem_cons_of_mem _ (List.mem_append_left _ hmem)
  | @object members t hspelled _ hseparated ih =>
    have hsource : ∀ m ∈ members, ∀ c ∈ m.text, A c := by
      intro m hm c hc
      have hmem := hseparated.mem (List.mem_map_of_mem hm) hc
      exact ht c (List.mem_cons_of_mem _ (List.mem_append_left _ hmem))
    refine everywhere_obj.2 ⟨⟨Dictionary.nodup_keys_ofPairs _, fun p hp => ?_⟩, fun p hp => ?_⟩
    · obtain ⟨m, hm, rfl⟩ := List.mem_map.1 (Dictionary.mem_ofPairs hp)
      refine hstring _ _ (hspelled m hm).name fun c hc => hsource m hm c ?_
      exact List.mem_append_left _ hc
    · obtain ⟨m, hm, rfl⟩ := List.mem_map.1 (Dictionary.mem_ofPairs hp)
      refine ih m hm (fun c hc => hsource m hm c ?_) (hfinite.member hp)
      refine List.mem_append_right _ (List.mem_append_right _ (List.mem_cons_of_mem _ ?_))
      exact List.mem_append_right _ hc

/-! ## Pieces and values -/

theorem blank_nil : Blank [] := fun _ hc => by cases hc

/-- Pieces with commas between them, each comma followed by the same white space. -/
theorem items_joinWith {b : Text} (hb : Blank b) {ps : List Text} (hps : ps ≠ []) :
    Items ps (Text.joinWith (CodePoint.ofChar ',' :: b) ps) := by
  induction ps with
  | nil => exact absurd rfl hps
  | cons p ps ih =>
    cases ps with
    | nil =>
      have hone := @Items.last [] p [] blank_nil blank_nil
      rw [List.nil_append, List.append_nil] at hone
      rwa [Text.joinWith_singleton]
    | cons q ps =>
      have hrest := (ih (List.cons_ne_nil q ps)).blank_append hb
      rw [Text.joinWith_cons_cons]
      exact @Items.cons [] p [] _ _ blank_nil blank_nil hrest

theorem separated_joinWith (ps : List Text) : Separated ps (Text.joinWith "," ps) := by
  by_cases hps : ps = []
  · subst hps
    exact .none blank_nil
  · exact .some (items_joinWith blank_nil hps)

/-- An array whose items stand between its brackets, each as a text of its own. -/
theorem Value.arr_of {text : Json → Text} {items : List Json} {t : Text}
    (hitems : ∀ v ∈ items, Value d (text v) v) (ht : Separated (items.map text) t) :
    Value d (CodePoint.ofChar '[' :: (t ++ [CodePoint.ofChar ']'])) (.arr items) := by
  have hpairs : ∀ p ∈ items.map fun v => (text v, v), Value d p.1 p.2 := by
    intro p hp
    obtain ⟨v, hv, rfl⟩ := List.mem_map.1 hp
    exact hitems v hv
  have hvalue := Value.array hpairs (by rwa [List.map_map])
  have hvalues : items.map (Prod.snd ∘ fun v => (text v, v)) = items := List.map_id items
  rwa [List.map_map, hvalues] at hvalue

/-- An object whose members stand between its braces, each spelled in a way of its own. -/
theorem Value.obj_of {spell : Text × Json → Member} {members : List (Text × Json)} {t : Text}
    (hpair : ∀ m, (spell m).pair = m) (hnodup : (Dictionary.keys members).Nodup)
    (hspelled : ∀ m ∈ members, (spell m).Spelled)
    (hvalues : ∀ m ∈ members, Value d (spell m).valueText m.2)
    (ht : Separated (members.map fun m => (spell m).text) t) :
    Value d (CodePoint.ofChar '\x7b' :: (t ++ [CodePoint.ofChar '\x7d'])) (.obj members) := by
  have hall : ∀ m ∈ members.map spell, m.Spelled := by
    intro m hm
    obtain ⟨p, hp, rfl⟩ := List.mem_map.1 hm
    exact hspelled p hp
  have hread : ∀ m ∈ members.map spell, Value d m.valueText m.value := by
    intro m hm
    obtain ⟨p, hp, rfl⟩ := List.mem_map.1 hm
    have hvalue : (spell p).value = p.2 := congrArg Prod.snd (hpair p)
    rw [hvalue]
    exact hvalues p hp
  have hvalue := Value.object hall hread (by rwa [List.map_map])
  have hpairs : members.map (Member.pair ∘ spell) = members := by
    rw [show Member.pair ∘ spell = id from funext hpair, List.map_id]
  rwa [List.map_map, hpairs, Dictionary.ofPairs_of_nodup hnodup] at hvalue

end Grammar

/-! ## Compact texts -/

section Compact

open Grammar

variable {escape : CodePoint → Text}

theorem compactItems_eq_map (items : List Json) :
    compactItems escape items = items.map (compact escape) := by
  induction items with
  | nil => rfl
  | cons v r ih => rw [compactItems, ih, List.map_cons]

/-- How a member is spelled in a compact text. -/
def compactMember (escape : CodePoint → Text) (m : Text × Json) : Member :=
  ⟨m.1, m.2, quote escape m.1, [], [], compact escape m.2⟩

theorem compactMembers_eq_map (members : List (Text × Json)) :
    compactMembers escape members = members.map fun m => (compactMember escape m).text := by
  induction members with
  | nil => rfl
  | cons m r ih =>
    rw [compactMembers, ih, List.map_cons, List.append_assoc]
    rfl

theorem stringText_quote {s : Text} (h : Chars (s.flatMap escape) s) :
    StringText (quote escape s) s := .quoted h

theorem null_mem_constants (d : Dialect) : (Text.ofString "null", Json.null) ∈ Reader.constants d := by
  cases d <;> exact List.mem_cons_self

theorem boolText_mem_constants (d : Dialect) (b : Bool) :
    (boolText b, Json.bool b) ∈ Reader.constants d := by
  cases b with
  | false =>
    cases d <;> exact List.mem_cons_of_mem _ (List.mem_cons_of_mem _ List.mem_cons_self)
  | true => cases d <;> exact List.mem_cons_of_mem _ List.mem_cons_self

theorem compact_arr (items : List Json) :
    compact escape (.arr items) = CodePoint.ofChar '[' ::
      (Text.joinWith "," (items.map (compact escape)) ++ [CodePoint.ofChar ']']) := by
  rw [compact, compactItems_eq_map]
  rfl

theorem compact_obj (members : List (Text × Json)) :
    compact escape (.obj members) = CodePoint.ofChar '\x7b' ::
      (Text.joinWith "," (members.map fun m => (compactMember escape m).text) ++
        [CodePoint.ofChar '\x7d']) := by
  rw [compact, compactMembers_eq_map]
  rfl

/-- The compact text of a value is a value of the grammar, and that one, if the texts are read from
their escapes. -/
theorem value_compact {d : Dialect} {P : Text → Prop}
    (hescape : ∀ s, P s → Chars (s.flatMap escape) s) {v : Json}
    (hv : Everywhere (Writable P) v) : Value d (v.compact escape) v := by
  induction v with
  | null => exact .constant (null_mem_constants d)
  | bool b => exact .constant (boolText_mem_constants d b)
  | num n => exact .number (numberText_writeNumber hv.here)
  | str s => exact .string (stringText_quote (hescape s hv.here))
  | arr items ih =>
    rw [compact_arr]
    exact .arr_of (fun v hmem => ih v hmem (hv.item hmem)) (separated_joinWith _)
  | obj members ih =>
    obtain ⟨hnodup, hnames⟩ := hv.here
    have hspelled : ∀ m ∈ members, (compactMember escape m).Spelled := fun m hm =>
      ⟨stringText_quote (hescape m.1 (hnames m hm)), blank_nil, blank_nil⟩
    rw [compact_obj]
    exact .obj_of (fun _ => rfl) hnodup hspelled (fun m hm => ih m hm (hv.member hm))
      (separated_joinWith _)

end Compact

/-- A value is read from its text in a statement. -/
theorem value_statementText {d : Dialect} {v : Json}
    (hv : Everywhere (Writable Text.Joined) v) : Grammar.Value d v.statementText v :=
  value_compact (fun _ hs => Grammar.chars_inStatement hs) hv

/-- A value is read from its text and the white space after it. -/
theorem parse?_of_value_append {d : Dialect} {t b : Text} {v : Json} (h : Grammar.Value d t v)
    (hb : Grammar.Blank b) : parse? d (t ++ b) = some v :=
  parse?_eq_some_iff.2 (Grammar.Document.framed Grammar.blank_nil hb h)

theorem parse?_of_value {d : Dialect} {t : Text} {v : Json} (h : Grammar.Value d t v) :
    parse? d t = some v := by
  have hread := parse?_of_value_append h Grammar.blank_nil
  rwa [List.append_nil] at hread

theorem parse?_statementText {d : Dialect} {v : Json}
    (hv : Everywhere (Writable Text.Joined) v) : parse? d v.statementText = some v :=
  parse?_of_value (value_statementText hv)

end RequestLine.Json
