import Mathlib.Data.List.TakeDrop
import Mathlib.Data.List.TakeWhile
import RequestLine.Proofs.Dictionary
import RequestLine.Proofs.Yaml.FlowDocuments
import RequestLine.Yaml.Data

/-!
# Data between brackets

The data of a list of texts and mappings of one entry, and of one such mapping.

* `Graph.merge_of_keys`: a mapping without special keys takes over no entries.
* `Data.IsItem`: what an item is as data.
* `PartialData.Run`: what is known of collections that are being filled; `fillAll_entries`: mappings
  that wait are filled.
* `ofDocument_list`, `ofDocument_entry`: the data.
-/

namespace RequestLine.Yaml

/-- The data has the item as a value. -/
inductive Data.IsItem (d : Data) : Value → Item → Prop
  | text (s : Text) : IsItem d (.atom (.str s)) (.text s)
  | entry {v : Value} {name s : Text} :
      d.collection? v = some (.map [(.str name, .atom (.str s))]) → IsItem d v (.entry name s)

namespace Graph

variable {g : Graph} {id : NodeId}

/-- A mapping is left as it is where none of its keys is special. -/
theorem merge_of_keys (h : ∀ e ∈ g.entries id,
    (g.node e.1).tag ≠ .merge ∧ (g.node e.1).tag ≠ .default) : g.merge id = .ok g := by
  have htake : g.takeMerge? id = none := by
    have hkept : ∀ e ∈ g.entries id, decide ((g.node e.1).tag ≠ .merge) = true := fun e he =>
      decide_eq_true (h e he).1
    rw [takeMerge?, List.span_eq_takeWhile_dropWhile, List.takeWhile_eq_self_iff.2 hkept,
      List.dropWhile_eq_nil_iff.2 hkept]
  have hsettle : g.settleKeys id = g := by
    have hall : ∀ es : List (NodeId × NodeId), (∀ e ∈ es, (g.node e.1).tag ≠ .default) →
        es.foldl (fun g e => if (g.node e.1).tag = .default then g.retag e.1 .str else g) g =
          g := by
      intro es hes
      induction es with
      | nil => rfl
      | cons e es ih =>
        obtain ⟨he, hes⟩ := List.forall_mem_cons.1 hes
        rw [List.foldl_cons, if_neg he, ih hes]
    exact hall _ fun e he => (h e he).2
  rw [merge, mergeWithin, takenEntries, htake]
  simp only [bind, Except.bind, hsettle]
  rfl

/-- Only one item stands at a node. -/
theorem Has.unique {i j : Item} (h : Has g 0 id i) (h₁ : Has g 0 id j) : i = j := by
  cases h with
  | text _ htext =>
    cases h₁ with
    | text _ htext₁ =>
      rw [htext] at htext₁
      cases htext₁
      rfl
    | entry _ _ _ hmap =>
      rw [htext] at hmap
      cases hmap
  | entry _ _ _ hmap hkey hvalue =>
    cases h₁ with
    | text _ htext =>
      rw [hmap] at htext
      cases htext
    | entry _ _ _ hmap₁ hkey₁ hvalue₁ =>
      rw [hmap] at hmap₁
      cases hmap₁
      rw [hkey] at hkey₁
      cases hkey₁
      rw [hvalue] at hvalue₁
      cases hvalue₁
      rfl

end Graph

namespace PartialData

open RequestLine.Yaml.Graph

/-- The value is the item, or a mapping that it is, at one of some nodes. -/
inductive Noted (g : Graph) (ids : List NodeId) : Value → Item → Prop
  | text (s : Text) : Noted g ids (.atom (.str s)) (.text s)
  | entry {id : NodeId} {name s : Text} : id ∈ ids → Has g 0 id (.entry name s) →
      Noted g ids (.collection id) (.entry name s)

/-- Data of the graph is being filled. The items that have been met are noted, their collections at
nodes that are done or waiting. -/
structure Run (g : Graph) (done : List NodeId) (b : PartialData) : Prop where
  graph : b.graph = g
  known : ∀ {id v i}, b.known.get? id = some v → Has g 0 id i → Noted g (done ++ b.waiting) v i

variable {g : Graph} {done ids : List NodeId} {b : PartialData} {id : NodeId} {i : Item}

theorem Noted.mono {more : List NodeId} {v : Value} (h : Noted g ids v i) (hids : ids ⊆ more) :
    Noted g more v i := by
  cases h with
  | text s => exact .text s
  | entry hid hhas => exact .entry (hids hid) hhas

theorem atom_text {s : Text} (hgraph : b.graph = g) (h : g.node id = ⟨.str, .scalar s⟩) :
    b.atom id = .ok (.str s) := by
  have htext : g.text id = .ok s := by rw [text, textWithin, h]
  simp only [atom, hgraph, h, Tag.hasData, htext, bind, Except.bind]
  rfl

/-- Items at some nodes have been met, and the new mappings among them wait. -/
structure Met (g : Graph) (done ids : List NodeId) (b b₁ : PartialData) (new : List NodeId) :
    Prop where
  run : Run g done b₁
  waiting : b₁.waiting = b.waiting ++ new
  filled : b₁.filled = b.filled
  among : new.Sublist ids
  entries : ∀ x ∈ new, ∃ name s, Has g 0 x (.entry name s)

namespace Met

variable {b₁ b₂ : PartialData} {new : List NodeId}

theorem nothing (h : Run g done b) : Met g done [] b b [] :=
  ⟨h, (List.append_nil _).symm, rfl, List.nil_sublist _, fun x hx => by cases hx⟩

theorem append {ids₁ new₁ : List NodeId} (h : Met g done ids b b₁ new)
    (h₁ : Met g done ids₁ b₁ b₂ new₁) : Met g done (ids ++ ids₁) b b₂ (new ++ new₁) where
  run := h₁.run
  waiting := by rw [h₁.waiting, h.waiting, List.append_assoc]
  filled := h₁.filled.trans h.filled
  among := h.among.append h₁.among
  entries x hx := (List.mem_append.1 hx).elim (h.entries x) (h₁.entries x)

theorem subset (h : Met g done ids b b₁ new) : done ++ b.waiting ⊆ done ++ b₁.waiting := by
  rw [h.waiting, ← List.append_assoc]
  exact List.subset_append_left _ _

end Met

/-- A node is noted when it is met for the first time. -/
theorem Run.meet (h : Run g done b) (hid : Has g 0 id i) {v : Value} {new : List NodeId}
    (hv : Noted g (done ++ (b.waiting ++ new)) v i) :
    Run g done { b with known := (id, v) :: b.known, waiting := b.waiting ++ new } := by
  refine ⟨h.graph, fun {id₁ v₁ j} hget hj => ?_⟩
  rw [Dictionary.get?] at hget
  split at hget
  · rename_i hsame
    obtain rfl := hsame
    obtain rfl := Option.some.inj hget
    exact hid.unique hj ▸ hv
  · refine (h.known hget hj).mono ?_
    rw [← List.append_assoc]
    exact List.subset_append_left _ _

/-- The value of an item is noted, and a mapping waits if it was not met before. -/
theorem value_item (h : Run g done b) (hid : Has g 0 id i) :
    ∃ v b₁ new, b.value id = .ok (v, b₁) ∧ Met g done [id] b b₁ new ∧
      Noted g (done ++ b₁.waiting) v i := by
  unfold value
  split
  · rename_i v hget
    have hmet := Met.nothing h
    exact ⟨v, b, [], rfl, ⟨h, hmet.waiting, rfl, List.nil_sublist _, hmet.entries⟩,
      h.known hget hid⟩
  · cases hid with
    | @text s hle htext =>
      have hnoted : Noted g (done ++ (b.waiting ++ [])) (.atom (.str s)) (.text s) := .text s
      have hrun := h.meet (.text hle htext) hnoted
      refine ⟨.atom (.str s), _, [], ?_,
        ⟨hrun, rfl, rfl, List.nil_sublist _, fun x hx => by cases hx⟩, hnoted⟩
      have hnode : b.graph.node id = ⟨.str, .scalar s⟩ := by rw [h.graph, htext]
      rw [hnode, atom_text h.graph htext, List.append_nil]
      rfl
    | @entry x y name s hle hkeyLe hvalueLe hmap hkey hvalue =>
      have hhas : Has g 0 id (.entry name s) := .entry hle hkeyLe hvalueLe hmap hkey hvalue
      have hnoted : Noted g (done ++ (b.waiting ++ [id])) (.collection id) (.entry name s) :=
        .entry (by simp) hhas
      refine ⟨.collection id, _, [id], ?_, ⟨h.meet hhas hnoted, rfl, rfl, List.Sublist.refl _,
        List.forall_mem_singleton.2 ⟨name, s, hhas⟩⟩, hnoted⟩
      have hnode : b.graph.node id = ⟨.map, .mapping [(x, y)]⟩ := by rw [h.graph, hmap]
      rw [hnode]
      rfl

/-- Nothing waits after a text. -/
theorem value_text {s : Text} (h : Run g done b) (hid : g.node id = ⟨.str, .scalar s⟩) :
    ∃ b₁, b.value id = .ok (.atom (.str s), b₁) ∧ Met g done [] b b₁ [] := by
  have htext : Has g 0 id (.text s) := .text (Nat.zero_le _) hid
  obtain ⟨v, b₁, new, hvalue, hmet, hnoted⟩ := value_item h htext
  -- no mapping is a text
  obtain rfl : new = [] := List.eq_nil_iff_forall_not_mem.2 fun x hx => by
    obtain ⟨name, t, hentry⟩ := hmet.entries x hx
    obtain rfl := List.mem_singleton.1 (hmet.among.subset hx)
    cases htext.unique hentry
  cases hnoted
  exact ⟨b₁, hvalue, hmet.run, hmet.waiting, hmet.filled, List.nil_sublist _, hmet.entries⟩

theorem values_items {items : List Item} (h : Run g done b)
    (hids : List.Forall₂ (Has g 0) ids items) :
    ∃ vs b₁ new, b.values ids = .ok (vs, b₁) ∧ Met g done ids b b₁ new ∧
      List.Forall₂ (Noted g (done ++ b₁.waiting)) vs items := by
  induction hids generalizing b with
  | nil => exact ⟨[], b, [], rfl, .nothing h, .nil⟩
  | @cons id i ids items hid _ ih =>
    obtain ⟨v, b₁, new, hvalue, hmet, hnoted⟩ := value_item h hid
    obtain ⟨vs, b₂, new₁, hvalues, hmet₁, hall⟩ := ih hmet.run
    refine ⟨v :: vs, b₂, new ++ new₁, ?_, hmet.append hmet₁, .cons (hnoted.mono hmet₁.subset) hall⟩
    simp only [values, hvalue, bind, Except.bind, hvalues]
    rfl

/-- The collection of a mapping of one entry. -/
theorem collection_entry {name s : Text} (h : Run g done b) (hid : Has g 0 id (.entry name s)) :
    ∃ b₁, b.collection id = .ok (.map [(.str name, .atom (.str s))], b₁) ∧
      Met g done [] b b₁ [] := by
  obtain rfl := h.graph
  cases hid with
  | @entry x y _ _ _ _ _ hmap hkey hvalue =>
    obtain ⟨b₁, hname, hmet⟩ := value_text h hkey
    obtain ⟨b₂, htext, hmet₁⟩ := value_text hmet.run hvalue
    have hentries : b.graph.entries id = [(x, y)] := by rw [Graph.entries, hmap]; rfl
    have hmerge : b.graph.merge id = .ok b.graph := merge_of_keys fun e he => by
      rw [hentries, List.mem_singleton] at he
      rw [he, hkey]
      exact ⟨nofun, nofun⟩
    have hmapping : b.mappingEntries id = .ok ([(.str name, .atom (.str s))], b₂) := by
      simp only [mappingEntries, hmerge, bind, Except.bind, hentries, PartialData.entries, hname,
        htext]
      rfl
    refine ⟨b₂, ?_, hmet.append hmet₁⟩
    simp only [collection, hmap, hmapping, bind, Except.bind]
    rfl

/-- Mappings that wait are all filled, and nothing else is. -/
theorem fillAll_entries {fuel : Nat} (hfuel : b.waiting.length ≤ fuel) (h : Run g done b)
    (hwaiting : ∀ id ∈ b.waiting, ∃ name s, Has g 0 id (.entry name s)) :
    ∃ b₁, b.fillAll fuel = .ok b₁ ∧
      (∀ id name s, id ∈ b.waiting → Has g 0 id (.entry name s) →
        b₁.filled.get? id = some (.map [(.str name, .atom (.str s))])) ∧
      ∀ id ∉ b.waiting, b₁.filled.get? id = b.filled.get? id := by
  induction fuel generalizing b done with
  | zero =>
    have hnil : b.waiting = [] := List.length_eq_zero_iff.1 (Nat.le_zero.1 hfuel)
    rw [hnil]
    exact ⟨b, rfl, fun _ _ _ hid => (by cases hid), fun _ _ => rfl⟩
  | succ fuel ih =>
    cases hw : b.waiting with
    | nil => exact ⟨b, by rw [fillAll, hw], fun _ _ _ hid => (by cases hid), fun _ _ => rfl⟩
    | cons id r =>
      rw [hw] at hfuel hwaiting
      obtain ⟨⟨name, s, hid⟩, hwaiting⟩ := List.forall_mem_cons.1 hwaiting
      have hpopped : Run g (done ++ [id]) { b with waiting := r } := by
        refine ⟨h.graph, fun hget hi => ?_⟩
        have hnoted := h.known hget hi
        rwa [hw, ← List.singleton_append, ← List.append_assoc] at hnoted
      obtain ⟨b₁, hcollection, hmet⟩ := collection_entry hpopped hid
      have hr : b₁.waiting = r := hmet.waiting.trans (List.append_nil r)
      obtain ⟨b₂, hfill, hfilled, hkept⟩ := ih
        (b := { b₁ with filled := b₁.filled.set id (.map [(.str name, .atom (.str s))]) })
        (hr ▸ Nat.le_of_succ_le_succ hfuel) ⟨hmet.run.graph, hmet.run.known⟩ (hr ▸ hwaiting)
      dsimp only at hfilled hkept
      rw [hr] at hfilled hkept
      refine ⟨b₂, ?_, fun x name₁ s₁ hx hhas => ?_, fun x hx => ?_⟩
      · rw [fillAll, hw]
        simp only [hcollection, bind, Except.bind]
        exact hfill
      · -- a node may wait for a second time, and is then filled with the same
        by_cases hmem : x ∈ r
        · exact hfilled x name₁ s₁ hmem hhas
        · obtain rfl : x = id := (List.mem_cons.1 hx).resolve_right hmem
          cases hid.unique hhas
          rw [hkept x hmem, Dictionary.get?_set, if_pos rfl]
      · obtain ⟨hne, hmem⟩ := not_or.1 (fun h => hx (List.mem_cons.2 h))
        rw [hkept x hmem, Dictionary.get?_set, if_neg (Ne.symm hne), hmet.filled]

end PartialData

namespace Data

open RequestLine.Yaml.Graph PartialData

/-- What was noted is the item when its collections have been filled. -/
theorem isItem_of_noted {g : Graph} {ids : List NodeId} {v : Value} {i : Item} {data : Data}
    (h : Noted g ids v i) (hfilled : ∀ id name s, id ∈ ids → Has g 0 id (.entry name s) →
      data.collections.get? id = some (.map [(.str name, .atom (.str s))])) : data.IsItem v i := by
  cases h with
  | text s => exact .text s
  | entry hid hhas => exact .entry (hfilled _ _ _ hid hhas)

/-- The data of a mapping of one entry. -/
theorem ofDocument_entry {d : Document} {name s : Text} (h : Has d.graph 0 d.root (.entry name s)) :
    ∃ data, ofDocument d = .ok data ∧ data.IsItem data.root (.entry name s) := by
  have hstart : Run d.graph [] ⟨d.graph, [], [], []⟩ := ⟨rfl, fun hget => (by cases hget)⟩
  obtain ⟨v, b, new, hvalue, hmet, hnoted⟩ := value_item hstart h
  have hwaiting : b.waiting = new := hmet.waiting
  have hfuel : b.waiting.length ≤ d.graph.nodes.size + 1 := by
    rw [hwaiting]
    exact Nat.le_trans hmet.among.length_le (Nat.le_add_left _ _)
  obtain ⟨b₁, hfill, hfilled, -⟩ := fillAll_entries hfuel hmet.run (hwaiting ▸ hmet.entries)
  refine ⟨⟨v, b₁.filled⟩, ?_, isItem_of_noted hnoted hfilled⟩
  simp only [ofDocument, hvalue, bind, Except.bind]
  rw [hfill]
  rfl

/-- The data of a list. -/
theorem ofDocument_list {d : Document} {ids : List NodeId} {items : List Item}
    (hroot : d.graph.node d.root = ⟨.seq, .sequence ids⟩)
    (hitems : List.Forall₂ (Has d.graph (d.root + 1)) ids items)
    (hsize : ids.length < d.graph.nodes.size) :
    ∃ data vs, ofDocument d = .ok data ∧ data.collection? data.root = some (.list vs) ∧
      List.Forall₂ data.IsItem vs items := by
  have hother : ∀ i, ¬ Has d.graph 0 d.root i := by
    intro i hi
    cases hi with
    | text _ htext => rw [hroot] at htext; cases htext
    | entry _ _ _ hmap => rw [hroot] at hmap; cases hmap
  have hstart : Run d.graph [d.root] ⟨d.graph, [(d.root, .collection d.root)], [], []⟩ := by
    refine ⟨rfl, fun {id v i} hget hi => ?_⟩
    rw [Dictionary.get?] at hget
    split at hget
    · rename_i hsame
      exact absurd (hsame ▸ hi) (hother i)
    · cases hget
  have hids : List.Forall₂ (Has d.graph 0) ids items :=
    hitems.imp fun _ _ h => h.congr (Nat.zero_le _) fun _ _ _ => rfl
  obtain ⟨vs, b, new, hvalues, hmet, hnoted⟩ := values_items hstart hids
  have hwaiting : b.waiting = new := hmet.waiting
  have hfuel : b.waiting.length ≤ d.graph.nodes.size := by
    rw [hwaiting]
    exact Nat.le_trans hmet.among.length_le (Nat.le_of_lt hsize)
  obtain ⟨b₁, hfill, hfilled, hkept⟩ := fillAll_entries
    (b := { b with filled := b.filled.set d.root (.list vs) }) hfuel
    ⟨hmet.run.graph, hmet.run.known⟩ (hwaiting ▸ hmet.entries)
  have hvalue : (⟨d.graph, [], [], []⟩ : PartialData).value d.root =
      .ok (.collection d.root, ⟨d.graph, [(d.root, .collection d.root)], [d.root], []⟩) := by
    have hnone : Dictionary.get? ([] : Dictionary NodeId Value) d.root = none := rfl
    rw [value, hnone]
    simp only [hroot]
    rfl
  have hrootFill : (⟨d.graph, [(d.root, .collection d.root)], [d.root], []⟩ :
      PartialData).fillAll (d.graph.nodes.size + 1) = .ok b₁ := by
    rw [fillAll]
    simp only [collection, hroot, hvalues, bind, Except.bind]
    exact hfill
  refine ⟨⟨.collection d.root, b₁.filled⟩, vs, ?_, ?_, hnoted.imp fun v i h => ?_⟩
  · simp only [ofDocument, hvalue, bind, Except.bind, hrootFill]
    rfl
  · have hnot : d.root ∉ b.waiting := fun hmem => by
      obtain ⟨name, s, hhas⟩ := hmet.entries _ (hwaiting ▸ hmem)
      exact hother _ hhas
    exact (hkept _ hnot).trans (by rw [Dictionary.get?_set, if_pos rfl])
  · refine isItem_of_noted h fun id name s hid hhas => hfilled _ _ _ ?_ hhas
    rcases List.mem_cons.1 hid with rfl | hid
    · exact absurd hhas (hother _)
    · exact hid

end Data

end RequestLine.Yaml
