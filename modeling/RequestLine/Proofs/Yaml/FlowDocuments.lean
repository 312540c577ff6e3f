import Mathlib.Data.List.Forall2
import RequestLine.Yaml.Document

/-!
# Documents between brackets

The document of the tokens of a list of texts and mappings of one entry, and of one such mapping.

* `Item`, `Item.tokens`, `listTokens`: what is in such a document, and its tokens.
* `Graph.Extends`: a graph that has only grown; `Graph.Has`: an item stands at a node.
* `read_item`: the node of an item.
* `ofTokens?_list`, `ofTokens?_item`: the documents.
-/

namespace RequestLine.Yaml

/-- A text, or a mapping with a text as the value of its only key. -/
inductive Item
  | text (s : Text)
  | entry (name s : Text)

namespace Item

def tokens : Item → List Token
  | text s => [.scalar s false]
  | entry name s =>
    [.flowMappingStart, .key, .scalar name false, .value, .scalar s false, .flowMappingEnd]

/-- The tokens of items that follow another one. -/
def laterTokens (items : List Item) : List Token := items.flatMap fun i => .flowEntry :: i.tokens

/-- The tokens of a list with a first item. -/
def listTokens (first : Item) (later : List Item) : List Token :=
  .flowSequenceStart :: (first.tokens ++ (laterTokens later ++ [.flowSequenceEnd]))

end Item

/-! ## Graphs that grow -/

namespace Graph

/-- The graph has the nodes of the other one, and perhaps more after them. -/
structure Extends (g₁ g : Graph) : Prop where
  size : g.nodes.size ≤ g₁.nodes.size
  node : ∀ id < g.nodes.size, g₁.node id = g.node id

theorem Extends.refl (g : Graph) : Extends g g := ⟨Nat.le_refl _, fun _ _ => rfl⟩

theorem Extends.trans {g g₁ g₂ : Graph} (h : Extends g₂ g₁) (h₁ : Extends g₁ g) : Extends g₂ g :=
  ⟨Nat.le_trans h₁.size h.size, fun id hid =>
    (h.node id (Nat.lt_of_lt_of_le hid h₁.size)).trans (h₁.node id hid)⟩

theorem extends_add (g : Graph) (n : Node) : Extends (g.add n).2 g :=
  ⟨by simp [add], fun _ hid => node_add_of_lt hid n⟩

theorem size_add (g : Graph) (n : Node) : (g.add n).2.nodes.size = g.nodes.size + 1 := by
  simp [add]

theorem size_fill (g : Graph) (id : NodeId) (c : Content) :
    (g.fill id c).nodes.size = g.nodes.size := by
  simp [fill, put]

/-- A place past the nodes is empty. -/
theorem lt_size_of_tag {g : Graph} {id : NodeId} (h : (g.node id).tag ≠ .null) :
    id < g.nodes.size := by
  by_contra hid
  refine h ?_
  rw [node, Array.getElem?_eq_none (Nat.not_lt.1 hid)]
  rfl

section

variable {g g₁ : Graph} {n : Node}

/-- A node that was added before the others is filled. -/
theorem node_fill_of_extends (h : Extends g₁ (g.add n).2) (c : Content) :
    (g₁.fill g.nodes.size c).node g.nodes.size = ⟨n.tag, c⟩ := by
  have hlt : g.nodes.size < (g.add n).2.nodes.size := by
    rw [size_add]
    exact Nat.lt_succ_self _
  have hnode : (g.add n).2.node g.nodes.size = n := node_add g n
  rw [fill, node_put (Nat.lt_of_lt_of_le hlt h.size), h.node _ hlt, hnode]

theorem extends_fill (h : Extends g₁ (g.add n).2) (c : Content) :
    Extends (g₁.fill g.nodes.size c) g := by
  have hg : Extends g₁ g := h.trans (extends_add g n)
  refine ⟨by rw [size_fill]; exact hg.size, fun id hid => ?_⟩
  rw [fill, node_put_of_ne (Nat.ne_of_gt hid), hg.node id hid]

end

/-- The item stands at a node, all of it from a place on. -/
inductive Has (g : Graph) (least : Nat) : NodeId → Item → Prop
  | text {id : NodeId} {s : Text} : least ≤ id → g.node id = ⟨.str, .scalar s⟩ →
      Has g least id (.text s)
  | entry {id k v : NodeId} {name s : Text} : least ≤ id → least ≤ k → least ≤ v →
      g.node id = ⟨.map, .mapping [(k, v)]⟩ → g.node k = ⟨.str, .scalar name⟩ →
      g.node v = ⟨.str, .scalar s⟩ → Has g least id (.entry name s)

theorem Has.congr {g g₁ : Graph} {least least₁ : Nat} {id : NodeId} {i : Item}
    (h : Has g least id i) (hleast : least₁ ≤ least)
    (hnode : ∀ id, least ≤ id → id < g.nodes.size → g₁.node id = g.node id) :
    Has g₁ least₁ id i := by
  have hsame : ∀ {id : NodeId} {t : Tag} {c : Content}, least ≤ id → g.node id = ⟨t, c⟩ →
      t ≠ .null → g₁.node id = ⟨t, c⟩ := by
    intro id t c hid hn htag
    rw [hnode id hid (lt_size_of_tag (by rwa [hn])), hn]
  cases h with
  | text hid htext => exact .text (Nat.le_trans hleast hid) (hsame hid htext (by decide))
  | entry hid hk hv hmap hkey hvalue =>
    exact .entry (Nat.le_trans hleast hid) (Nat.le_trans hleast hk) (Nat.le_trans hleast hv)
      (hsame hid hmap (by decide)) (hsame hk hkey (by decide)) (hsame hv hvalue (by decide))

theorem Has.extends {g g₁ : Graph} {least : Nat} {id : NodeId} {i : Item} (h : Has g least id i)
    (hg : Extends g₁ g) : Has g₁ least id i :=
  h.congr (Nat.le_refl _) fun id _ hid => hg.node id hid

/-- Nodes past the one that is filled stay as they are. -/
theorem Has.fill {g : Graph} {least : Nat} {id other : NodeId} {i : Item} (h : Has g least id i)
    (hother : other < least) (c : Content) : Has (g.fill other c) least id i :=
  h.congr (Nat.le_refl _) fun _ hid _ =>
    node_put_of_ne (Nat.ne_of_lt (Nat.lt_of_lt_of_le hother hid)) _

/-- The graph with a mapping of one entry. -/
def addEntry (g : Graph) (name t : Text) : Graph :=
  (((g.add ⟨.map, .mapping []⟩).2.add ⟨.str, .scalar name⟩).2.add ⟨.str, .scalar t⟩).2.fill
    g.nodes.size (.mapping [(g.nodes.size + 1, g.nodes.size + 2)])

section

variable (g : Graph) (name t : Text)

theorem size_addEntry : (g.addEntry name t).nodes.size = g.nodes.size + 3 := by
  simp only [addEntry, size_fill, size_add]

theorem extends_addEntry : Extends (g.addEntry name t) g :=
  extends_fill ((extends_add _ _).trans (extends_add _ _)) _

theorem has_addEntry : Has (g.addEntry name t) g.nodes.size g.nodes.size (.entry name t) := by
  let start := (g.add ⟨.map, .mapping []⟩).2
  let named := (start.add ⟨.str, .scalar name⟩).2
  have hstart : start.nodes.size = g.nodes.size + 1 := size_add _ _
  have hnamed : named.nodes.size = g.nodes.size + 2 := by rw [size_add, hstart]
  have hkey : g.nodes.size ≠ start.nodes.size := by omega
  have hlast : start.nodes.size < named.nodes.size := by omega
  have hvalue : g.nodes.size ≠ named.nodes.size := by omega
  refine .entry (Nat.le_refl _) (Nat.le_add_right _ 1) (Nat.le_add_right _ 2)
    (node_fill_of_extends ((extends_add _ _).trans (extends_add _ _)) _) ?_ ?_
  · rw [← hstart, addEntry, fill, node_put_of_ne hkey, node_add_of_lt hlast]
    exact node_add start _
  · rw [← hnamed, addEntry, fill, node_put_of_ne hvalue]
    exact node_add named _

end

end Graph

/-! ## Nodes -/

namespace Document

open RequestLine.Yaml.Graph Item

variable (fuel : Nat) (block dashes : Bool) (ending : Token) {s : Remaining} {r : List Token}

theorem properties_bare (h : ∀ a r, s.tokens ≠ .anchor a :: r)
    (htag : ∀ handle n r, s.tokens ≠ .tag handle n :: r) : properties s = .ok (.bare, s) := by
  unfold properties
  split
  · exact absurd ‹_› (h _ _)
  · exact absurd ‹_› (htag _ _ _)
  · exact absurd ‹_› (h _ _)
  · exact absurd ‹_› (htag _ _ _)
  · rfl

theorem read_scalar {t : Text} (h : s.tokens = .scalar t false :: r) :
    read (fuel + 2) block dashes s =
      .ok (s.graph.nodes.size,
        { s with tokens := r, graph := (s.graph.add ⟨.str, .scalar t⟩).2 }) := by
  have hbare : properties s = .ok (.bare, s) := properties_bare (by simp [h]) (by simp [h])
  rw [read, h]
  simp only [hbare, bind, Except.bind, demandToken, h, demandNew, Properties.bare, readContent]
  rfl

/-- A collection is a node that is filled when its parts have been read. -/
theorem read_sequence {ids : List NodeId} {s₁ : Remaining}
    (h : s.tokens = .flowSequenceStart :: r)
    (hitems : readFlowItems fuel true
      { s with tokens := r, graph := (s.graph.add ⟨.seq, .sequence []⟩).2 } = .ok (ids, s₁)) :
    read (fuel + 2) block dashes s =
      .ok (s.graph.nodes.size, fillNode s.graph.nodes.size (.sequence ids) s₁) := by
  have hbare : properties s = .ok (.bare, s) := properties_bare (by simp [h]) (by simp [h])
  rw [read, h]
  simp only [hbare, bind, Except.bind, demandToken, h, demandNew, Properties.bare, readContent]
  simp only [addNode, Properties.tagOr, List.tail_cons]
  rw [hitems]
  rfl

theorem read_mapping {entries : List (NodeId × NodeId)} {s₁ : Remaining}
    (h : s.tokens = .flowMappingStart :: r)
    (hentries : readFlowEntries fuel true
      { s with tokens := r, graph := (s.graph.add ⟨.map, .mapping []⟩).2 } = .ok (entries, s₁)) :
    read (fuel + 2) block dashes s =
      .ok (s.graph.nodes.size, fillNode s.graph.nodes.size (.mapping entries) s₁) := by
  have hbare : properties s = .ok (.bare, s) := properties_bare (by simp [h]) (by simp [h])
  rw [read, h]
  simp only [hbare, bind, Except.bind, demandToken, h, demandNew, Properties.bare, readContent]
  simp only [addNode, Properties.tagOr, List.tail_cons]
  rw [hentries]
  rfl

theorem readFlowPart_scalar {t : Text} (h : s.tokens = .scalar t false :: r) :
    readFlowPart (fuel + 3) ending s =
      .ok (s.graph.nodes.size,
        { s with tokens := r, graph := (s.graph.add ⟨.str, .scalar t⟩).2 }) := by
  rw [readFlowPart, h]
  exact read_scalar fuel false false h

theorem readFlowPair_scalars {name t : Text}
    (h : s.tokens = .scalar name false :: .value :: .scalar t false :: r) :
    readFlowPair (fuel + 4) ending s =
      .ok ((s.graph.nodes.size, s.graph.nodes.size + 1),
        { s with
          tokens := r
          graph := ((s.graph.add ⟨.str, .scalar name⟩).2.add ⟨.str, .scalar t⟩).2 }) := by
  have hkey := readFlowPart_scalar fuel ending h
  rw [readFlowPair, h]
  simp only [startsValue, Bool.false_eq_true, if_false, bind, Except.bind, hkey]
  rw [readFlowPart_scalar fuel ending rfl, size_add]
  rfl

theorem readFlowEntries_single {name t : Text}
    (h : s.tokens =
      .key :: .scalar name false :: .value :: .scalar t false :: .flowMappingEnd :: r) :
    readFlowEntries (fuel + 5) true s =
      .ok ([(s.graph.nodes.size, s.graph.nodes.size + 1)],
        { s with
          tokens := r
          graph := ((s.graph.add ⟨.str, .scalar name⟩).2.add ⟨.str, .scalar t⟩).2 }) := by
  rw [readFlowEntries, h]
  simp only [if_true, bind, Except.bind, h]
  rw [readFlowPair_scalars fuel _ rfl]
  simp only [readFlowEntries]
  rfl

/-- An item is read to a new node. -/
theorem read_item {i : Item} (h : s.tokens = i.tokens ++ r) :
    ∃ id g, read (fuel + 7) block dashes s = .ok (id, { s with tokens := r, graph := g }) ∧
      Has g s.graph.nodes.size id i ∧ Extends g s.graph ∧ s.graph.nodes.size < g.nodes.size := by
  cases i with
  | text t =>
    refine ⟨_, _, read_scalar (fuel + 5) block dashes h, .text (Nat.le_refl _) (node_add _ _),
      extends_add _ _, ?_⟩
    rw [size_add]
    exact Nat.lt_succ_self _
  | entry name t =>
    have hread := read_mapping (fuel + 5) block dashes h (readFlowEntries_single fuel rfl)
    refine ⟨_, s.graph.addEntry name t, ?_, has_addEntry _ _ _, extends_addEntry _ _ _, ?_⟩
    · rw [hread, size_add]
      rfl
    · rw [size_addEntry]
      omega

/-- The tokens of an item do not end a list, and are no comma and no mark of a key. -/
theorem tokens_eq_cons (i : Item) :
    ∃ t u, i.tokens = t :: u ∧ t ≠ .flowSequenceEnd ∧ t ≠ .key := by
  cases i <;> exact ⟨_, _, rfl, by simp, by simp⟩

/-- The first item of a list is read, and then the others. -/
theorem readFlowItems_first {i : Item} {id : NodeId} {s₁ : Remaining}
    (h : s.tokens = i.tokens ++ r) (hread : read fuel false false s = .ok (id, s₁)) :
    readFlowItems (fuel + 1) true s = do
      let (ids, s) ← readFlowItems fuel false s₁
      return (id :: ids, s) := by
  obtain ⟨t, u, htokens, hend, hkey⟩ := tokens_eq_cons i
  rw [htokens, List.cons_append] at h
  rw [readFlowItems.eq_def]
  simp only [h]
  split
  · exact absurd (List.cons.inj ‹_›).1 hend
  · simp only [if_true, bind, Except.bind, h]
    split
    · exact absurd (List.cons.inj ‹_›).1 hend
    · exact absurd (List.cons.inj ‹_›).1 hkey
    · rw [hread]

/-- So is one after a comma. -/
theorem readFlowItems_later {i : Item} {id : NodeId} {s₁ : Remaining}
    (h : s.tokens = .flowEntry :: (i.tokens ++ r))
    (hread : read fuel false false { s with tokens := i.tokens ++ r } = .ok (id, s₁)) :
    readFlowItems (fuel + 1) false s = do
      let (ids, s) ← readFlowItems fuel false s₁
      return (id :: ids, s) := by
  obtain ⟨t, u, htokens, hend, hkey⟩ := tokens_eq_cons i
  rw [htokens, List.cons_append] at h hread
  rw [readFlowItems, h]
  simp only [Bool.false_eq_true, if_false, bind, Except.bind]
  split
  · exact absurd (List.cons.inj ‹_›).1 hend
  · exact absurd (List.cons.inj ‹_›).1 hkey
  · rw [hread]

/-- All items up to the end of a list are read to new nodes. -/
theorem readFlowItems_laterTokens {fuel : Nat} {items : List Item} (hfuel : items.length + 8 ≤ fuel)
    (h : s.tokens = laterTokens items ++ .flowSequenceEnd :: r) :
    ∃ ids g, readFlowItems fuel false s = .ok (ids, { s with tokens := r, graph := g }) ∧
      List.Forall₂ (Has g s.graph.nodes.size) ids items ∧ Extends g s.graph ∧
      s.graph.nodes.size + items.length ≤ g.nodes.size := by
  induction items generalizing s fuel with
  | nil =>
    obtain ⟨fuel, rfl⟩ := Nat.exists_eq_add_of_le' hfuel
    refine ⟨[], s.graph, ?_, .nil, Extends.refl _, Nat.le_refl _⟩
    have hend : s.tokens = .flowSequenceEnd :: r := h
    rw [List.length_nil, Nat.zero_add, readFlowItems, hend]
  | cons i items ih =>
    obtain ⟨fuel, rfl⟩ := Nat.exists_eq_add_of_le' hfuel
    have htokens : s.tokens =
        .flowEntry :: (i.tokens ++ (laterTokens items ++ .flowSequenceEnd :: r)) := by
      rw [h]
      simp only [laterTokens, List.flatMap_cons, List.cons_append, List.append_assoc]
    obtain ⟨id, g₁, hread, hid, hg₁, hsize₁⟩ := read_item (fuel + items.length + 1) false false
      (s := { s with tokens := i.tokens ++ (laterTokens items ++ .flowSequenceEnd :: r) }) rfl
    have hlater : items.length + 8 ≤ fuel + items.length + 8 := by omega
    obtain ⟨ids, g, hrest, hids, hg, hsize⟩ := ih hlater
      (s := { s with tokens := laterTokens items ++ .flowSequenceEnd :: r, graph := g₁ }) rfl
    refine ⟨id :: ids, g, ?_, .cons (hid.extends hg) (hids.imp fun _ _ h => ?_), hg.trans hg₁, ?_⟩
    · have hstep := readFlowItems_later _ htokens hread
      rw [show fuel + ((i :: items).length + 8) = fuel + items.length + 8 + 1 by
        rw [List.length_cons]; omega, hstep, hrest]
      rfl
    · exact h.congr hg₁.size fun _ _ _ => rfl
    · rw [List.length_cons]
      dsimp only at hsize hsize₁
      omega

/-- Brackets around items are a node of new nodes. -/
theorem read_list {fuel : Nat} {first : Item} {later : List Item} (hfuel : later.length + 11 ≤ fuel)
    (h : s.tokens = listTokens first later ++ r) :
    ∃ ids g, read fuel block dashes s =
        .ok (s.graph.nodes.size, { s with tokens := r, graph := g }) ∧
      g.node s.graph.nodes.size = ⟨.seq, .sequence ids⟩ ∧
      List.Forall₂ (Has g (s.graph.nodes.size + 1)) ids (first :: later) ∧
      s.graph.nodes.size + ids.length < g.nodes.size := by
  obtain ⟨fuel, rfl⟩ := Nat.exists_eq_add_of_le' hfuel
  let start := (s.graph.add ⟨.seq, .sequence []⟩).2
  have hstart : start.nodes.size = s.graph.nodes.size + 1 := size_add _ _
  have hlt : s.graph.nodes.size < start.nodes.size := by omega
  have htokens : s.tokens = .flowSequenceStart ::
      (first.tokens ++ (laterTokens later ++ .flowSequenceEnd :: r)) := by
    rw [h, listTokens]
    simp only [List.cons_append, List.append_assoc, List.nil_append]
  obtain ⟨id, g₁, hread, hid, hg₁, hsize₁⟩ := read_item (fuel + later.length + 1)
    false false (s := { s with
      tokens := first.tokens ++ (laterTokens later ++ .flowSequenceEnd :: r), graph := start }) rfl
  have hlater : later.length + 8 ≤ fuel + later.length + 8 := by omega
  obtain ⟨ids, g, hrest, hids, hg, hsize⟩ := readFlowItems_laterTokens hlater
    (s := { s with tokens := laterTokens later ++ .flowSequenceEnd :: r, graph := g₁ }) rfl
  have hfirst := readFlowItems_first (fuel + later.length + 8) (s := { s with
    tokens := first.tokens ++ (laterTokens later ++ .flowSequenceEnd :: r), graph := start })
    rfl hread
  rw [hrest] at hfirst
  have hall := read_sequence (fuel + later.length + 9) block dashes htokens hfirst
  have hgrown : Extends g start := hg.trans hg₁
  refine ⟨id :: ids, g.fill s.graph.nodes.size (.sequence (id :: ids)), ?_,
    node_fill_of_extends hgrown _, ?_, ?_⟩
  · rw [show fuel + (later.length + 11) = fuel + later.length + 8 + 1 + 2 by omega, hall]
    rfl
  · rw [← hstart]
    refine .cons ((hid.extends hg).fill hlt _) (hids.imp fun _ _ h => ?_)
    exact (h.congr hg₁.size fun _ _ _ => rfl).fill hlt _
  · have hlength := hids.length_eq
    rw [size_fill, List.length_cons]
    dsimp only at hsize hsize₁
    omega

/-! ## Documents -/

theorem length_le_laterTokens (items : List Item) : items.length ≤ (laterTokens items).length := by
  induction items with
  | nil => exact Nat.le_refl _
  | cons i items ih =>
    simp only [laterTokens, List.flatMap_cons, List.length_append, List.length_cons] at ih ⊢
    omega

/-- Tokens that start with a bracket are the document of the node that they are. -/
theorem ofTokens?_of_read {t : Token} {ts : List Token} {root : NodeId} {g : Graph}
    (ht : t = .flowSequenceStart ∨ t = .flowMappingStart)
    (hread : read (4 * (t :: ts).length + 4) true false ⟨t :: ts, commonHandles, [], .empty⟩ =
      .ok (root, ⟨[], commonHandles, [], g⟩)) :
    ofTokens? (t :: ts) = .ok (some ⟨g, root⟩) := by
  have honly : readOnly commonHandles (t :: ts) = .ok ⟨g, root⟩ := by
    have hnode : endsDocument (t :: ts) = false := by rcases ht with rfl | rfl <;> rfl
    simp only [readOnly, hnode, Bool.false_eq_true, if_false, hread, bind, Except.bind]
    rfl
  rcases ht with rfl | rfl <;>
    · simp only [ofTokens?, honly, bind, Except.bind]
      rfl

/-- The document of a list: its root, and all items after it. -/
theorem ofTokens?_listTokens (first : Item) (later : List Item) :
    ∃ d ids, ofTokens? (listTokens first later) = .ok (some d) ∧
      d.graph.node d.root = ⟨.seq, .sequence ids⟩ ∧
      List.Forall₂ (Has d.graph (d.root + 1)) ids (first :: later) ∧
      ids.length < d.graph.nodes.size := by
  have hfuel : later.length + 11 ≤ 4 * (listTokens first later).length + 4 := by
    have hlength := length_le_laterTokens later
    obtain ⟨t, u, htokens, -⟩ := tokens_eq_cons first
    simp only [listTokens, htokens, List.length_cons, List.length_append, List.length_nil]
    omega
  obtain ⟨ids, g, hread, hroot, hids, hlength⟩ := read_list true false
    (s := ⟨listTokens first later, commonHandles, [], .empty⟩) hfuel (List.append_nil _).symm
  refine ⟨⟨g, 0⟩, ids, ofTokens?_of_read (.inl rfl) hread, hroot, hids, ?_⟩
  exact Nat.lt_of_le_of_lt (Nat.le_add_left _ _) hlength

/-- The document of one mapping. -/
theorem ofTokens?_entry (name t : Text) :
    ∃ d, ofTokens? (Item.entry name t).tokens = .ok (some d) ∧
      Has d.graph 0 d.root (.entry name t) := by
  obtain ⟨id, g, hread, hhas, -⟩ := read_item 21 true false (i := .entry name t)
    (s := ⟨(Item.entry name t).tokens, commonHandles, [], .empty⟩)
    (List.append_nil _).symm
  exact ⟨⟨g, id⟩, ofTokens?_of_read (.inr rfl) hread, hhas⟩

end Document

end RequestLine.Yaml
