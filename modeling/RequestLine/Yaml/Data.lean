import RequestLine.Yaml.Atom
import RequestLine.Yaml.Document
import RequestLine.Yaml.Merge

/-!
# YAML data

The data of a YAML document. Collections may share parts and hold themselves, so a value refers to a
collection by the node that it was made from. Collections are filled in the order in which they are
met, each only after what it is a part of; the first fault in that order counts.

* `Data.ofDocument`: the data of a document.
* `Data.parse?`: the data of a text, null for a text without a document.
-/

namespace RequestLine.Yaml

inductive Value
  | atom (a : Atom)
  | collection (id : NodeId)

inductive Collection
  | list (items : List Value)
  | pairs (entries : List (Value × Value))
  | set (members : List Atom)
  | map (entries : List (Atom × Value))

/-- A value with the collections that it refers to. -/
structure Data where
  root : Value
  collections : Dictionary NodeId Collection

/-- Data of which some collections are known by their nodes alone. -/
structure PartialData where
  graph : Graph
  /-- The values of the nodes met so far, the last one first. A node keeps its value even if a
  mapping that takes over its entries makes it another one. -/
  known : Dictionary NodeId Value
  /-- The collections that are not filled yet, in the order in which they were met. -/
  waiting : List NodeId
  filled : Dictionary NodeId Collection

namespace PartialData

def atom (b : PartialData) (id : NodeId) : Except Error Atom := do
  let n := b.graph.node id
  if !n.tag.hasData then throw .malformed
  let t ← b.graph.text id
  match n.tag, n.content with
  | .timestamp, .mapping _ => throw (.fault .timestampMapping)
  | tag, _ => Atom.ofText tag id t

/-- Notes the value of a node; a collection waits to be filled. -/
def meet (b : PartialData) (id : NodeId) (v : Value) : Value × PartialData :=
  let waiting := match v with
    | .atom _ => b.waiting
    | .collection _ => b.waiting ++ [id]
  (v, { b with known := (id, v) :: b.known, waiting := waiting })

def value (b : PartialData) (id : NodeId) : Except Error (Value × PartialData) :=
  match b.known.get? id with
  | some v => .ok (v, b)
  | none =>
    if (b.graph.node id).tag.isCollection then .ok (b.meet id (.collection id))
    else do return b.meet id (.atom (← b.atom id))

def values (b : PartialData) : List NodeId → Except Error (List Value × PartialData)
  | [] => .ok ([], b)
  | id :: r => do
    let (v, b) ← b.value id
    let (vs, b) ← b.values r
    return (v :: vs, b)

/-- The pairs of nodes that are mappings of one entry each. -/
def pairs (b : PartialData) : List NodeId → Except Error (List (Value × Value) × PartialData)
  | [] => .ok ([], b)
  | id :: r =>
    match b.graph.entries id with
    | [(k, v)] => do
      let (key, b) ← b.value k
      let (value, b) ← b.value v
      let (ps, b) ← b.pairs r
      return ((key, value) :: ps, b)
    | _ => .error .malformed

/-- Gives a key a value; a known key keeps its place. -/
def setKey (entries : List (Atom × Value)) (k : Atom) (v : Value) : List (Atom × Value) :=
  match entries with
  | [] => [(k, v)]
  | (k₁, v₁) :: r => if Atom.same k₁ k then (k₁, v) :: r else (k₁, v₁) :: setKey r k v

/-- The entries `known` and then those of nodes; the last value of a key counts. No collection is a
key. -/
def entries (b : PartialData) (known : List (Atom × Value)) :
    List (NodeId × NodeId) → Except Error (List (Atom × Value) × PartialData)
  | [] => .ok (known, b)
  | (k, v) :: r => do
    let (key, b) ← b.value k
    match key with
    | .collection _ => throw .malformed
    | .atom a =>
      let (value, b) ← b.value v
      b.entries (setKey known a value) r

/-- The entries of a mapping, after those that it takes over. -/
def mappingEntries (b : PartialData) (id : NodeId) :
    Except Error (List (Atom × Value) × PartialData) := do
  let g ← b.graph.merge id
  { b with graph := g }.entries [] (g.entries id)

/-- The collection of a node. -/
def collection (b : PartialData) (id : NodeId) : Except Error (Collection × PartialData) :=
  let n := b.graph.node id
  match n.tag, n.content with
  | .seq, .sequence items => do
    let (vs, b) ← b.values items
    return (.list vs, b)
  | .pairs, .sequence items => do
    let (ps, b) ← b.pairs items
    return (.pairs ps, b)
  | .set, .mapping _ => do
    let (es, b) ← b.mappingEntries id
    return (.set (es.map (·.1)), b)
  | .map, .mapping _ => do
    let (es, b) ← b.mappingEntries id
    return (.map es, b)
  | _, _ => .error .malformed

/-- Fills collections until none waits; every node waits once at most. -/
def fillAll : Nat → PartialData → Except Error PartialData
  | 0, b => .ok b
  | fuel + 1, b =>
    match b.waiting with
    | [] => .ok b
    | id :: r => do
      let (c, b) ← { b with waiting := r }.collection id
      fillAll fuel { b with filled := b.filled.set id c }

end PartialData

namespace Data

def null : Data := ⟨.atom .null, []⟩

/-- The data of a document. -/
def ofDocument (d : Document) : Except Error Data := do
  let (root, b) ← (⟨d.graph, [], [], []⟩ : PartialData).value d.root
  return ⟨root, (← b.fillAll (d.graph.nodes.size + 1)).filled⟩

/-- Whether the code point may stand in a YAML text. -/
def isAllowed (c : CodePoint) : Bool :=
  c.val == 0x09 || c.val == 0x0A || c.val == 0x0D || (0x20 ≤ c.val && c.val ≤ 0x7E) ||
    c.val == 0x85 || (0xA0 ≤ c.val && c.val ≤ 0xD7FF) || (0xE000 ≤ c.val && c.val ≤ 0xFFFD) ||
    0x10000 ≤ c.val

/-- The data of a text; null for a text without a document. -/
def parse? (t : Text) : Except Error Data :=
  if t.all isAllowed then do
    match ← Document.ofTokens? (Tokens.ofText t) with
    | none => return null
    | some d => ofDocument d
  else .error .malformed

/-- The collection that a value refers to. -/
def collection? (d : Data) : Value → Option Collection
  | .atom _ => none
  | .collection id => d.collections.get? id

/-- The value of a text as key of a map. -/
def member? (d : Data) (v : Value) (name : Text) : Option Value :=
  match d.collection? v with
  | some (.map entries) => (entries.find? (fun p => p.1.same (.str name))).map (·.2)
  | _ => none

end Data

end RequestLine.Yaml
