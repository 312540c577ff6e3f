import RequestLine.Yaml.Error
import RequestLine.Yaml.Tag

/-!
# YAML graphs

The nodes of a document. A node that has a name may stand in several places and within itself, so
nodes refer to each other by their places in a graph.

* `Graph.add`, `Graph.fill`: a new node, and the content of a node whose parts came after it.
* `Graph.text`: the text that a node has as a scalar.
-/

namespace RequestLine.Yaml

/-- The place of a node in a graph. -/
abbrev NodeId := Nat

/-- What a node holds. -/
inductive Content
  | scalar (text : Text)
  | sequence (items : List NodeId)
  | mapping (entries : List (NodeId × NodeId))

/-- A node with the kind of its data. -/
structure Node where
  tag : Tag
  content : Content

/-- The scalar where a node was left out. -/
def Node.empty : Node := ⟨.null, .scalar []⟩

/-- The entries of a mapping. -/
def Node.entries (n : Node) : List (NodeId × NodeId) :=
  match n.content with
  | .mapping entries => entries
  | .scalar _ | .sequence _ => []

/-- The nodes of a document in their places. -/
structure Graph where
  nodes : Array Node

namespace Graph

def empty : Graph := ⟨#[]⟩

def node (g : Graph) (id : NodeId) : Node := (g.nodes[id]?).getD Node.empty

def entries (g : Graph) (id : NodeId) : List (NodeId × NodeId) := (g.node id).entries

/-- The graph with one more node, and its place. -/
def add (g : Graph) (n : Node) : NodeId × Graph := (g.nodes.size, ⟨g.nodes.push n⟩)

/-- The graph with another node at a place. -/
def put (g : Graph) (id : NodeId) (n : Node) : Graph := ⟨g.nodes.setIfInBounds id n⟩

/-- The graph with another content at a place. -/
def fill (g : Graph) (id : NodeId) (c : Content) : Graph := g.put id { g.node id with content := c }

/-- The graph with another tag at a place. -/
def retag (g : Graph) (id : NodeId) (t : Tag) : Graph := g.put id { g.node id with tag := t }

theorem node_add (g : Graph) (n : Node) : (g.add n).2.node (g.add n).1 = n := by
  simp [add, node]

theorem node_add_of_lt {g : Graph} {id : NodeId} (h : id < g.nodes.size) (n : Node) :
    (g.add n).2.node id = g.node id := by
  simp [add, node, Array.getElem?_push, Nat.ne_of_lt h]

theorem node_put {g : Graph} {id : NodeId} (h : id < g.nodes.size) (n : Node) :
    (g.put id n).node id = n := by
  simp [put, node, h]

theorem node_put_of_ne {g : Graph} {id other : NodeId} (h : id ≠ other) (n : Node) :
    (g.put id n).node other = g.node other := by
  simp [put, node, h]

/-- The text of a node as a scalar, within so many steps: that of a mapping is the text of its first
value whose key has the tag of `=`. -/
def textWithin (g : Graph) : Nat → NodeId → Except Error Text
  | 0, _ => .error (.fault .endlessDefault)
  | steps + 1, id =>
    match (g.node id).content with
    | .scalar t => .ok t
    | .sequence _ => .error .malformed
    | .mapping entries =>
      match entries.find? (fun e => (g.node e.1).tag = .default) with
      | some e => textWithin g steps e.2
      | none => .error .malformed

/-- The text of a node as a scalar. More steps than there are nodes come back to a node. -/
def text (g : Graph) (id : NodeId) : Except Error Text := g.textWithin (g.nodes.size + 1) id

end Graph

end RequestLine.Yaml
