import RequestLine.Yaml.Graph

/-!
# Merged mappings

A mapping may take over the entries of others: those of a mapping that stands under a key with the
merging tag, or of each mapping in a sequence there. Entries that are taken over come in front, so
that the mapping's own ones count; of a sequence the last mapping comes first.

* `Graph.merge`: a graph with the merging keys of one mapping replaced by what they take over.
-/

namespace RequestLine.Yaml.Graph

/-- The value of the first merging key of a mapping, and the graph without that entry. -/
def takeMerge? (g : Graph) (id : NodeId) : Option (NodeId × Graph) :=
  match (g.entries id).span (fun e => (g.node e.1).tag ≠ .merge) with
  | (before, (_, value) :: after) => some (value, g.fill id (.mapping (before ++ after)))
  | (_, []) => none

/-- The graph in which the keys `=` of a mapping are texts. -/
def settleKeys (g : Graph) (id : NodeId) : Graph :=
  (g.entries id).foldl (fun g e => if (g.node e.1).tag = .default then g.retag e.1 .str else g) g

/-- The mapping with entries in front of its own. -/
def prependEntries (g : Graph) (id : NodeId) (entries : List (NodeId × NodeId)) : Graph :=
  if entries.isEmpty then g else g.fill id (.mapping (entries ++ g.entries id))

/-- The number of entries of all mappings. -/
def entryCount (g : Graph) : Nat := g.nodes.foldl (fun n node => n + node.entries.length) 0

mutual

/-- Replaces the merging keys of a mapping. A mapping that is merged into itself takes over the
entries that it still has by then. -/
def mergeWithin : Nat → Graph → NodeId → Except Error Graph
  | 0, _, _ => .error .malformed
  | fuel + 1, g, id => do
    let (taken, g) ← takenEntries fuel g id
    return (g.settleKeys id).prependEntries id taken

/-- The entries that a mapping takes over, and the graph without its merging keys. -/
def takenEntries : Nat → Graph → NodeId → Except Error (List (NodeId × NodeId) × Graph)
  | 0, _, _ => .error .malformed
  | fuel + 1, g, id =>
    match g.takeMerge? id with
    | none => .ok ([], g)
    | some (source, g) => do
      let (first, g) ← sourceEntries fuel g source
      let (later, g) ← takenEntries fuel g id
      return (first ++ later, g)

/-- The entries of what stands under a merging key. -/
def sourceEntries : Nat → Graph → NodeId → Except Error (List (NodeId × NodeId) × Graph)
  | 0, _, _ => .error .malformed
  | fuel + 1, g, id =>
    match (g.node id).content with
    | .scalar _ => .error .malformed
    | .mapping _ => do
      let g ← mergeWithin fuel g id
      return (g.entries id, g)
    | .sequence items =>
      items.foldlM (fun (taken, g) item =>
        match (g.node item).content with
        | .mapping _ => do
          let g ← mergeWithin fuel g item
          return (g.entries item ++ taken, g)
        | .scalar _ | .sequence _ => Except.error .malformed) ([], g)

end

/-- The graph in which a mapping has no merging keys. Each of them is taken out once, so three steps
for every entry suffice. -/
def merge (g : Graph) (id : NodeId) : Except Error Graph := mergeWithin (3 * g.entryCount + 3) g id

end RequestLine.Yaml.Graph
