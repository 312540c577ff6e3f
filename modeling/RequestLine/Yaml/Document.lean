import RequestLine.Dictionary
import RequestLine.Yaml.Graph
import RequestLine.Yaml.Tokens

/-!
# YAML documents

The graph that the tokens of a document describe. An alias stands for the node that its anchor
names, which may be a node around it; an anchor names one node of a document.

* `Document.ofTokens?`: the only document among tokens, nothing if there is no document.
-/

namespace RequestLine.Yaml

/-- The nodes of a document, and the place of the outermost one. -/
structure Document where
  graph : Graph
  root : NodeId

namespace Document

/-- The anchor and the full tag name in front of a node. -/
structure Properties where
  anchor : Option Text
  tag : Option Text

/-- The tokens still to be read, the nodes that have been, and the names that have been given. -/
structure Remaining where
  tokens : List Token
  /-- The starts of tag names by their handles. -/
  handles : Dictionary Text Text
  /-- The nodes by their anchors. -/
  anchors : Dictionary Text NodeId
  graph : Graph

def Properties.bare : Properties := ⟨none, none⟩

/-- Demands that the text can be read up to the next token. -/
def demandToken : List Token → Except Error Unit
  | .unreadable e :: _ => .error e
  | _ => .ok ()

/-- The error of tokens that cannot stand where they stand. -/
def unexpected {α : Type} (ts : List Token) : Except Error α := do
  demandToken ts
  throw .malformed

/-- Adds a node with its properties. -/
def addNode (p : Properties) (n : Node) (s : Remaining) : NodeId × Remaining :=
  let (id, g) := s.graph.add n
  let anchors := match p.anchor with
    | none => s.anchors
    | some a => s.anchors.set a id
  (id, { s with graph := g, anchors := anchors })

/-- Adds the scalar where a node was left out. -/
def addEmpty (s : Remaining) : NodeId × Remaining := addNode .bare .empty s

/-- The nodes with the content of one whose parts have been read. -/
def fillNode (id : NodeId) (c : Content) (s : Remaining) : Remaining :=
  { s with graph := s.graph.fill id c }

/-- The full name of a tag. -/
def tagName (s : Remaining) : Option Text → Text → Except Error Text
  | none, suffix => .ok suffix
  | some handle, suffix =>
    match s.handles.get? handle with
    | some start => .ok (start ++ suffix)
    | none => .error .malformed

/-- Reads an anchor and a tag in either order. -/
def properties (s : Remaining) : Except Error (Properties × Remaining) :=
  match s.tokens with
  | .anchor a :: .tag h n :: r | .tag h n :: .anchor a :: r => do
    return (⟨some a, some (← tagName s h n)⟩, { s with tokens := r })
  | .anchor a :: r => do
    demandToken r
    return (⟨some a, none⟩, { s with tokens := r })
  | .tag h n :: r => do
    demandToken r
    return (⟨none, some (← tagName s h n)⟩, { s with tokens := r })
  | _ => .ok (.bare, s)

/-- The tag of a node that is `untagged` without a tag; `!` is no tag. -/
def Properties.tagOr (p : Properties) (untagged : Tag) : Tag :=
  match p.tag with
  | none => untagged
  | some name => if name = Text.ofString "!" then untagged else Tag.ofName name

/-- The tag of a scalar. The form of its text decides if it is plain or tagged `!`. -/
def Properties.scalarTag (p : Properties) (text : Text) (plain : Bool) : Tag :=
  match p.tag with
  | none => if plain then Tag.ofPlain text else .str
  | some name => if name = Text.ofString "!" then Tag.ofPlain text else Tag.ofName name

/-- Demands that an anchor is new. -/
def demandNew (p : Properties) (s : Remaining) : Except Error Unit :=
  match p.anchor with
  | none => .ok ()
  | some a => if (s.anchors.get? a).isSome then .error .malformed else .ok ()

/-- Whether the next token leaves out the node that could stand here in a block. -/
def leavesOutBlock : List Token → Bool
  | .key :: _ | .value :: _ | .blockEnd :: _ => true
  | _ => false

/-- Whether the next token leaves out the node that could stand here between brackets. -/
def leavesOutFlow (ending : Token) : List Token → Bool
  | .flowEntry :: _ => true
  | .flowSequenceEnd :: _ => match ending with
    | .flowSequenceEnd => true
    | _ => false
  | .flowMappingEnd :: _ => match ending with
    | .flowMappingEnd => true
    | _ => false
  | _ => false

def startsValue : List Token → Bool
  | .value :: _ => true
  | _ => false

mutual

/-- Reads a node. `block` says whether blocks may stand here, `dashes` whether the items of a
sequence may without a block of their own. -/
def read : Nat → Bool → Bool → Remaining → Except Error (NodeId × Remaining)
  | 0, _, _, _ => .error .malformed
  | fuel + 1, block, dashes, s =>
    match s.tokens with
    | .alias a :: r =>
      match s.anchors.get? a with
      | some id => .ok (id, { s with tokens := r })
      | none => .error .malformed
    | _ => do
      let (p, s) ← properties s
      demandToken s.tokens
      demandNew p s
      readContent fuel block dashes p s

/-- Reads a node after its properties. Its name is known within it. -/
def readContent : Nat → Bool → Bool → Properties → Remaining → Except Error (NodeId × Remaining)
  | 0, _, _, _, _ => .error .malformed
  | fuel + 1, block, dashes, p, s =>
    let inner : Remaining := { s with tokens := s.tokens.tail }
    match s.tokens with
    | .scalar text plain :: _ => .ok (addNode p ⟨p.scalarTag text plain, .scalar text⟩ inner)
    | .flowSequenceStart :: _ => do
      let (id, s) := addNode p ⟨p.tagOr .seq, .sequence []⟩ inner
      let (items, s) ← readFlowItems fuel true s
      return (id, fillNode id (.sequence items) s)
    | .flowMappingStart :: _ => do
      let (id, s) := addNode p ⟨p.tagOr .map, .mapping []⟩ inner
      let (entries, s) ← readFlowEntries fuel true s
      return (id, fillNode id (.mapping entries) s)
    | ts =>
      match block, dashes, ts with
      | _, true, .blockEntry :: _ => do
        let (id, s) := addNode p ⟨p.tagOr .seq, .sequence []⟩ s
        let (items, s) ← readDashes fuel s
        return (id, fillNode id (.sequence items) s)
      | true, _, .blockSequenceStart :: _ => do
        let (id, s) := addNode p ⟨p.tagOr .seq, .sequence []⟩ inner
        let (items, s) ← readBlockItems fuel s
        return (id, fillNode id (.sequence items) s)
      | true, _, .blockMappingStart :: _ => do
        let (id, s) := addNode p ⟨p.tagOr .map, .mapping []⟩ inner
        let (entries, s) ← readBlockEntries fuel s
        return (id, fillNode id (.mapping entries) s)
      | _, _, _ =>
        if p.anchor.isSome || p.tag.isSome then
          .ok (addNode p ⟨p.scalarTag [] true, .scalar []⟩ s)
        else .error .malformed

/-- Reads the items of a block sequence up to its end. -/
def readBlockItems : Nat → Remaining → Except Error (List NodeId × Remaining)
  | 0, _ => .error .malformed
  | fuel + 1, s =>
    match s.tokens with
    | .blockEnd :: r => .ok ([], { s with tokens := r })
    | .blockEntry :: r => do
      let (id, s) ← match r with
        | .blockEntry :: _ | .blockEnd :: _ => Except.ok (addEmpty { s with tokens := r })
        | _ => read fuel true false { s with tokens := r }
      let (ids, s) ← readBlockItems fuel s
      return (id :: ids, s)
    | ts => unexpected ts

/-- Reads the items of a sequence that has no block of its own. -/
def readDashes : Nat → Remaining → Except Error (List NodeId × Remaining)
  | 0, _ => .error .malformed
  | fuel + 1, s =>
    match s.tokens with
    | .blockEntry :: r => do
      let (id, s) ← match r with
        | .blockEntry :: _ | .key :: _ | .value :: _ | .blockEnd :: _ =>
          Except.ok (addEmpty { s with tokens := r })
        | _ => read fuel true false { s with tokens := r }
      let (ids, s) ← readDashes fuel s
      return (id :: ids, s)
    | _ => .ok ([], s)

/-- Reads the node that may stand after a mark in a block mapping. -/
def readBlockPart : Nat → Remaining → Except Error (NodeId × Remaining)
  | 0, _ => .error .malformed
  | fuel + 1, s => if leavesOutBlock s.tokens then .ok (addEmpty s) else read fuel true true s

/-- Reads the entries of a block mapping up to its end. -/
def readBlockEntries : Nat → Remaining → Except Error (List (NodeId × NodeId) × Remaining)
  | 0, _ => .error .malformed
  | fuel + 1, s =>
    match s.tokens with
    | .blockEnd :: r => .ok ([], { s with tokens := r })
    | .key :: r => do
      let (k, s) ← readBlockPart fuel { s with tokens := r }
      let (v, s) ← match s.tokens with
        | .value :: r => readBlockPart fuel { s with tokens := r }
        | _ => Except.ok (addEmpty s)
      let (es, s) ← readBlockEntries fuel s
      return ((k, v) :: es, s)
    | ts => unexpected ts

/-- Reads the node that may stand after a mark between brackets. -/
def readFlowPart : Nat → Token → Remaining → Except Error (NodeId × Remaining)
  | 0, _, _ => .error .malformed
  | fuel + 1, ending, s =>
    if leavesOutFlow ending s.tokens then .ok (addEmpty s) else read fuel false false s

/-- Reads a key after its mark, and its value if a colon follows. -/
def readFlowPair : Nat → Token → Remaining → Except Error ((NodeId × NodeId) × Remaining)
  | 0, _, _ => .error .malformed
  | fuel + 1, ending, s => do
    let (k, s) ← if startsValue s.tokens then Except.ok (addEmpty s) else readFlowPart fuel ending s
    match s.tokens with
    | .value :: r => do
      let (v, s) ← readFlowPart fuel ending { s with tokens := r }
      return ((k, v), s)
    | _ =>
      let (v, s) := addEmpty s
      return ((k, v), s)

/-- Reads the items between square brackets. A key among them is a mapping of its own. -/
def readFlowItems : Nat → Bool → Remaining → Except Error (List NodeId × Remaining)
  | 0, _, _ => .error .malformed
  | fuel + 1, isFirst, s =>
    match s.tokens with
    | .flowSequenceEnd :: r => .ok ([], { s with tokens := r })
    | ts => do
      let s ← if isFirst then Except.ok s else
        match ts with
        | .flowEntry :: r => Except.ok { s with tokens := r }
        | _ => unexpected ts
      match s.tokens with
      | .flowSequenceEnd :: r => return ([], { s with tokens := r })
      | .key :: r => do
        let (e, s) ← readFlowPair fuel .flowSequenceEnd { s with tokens := r }
        let (id, s) := addNode .bare ⟨.map, .mapping [e]⟩ s
        let (ids, s) ← readFlowItems fuel false s
        return (id :: ids, s)
      | _ => do
        let (id, s) ← read fuel false false s
        let (ids, s) ← readFlowItems fuel false s
        return (id :: ids, s)

/-- Reads the entries between braces. A node without a mark is a key without a value. -/
def readFlowEntries : Nat → Bool → Remaining → Except Error (List (NodeId × NodeId) × Remaining)
  | 0, _, _ => .error .malformed
  | fuel + 1, isFirst, s =>
    match s.tokens with
    | .flowMappingEnd :: r => .ok ([], { s with tokens := r })
    | ts => do
      let s ← if isFirst then Except.ok s else
        match ts with
        | .flowEntry :: r => Except.ok { s with tokens := r }
        | _ => unexpected ts
      match s.tokens with
      | .flowMappingEnd :: r => return ([], { s with tokens := r })
      | .key :: r => do
        let (e, s) ← readFlowPair fuel .flowMappingEnd { s with tokens := r }
        let (es, s) ← readFlowEntries fuel false s
        return (e :: es, s)
      | _ => do
        let (k, s) ← read fuel false false s
        let (v, s) := addEmpty s
        let (es, s) ← readFlowEntries fuel false s
        return ((k, v) :: es, s)

end

/-! ## Documents -/

/-- The tag handles that every document knows. -/
def commonHandles : Dictionary Text Text := [("!", "!"), ("!!", Tag.common)]

/-- The tag handles of the directives in front of a document, and the tokens after them. -/
def readDirectives (versioned : Bool) (handles : Dictionary Text Text) :
    List Token → Except Error (Dictionary Text Text × List Token)
  | .directive (.version major _) :: r =>
    if versioned || major ≠ 1 then .error .malformed else readDirectives true handles r
  | .directive (.tag handle start) :: r =>
    if (handles.get? handle).isSome then .error .malformed
    else readDirectives versioned (handles.set handle start) r
  | .directive .other :: r => readDirectives versioned handles r
  | ts => .ok (handles, ts)

/-- The tokens after the marks that end documents. -/
def skipEnds : List Token → List Token
  | .documentEnd :: r => skipEnds r
  | ts => ts

/-- Demands that no document follows. -/
def demandEnd (ts : List Token) : Except Error Unit :=
  match skipEnds ts with
  | [] => .ok ()
  | ts => do unexpected (← readDirectives false [] ts).2

/-- Whether a document ends here without a node. -/
def endsDocument : List Token → Bool
  | [] | .directive _ :: _ | .documentStart :: _ | .documentEnd :: _ => true
  | _ => false

/-- The document whose tag handles are known, if no other follows it. -/
def readOnly (handles : Dictionary Text Text) (ts : List Token) : Except Error Document := do
  let start : Remaining := ⟨ts, handles, [], .empty⟩
  let (root, s) ←
    if endsDocument ts then Except.ok (addEmpty start)
    else read (4 * ts.length + 4) true false start
  demandEnd s.tokens
  return ⟨s.graph, root⟩

/-- The only document. -/
def ofTokens? (ts : List Token) : Except Error (Option Document) :=
  match ts with
  | [] => .ok none
  | .directive _ :: _ | .documentStart :: _ => do
    let (given, rest) ← readDirectives false [] ts
    let handles := commonHandles.foldl
      (fun d p => if (d.get? p.1).isSome then d else d.set p.1 p.2) given
    match rest with
    | .documentStart :: content => return some (← readOnly handles content)
    | _ => unexpected rest
  | .documentEnd :: _ => .error .malformed
  | _ => do return some (← readOnly commonHandles ts)

end Document

end RequestLine.Yaml
