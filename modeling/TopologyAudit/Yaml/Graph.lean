import TopologyAudit.Yaml.Event
import TopologyAudit.Yaml.Tag

/-!
# Representation graphs

The nodes of a document with their tags. Nodes are known by number, so that an
alias is a further edge to the node of its anchor, even to one that is still being
built. `Graph.ofEvents` builds the graph of the only document of a text.
-/

namespace TopologyAudit.Yaml

/-- A node by its number. -/
abbrev NodeId := Nat

inductive Content
  | scalar (value : Text)
  | sequence (items : List NodeId)
  | mapping (entries : List (NodeId × NodeId))
deriving DecidableEq

def Content.kind : Content → NodeKind
  | .scalar _ => .scalar
  | .sequence _ => .sequence
  | .mapping _ => .mapping

structure Node where
  tag : Text
  mark : Mark
  content : Content
deriving DecidableEq

instance : Inhabited Node := ⟨⟨[], ⟨0, 0, 0⟩, .scalar []⟩⟩

/-- The nodes of a document in the order of their beginnings, and its root. -/
structure Graph where
  nodes : Array Node
  root : NodeId

namespace Graph

/-- How deep nodes may be nested. -/
def nestingLimit : Nat := 480

/-- A collection that is being built: its node, and its parts, last one first. -/
inductive Frame
  | sequence (id : NodeId) (items : List NodeId)
  | mapping (id : NodeId) (entries : List (NodeId × NodeId))
  /-- A mapping after a key whose value is still to come. -/
  | value (id : NodeId) (entries : List (NodeId × NodeId)) (key : NodeId)

/-- A graph that is being built: the nodes so far, the anchors with their nodes,
the open collections, and the root once it is complete. -/
structure Builder where
  nodes : Array Node
  anchors : List (Text × NodeId)
  frames : List Frame
  root : Option NodeId

namespace Builder

def init : Builder := ⟨#[], [], [], none⟩

/-- Hands a complete node to the collection that it is part of. -/
def deliver (b : Builder) (id : NodeId) : Builder :=
  match b.frames with
  | [] => { b with root := some id }
  | .sequence owner items :: outer => { b with frames := .sequence owner (id :: items) :: outer }
  -- a key waits for its value, and a value makes an entry with its key
  | .mapping owner entries :: outer => { b with frames := .value owner entries id :: outer }
  | .value owner entries key :: outer =>
    { b with frames := .mapping owner ((key, id) :: entries) :: outer }

/-- Adds a node under an anchor, which may not be in use yet. -/
def addNode (b : Builder) (anchor : Option Text) (node : Node) : Except Error (NodeId × Builder) :=
  let id := b.nodes.size
  match anchor with
  | none => .ok (id, { b with nodes := b.nodes.push node })
  | some name =>
    match b.anchors.lookup name with
    | some first =>
      let began := (b.nodes.getD first default).mark
      .error (.during (.setAnchor name) began .secondOccurrence node.mark)
    | none => .ok (id, { b with nodes := b.nodes.push node, anchors := (name, id) :: b.anchors })

/-- Completes the innermost collection. -/
def close (b : Builder) : Builder :=
  match b.frames with
  | [] => b
  | frame :: outer =>
    let (id, content) : NodeId × Content :=
      match frame with
      | .sequence id items => (id, .sequence items.reverse)
      | .mapping id entries => (id, .mapping entries.reverse)
      -- a key without a value is dropped
      | .value id entries _ => (id, .mapping entries.reverse)
    let nodes := b.nodes.modify id fun node => { node with content }
    deliver { b with nodes, frames := outer } id

/-- Takes an event into the graph. The nesting limit is met before anything that
is wrong with the node itself. -/
def take (b : Builder) (event : Event) : Except Error Builder := do
  let opens (anchor : Option Text) (node : Node) (frame : NodeId → Frame) : Except Error Builder := do
    let (id, b) ← b.addNode anchor node
    return { b with frames := frame id :: b.frames }
  match event.what with
  | .documentStart | .documentEnd | .streamEnd => return b
  | .sequenceEnd | .mappingEnd => return b.close
  | .alias name =>
    match b.anchors.lookup name with
    | some id => return b.deliver id
    | none => .error (.here (.undefinedAlias name) event.mark)
  | .scalar anchor tag byContent value =>
    if b.frames.length ≥ nestingLimit then .error (.refused .tooDeep)
    else
      -- only texts that are looked at for their content are more than strings
      let tag := tag.getD (if byContent then Tag.ofContent value else Tag.str)
      let (id, b) ← b.addNode anchor ⟨tag, event.mark, .scalar value⟩
      return b.deliver id
  | .sequenceStart anchor tag =>
    if b.frames.length ≥ nestingLimit then .error (.refused .tooDeep)
    else opens anchor ⟨tag.getD Tag.seq, event.mark, .sequence []⟩ (.sequence · [])
  | .mappingStart anchor tag =>
    if b.frames.length ≥ nestingLimit then .error (.refused .tooDeep)
    else opens anchor ⟨tag.getD Tag.map, event.mark, .mapping []⟩ (.mapping · [])

/-- Takes events up to the end of the text. A second document is refused. -/
def takeAll (lack : Error) : List Event → Builder → Except Error (Option Graph)
  | [], _ => .error lack
  | event :: rest, b =>
    match event.what, b.root with
    | .streamEnd, none => .ok none
    | .streamEnd, some root => .ok (some ⟨b.nodes, root⟩)
    | .documentStart, some root =>
      let began := (b.nodes.getD root default).mark
      .error (.during .holdingDocument began .anotherDocument event.mark)
    | _, _ =>
      match b.take event with
      | .error e => .error e
      | .ok b => takeAll lack rest b

end Builder

/-- The graph of the document of a text, or nothing when it holds no document. -/
def ofEvents (events : Supply Event) : Except Error (Option Graph) :=
  Builder.takeAll (events.failure.getD (.refused .tooDeep)) events.items Builder.init

end Graph

/-- Whether a YAML text may hold a code point. -/
def isPermitted (c : CodePoint) : Bool :=
  c == '\t' || c == '\n' || c == '\r' || c.within 0x20 0x7E || isNextLine c
    || c.within 0xA0 0xD7FF || c.within 0xE000 0xFFFD || c.within 0x10000 0x10FFFF

/-- The graph of the document that a text holds. -/
def Graph.read (t : Text) : Except Error (Option Graph) :=
  let permitted := t.takeWhile isPermitted
  match t.drop permitted.length with
  | c :: _ => .error (.refused (.unprintable c permitted.length))
  | [] => Graph.ofEvents (Event.ofTokens (Token.scan t))

end TopologyAudit.Yaml
