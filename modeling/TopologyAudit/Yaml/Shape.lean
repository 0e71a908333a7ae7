import TopologyAudit.Yaml.Merge
import TopologyAudit.Yaml.Scalar

/-!
# Shapes

What each node of a graph stands for: a scalar, or a collection of further nodes.
The nodes are taken up in the order of a walk by levels from the root, which decides
the error that a document with several ones is refused for. Nodes that the root does
not reach, as the keys of merges, have no shape.
-/

namespace TopologyAudit.Yaml

/-- What a node stands for. Parts are given by their nodes; keys of mappings and
members of sets are scalars, here in the order in which they are written. -/
inductive Shape
  | scalar (value : Scalar)
  | list (items : List NodeId)
  | pairs (items : List (NodeId × NodeId))
  | set (members : List Scalar)
  | mapping (entries : List (Scalar × NodeId))

/-- The collections that have a tag of their own. -/
inductive Collection
  | sequence
  | mapping
  | set
  | orderedMap
  | pairs
deriving DecidableEq

namespace Collection

def ofTag? (tag : Text) : Option Collection :=
  if tag = Tag.seq then some sequence
  else if tag = Tag.map then some mapping
  else if tag = Tag.set then some set
  else if tag = Tag.omap then some orderedMap
  else if tag = Tag.pairs then some pairs
  else none

/-- The collection without members. -/
def empty : Collection → Shape
  | sequence => .list []
  | mapping => .mapping []
  | set => .set []
  | orderedMap | pairs => .pairs []

end Collection

/-- The shapes so far, and the collections that have been met and are still empty,
last one first. Merges change nodes. -/
structure Shapes where
  nodes : Array Node
  shapes : Array (Option Shape)
  pending : List (NodeId × Collection)

namespace Shapes

def init (nodes : Array Node) : Shapes := ⟨nodes, Array.replicate nodes.size none, []⟩

def node (s : Shapes) (id : NodeId) : Node := Graph.node s.nodes id

def setShape (s : Shapes) (id : NodeId) (shape : Shape) : Shapes :=
  { s with shapes := s.shapes.setIfInBounds id (some shape) }

/-- The text of a node. A mapping with a default key has the text of its value. -/
def textOf (nodes : Array Node) : (limit : Nat) → NodeId → Except Error Text
  | 0, _ => .error (.refused .tooDeep)
  | limit + 1, id =>
    let n := Graph.node nodes id
    match n.content with
    | .scalar t => .ok t
    | .sequence _ => .error (.here (.expectedNode .scalar .sequence) n.mark)
    | .mapping entries =>
      match entries.find? fun entry => (Graph.node nodes entry.1).tag == Tag.value with
      | some (_, value) => textOf nodes limit value
      | none => .error (.here (.expectedNode .scalar .mapping) n.mark)

/-- The scalar that a node stands for by its tag. -/
def scalarOf (s : Shapes) (id : NodeId) : Except Error Scalar := do
  let n := s.node id
  let text : Except Error Text := textOf s.nodes (s.nodes.size + 1) id
  if n.tag = Tag.str then return .text (← text)
  else if n.tag = Tag.null then
    let _ ← text
    return .null
  else if n.tag = Tag.bool then Convert.bool (← text)
  else if n.tag = Tag.int then Convert.int (← text)
  else if n.tag = Tag.float then Convert.float (← text)
  else if n.tag = Tag.binary then Convert.binary n.mark (← text)
  else if n.tag = Tag.timestamp then
    let t ← text
    match n.content with
    | .scalar _ => Convert.timestamp t
    | _ => .error (.broken .timestampInMapping)
  else .error (.here (.unknownTag n.tag) n.mark)

/-- Meets a node: a scalar gets its shape, and a collection waits for its members. -/
def meet (s : Shapes) (id : NodeId) : Except Error Shapes :=
  match s.shapes.getD id none with
  | some _ => .ok s
  | none =>
    match Collection.ofTag? (s.node id).tag with
    -- the members wait, so that a collection may stand inside itself
    | some c => .ok { s.setShape id c.empty with pending := (id, c) :: s.pending }
    | none => (s.scalarOf id).map fun value => s.setShape id (.scalar value)

/-- Meets the entries of a mapping in order. The keys have to be scalars, and an
entry replaces an earlier one with its key. -/
def meetEntries (began : Mark) : List (NodeId × NodeId) → Shapes → List (Scalar × NodeId) →
    Except Error (Shapes × List (Scalar × NodeId))
  | [], s, entries => .ok (s, entries)
  | (key, value) :: rest, s, entries => do
    let s ← s.meet key
    match s.shapes.getD key none with
    | some (.scalar k) =>
      let s ← s.meet value
      meetEntries began rest s (Scalar.putKey entries k value)
    | _ => .error (.during .constructingMapping began .unhashableKey (s.node key).mark)

/-- Meets the entries of a node that has to be a mapping, after its merges. -/
def meetMapping (s : Shapes) (id : NodeId) : Except Error (Shapes × List (Scalar × NodeId)) :=
  let n := s.node id
  match n.content with
  | .mapping _ => do
    let nodes ← Graph.merge Graph.mergeLimit s.nodes id
    meetEntries n.mark (Graph.entries nodes id) { s with nodes } []
  | other => .error (.here (.expectedNode .mapping other.kind) n.mark)

/-- Meets the items of an ordered map, which are mappings with one entry each. -/
def meetPairs (activity : Activity) (began : Mark) : List NodeId → Shapes →
    Except Error (Shapes × List (NodeId × NodeId))
  | [], s => .ok (s, [])
  | item :: rest, s => do
    let n := s.node item
    match n.content with
    | .mapping [(key, value)] =>
      let s ← (← s.meet key).meet value
      let (s, pairs) ← meetPairs activity began rest s
      return (s, (key, value) :: pairs)
    | .mapping entries => .error (.during activity began (.expectedOneItem entries.length) n.mark)
    | other => .error (.during activity began (.expectedSingleton other.kind) n.mark)

/-- Fills a collection: its members are met, and it gets its shape. -/
def fill (s : Shapes) (id : NodeId) (c : Collection) : Except Error Shapes := do
  let n := s.node id
  let pairs (activity : Activity) : Except Error Shapes :=
    match n.content with
    | .sequence items => do
      let (s, pairs) ← meetPairs activity n.mark items s
      return s.setShape id (.pairs pairs)
    | other => .error (.during activity n.mark (.expectedItems other.kind) n.mark)
  match c with
  | .sequence =>
    match n.content with
    | .sequence items => return (← items.foldlM meet s).setShape id (.list items)
    | other => .error (.here (.expectedNode .sequence other.kind) n.mark)
  | .mapping =>
    let (s, entries) ← s.meetMapping id
    return s.setShape id (.mapping entries)
  | .set =>
    let (s, entries) ← s.meetMapping id
    return s.setShape id (.set (entries.map (·.1)))
  | .orderedMap => pairs .constructingOrderedMap
  | .pairs => pairs .constructingPairs

/-- Fills the pending collections level by level. Each node is met once, so there
are no more levels than nodes. -/
def fillAll : (limit : Nat) → Shapes → Except Error Shapes
  | 0, s => .ok s
  | limit + 1, s =>
    match s.pending.reverse with
    | [] => .ok s
    | level => do
      let s ← level.foldlM (fun (s : Shapes) (id, c) => s.fill id c) { s with pending := [] }
      fillAll limit s

end Shapes

/-- The shapes of the nodes of a graph. -/
def Graph.shapes (g : Graph) : Except Error (Array (Option Shape)) := do
  let s ← (Shapes.init g.nodes).meet g.root
  return (← s.fillAll (g.nodes.size + 1)).shapes

end TopologyAudit.Yaml
