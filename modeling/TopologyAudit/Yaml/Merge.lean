import TopologyAudit.Yaml.Graph

/-!
# Merge keys

A mapping takes over the entries of the mappings under its merge keys. They come
before its own ones, and of a list of mappings the last one comes first, so that of
two entries with one key the nearer one is the later one. `merge` does this to one
mapping of a graph and to all it takes entries from.
-/

namespace TopologyAudit.Yaml

namespace Graph

/-- How long a chain of mappings may be that each take entries from the next. -/
def mergeLimit : Nat := 900

/-- The node of a number. -/
def node (nodes : Array Node) (id : NodeId) : Node := nodes.getD id default

/-- The entries of a node that is a mapping. -/
def entries (nodes : Array Node) (id : NodeId) : List (NodeId × NodeId) :=
  match (node nodes id).content with
  | .mapping entries => entries
  | _ => []

def setEntries (nodes : Array Node) (id : NodeId) (entries : List (NodeId × NodeId)) : Array Node :=
  nodes.modify id fun n => { n with content := .mapping entries }

/-- Whether the key of an entry is a merge key. -/
def isMerge (nodes : Array Node) (entry : NodeId × NodeId) : Bool :=
  (node nodes entry.1).tag == Tag.merge

/-- Makes a default key a text. -/
def retagKey (nodes : Array Node) (entry : NodeId × NodeId) : Array Node :=
  if (node nodes entry.1).tag = Tag.value then nodes.modify entry.1 fun n => { n with tag := Tag.str }
  else nodes

/-- The entries that a mapping takes over from what stands under a merge key; the
mappings there are resolved first. -/
def takenFrom (resolve : Array Node → NodeId → Except Error (Array Node)) (began : Mark)
    (nodes : Array Node) (source : NodeId) : Except Error (Array Node × List (NodeId × NodeId)) :=
  let refuse (problem : Problem) (id : NodeId) : Error :=
    .during .constructingMapping began problem (node nodes id).mark
  let takeItem (nodes : Array Node) (lists : List (List (NodeId × NodeId))) (item : NodeId) :
      Except Error (Array Node × List (List (NodeId × NodeId))) :=
    match (node nodes item).content with
    | .mapping _ => do
      let nodes ← resolve nodes item
      return (nodes, entries nodes item :: lists)
    | other => .error (refuse (.expectedMergeableItem other.kind) item)
  match (node nodes source).content with
  | .mapping _ => do
    let nodes ← resolve nodes source
    return (nodes, entries nodes source)
  | .sequence items => do
    let (nodes, lists) ←
      items.foldlM (fun (nodes, lists) item => takeItem nodes lists item) (nodes, [])
    -- the lists are gathered last one first, so that earlier mappings win
    return (nodes, lists.flatten)
  | .scalar _ => .error (refuse (.expectedMergeable .scalar) source)

/-- Resolves the first merge key that a mapping has left. -/
def mergeFirst (resolve : Array Node → NodeId → Except Error (Array Node)) (id : NodeId)
    (nodes : Array Node) (taken : List (NodeId × NodeId)) :
    Except Error (Array Node × List (NodeId × NodeId)) :=
  let current := entries nodes id
  match current.find? (isMerge nodes) with
  | none => .ok (nodes, taken)
  | some (_, source) => do
    let nodes := setEntries nodes id (current.eraseP (isMerge nodes))
    let (nodes, more) ← takenFrom resolve (node nodes id).mark nodes source
    return (nodes, taken ++ more)

/-- Resolves the merge keys of a mapping, one after another. A mapping may come to
take entries from itself, and then has fewer merge keys left than it began with. -/
def merge : (limit : Nat) → Array Node → NodeId → Except Error (Array Node)
  | 0, _, _ => .error (.refused .tooDeep)
  | limit + 1, nodes, id => do
    let keys := (entries nodes id).filter (isMerge nodes)
    let (nodes, taken) ←
      keys.foldlM (fun (nodes, taken) _ => mergeFirst (merge limit) id nodes taken) (nodes, [])
    -- own entries come last and win over those taken
    let resolved := taken ++ entries nodes id
    return resolved.foldl retagKey (setEntries nodes id resolved)

end Graph

end TopologyAudit.Yaml
