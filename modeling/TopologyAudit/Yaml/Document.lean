import TopologyAudit.Yaml.Shape

/-!
# Documents

The tree of a YAML text. Aliases may make a graph cyclic, or let a small one stand
for a huge tree, so it is unfolded only as deep as whoever reads it looks.
-/

namespace TopologyAudit.Yaml

namespace Shape

/-- The tree of a shape, given the trees of the nodes that it refers to. -/
def unfold (order : SetOrder) (treeOf : NodeId → Tree) : Shape → Tree
  | scalar value => .scalar value
  | list items => .list (items.map treeOf)
  | pairs items => .list (items.map fun (first, second) => .pair (treeOf first) (treeOf second))
  | set members => .set (order.arrange members)
  | mapping entries => .mapping (entries.map fun (key, value) => (key, treeOf value))

/-- The trees of all nodes down to a depth, each from the ones of the depth before. -/
def unfoldAll (order : SetOrder) (shapes : Array (Option Shape)) : (depth : Nat) → Array Tree
  | 0 => #[]
  | depth + 1 =>
    let shallower := unfoldAll order shapes depth
    shapes.map fun shape => (shape.map (unfold order (shallower.getD · default))).getD default

end Shape

namespace Document

/-- The tree of a YAML text down to a depth, as a process goes through its sets. A text without
a document is null. -/
def read (order : SetOrder) (depth : Nat) (t : Text) : Except Error Tree := do
  match ← Graph.read t with
  | none => return .scalar .null
  | some g => return (Shape.unfoldAll order (← g.shapes) depth).getD g.root default

end Document

end TopologyAudit.Yaml
