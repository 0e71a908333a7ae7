import TopologyAudit.Proofs.Yaml.Flow.Shape
import TopologyAudit.Yaml.Document

/-!
# The document of a flow collection

The text of a collection on one line is read as a document with the tree that JSON reads from
it, in whatever order sets are gone through, if whoever reads it looks deep enough
(`Document.read_compact`).
-/

namespace TopologyAudit.Yaml

variable {order : SetOrder} {s : Shapes} {id : NodeId} {j : Json} {depth : Nat}

/-- A node is unfolded by its shape, and its parts one level less deep. -/
theorem getD_unfoldAll {shape : Shape} (h : s.shapeOf? id = some shape) :
    (Shape.unfoldAll order s.shapes (depth + 1)).getD id default =
      shape.unfold order fun part => (Shape.unfoldAll order s.shapes depth).getD part default := by
  have hshape : s.shapes[id]?.getD none = some shape := by
    rw [← Array.getD_eq_getD_getElem?]
    exact h
  rw [Shape.unfoldAll, Array.getD_eq_getD_getElem?, Array.getElem?_map]
  cases hget : s.shapes[id]? with
  | none =>
    rw [hget] at hshape
    cases hshape
  | some found =>
    rw [hget, Option.getD_some] at hshape
    rw [hshape]
    rfl

theorem map_eq_ofItems (treeOf : NodeId → Tree) {nodes : Array Node} {ids : List NodeId}
    {items : List Json} (hstands : List.Forall₂ (Graph.Stands nodes) ids items)
    (h : ∀ item ∈ items, ∀ id ∈ ids, Graph.Stands nodes id item → treeOf id = Tree.ofJson item) :
    ids.map treeOf = Tree.ofItems items := by
  induction hstands with
  | nil => rfl
  | cons hid _ ih =>
    have hothers := ih fun item hitem id hid =>
      h item (List.mem_cons_of_mem _ hitem) id (List.mem_cons_of_mem _ hid)
    rw [List.map_cons, Tree.ofItems, h _ (List.mem_cons_self ..) _ (List.mem_cons_self ..) hid,
      hothers]

theorem map_eq_ofFields (treeOf : NodeId → Tree) {nodes : Array Node}
    {entries : List (NodeId × NodeId)} {fields : List (Text × Json)}
    (hkeys : List.Forall₂ (fun e f => Graph.Stands nodes e.1 (.text f.1)) entries fields) :
    ∀ {pairs : List (Scalar × NodeId)}, Reads nodes entries pairs →
      List.Forall₂ (fun e f => Graph.Stands nodes e.2 f.2) entries fields →
      (∀ f ∈ fields, ∀ p ∈ pairs, Graph.Stands nodes p.2 f.2 → treeOf p.2 = Tree.ofJson f.2) →
        pairs.map (fun p => (p.1, treeOf p.2)) = Tree.ofFields fields := by
  induction hkeys with
  | nil =>
    intro pairs hreads _ _
    rw [List.forall₂_nil_left_iff.mp hreads]
    rfl
  | @cons e f entries fields hkey _ ih =>
    intro pairs hreads hvalues h
    obtain ⟨p, pairs, ⟨hvalue, name, hname, htext⟩, hrest, rfl⟩ :=
      List.forall₂_cons_left_iff.mp hreads
    obtain ⟨hstands, hvalues⟩ := List.forall₂_cons.mp hvalues
    -- the key is one text, however it is told
    have heq : name = f.1 := by
      obtain ⟨mark, hnode⟩ := htext
      obtain ⟨mark', hnode'⟩ := HasText.of_stands hkey
      exact Content.scalar.inj (content_eq hnode hnode')
    have htree := h f (List.mem_cons_self ..) p (List.mem_cons_self ..) (hvalue ▸ hstands)
    have hothers := ih hrest hvalues fun f hf p hp =>
      h f (List.mem_cons_of_mem _ hf) p (List.mem_cons_of_mem _ hp)
    rw [List.map_cons, hothers, htree, hname, heq]
    rfl

/-- **Unfolding the shapes.** A node that stands for a value is unfolded to the tree of the
value, at any depth that is greater than the value's. -/
theorem unfoldAll_of_stands (hdone : ∀ i, s.IsMet i → s.IsDone i) (hj : j.IsFlow) :
    ∀ {depth : Nat} {id : NodeId}, j.nesting ≤ depth → Graph.Stands s.nodes id j → s.IsMet id →
      (Shape.unfoldAll order s.shapes (depth + 1)).getD id default = Tree.ofJson j := by
  induction hj with
  | atom hatom =>
    intro depth id hdepth hstands hmet
    obtain ⟨shape, hshape, hshows, -⟩ := hdone id hmet
    cases hstands with
    | atom hnode hatom' =>
      obtain ⟨value, hvalue, htree⟩ := scalarOf_atom hatom' hnode
      obtain ⟨value', rfl, hvalue'⟩ := hshows.of_scalar hnode
      rw [getD_unfoldAll hshape, Shape.unfold, htree, ← Except.ok.inj (hvalue.symm.trans hvalue')]
    | array => cases hatom
    | object => cases hatom
  | @array items hitems ih =>
    intro depth id hdepth hstands hmet
    obtain ⟨shape, hshape, hshows, hparts⟩ := hdone id hmet
    cases depth with
    | zero => exact absurd hdepth (Nat.not_succ_le_zero _)
    | succ depth =>
      have hwithin := IsWithin.of_array ⟨.array hitems, hdepth⟩
      cases hstands with
      | atom _ hatom => cases hatom
      | array hnode hstands =>
        obtain rfl := hshows.of_sequence hnode
        rw [getD_unfoldAll hshape, Shape.unfold, Tree.ofJson]
        refine congrArg Tree.list (map_eq_ofItems _ hstands fun item hitem part hpart hstands => ?_)
        exact ih item hitem (hwithin item hitem).nesting_le hstands (hparts part hpart)
  | @object fields hnodup hkeys hvalues ih =>
    intro depth id hdepth hstands hmet
    obtain ⟨shape, hshape, hshows, hparts⟩ := hdone id hmet
    cases depth with
    | zero => exact absurd hdepth (Nat.not_succ_le_zero _)
    | succ depth =>
      have hwithin := IsWithin.of_object ⟨.object hnodup hkeys hvalues, hdepth⟩
      cases hstands with
      | atom _ hatom => cases hatom
      | object hnode hnames hstands =>
        obtain ⟨pairs, rfl, hreads⟩ := hshows.of_mapping hnode
        rw [getD_unfoldAll hshape, Shape.unfold, Tree.ofJson]
        refine congrArg Tree.mapping (map_eq_ofFields
          (fun part => (Shape.unfoldAll order s.shapes (depth + 1)).getD part default) hnames hreads
          hstands fun f hf p hp hstands => ?_)
        exact ih f hf (hwithin f hf).2.nesting_le hstands (hparts p.2 (List.mem_map_of_mem hp))

/-- **The document of a collection on one line.** -/
theorem Document.read_compact (hj : j.IsFlow) (hcollection : j.IsCollection)
    (hnesting : j.nesting < Graph.nestingLimit) (hdepth : j.nesting ≤ depth) :
    Document.read order (depth + 1) (Json.compact j) = .ok (Tree.ofJson j) := by
  obtain ⟨g, hg, hstands, hsize⟩ := Graph.read_compact hj hcollection hnesting
  obtain ⟨s, hshapes, hnodes, hdone, hmet⟩ := Graph.shapes_of_stands ⟨hj, hsize⟩ hstands
  rw [Document.read, hg, Outcome.ok_bind]
  simp only [hshapes, Outcome.ok_bind]
  rw [← hnodes] at hstands
  exact congrArg Except.ok (unfoldAll_of_stands hdone hj hdepth hstands hmet)

end TopologyAudit.Yaml
