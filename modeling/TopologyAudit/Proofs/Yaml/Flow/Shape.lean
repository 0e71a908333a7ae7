import TopologyAudit.Proofs.Yaml.Flow.Content
import TopologyAudit.Proofs.Yaml.Flow.Graph
import TopologyAudit.Yaml.Shape

/-!
# The shapes of a flow collection

The walk over a graph that stands for a value gives every node that it meets the shape that
the node shows (`Shows`). The walk keeps one invariant (`Shapes.IsWalk`): what has been met has
its final shape, with its parts met as well, or it waits to be filled; and what waits stands for
collections, each less nested than the ones that are filled now.
-/

namespace TopologyAudit.Yaml

variable {nodes : Array Node} {id : NodeId} {j : Json}

/-! ## What nodes show -/

/-- That a node is a string. -/
def HasText (nodes : Array Node) (id : NodeId) (t : Text) : Prop :=
  ∃ mark, nodes[id]? = some ⟨Tag.str, mark, .scalar t⟩

/-- That pairs are the entries of a mapping with the texts of the keys. -/
def Reads (nodes : Array Node) (entries : List (NodeId × NodeId))
    (pairs : List (Scalar × NodeId)) : Prop :=
  List.Forall₂ (fun e p => p.2 = e.2 ∧ ∃ name, p.1 = .text name ∧ HasText nodes e.1 name)
    entries pairs

/-- The shape that a node shows, whatever its parts stand for. -/
inductive Shows (nodes : Array Node) (id : NodeId) : Shape → Prop
  | scalar {value : Scalar} (hcollection : Collection.ofTag? (Graph.node nodes id).tag = none)
      (h : (Shapes.init nodes).scalarOf id = .ok value) : Shows nodes id (.scalar value)
  | list {mark : Mark} {ids : List NodeId}
      (hnode : nodes[id]? = some ⟨Tag.seq, mark, .sequence ids⟩) : Shows nodes id (.list ids)
  | mapping {mark : Mark} {entries : List (NodeId × NodeId)} {pairs : List (Scalar × NodeId)}
      (hnode : nodes[id]? = some ⟨Tag.map, mark, .mapping entries⟩)
      (h : Reads nodes entries pairs) : Shows nodes id (.mapping pairs)

theorem node_of_getElem? {n : Node} (h : nodes[id]? = some n) : Graph.node nodes id = n := by
  rw [Graph.node, Array.getD_eq_getD_getElem?, h, Option.getD_some]

theorem lt_size_of_getElem? {n : Node} (h : nodes[id]? = some n) : id < nodes.size :=
  (Array.getElem?_eq_some_iff.mp h).choose

/-- Two descriptions of a node agree on what it holds. -/
theorem content_eq {n n' : Node} (h : nodes[id]? = some n) (h' : nodes[id]? = some n') :
    n.content = n'.content := congrArg Node.content (Option.some.inj (h.symm.trans h'))

theorem Shows.of_scalar {tag t : Text} {mark : Mark} {shape : Shape} (h : Shows nodes id shape)
    (hnode : nodes[id]? = some ⟨tag, mark, .scalar t⟩) :
    ∃ value, shape = .scalar value ∧ (Shapes.init nodes).scalarOf id = .ok value := by
  cases h with
  | scalar _ hvalue => exact ⟨_, rfl, hvalue⟩
  | list hnode' => exact absurd (content_eq hnode hnode') nofun
  | mapping hnode' => exact absurd (content_eq hnode hnode') nofun

theorem Shows.of_sequence {mark : Mark} {ids : List NodeId} {shape : Shape}
    (h : Shows nodes id shape) (hnode : nodes[id]? = some ⟨Tag.seq, mark, .sequence ids⟩) :
    shape = .list ids := by
  cases h with
  | scalar htag =>
    rw [node_of_getElem? hnode] at htag
    exact absurd htag (show Collection.ofTag? Tag.seq ≠ none by decide)
  | list hnode' => rw [Content.sequence.inj (content_eq hnode hnode')]
  | mapping hnode' => exact absurd (content_eq hnode hnode') nofun

theorem Shows.of_mapping {mark : Mark} {entries : List (NodeId × NodeId)} {shape : Shape}
    (h : Shows nodes id shape) (hnode : nodes[id]? = some ⟨Tag.map, mark, .mapping entries⟩) :
    ∃ pairs, shape = .mapping pairs ∧ Reads nodes entries pairs := by
  cases h with
  | scalar htag =>
    rw [node_of_getElem? hnode] at htag
    exact absurd htag (show Collection.ofTag? Tag.map ≠ none by decide)
  | list hnode' => exact absurd (content_eq hnode hnode') nofun
  | mapping hnode' hreads =>
    rw [← Content.mapping.inj (content_eq hnode hnode')] at hreads
    exact ⟨_, rfl, hreads⟩

/-- The nodes that a shape refers to. -/
def Shape.parts : Shape → List NodeId
  | .scalar _ | .set _ => []
  | .list items => items
  | .pairs items => items.flatMap fun (first, second) => [first, second]
  | .mapping entries => entries.map (·.2)

/-! ### Scalars -/

section ScalarOf

variable {tag t : Text} {mark : Mark}

theorem textOf_scalar (h : nodes[id]? = some ⟨tag, mark, .scalar t⟩) (limit : Nat) :
    Shapes.textOf nodes (limit + 1) id = .ok t := by
  rw [Shapes.textOf, node_of_getElem? h]

theorem scalarOf_str (h : nodes[id]? = some ⟨Tag.str, mark, .scalar t⟩) :
    (Shapes.init nodes).scalarOf id = .ok (.text t) := by
  unfold Shapes.scalarOf
  simp only [Shapes.node, Shapes.init, node_of_getElem? h, textOf_scalar h, if_true]
  rfl

theorem scalarOf_null (h : nodes[id]? = some ⟨Tag.null, mark, .scalar t⟩) :
    (Shapes.init nodes).scalarOf id = .ok .null := by
  unfold Shapes.scalarOf
  simp only [Shapes.node, Shapes.init, node_of_getElem? h, textOf_scalar h,
    if_neg (show Tag.null ≠ Tag.str by decide), if_true]
  rfl

theorem scalarOf_bool (h : nodes[id]? = some ⟨Tag.bool, mark, .scalar t⟩) :
    (Shapes.init nodes).scalarOf id = Convert.bool t := by
  unfold Shapes.scalarOf
  simp only [Shapes.node, Shapes.init, node_of_getElem? h, textOf_scalar h,
    if_neg (show Tag.bool ≠ Tag.str by decide), if_neg (show Tag.bool ≠ Tag.null by decide),
    if_true]
  rfl

theorem scalarOf_int (h : nodes[id]? = some ⟨Tag.int, mark, .scalar t⟩) :
    (Shapes.init nodes).scalarOf id = Convert.int t := by
  unfold Shapes.scalarOf
  simp only [Shapes.node, Shapes.init, node_of_getElem? h, textOf_scalar h,
    if_neg (show Tag.int ≠ Tag.str by decide), if_neg (show Tag.int ≠ Tag.null by decide),
    if_neg (show Tag.int ≠ Tag.bool by decide), if_true]
  rfl

end ScalarOf

/-- A node for a value without parts shows the value as a scalar. -/
theorem scalarOf_atom {t : Text} {style : ScalarStyle} {mark : Mark} (h : j.IsAtom t style)
    (hnode : nodes[id]? = some ⟨style.tagOf t, mark, .scalar t⟩) :
    ∃ value, (Shapes.init nodes).scalarOf id = .ok value ∧ Tree.ofJson j = .scalar value := by
  cases h with
  | null => exact ⟨.null, scalarOf_null hnode, rfl⟩
  | isTrue => exact ⟨.bool true, scalarOf_bool hnode, rfl⟩
  | isFalse => exact ⟨.bool false, scalarOf_bool hnode, rfl⟩
  | text h => exact ⟨.text t, scalarOf_str hnode, rfl⟩
  | @int n h =>
    refine ⟨.int n, ?_, rfl⟩
    rw [ScalarStyle.tagOf, if_pos rfl, ofContent_ofInt] at hnode
    rw [scalarOf_int hnode, Convert.int_ofInt h]

/-- A scalar is no collection. -/
theorem ofTag?_atom {t : Text} {style : ScalarStyle} (h : j.IsAtom t style) :
    Collection.ofTag? (style.tagOf t) = none := by
  cases h with
  | null | isTrue | isFalse => decide
  | text h => exact show Collection.ofTag? Tag.str = none by decide
  | @int n h =>
    rw [ScalarStyle.tagOf, if_pos rfl, ofContent_ofInt]
    decide

/-! ### Nodes that stand for values -/

/-- That a value is a flow collection that is nested no deeper than a number. -/
structure IsWithin (n : Nat) (j : Json) : Prop where
  isFlow : j.IsFlow
  nesting_le : j.nesting ≤ n

theorem HasText.of_stands {t : Text} (h : Graph.Stands nodes id (.text t)) :
    HasText nodes id t := by
  cases h with
  | atom hnode hatom =>
    cases hatom with
    | text => exact ⟨_, hnode⟩

theorem exists_hasText_of_keys {entries : List (NodeId × NodeId)} {fields : List (Text × Json)}
    (h : List.Forall₂ (fun e f => Graph.Stands nodes e.1 (.text f.1)) entries fields) :
    ∀ e ∈ entries, ∃ t, HasText nodes e.1 t := by
  induction h with
  | nil => exact List.forall_mem_nil _
  | cons hkey _ ih => exact List.forall_mem_cons.mpr ⟨⟨_, .of_stands hkey⟩, ih⟩

theorem IsWithin.of_array {items : List Json} {n : Nat} (h : IsWithin (n + 1) (.array items)) :
    ∀ item ∈ items, IsWithin n item := by
  intro item hitem
  have hnesting := h.nesting_le
  rw [Json.nesting] at hnesting
  exact ⟨h.isFlow.of_array item hitem,
    Nat.le_trans (Json.nesting_le_nestingItems item hitem) (Nat.le_of_succ_le_succ hnesting)⟩

theorem IsWithin.of_object {fields : List (Text × Json)} {n : Nat}
    (h : IsWithin (n + 1) (.object fields)) : ∀ f ∈ fields, f.1.IsBasic ∧ IsWithin n f.2 := by
  intro f hf
  obtain ⟨-, hkeys, hvalues⟩ := h.isFlow.of_object
  have hnesting := h.nesting_le
  rw [Json.nesting] at hnesting
  exact ⟨(hkeys f hf).isBasic, hvalues f hf,
    Nat.le_trans (Json.nesting_le_nestingFields f hf) (Nat.le_of_succ_le_succ hnesting)⟩

theorem Graph.Stands.lt_size (h : Graph.Stands nodes id j) : id < nodes.size := by
  cases h with
  | atom hnode | array hnode | object hnode => exact lt_size_of_getElem? hnode

/-- What is no collection is a scalar. -/
theorem Graph.Stands.exists_scalarOf (h : Graph.Stands nodes id j)
    (htag : Collection.ofTag? (Graph.node nodes id).tag = none) :
    ∃ value, (Shapes.init nodes).scalarOf id = .ok value := by
  cases h with
  | atom hnode hatom =>
    obtain ⟨value, hvalue, -⟩ := scalarOf_atom hatom hnode
    exact ⟨value, hvalue⟩
  | array hnode =>
    rw [node_of_getElem? hnode] at htag
    exact absurd htag (show Collection.ofTag? Tag.seq ≠ none by decide)
  | object hnode =>
    rw [node_of_getElem? hnode] at htag
    exact absurd htag (show Collection.ofTag? Tag.map ≠ none by decide)

/-! ## Merges -/

namespace Graph

/-- A mapping whose keys are strings has nothing to merge. -/
theorem merge_eq_self {mark : Mark} {es : List (NodeId × NodeId)}
    (hnode : nodes[id]? = some ⟨Tag.map, mark, .mapping es⟩)
    (hkeys : ∀ e ∈ es, ∃ t, HasText nodes e.1 t) : merge mergeLimit nodes id = .ok nodes := by
  have htag : ∀ e ∈ es, (node nodes e.1).tag = Tag.str := by
    intro e he
    obtain ⟨t, mark, hkey⟩ := hkeys e he
    rw [node_of_getElem? hkey]
  have hentries : entries nodes id = es := by
    rw [entries, node_of_getElem? hnode]
  have hfilter : es.filter (isMerge nodes) = [] := by
    refine List.filter_eq_nil_iff.mpr fun e he => ?_
    rw [isMerge, htag e he]
    decide
  have hset : setEntries nodes id es = nodes := by
    refine Array.ext_getElem? fun i => ?_
    rw [setEntries, Array.getElem?_modify]
    split_ifs with hi
    · subst hi
      rw [hnode]
      rfl
    · rfl
  have hretag : ∀ list : List (NodeId × NodeId), (∀ e ∈ list, e ∈ es) →
      list.foldl retagKey nodes = nodes := by
    intro list
    induction list with
    | nil => intro _; rfl
    | cons e list ih =>
      intro hlist
      obtain ⟨he, hlist⟩ := List.forall_mem_cons.mp hlist
      rw [List.foldl_cons, retagKey, htag e he, if_neg (by decide), ih hlist]
  rw [show mergeLimit = 899 + 1 from rfl, merge, hentries, hfilter, List.foldlM_nil]
  simp only [pure, Except.pure, Outcome.ok_bind, List.nil_append, hentries, hset]
  rw [hretag es fun _ he => he]

end Graph

/-! ## The walk -/

/-- A text that is no key yet is a new key behind the others. -/
theorem putKey_text {ν : Type} {pairs : List (Scalar × ν)} {name : Text} (value : ν)
    (h : Scalar.text name ∉ pairs.map (·.1)) :
    Scalar.putKey pairs (.text name) value = pairs ++ [(.text name, value)] := by
  have hkey : ∀ a : Scalar, Scalar.sameKey a (.text name) = (a == .text name) := by
    intro a
    cases a <;> rfl
  unfold Scalar.putKey Entries.put
  rw [if_neg]
  intro hany
  obtain ⟨p, hp, hsame⟩ := List.any_eq_true.mp hany
  have heq : p.1 = .text name := eq_of_beq ((hkey p.1).symm.trans hsame)
  exact h (heq ▸ List.mem_map_of_mem hp)

namespace Shapes

variable {s s' s'' : Shapes} {todo : List (NodeId × Collection)} {n : Nat}

/-- The shape of a node, if it has been met. -/
def shapeOf? (s : Shapes) (id : NodeId) : Option Shape := s.shapes.getD id none

/-- That a node has been met. -/
def IsMet (s : Shapes) (id : NodeId) : Prop := ∃ shape, s.shapeOf? id = some shape

/-- That a node has the shape that it shows, and that the parts have been met. -/
def IsDone (s : Shapes) (id : NodeId) : Prop :=
  ∃ shape, s.shapeOf? id = some shape ∧ Shows s.nodes id shape ∧ ∀ part ∈ shape.parts, s.IsMet part

/-- That a collection waits to be filled that is nested no deeper than a number. -/
structure Waits (nodes : Array Node) (n : Nat) (w : NodeId × Collection) : Prop where
  tag : Collection.ofTag? (Graph.node nodes w.1).tag = some w.2
  stands : ∃ j, IsWithin n j ∧ Graph.Stands nodes w.1 j

/-- What the walk keeps while it fills collections: what has been met is done or waits, be it
among those that are filled now or those for later. -/
structure IsWalk (nodes : Array Node) (todo : List (NodeId × Collection)) (n : Nat) (s : Shapes) :
    Prop where
  nodes_eq : s.nodes = nodes
  size_eq : s.shapes.size = nodes.size
  settled : ∀ id, s.IsMet id → s.IsDone id ∨ ∃ c, (id, c) ∈ todo ++ s.pending
  pending : ∀ w ∈ s.pending, Waits nodes n w

/-- That whatever has been met keeps its shape. -/
def Keeps (s s' : Shapes) : Prop :=
  ∀ id shape, s.shapeOf? id = some shape → s'.shapeOf? id = some shape

theorem Keeps.refl (s : Shapes) : s.Keeps s := fun _ _ h => h

theorem Keeps.trans (h : s.Keeps s') (h' : s'.Keeps s'') : s.Keeps s'' :=
  fun id shape hid => h' id shape (h id shape hid)

theorem IsMet.of_keeps (h : s.IsMet id) (hkeeps : s.Keeps s') : s'.IsMet id := by
  obtain ⟨shape, hshape⟩ := h
  exact ⟨shape, hkeeps _ _ hshape⟩

theorem shapeOf?_setShape (hid : id < s.shapes.size) (shape : Shape) (i : NodeId) :
    (s.setShape id shape).shapeOf? i = if id = i then some shape else s.shapeOf? i := by
  rw [shapeOf?, setShape, Array.getD_eq_getD_getElem?, Array.getElem?_setIfInBounds]
  split_ifs with hi
  · rfl
  · rw [shapeOf?, Array.getD_eq_getD_getElem?]

theorem keeps_setShape (hid : s.shapeOf? id = none) (shape : Shape) :
    s.Keeps (s.setShape id shape) := by
  intro i shape' hi
  have hne : id ≠ i := by
    rintro rfl
    rw [hid] at hi
    cases hi
  rw [shapeOf?, setShape, Array.getD_eq_getD_getElem?, Array.getElem?_setIfInBounds, if_neg hne,
    ← Array.getD_eq_getD_getElem?]
  exact hi

/-- What is done stays done while shapes are kept. -/
theorem IsDone.of_keeps (h : s.IsDone id) (hnodes : s'.nodes = s.nodes) (hkeeps : s.Keeps s') :
    s'.IsDone id := by
  obtain ⟨shape, hshape, hshows, hparts⟩ := h
  exact ⟨shape, hkeeps _ _ hshape, hnodes ▸ hshows, fun part hpart =>
    (hparts part hpart).of_keeps hkeeps⟩

theorem eq_or_isMet_of_setShape {shape : Shape} {i : NodeId} (hid : id < s.shapes.size)
    (h : (s.setShape id shape).IsMet i) : i = id ∨ s.IsMet i := by
  obtain ⟨shape', hshape⟩ := h
  rw [shapeOf?_setShape hid] at hshape
  split_ifs at hshape with hi
  · exact .inl hi.symm
  · exact .inr ⟨shape', hshape⟩

/-- A scalar gets its shape. -/
theorem IsWalk.setScalar {value : Scalar} (h : s.IsWalk nodes todo n) (hid : id < nodes.size)
    (hnone : s.shapeOf? id = none) (hshows : Shows nodes id (.scalar value)) :
    (s.setShape id (.scalar value)).IsWalk nodes todo n := by
  have hsize : id < s.shapes.size := h.size_eq ▸ hid
  have hkeeps := keeps_setShape hnone (.scalar value)
  refine ⟨h.nodes_eq, ?_, fun i hi => ?_, h.pending⟩
  · rw [setShape, Array.size_setIfInBounds, h.size_eq]
  · rcases eq_or_isMet_of_setShape hsize hi with rfl | hi
    · refine .inl ⟨.scalar value, ?_, h.nodes_eq.symm ▸ hshows, nofun⟩
      rw [shapeOf?_setShape hsize, if_pos rfl]
    · exact (h.settled i hi).imp_left fun hdone => hdone.of_keeps rfl hkeeps

/-- A collection is put off. -/
theorem IsWalk.putOff {c : Collection} (h : s.IsWalk nodes todo n) (hid : id < nodes.size)
    (hnone : s.shapeOf? id = none) (hwaits : Waits nodes n (id, c)) :
    IsWalk nodes todo n { s.setShape id c.empty with pending := (id, c) :: s.pending } := by
  have hsize : id < s.shapes.size := h.size_eq ▸ hid
  have hkeeps := keeps_setShape hnone c.empty
  refine ⟨h.nodes_eq, ?_, fun i hi => ?_, List.forall_mem_cons.mpr ⟨hwaits, h.pending⟩⟩
  · show (s.shapes.setIfInBounds _ _).size = _
    rw [Array.size_setIfInBounds, h.size_eq]
  · rcases eq_or_isMet_of_setShape hsize hi with rfl | hi
    · exact .inr ⟨c, List.mem_append_right _ (List.mem_cons_self ..)⟩
    · refine (h.settled i hi).imp (fun hdone => hdone.of_keeps rfl hkeeps) fun hwait => ?_
      obtain ⟨c', hmem⟩ := hwait
      refine ⟨c', List.mem_append.mpr ((List.mem_append.mp hmem).imp_right fun hmem => ?_)⟩
      exact List.mem_cons_of_mem _ hmem

/-- **Meeting a node.** Afterwards it has been met, and the walk goes on. -/
theorem IsWalk.meet (h : s.IsWalk nodes todo n) (hj : IsWithin n j)
    (hstands : Graph.Stands nodes id j) :
    ∃ s', s.meet id = .ok s' ∧ s'.IsWalk nodes todo n ∧ s.Keeps s' ∧ s'.IsMet id := by
  have hid := hstands.lt_size
  have hsize : id < s.shapes.size := h.size_eq ▸ hid
  cases hshape : s.shapeOf? id with
  | some shape =>
    refine ⟨s, ?_, h, .refl s, shape, hshape⟩
    rw [Shapes.meet, show s.shapes.getD id none = some shape from hshape]
  | none =>
    have hmet : ∀ shape, (s.setShape id shape).IsMet id := fun shape =>
      ⟨shape, by rw [shapeOf?_setShape hsize, if_pos rfl]⟩
    rw [Shapes.meet, show s.shapes.getD id none = none from hshape]
    cases htag : Collection.ofTag? (Graph.node nodes id).tag with
    | some c =>
      have hwaits : Waits nodes n (id, c) := ⟨htag, j, hj, hstands⟩
      refine ⟨{ s.setShape id c.empty with pending := (id, c) :: s.pending }, ?_,
        h.putOff hid hshape hwaits, keeps_setShape hshape _, hmet _⟩
      rw [Shapes.node, h.nodes_eq, htag]
    | none =>
      obtain ⟨value, hvalue⟩ := hstands.exists_scalarOf htag
      have hof : s.scalarOf id = .ok value := by
        rw [show s.scalarOf id = (init s.nodes).scalarOf id from rfl, h.nodes_eq, hvalue]
      refine ⟨s.setShape id (.scalar value), ?_, h.setScalar hid hshape (.scalar htag hvalue),
        keeps_setShape hshape _, hmet _⟩
      rw [Shapes.node, h.nodes_eq, htag, hof]
      rfl

/-- The items of a sequence are met one after another. -/
theorem IsWalk.meetItems {ids : List NodeId} {items : List Json}
    (hstands : List.Forall₂ (Graph.Stands nodes) ids items) :
    ∀ {s : Shapes}, s.IsWalk nodes todo n → (∀ item ∈ items, IsWithin n item) →
      ∃ s', ids.foldlM Shapes.meet s = .ok s' ∧ s'.IsWalk nodes todo n ∧ s.Keeps s' ∧
        ∀ id ∈ ids, s'.IsMet id := by
  induction hstands with
  | nil =>
    intro s h _
    exact ⟨s, rfl, h, .refl s, nofun⟩
  | @cons id item ids items hid _ ih =>
    intro s h hwithin
    obtain ⟨hitem, hitems⟩ := List.forall_mem_cons.mp hwithin
    obtain ⟨s', hmeet, hwalk, hkeeps, hmet⟩ := h.meet hitem hid
    obtain ⟨s'', hfold, hwalk', hkeeps', hmets⟩ := ih hwalk hitems
    refine ⟨s'', ?_, hwalk', hkeeps.trans hkeeps',
      List.forall_mem_cons.mpr ⟨hmet.of_keeps hkeeps', hmets⟩⟩
    rw [List.foldlM_cons, hmeet, Outcome.ok_bind, hfold]

/-- A key that has been met has its text for a shape: it is no collection, so it does not wait. -/
theorem IsWalk.shapeOf?_key {name : Text} (h : s.IsWalk nodes todo n)
    (htodo : ∀ w ∈ todo, Collection.ofTag? (Graph.node nodes w.1).tag = some w.2)
    (htext : HasText nodes id name) (hmet : s.IsMet id) :
    s.shapeOf? id = some (.scalar (.text name)) := by
  obtain ⟨mark, hnode⟩ := htext
  rcases h.settled id hmet with ⟨shape, hshape, hshows, -⟩ | ⟨c, hmem⟩
  · rw [h.nodes_eq] at hshows
    obtain ⟨value, rfl, hvalue⟩ := hshows.of_scalar hnode
    rw [scalarOf_str hnode] at hvalue
    rw [hshape, Except.ok.inj hvalue]
  · have htag : Collection.ofTag? (Graph.node nodes id).tag = some c :=
      (List.mem_append.mp hmem).elim (htodo (id, c)) fun hpending => (h.pending _ hpending).tag
    rw [node_of_getElem? hnode] at htag
    exact absurd htag (show Collection.ofTag? Tag.str ≠ some c from nofun)

/-- The entries of a mapping are met one after another, and each is a new pair. -/
theorem IsWalk.meetEntries (began : Mark) {entries : List (NodeId × NodeId)}
    {fields : List (Text × Json)}
    (hkeys : List.Forall₂ (fun e f => Graph.Stands nodes e.1 (.text f.1)) entries fields)
    (htodo : ∀ w ∈ todo, Collection.ofTag? (Graph.node nodes w.1).tag = some w.2) :
    ∀ {s : Shapes} (pairs : List (Scalar × NodeId)), s.IsWalk nodes todo n →
      List.Forall₂ (fun e f => Graph.Stands nodes e.2 f.2) entries fields →
      (∀ f ∈ fields, f.1.IsBasic ∧ IsWithin n f.2) →
      (pairs.map (·.1) ++ fields.map fun f => Scalar.text f.1).Nodup →
        ∃ s' more, Shapes.meetEntries began entries s pairs = .ok (s', pairs ++ more) ∧
          s'.IsWalk nodes todo n ∧ s.Keeps s' ∧ Reads nodes entries more ∧
            ∀ p ∈ more, s'.IsMet p.2 := by
  induction hkeys with
  | nil =>
    intro s pairs h _ _ _
    exact ⟨s, [], by rw [List.append_nil]; rfl, h, .refl s, .nil, nofun⟩
  | @cons e f entries fields hkey _ ih =>
    intro s pairs h hvalues hwithin hnodup
    obtain ⟨hvalue, hvalues⟩ := List.forall₂_cons.mp hvalues
    obtain ⟨⟨hname, hitem⟩, hfields⟩ := List.forall_mem_cons.mp hwithin
    have htext := HasText.of_stands hkey
    obtain ⟨s', hmeet, hwalk, hkeeps, hmet⟩ := h.meet ⟨.atom (.text hname), Nat.zero_le n⟩ hkey
    have hshape := hwalk.shapeOf?_key htodo htext hmet
    obtain ⟨s'', hmeet', hwalk', hkeeps', hmet'⟩ := hwalk.meet hitem hvalue
    rw [List.map_cons] at hnodup
    have hnew : Scalar.text f.1 ∉ pairs.map (·.1) := fun hmem =>
      (List.disjoint_of_nodup_append hnodup) hmem (List.mem_cons_self ..)
    have hnodup' : ((pairs ++ [(Scalar.text f.1, e.2)]).map (·.1) ++
        fields.map fun f => Scalar.text f.1).Nodup := by
      rw [List.map_append, List.append_assoc]
      exact hnodup
    obtain ⟨final, more, hmore, hwalk'', hkeeps'', hpairs, hmets⟩ :=
      ih (pairs ++ [(.text f.1, e.2)]) hwalk' hvalues hfields hnodup'
    refine ⟨final, (.text f.1, e.2) :: more, ?_, hwalk'', hkeeps.trans (hkeeps'.trans hkeeps''),
      ?_, ?_⟩
    · rw [Shapes.meetEntries, hmeet, Outcome.ok_bind]
      rw [show s'.shapes.getD e.1 none = _ from hshape]
      simp only [hmeet', Outcome.ok_bind, putKey_text e.2 hnew, hmore, List.append_assoc,
        List.singleton_append]
    · exact .cons ⟨rfl, f.1, rfl, htext⟩ hpairs
    · exact List.forall_mem_cons.mpr ⟨hmet'.of_keeps hkeeps'', hmets⟩

/-- A collection that waits is filled. -/
theorem IsWalk.setFilled {c : Collection} {shape : Shape} (h : s.IsWalk nodes ((id, c) :: todo) n)
    (hid : id < nodes.size) (hshows : Shows nodes id shape)
    (hparts : ∀ part ∈ shape.parts, s.IsMet part) :
    (s.setShape id shape).IsWalk nodes todo n ∧ ∀ i, s.IsMet i → (s.setShape id shape).IsMet i := by
  have hsize : id < s.shapes.size := h.size_eq ▸ hid
  have hmono : ∀ i, s.IsMet i → (s.setShape id shape).IsMet i := by
    intro i hi
    obtain ⟨shape', hshape⟩ := hi
    rw [IsMet, shapeOf?_setShape hsize]
    split_ifs
    · exact ⟨shape, rfl⟩
    · exact ⟨shape', hshape⟩
  refine ⟨⟨h.nodes_eq, ?_, fun i hi => ?_, h.pending⟩, hmono⟩
  · rw [setShape, Array.size_setIfInBounds, h.size_eq]
  · by_cases heq : id = i
    · subst heq
      refine .inl ⟨shape, ?_, h.nodes_eq.symm ▸ hshows, fun part hpart =>
        hmono _ (hparts part hpart)⟩
      rw [shapeOf?_setShape hsize, if_pos rfl]
    · have hi := (eq_or_isMet_of_setShape hsize hi).resolve_left (Ne.symm heq)
      rcases h.settled i hi with ⟨shape', hshape, hshows', hparts'⟩ | ⟨c', hmem⟩
      · refine .inl ⟨shape', ?_, hshows', fun part hpart => hmono _ (hparts' part hpart)⟩
        rw [shapeOf?_setShape hsize, if_neg heq, hshape]
      · refine .inr ⟨c', (List.mem_cons.mp hmem).resolve_left fun hsame => ?_⟩
        exact heq (Prod.mk.inj hsame).1.symm

/-- Without merges the entries of a mapping are met as they are. -/
theorem meetMapping_eq {mark : Mark} {entries : List (NodeId × NodeId)}
    (hnode : s.nodes[id]? = some ⟨Tag.map, mark, .mapping entries⟩)
    (hkeys : ∀ e ∈ entries, ∃ t, HasText s.nodes e.1 t) :
    s.meetMapping id = Shapes.meetEntries mark entries s [] := by
  have hnode' := node_of_getElem? hnode
  have hentries : Graph.entries s.nodes id = entries := by
    rw [Graph.entries, hnode']
  unfold meetMapping Shapes.node
  simp only [hnode', Graph.merge_eq_self hnode hkeys, Outcome.ok_bind, hentries]

/-- **Filling a collection.** Afterwards it is done, and what it has met waits in turn. -/
theorem IsWalk.fill {c : Collection} (h : s.IsWalk nodes ((id, c) :: todo) n)
    (hwaits : ∀ w ∈ (id, c) :: todo, Waits nodes (n + 1) w) :
    ∃ s', s.fill id c = .ok s' ∧ s'.IsWalk nodes todo n ∧ ∀ i, s.IsMet i → s'.IsMet i := by
  obtain ⟨htag, j, hj, hstands⟩ := hwaits _ (List.mem_cons_self ..)
  have hid := hstands.lt_size
  cases hstands with
  | atom hnode hatom =>
    rw [node_of_getElem? hnode, ofTag?_atom hatom] at htag
    cases htag
  | @array id ids items mark hnode hitems =>
    have hnode' := node_of_getElem? hnode
    rw [hnode'] at htag
    obtain rfl : Collection.sequence = c := Option.some.inj htag
    obtain ⟨s', hfold, hwalk, hkeeps, hmet⟩ := h.meetItems hitems hj.of_array
    obtain ⟨hfilled, hmono⟩ := hwalk.setFilled hid (.list hnode) hmet
    refine ⟨_, ?_, hfilled, fun i hi => hmono i (hi.of_keeps hkeeps)⟩
    unfold Shapes.fill
    simp only [Shapes.node, h.nodes_eq, hnode', hfold, Outcome.ok_bind]
    rfl
  | @object id entries fields mark hnode hkeys hvalues =>
    have hnode' := node_of_getElem? hnode
    rw [hnode'] at htag
    obtain rfl : Collection.mapping = c := Option.some.inj htag
    have hnodup : (fields.map fun f => Scalar.text f.1).Nodup := by
      rw [show (fields.map fun f => Scalar.text f.1) = (fields.map (·.1)).map Scalar.text from
        (List.map_map ..).symm]
      exact hj.isFlow.of_object.1.map fun _ _ heq => Scalar.text.inj heq
    obtain ⟨s', pairs, hmeet, hwalk, hkeeps, hreads, hmet⟩ :=
      IsWalk.meetEntries mark hkeys (fun w hw => (hwaits w hw).tag) [] h hvalues hj.of_object hnodup
    have htexts := exists_hasText_of_keys hkeys
    obtain ⟨hfilled, hmono⟩ := hwalk.setFilled hid (.mapping hnode hreads)
      (List.forall_mem_map.mpr hmet)
    refine ⟨_, ?_, hfilled, fun i hi => hmono i (hi.of_keeps hkeeps)⟩
    rw [← h.nodes_eq] at hnode htexts
    unfold Shapes.fill
    simp only [meetMapping_eq hnode htexts, hmeet, Outcome.ok_bind]
    rfl

/-- **A level of the walk.** All that waits is filled, one after another. -/
theorem IsWalk.fillLevel {level : List (NodeId × Collection)} :
    ∀ {s : Shapes}, s.IsWalk nodes level n → (∀ w ∈ level, Waits nodes (n + 1) w) →
      ∃ s', level.foldlM (fun (s : Shapes) (id, c) => s.fill id c) s = .ok s' ∧
        s'.IsWalk nodes [] n ∧ ∀ i, s.IsMet i → s'.IsMet i := by
  induction level with
  | nil =>
    intro s h _
    exact ⟨s, rfl, h, fun _ hi => hi⟩
  | cons w level ih =>
    intro s h hwaits
    obtain ⟨id, c⟩ := w
    obtain ⟨s', hfill, hwalk, hmono⟩ := h.fill hwaits
    obtain ⟨s'', hfold, hwalk', hmono'⟩ := ih hwalk (List.forall_mem_cons.mp hwaits).2
    refine ⟨s'', ?_, hwalk', fun i hi => hmono' i (hmono i hi)⟩
    simp only [List.foldlM_cons, hfill, Outcome.ok_bind]
    exact hfold

/-- A collection is nested at least once. -/
theorem not_waits_zero {w : NodeId × Collection} : ¬Waits nodes 0 w := by
  intro h
  obtain ⟨j, hj, hstands⟩ := h.stands
  have htag := h.tag
  have hnesting := hj.nesting_le
  cases hstands with
  | atom hnode hatom =>
    rw [node_of_getElem? hnode, ofTag?_atom hatom] at htag
    cases htag
  | array => exact absurd hnesting (Nat.not_succ_le_zero _)
  | object => exact absurd hnesting (Nat.not_succ_le_zero _)

/-- **The walk comes to an end**, with as many levels as the collections are nested, and then
all that has been met is done. -/
theorem IsWalk.fillAll (limit : Nat) :
    ∀ {s : Shapes} {n : Nat}, s.IsWalk nodes [] n → n ≤ limit →
      ∃ s', s.fillAll limit = .ok s' ∧ s'.nodes = nodes ∧ (∀ i, s'.IsMet i → s'.IsDone i) ∧
        ∀ i, s.IsMet i → s'.IsMet i := by
  -- with nothing left to fill, what has been met does not wait
  have hdone : ∀ {s : Shapes} {n : Nat}, s.IsWalk nodes [] n → s.pending = [] →
      ∀ i, s.IsMet i → s.IsDone i := by
    intro s n h hpending i hi
    refine (h.settled i hi).resolve_right fun hwait => ?_
    obtain ⟨c, hmem⟩ := hwait
    rw [hpending] at hmem
    cases hmem
  induction limit with
  | zero =>
    intro s n h hlimit
    obtain rfl := Nat.le_zero.mp hlimit
    have hpending : s.pending = [] :=
      List.eq_nil_iff_forall_not_mem.mpr fun w hw => not_waits_zero (h.pending w hw)
    exact ⟨s, rfl, h.nodes_eq, hdone h hpending, fun _ hi => hi⟩
  | succ limit ih =>
    intro s n h hlimit
    cases hlevel : s.pending.reverse with
    | nil =>
      refine ⟨s, ?_, h.nodes_eq, hdone h (List.reverse_eq_nil_iff.mp hlevel), fun _ hi => hi⟩
      rw [Shapes.fillAll, hlevel]
    | cons w level =>
      have hwaits : ∀ w ∈ s.pending.reverse, Waits nodes n w := fun w hw =>
        h.pending w (List.mem_reverse.mp hw)
      cases n with
      | zero => exact absurd (hwaits w (hlevel ▸ List.mem_cons_self ..)) not_waits_zero
      | succ n =>
        have hstart : IsWalk nodes s.pending.reverse n { s with pending := [] } := by
          refine ⟨h.nodes_eq, h.size_eq, fun i hi => ?_, nofun⟩
          refine (h.settled i hi).imp_right fun hwait => ?_
          obtain ⟨c, hmem⟩ := hwait
          exact ⟨c, List.mem_append_left _ (List.mem_reverse.mpr hmem)⟩
        obtain ⟨s', hfold, hwalk, hmono⟩ := hstart.fillLevel hwaits
        obtain ⟨s'', hall, hnodes, hdone', hmono'⟩ := ih hwalk (Nat.le_of_succ_le_succ hlimit)
        refine ⟨s'', ?_, hnodes, hdone', fun i hi => hmono' i (hmono i hi)⟩
        rw [hlevel] at hfold
        rw [Shapes.fillAll, hlevel]
        simp only [hfold, Outcome.ok_bind, hall]

/-- At first nothing has been met. -/
theorem isWalk_init (nodes : Array Node) (n : Nat) : IsWalk nodes [] n (init nodes) := by
  refine ⟨rfl, Array.size_replicate, fun i hi => ?_, nofun⟩
  obtain ⟨shape, hshape⟩ := hi
  rw [shapeOf?, init, Array.getD_eq_getD_getElem?, Array.getElem?_replicate] at hshape
  split_ifs at hshape <;> cases hshape

end Shapes

/-- **The shapes of a graph that stands for a value.** The root has been met, and all that has
been met has the shape that it shows. -/
theorem Graph.shapes_of_stands {g : Graph} (hj : IsWithin g.nodes.size j)
    (hstands : Graph.Stands g.nodes g.root j) :
    ∃ s : Shapes, g.shapes = .ok s.shapes ∧ s.nodes = g.nodes ∧ (∀ i, s.IsMet i → s.IsDone i) ∧
      s.IsMet g.root := by
  obtain ⟨s, hmeet, hwalk, -, hmet⟩ := (Shapes.isWalk_init g.nodes g.nodes.size).meet hj hstands
  obtain ⟨s', hfill, hnodes, hdone, hmono⟩ := hwalk.fillAll (g.nodes.size + 1) (Nat.le_succ _)
  refine ⟨s', ?_, hnodes, hdone, hmono _ hmet⟩
  rw [Graph.shapes, hmeet, Outcome.ok_bind, hfill]
  rfl

end TopologyAudit.Yaml
