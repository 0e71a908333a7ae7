import TopologyAudit.Proofs.Yaml.Graph
import TopologyAudit.Yaml.Shape

/-!
# Shapes break down on scalars only

The walk over the nodes of a graph converts the scalars that it meets and merges the
mappings. `BreaksAmong` says how nodes with some property may break a conversion;
`Graph.shapes_ends` shows for every property that survives merges that the walk breaks
down in these ways only.
-/

namespace TopologyAudit.Yaml

variable {B : Breakdown → Prop} {P : Node → Prop}

/-- How nodes with a property may break a conversion: by a tag and a text that is the
node's own or, in a mapping, that of its default key, or by the tag of timestamps at a
mapping. -/
inductive BreaksAmong (P : Node → Prop) : Breakdown → Prop
  | scalar {n m : Node} {text : Text} {b : Breakdown} (hn : P n) (hm : P m)
      (hcontent : m.content = .scalar text) (hsame : m = n ∨ n.content.kind = .mapping)
      (h : Convert.Breaks n.tag text b) : BreaksAmong P b
  | timestampInMapping {n : Node} (hn : P n) (htag : n.tag = Tag.timestamp)
      (hkind : n.content.kind = .mapping) : BreaksAmong P .timestampInMapping

namespace Shapes

open TopologyAudit.Yaml.Graph (Holds)

variable {s : Shapes}

/-- The text of a node is that of a scalar: its own, or one behind a default key. -/
theorem textOf_ends {nodes : Array Node} (h : Holds P nodes) :
    ∀ (limit : Nat) (id : NodeId),
      Ends B (fun text => ∃ m, P m ∧ m.content = .scalar text ∧
        (m = Graph.node nodes id ∨ (Graph.node nodes id).content.kind = .mapping))
        (textOf nodes limit id) := by
  intro limit
  induction limit with
  | zero => intro id; exact Ends.refused _
  | succ limit ih =>
    intro id
    unfold textOf
    dsimp only
    split
    next text heq => exact Ends.ok ⟨Graph.node nodes id, h id, heq, Or.inl rfl⟩
    next => exact Ends.here
    next entries heq =>
      split
      next key value _ =>
        refine (ih value).mono (fun _ hb => hb) ?_
        intro text hr
        obtain ⟨m, hm, hcontent, -⟩ := hr
        exact ⟨m, hm, hcontent, Or.inr (by rw [heq]; rfl)⟩
      next => exact Ends.here

/-- **A scalar breaks down as its tag and its text do.** -/
theorem scalarOf_ends (h : Holds P s.nodes) (id : NodeId) :
    Ends (BreaksAmong P) (fun _ => True) (s.scalarOf id) := by
  have htext : Ends (BreaksAmong P) _ (textOf s.nodes (s.nodes.size + 1) id) :=
    textOf_ends h (s.nodes.size + 1) id
  -- a conversion that breaks on the text breaks for the tag of the node
  have hconvert : ∀ {text : Text} {x : Except Error Scalar},
      (∃ m, P m ∧ m.content = .scalar text ∧
        (m = Graph.node s.nodes id ∨ (Graph.node s.nodes id).content.kind = .mapping)) →
      (∀ b, x = .error (.broken b) → Convert.Breaks (Graph.node s.nodes id).tag text b) →
      Ends (BreaksAmong P) (fun _ => True) x := by
    intro text x hr hx
    obtain ⟨m, hm, hcontent, hsame⟩ := hr
    rcases x with (r | b) | value
    · exact Ends.refused r
    · exact Ends.broken (BreaksAmong.scalar (h id) hm hcontent hsame (hx b rfl))
    · exact Ends.ok trivial
  unfold scalarOf
  dsimp only
  refine Ends.ite (fun _ => ?_) fun _ => ?_
  · exact Ends.bind htext fun _ _ => Ends.ok trivial
  refine Ends.ite (fun _ => ?_) fun _ => ?_
  · exact Ends.bind htext fun _ _ => Ends.ok trivial
  refine Ends.ite (fun htag => ?_) fun _ => ?_
  · refine Ends.bind htext fun text hm => hconvert hm ?_
    intro b hb
    obtain ⟨hword, rfl⟩ := Convert.bool_eq_broken.mp hb
    exact Convert.Breaks.bool htag hword
  refine Ends.ite (fun htag => ?_) fun _ => ?_
  · refine Ends.bind htext fun text hm => hconvert hm ?_
    intro b hb
    obtain ⟨hempty, rfl⟩ := Convert.int_eq_broken.mp hb
    exact Convert.Breaks.int htag hempty
  refine Ends.ite (fun htag => ?_) fun _ => ?_
  · refine Ends.bind htext fun text hm => hconvert hm ?_
    intro b hb
    rcases Convert.float_eq_broken.mp hb with ⟨hempty, rfl⟩ | ⟨hread, hcount, rfl⟩
    · exact Convert.Breaks.float htag hempty
    · exact Convert.Breaks.places htag hread hcount
  refine Ends.ite (fun _ => ?_) fun _ => ?_
  · exact Ends.bind htext fun text _ => Convert.binary_ends
  refine Ends.ite (fun htag => ?_) fun _ => Ends.here
  refine Ends.bind htext fun text hm => ?_
  split
  next =>
    refine hconvert hm ?_
    intro b hb
    obtain ⟨hnone, hchomp, rfl⟩ := Convert.timestamp_eq_broken.mp hb
    exact Convert.Breaks.timestamp htag hnone hchomp
  -- the text is that of a default key, so the node is a mapping
  next hscalar =>
    obtain ⟨m, -, hcontent, rfl | hkind⟩ := hm
    · exact absurd hcontent (hscalar text)
    · exact Ends.broken (BreaksAmong.timestampInMapping (h id) htag hkind)

theorem meet_ends (h : Holds P s.nodes) (id : NodeId) :
    Ends (BreaksAmong P) (fun next => Holds P next.nodes) (s.meet id) := by
  unfold meet
  split
  next => exact Ends.ok h
  next =>
    split
    next => exact Ends.ok h
    next => exact Ends.map (scalarOf_ends h id) fun _ _ => h

theorem meetEntries_ends {began : Mark} {list : List (NodeId × NodeId)} :
    ∀ {s : Shapes} {entries : List (Scalar × NodeId)}, Holds P s.nodes →
      Ends (BreaksAmong P) (fun r => Holds P r.1.nodes) (meetEntries began list s entries) := by
  induction list with
  | nil => intro s entries h; exact Ends.ok h
  | cons entry rest ih =>
    intro s entries h
    unfold meetEntries
    refine Ends.bind (meet_ends h entry.1) ?_
    intro met hmet
    split
    next =>
      refine Ends.bind (meet_ends hmet entry.2) ?_
      intro met hmet
      exact ih hmet
    next => exact Ends.during

theorem meetMapping_ends (hP : Graph.Survives P) (h : Holds P s.nodes) (id : NodeId) :
    Ends (BreaksAmong P) (fun r => Holds P r.1.nodes) (s.meetMapping id) := by
  unfold meetMapping
  dsimp only
  split
  next entries heq =>
    -- the merges come first, and the entries are those after them
    refine Ends.bind (Graph.merge_keeps hP Graph.mergeLimit s.nodes id h ?_) ?_
    · show (s.node id).content.kind = .mapping
      rw [heq]
      rfl
    · intro nodes hnodes
      exact meetEntries_ends hnodes.holds
  next => exact Ends.here

theorem meetPairs_ends {activity : Activity} {began : Mark} {items : List NodeId} :
    ∀ {s : Shapes}, Holds P s.nodes →
      Ends (BreaksAmong P) (fun r => Holds P r.1.nodes) (meetPairs activity began items s) := by
  induction items with
  | nil => intro s h; exact Ends.ok h
  | cons item rest ih =>
    intro s h
    unfold meetPairs
    dsimp only
    split
    next key value _ =>
      refine Ends.bind (meet_ends h key) ?_
      intro met hmet
      refine Ends.bind (meet_ends hmet value) ?_
      intro met hmet
      refine Ends.bind (ih hmet) ?_
      intro r hmet
      obtain ⟨met, pairs⟩ := r
      exact Ends.ok hmet
    next => exact Ends.during
    next => exact Ends.during

theorem fill_ends (hP : Graph.Survives P) (h : Holds P s.nodes) (id : NodeId) (c : Collection) :
    Ends (BreaksAmong P) (fun next => Holds P next.nodes) (s.fill id c) := by
  cases c with
  | sequence =>
    unfold fill
    dsimp only
    split
    next =>
      refine Ends.bind (P := fun next => Holds P next.nodes) ?_ ?_
      · exact Ends.foldlM (fun s hs item _ => meet_ends hs item) h
      · intro met hmet
        exact Ends.ok hmet
    next => exact Ends.here
  | mapping | set =>
    refine Ends.bind (meetMapping_ends hP h id) ?_
    intro r hmet
    obtain ⟨met, entries⟩ := r
    exact Ends.ok hmet
  | orderedMap | pairs =>
    unfold fill
    dsimp only
    split
    next =>
      refine Ends.bind (meetPairs_ends h) ?_
      intro r hmet
      obtain ⟨met, pairs⟩ := r
      exact Ends.ok hmet
    next => exact Ends.during

/-- The walk goes on level by level. -/
theorem fillAll_ends (hP : Graph.Survives P) :
    ∀ (limit : Nat) {s : Shapes}, Holds P s.nodes →
      Ends (BreaksAmong P) (fun next => Holds P next.nodes) (fillAll limit s) := by
  intro limit
  induction limit with
  | zero => intro s h; exact Ends.ok h
  | succ limit ih =>
    intro s h
    unfold fillAll
    split
    next => exact Ends.ok h
    next =>
      refine Ends.bind (P := fun next : Shapes => Holds P next.nodes) ?_ fun met hmet => ih hmet
      exact Ends.foldlM (fun met hmet entry _ => fill_ends hP hmet entry.1 entry.2) h

end Shapes

/-- **The walk over a graph breaks down on scalars only.** -/
theorem Graph.shapes_ends {g : Graph} (hP : Graph.Survives P) (h : Graph.Holds P g.nodes) :
    Ends (BreaksAmong P) (fun _ => True) g.shapes := by
  unfold Graph.shapes
  refine Ends.bind (Shapes.meet_ends (s := Shapes.init g.nodes) h g.root) ?_
  intro met hmet
  refine Ends.bind (Shapes.fillAll_ends hP _ hmet) ?_
  intro filled _
  exact Ends.ok trivial

end TopologyAudit.Yaml
