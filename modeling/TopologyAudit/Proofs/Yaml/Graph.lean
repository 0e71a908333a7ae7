import TopologyAudit.Proofs.Yaml.Event
import TopologyAudit.Proofs.Yaml.Tag
import TopologyAudit.Yaml.Merge

/-!
# The nodes of a graph

`Graph.Holds` says that every node of a graph has some property. In a text without
exclamation marks every node is plain: a collection has the tag of its kind, and a scalar
that breaks a conversion has its tag by its content (`Graph.read_ends`). Merges add entries
to mappings and make texts of default keys, so they keep every property that does not
depend on these two (`Graph.merge_keeps`).
-/

namespace TopologyAudit.Yaml

open CodePoint (colon)

variable {B : Breakdown → Prop} {P : Node → Prop} {t : Text}

namespace Graph

/-- Every node has a property; what is no node counts as the default one. -/
def Holds (P : Node → Prop) (nodes : Array Node) : Prop := ∀ id, P (node nodes id)

theorem node_modify (nodes : Array Node) (i id : NodeId) (f : Node → Node) :
    node (nodes.modify i f) id =
      if i = id ∧ id < nodes.size then f (node nodes id) else node nodes id := by
  unfold node
  rw [Array.getD_eq_getD_getElem?, Array.getD_eq_getD_getElem?, Array.getElem?_modify]
  -- outside the array nothing is modified, and the default node is there
  by_cases hi : i = id
  · by_cases hid : id < nodes.size
    · rw [if_pos hi, if_pos ⟨hi, hid⟩, Array.getElem?_eq_getElem hid]
      rfl
    · rw [if_pos hi, if_neg (fun h => hid h.2), Array.getElem?_eq_none (Nat.le_of_not_lt hid)]
      rfl
  · rw [if_neg hi, if_neg (fun h => hi h.1)]

theorem node_push (nodes : Array Node) (n : Node) (id : NodeId) :
    node (nodes.push n) id = if id = nodes.size then n else node nodes id := by
  unfold node
  rw [Array.getD_eq_getD_getElem?, Array.getD_eq_getD_getElem?, Array.getElem?_push]
  split <;> rfl

/-- What is no node is a scalar. -/
theorem lt_size_of_kind {nodes : Array Node} {id : NodeId}
    (h : (node nodes id).content.kind ≠ .scalar) : id < nodes.size := by
  by_contra hid
  refine h ?_
  unfold node
  rw [Array.getD_eq_getD_getElem?, Array.getElem?_eq_none (Nat.le_of_not_lt hid)]
  rfl

theorem Holds.push {nodes : Array Node} {n : Node} (h : Holds P nodes) (hn : P n) :
    Holds P (nodes.push n) := by
  intro id
  rw [node_push]
  split
  next => exact hn
  next => exact h id

theorem Holds.modify {nodes : Array Node} {i : NodeId} {f : Node → Node} (h : Holds P nodes)
    (hf : P (node nodes i) → P (f (node nodes i))) : Holds P (nodes.modify i f) := by
  intro id
  rw [node_modify]
  split
  next hi =>
    rw [← hi.1]
    exact hf (h i)
  next => exact h id

end Graph

/-! ## Plain nodes -/

/-- A node of a text without tags: a collection has the tag of its kind, and a scalar that
breaks the conversion for its tag has the tag by its content. -/
def Node.IsPlainIn (t : Text) (n : Node) : Prop :=
  match n.content with
  | .scalar text => ∀ b, Convert.Breaks n.tag text b → n.tag = Tag.ofContent text ∧ IsPlainOf t text
  | .sequence _ => n.tag = Tag.seq
  | .mapping _ => n.tag = Tag.map

/-- A tag that asks for no conversion breaks none. -/
theorem Convert.not_breaks {tag text : Text} {b : Breakdown}
    (h : tag ∉ [Tag.bool, Tag.int, Tag.float, Tag.timestamp]) : ¬Convert.Breaks tag text b := by
  intro hbreaks
  cases hbreaks with
  | bool htag | int htag | float htag | places htag | timestamp htag =>
    exact h (by simp [htag])

/-- The parts of a collection are nothing that its node is plain by. -/
theorem Node.IsPlainIn.withContent {n : Node} {content : Content} (h : n.IsPlainIn t)
    (hkind : content.kind = n.content.kind) (hscalar : content.kind ≠ .scalar) :
    Node.IsPlainIn t { n with content } := by
  unfold Node.IsPlainIn at h ⊢
  cases content with
  | scalar text => exact absurd rfl hscalar
  | sequence items =>
    cases hn : n.content with
    | scalar text | mapping entries => rw [hn] at hkind; cases hkind
    | sequence items => rw [hn] at h; exact h
  | mapping entries =>
    cases hn : n.content with
    | scalar text | sequence items => rw [hn] at hkind; cases hkind
    | mapping entries => rw [hn] at h; exact h

theorem Node.isPlainIn_default : Node.IsPlainIn t default := by
  intro b hbreaks
  exact absurd hbreaks (Convert.not_breaks (by decide))

/-! ## Building a graph -/

namespace Graph

namespace Frame

/-- The node that is being built. -/
def id : Frame → NodeId
  | .sequence id _ | .mapping id _ | .value id _ _ => id

def kind : Frame → NodeKind
  | .sequence _ _ => .sequence
  | .mapping _ _ | .value _ _ _ => .mapping

theorem kind_ne_scalar (frame : Frame) : frame.kind ≠ .scalar := by
  cases frame <;> exact nofun

end Frame

namespace Builder

/-- All nodes are plain, and each open collection is of the kind of its node. -/
structure IsPlainIn (t : Text) (b : Builder) : Prop where
  nodes : Holds (Node.IsPlainIn t) b.nodes
  frames : ∀ frame ∈ b.frames, (node b.nodes frame.id).content.kind = frame.kind

variable {b : Builder}

theorem isPlainIn_init : init.IsPlainIn t := by
  refine ⟨?_, by rintro frame ⟨⟩⟩
  intro id
  exact Node.isPlainIn_default

theorem IsPlainIn.deliver (h : b.IsPlainIn t) (id : NodeId) : (b.deliver id).IsPlainIn t := by
  have hframes := h.frames
  unfold Builder.deliver
  split
  next => exact ⟨h.nodes, h.frames⟩
  -- the innermost frame gets the node and stays one of its kind
  all_goals
    next heq =>
      rw [heq] at hframes
      have hhead := hframes _ (List.mem_cons_self ..)
      refine ⟨h.nodes, ?_⟩
      intro frame hframe
      rcases List.mem_cons.mp hframe with rfl | hframe
      · exact hhead
      · exact hframes frame (List.mem_cons_of_mem _ hframe)

/-- A node is added; open collections keep their nodes. -/
theorem IsPlainIn.addNode {anchor : Option Text} {n : Node} (h : b.IsPlainIn t)
    (hn : n.IsPlainIn t) :
    Ends B (fun r => r.2.IsPlainIn t ∧ node r.2.nodes r.1 = n ∧ r.2.frames = b.frames)
      (b.addNode anchor n) := by
  have hnodes := h.nodes.push hn
  have hlast : node (b.nodes.push n) b.nodes.size = n := by rw [node_push, if_pos rfl]
  have hframes : ∀ frame ∈ b.frames, (node (b.nodes.push n) frame.id).content.kind = frame.kind := by
    intro frame hframe
    have hkind := h.frames frame hframe
    -- open collections are nodes already, so the new one is another node
    have hlt : frame.id < b.nodes.size :=
      lt_size_of_kind (by rw [hkind]; exact frame.kind_ne_scalar)
    rw [node_push, if_neg (Nat.ne_of_lt hlt)]
    exact hkind
  unfold Builder.addNode
  dsimp only
  split
  next => exact Ends.ok ⟨⟨hnodes, hframes⟩, hlast, rfl⟩
  next =>
    split
    next => exact Ends.during
    next => exact Ends.ok ⟨⟨hnodes, hframes⟩, hlast, rfl⟩

/-- The innermost collection gets its parts. -/
theorem IsPlainIn.close (h : b.IsPlainIn t) : b.close.IsPlainIn t := by
  have hfill : ∀ (frame : Frame) (outer : List Frame) (content : Content),
      b.frames = frame :: outer → content.kind = frame.kind →
      IsPlainIn t
        { b with
          nodes := b.nodes.modify frame.id fun node => { node with content }, frames := outer } := by
    -- the three kinds of frames are closed alike, each with its own content
    intro frame outer content heq hkind
    have hframes := h.frames
    rw [heq] at hframes
    have hframe := hframes frame (List.mem_cons_self ..)
    refine ⟨h.nodes.modify ?_, ?_⟩
    · intro hn
      exact hn.withContent (hkind.trans hframe.symm) (by rw [hkind]; exact frame.kind_ne_scalar)
    · intro other hother
      rw [node_modify]
      split
      -- the node may be that of an outer frame too, and keeps its kind
      next hid =>
        rw [← hframes other (List.mem_cons_of_mem _ hother), ← hid.1, hframe]
        exact hkind
      next => exact hframes other (List.mem_cons_of_mem _ hother)
  unfold Builder.close
  split
  next => exact h
  next frame outer heq =>
    cases frame with
    | sequence id items => exact (hfill _ _ _ heq rfl).deliver id
    | mapping id entries => exact (hfill _ _ _ heq rfl).deliver id
    | value id entries key => exact (hfill _ _ _ heq rfl).deliver id

/-- A collection is opened. -/
theorem IsPlainIn.opens {anchor : Option Text} {n : Node} (h : b.IsPlainIn t)
    (frame : NodeId → Frame) (hn : n.IsPlainIn t) (hid : ∀ id, (frame id).id = id)
    (hkind : ∀ id, n.content.kind = (frame id).kind) :
    Ends B (IsPlainIn t) (do
      let (id, b) ← b.addNode anchor n
      return { b with frames := frame id :: b.frames }) := by
  refine Ends.bind (h.addNode hn) ?_
  intro r hr
  obtain ⟨id, added⟩ := r
  obtain ⟨hadded, hnode, -⟩ := hr
  refine Ends.ok ⟨hadded.nodes, ?_⟩
  intro other hother
  rcases List.mem_cons.mp hother with rfl | hother
  · show (node added.nodes (frame id).id).content.kind = (frame id).kind
    rw [hid, hnode, hkind]
  · exact hadded.frames other hother

/-- **Step.** In a text without exclamation marks an event keeps the nodes plain. -/
theorem IsPlainIn.take {event : Event} (h : b.IsPlainIn t) (hevent : event.what.IsFrom t)
    (hmark : CodePoint.ofChar '!' ∉ t) : Ends B (IsPlainIn t) (b.take event) := by
  have hnone : ∀ tag : Option Text, (tag.isSome = true → CodePoint.ofChar '!' ∈ t) →
      tag = none := by
    intro tag htag
    cases tag with
    | none => rfl
    | some tag => exact absurd (htag rfl) hmark
  unfold Builder.take
  dsimp only
  split
  next => exact Ends.ok h
  next => exact Ends.ok h
  next => exact Ends.ok h
  next => exact Ends.ok h.close
  next => exact Ends.ok h.close
  next =>
    split
    next id _ => exact Ends.ok (h.deliver id)
    next => exact Ends.here
  next anchor tag byContent text heq =>
    rw [heq] at hevent
    rw [hnone tag hevent.1, Option.getD_none]
    refine Ends.ite (fun _ => Ends.refused _) fun _ => ?_
    refine Ends.bind (h.addNode ?_) ?_
    · intro breakdown hbreaks
      -- without a tag in front, a scalar has its tag by content or is a string
      by_cases hcontent : byContent = true
      · rw [if_pos hcontent] at hbreaks ⊢
        exact ⟨rfl, (hevent.2 hcontent).resolve_left hmark⟩
      · rw [if_neg hcontent] at hbreaks
        exact absurd hbreaks
          (Convert.not_breaks (show Tag.str ∉ [Tag.bool, Tag.int, Tag.float, Tag.timestamp] by decide))
    · intro r hr
      obtain ⟨id, added⟩ := r
      obtain ⟨hadded, -, -⟩ := hr
      exact Ends.ok (hadded.deliver id)
  next anchor tag heq =>
    rw [heq] at hevent
    rw [hnone tag hevent]
    refine Ends.ite (fun _ => Ends.refused _) fun _ => ?_
    exact h.opens (n := ⟨Tag.seq, event.mark, .sequence []⟩) (.sequence · []) rfl
      (fun _ => rfl) fun _ => rfl
  next anchor tag heq =>
    rw [heq] at hevent
    rw [hnone tag hevent]
    refine Ends.ite (fun _ => Ends.refused _) fun _ => ?_
    exact h.opens (n := ⟨Tag.map, event.mark, .mapping []⟩) (.mapping · []) rfl
      (fun _ => rfl) fun _ => rfl

/-- Whatever the events, a graph is built or refused. -/
theorem take_ends (b : Builder) (event : Event) : Ends B (fun _ => True) (b.take event) := by
  have hadd : ∀ {anchor : Option Text} {n : Node} {f : NodeId × Builder → Builder},
      Ends B (fun _ => True) (b.addNode anchor n >>= fun r => pure (f r)) := by
    intro anchor n f
    refine Ends.bind (P := fun _ => True) ?_ fun _ _ => Ends.ok trivial
    unfold Builder.addNode
    dsimp only
    split
    next => exact Ends.ok trivial
    next =>
      split
      next => exact Ends.during
      next => exact Ends.ok trivial
  unfold Builder.take
  dsimp only
  split
  next => exact Ends.ok trivial
  next => exact Ends.ok trivial
  next => exact Ends.ok trivial
  next => exact Ends.ok trivial
  next => exact Ends.ok trivial
  next =>
    split
    next => exact Ends.ok trivial
    next => exact Ends.here
  next => exact Ends.ite (fun _ => Ends.refused _) fun _ => hadd
  next => exact Ends.ite (fun _ => Ends.refused _) fun _ => hadd
  next => exact Ends.ite (fun _ => Ends.refused _) fun _ => hadd

/-- The events are taken one by one up to the error behind them. -/
theorem takeAll_ends {lack : Error} {events : List Event}
    (hlack : ∀ b, lack = .broken b → EscapeIn t b)
    (hevents : ∀ event ∈ events, event.what.IsFrom t) :
    ∀ {b : Builder}, (CodePoint.ofChar '!' ∉ t → b.IsPlainIn t) →
      Ends (EscapeIn t)
        (fun found => CodePoint.ofChar '!' ∉ t → ∀ g ∈ found, Holds (Node.IsPlainIn t) g.nodes)
        (takeAll lack events b) := by
  induction events with
  | nil =>
    intro b _
    unfold takeAll
    cases lack with
    | refused r => exact Ends.refused r
    | broken breakdown => exact Ends.broken (hlack breakdown rfl)
  | cons event rest ih =>
    intro b hb
    unfold takeAll
    dsimp only
    split
    next =>
      refine Ends.ok ?_
      intro _ g hr
      cases hr
    next =>
      refine Ends.ok ?_
      intro hmark g hr
      cases hr
      exact (hb hmark).nodes
    next => exact Ends.during
    next =>
      have hevent := hevents event (List.mem_cons_self ..)
      have hrest : ∀ other ∈ rest, other.what.IsFrom t :=
        fun other hother => hevents other (List.mem_cons_of_mem _ hother)
      -- the step breaks off in any text; what it keeps is known without exclamation marks only
      have hany := take_ends (B := EscapeIn t) b event
      split
      next e he =>
        cases e with
        | refused r => exact Ends.refused r
        | broken breakdown => exact Ends.broken (hany.breakdown he)
      next next hnext =>
        refine ih hrest ?_
        intro hmark
        exact ((hb hmark).take (B := EscapeIn t) hevent hmark).value hnext

end Builder

/-- **The nodes of a text.** Reading a graph breaks down only on an escape with eight
digits, and in a text without exclamation marks all nodes are plain. -/
theorem read_ends (t : Text) :
    Ends (EscapeIn t)
      (fun found => CodePoint.ofChar '!' ∉ t → ∀ g ∈ found, Holds (Node.IsPlainIn t) g.nodes)
      (Graph.read t) := by
  unfold Graph.read
  dsimp only
  split
  next => exact Ends.refused _
  next =>
    have hevents := Event.ofTokens_isFrom (Token.scan_isFrom t)
    refine Builder.takeAll_ends ?_ hevents.events fun _ => Builder.isPlainIn_init
    intro b hb
    rcases Option.getD_eq_iff.mp hb with hfailure | ⟨-, hend⟩
    · exact hevents.failure b hfailure
    · cases hend

/-! ## Merges -/

/-- A property that survives merges: new entries of a mapping, and a default key that
becomes a text, do no harm to it. -/
structure Survives (P : Node → Prop) : Prop where
  entries : ∀ (n : Node) (list : List (NodeId × NodeId)), P n → n.content.kind = .mapping →
    P { n with content := .mapping list }
  key : ∀ n : Node, P n → n.tag = Tag.value → P { n with tag := Tag.str }

theorem survives_isPlainIn : Survives (Node.IsPlainIn t) := by
  constructor
  · intro n list h hkind
    exact h.withContent hkind.symm nofun
  · intro n h htag
    unfold Node.IsPlainIn at h ⊢
    dsimp only
    split
    -- a default key is a scalar, since collections have other tags
    next text _ =>
      intro b hbreaks
      exact absurd hbreaks
        (Convert.not_breaks (show Tag.str ∉ [Tag.bool, Tag.int, Tag.float, Tag.timestamp] by decide))
    next items heq =>
      rw [heq, htag] at h
      exact absurd h (show Tag.value ≠ Tag.seq by decide)
    next entries heq =>
      rw [heq, htag] at h
      exact absurd h (show Tag.value ≠ Tag.map by decide)

/-- All nodes have a property, and are of the kinds that they were of before. -/
structure Keeps (P : Node → Prop) (before after : Array Node) : Prop where
  holds : Holds P after
  kind : ∀ id, (node after id).content.kind = (node before id).content.kind

namespace Keeps

variable {before middle after nodes : Array Node}

theorem refl (h : Holds P nodes) : Keeps P nodes nodes := ⟨h, fun _ => rfl⟩

theorem trans (h : Keeps P before middle) (h' : Keeps P middle after) : Keeps P before after :=
  ⟨h'.holds, fun id => (h'.kind id).trans (h.kind id)⟩

theorem setEntries {id : NodeId} (hP : Survives P) (h : Keeps P before nodes)
    (list : List (NodeId × NodeId)) (hid : (node before id).content.kind = .mapping) :
    Keeps P before (setEntries nodes id list) := by
  have hmapping : (node nodes id).content.kind = .mapping := (h.kind id).trans hid
  refine ⟨h.holds.modify fun hn => hP.entries _ _ hn hmapping, ?_⟩
  intro other
  rw [Graph.setEntries, node_modify]
  split
  next heq =>
    -- the node was a mapping and is one again
    rw [← h.kind other, ← heq.1, hmapping]
    rfl
  next => exact h.kind other

theorem retagKey {entry : NodeId × NodeId} (hP : Survives P) (h : Keeps P before nodes) :
    Keeps P before (retagKey nodes entry) := by
  unfold Graph.retagKey
  split
  next htag =>
    refine ⟨h.holds.modify fun hn => hP.key _ hn htag, ?_⟩
    intro other
    rw [node_modify]
    split
    next => exact h.kind other
    next => exact h.kind other
  next => exact h

theorem retagKeys {entries : List (NodeId × NodeId)} (hP : Survives P) :
    ∀ {nodes : Array Node}, Keeps P before nodes →
      Keeps P before (entries.foldl Graph.retagKey nodes) := by
  induction entries with
  | nil => intro nodes h; exact h
  | cons entry rest ih =>
    intro nodes h
    rw [List.foldl_cons]
    exact ih (h.retagKey hP)

end Keeps

section

variable {resolve : Array Node → NodeId → Except Error (Array Node)}

/-- Entries are taken from mappings, which are resolved first. -/
theorem takenFrom_keeps {began : Mark} {nodes : Array Node} {source : NodeId}
    (hresolve : ∀ nodes id, Holds P nodes → (node nodes id).content.kind = .mapping →
      Ends B (Keeps P nodes) (resolve nodes id))
    (h : Holds P nodes) :
    Ends B (fun r => Keeps P nodes r.1) (takenFrom resolve began nodes source) := by
  unfold takenFrom
  dsimp only
  split
  -- one mapping
  next entries heq =>
    refine Ends.bind (hresolve nodes source h (by rw [heq]; rfl)) ?_
    intro after hafter
    exact Ends.ok hafter
  -- a list of mappings, each resolved in what the ones before have left
  next items heq =>
    refine Ends.bind (P := fun r => Keeps P nodes r.1) ?_ ?_
    · refine Ends.foldlM ?_ (Keeps.refl h)
      intro r hcurrent item _
      obtain ⟨current, lists⟩ := r
      dsimp only
      split
      next entries heq =>
        refine Ends.bind (hresolve current item hcurrent.holds (by rw [heq]; rfl)) ?_
        intro after hafter
        exact Ends.ok (hcurrent.trans hafter)
      next => exact Ends.during
    · intro r hafter
      obtain ⟨after, lists⟩ := r
      exact Ends.ok hafter
  next => exact Ends.during

theorem mergeFirst_keeps {id : NodeId} {nodes : Array Node} {taken : List (NodeId × NodeId)}
    (hP : Survives P)
    (hresolve : ∀ nodes id, Holds P nodes → (node nodes id).content.kind = .mapping →
      Ends B (Keeps P nodes) (resolve nodes id))
    (h : Holds P nodes) (hid : (node nodes id).content.kind = .mapping) :
    Ends B (fun r => Keeps P nodes r.1) (mergeFirst resolve id nodes taken) := by
  unfold mergeFirst
  dsimp only
  split
  next => exact Ends.ok (Keeps.refl h)
  next key source _ =>
    -- the merge key is gone before its source is resolved, which may be the mapping itself
    have hset := (Keeps.refl h).setEntries hP ((Graph.entries nodes id).eraseP (isMerge nodes)) hid
    refine Ends.bind (takenFrom_keeps hresolve hset.holds) ?_
    intro r hafter
    obtain ⟨after, more⟩ := r
    exact Ends.ok (hset.trans hafter)

end

/-- **Merges keep what survives them.** The induction is on the length that a chain of
mappings may have. -/
theorem merge_keeps (hP : Survives P) :
    ∀ (limit : Nat) (nodes : Array Node) (id : NodeId), Holds P nodes →
      (node nodes id).content.kind = .mapping →
        Ends B (Keeps P nodes) (merge limit nodes id) := by
  intro limit
  induction limit with
  | zero => intro nodes id _ _; exact Ends.refused _
  | succ limit ih =>
    intro nodes id h hid
    unfold merge
    refine Ends.bind (P := fun r => Keeps P nodes r.1) ?_ ?_
    · refine Ends.foldlM ?_ (Keeps.refl h)
      intro r hcurrent key _
      obtain ⟨current, taken⟩ := r
      refine (mergeFirst_keeps hP ih hcurrent.holds ((hcurrent.kind id).trans hid)).mono
        (fun _ hb => hb) ?_
      intro r hr
      exact hcurrent.trans hr
    · intro r hafter
      obtain ⟨after, taken⟩ := r
      exact Ends.ok ((hafter.setEntries hP _ hid).retagKeys hP)

end Graph

end TopologyAudit.Yaml
