import TopologyAudit.Proofs.Yaml.Flow.Event
import TopologyAudit.Proofs.Yaml.Flow.Lexer
import TopologyAudit.Yaml.Graph

/-!
# The graph of a flow collection

The nodes that the events of a value add to a graph stand for the value (`Stands`). They are
all behind the ones that were there, so nothing that comes later changes them
(`Builder.Builds`): what is changed later is the node of a collection around the value, and
what is added is added behind.
-/

namespace TopologyAudit.Yaml

/-- The tag of a scalar that has none in front. -/
def ScalarStyle.tagOf (style : ScalarStyle) (t : Text) : Text :=
  if style = .plain then Tag.ofContent t else Tag.str

namespace Graph

variable {nodes nodes' nodes'' : Array Node} {id : NodeId} {j : Json}

/-- That a node stands for a value. A key stands for its text. -/
inductive Stands (nodes : Array Node) : NodeId → Json → Prop
  | atom {id : NodeId} {j : Json} {t : Text} {style : ScalarStyle} {mark : Mark}
      (hnode : nodes[id]? = some ⟨style.tagOf t, mark, .scalar t⟩) (h : j.IsAtom t style) :
      Stands nodes id j
  | array {id : NodeId} {ids : List NodeId} {items : List Json} {mark : Mark}
      (hnode : nodes[id]? = some ⟨Tag.seq, mark, .sequence ids⟩)
      (h : List.Forall₂ (fun id item => Stands nodes id item) ids items) :
      Stands nodes id (.array items)
  | object {id : NodeId} {entries : List (NodeId × NodeId)} {fields : List (Text × Json)}
      {mark : Mark} (hnode : nodes[id]? = some ⟨Tag.map, mark, .mapping entries⟩)
      (hkeys : List.Forall₂ (fun e f => Stands nodes e.1 (.text f.1)) entries fields)
      (h : List.Forall₂ (fun e f => Stands nodes e.2 f.2) entries fields) :
      Stands nodes id (.object fields)

/-! ## Nodes that stay -/

/-- That the nodes in a range are the same. -/
def SameWithin (low high : Nat) (nodes nodes' : Array Node) : Prop :=
  ∀ i, low ≤ i → i < high → nodes'[i]? = nodes[i]?

variable {low low' high high' : Nat}

theorem SameWithin.refl (low high : Nat) (nodes : Array Node) : SameWithin low high nodes nodes :=
  fun _ _ _ => rfl

theorem SameWithin.trans (h : SameWithin low high nodes nodes')
    (h' : SameWithin low high nodes' nodes'') : SameWithin low high nodes nodes'' :=
  fun i hlow hhigh => (h' i hlow hhigh).trans (h i hlow hhigh)

theorem SameWithin.mono (h : SameWithin low high nodes nodes') (hlow : low ≤ low')
    (hhigh : high' ≤ high) : SameWithin low' high' nodes nodes' :=
  fun i hi hi' => h i (Nat.le_trans hlow hi) (Nat.lt_of_lt_of_le hi' hhigh)

theorem sameWithin_push (nodes : Array Node) (n : Node) :
    SameWithin 0 nodes.size nodes (nodes.push n) := by
  intro i _ hi
  rw [Array.getElem?_push_lt hi, Array.getElem?_eq_getElem hi]

/-- A change to one node leaves the others alone. -/
theorem sameWithin_modify {f : Node → Node} (h : id < low ∨ high ≤ id) :
    SameWithin low high nodes (nodes.modify id f) := by
  intro i hi hi'
  have hne : id ≠ i := by
    rintro rfl
    exact h.elim (Nat.not_lt_of_le hi) (Nat.not_le_of_lt hi')
  rw [Array.getElem?_modify, if_neg hne]

/-! ## Events into nodes -/

namespace Builder

variable {b b' b'' : Builder} {event : Event} {events events' : List Event}

/-- That events take a builder from one place to another. -/
def Takes (b : Builder) (events : List Event) (b' : Builder) : Prop :=
  ∀ lack rest, takeAll lack (events ++ rest) b = takeAll lack rest b'

theorem Takes.refl (b : Builder) : Takes b [] b := fun _ _ => rfl

theorem Takes.trans (h : Takes b events b') (h' : Takes b' events' b'') :
    Takes b (events ++ events') b'' := by
  intro lack rest
  rw [List.append_assoc, h, h']

/-- An event inside of a document is taken as it is. -/
theorem takes_of_take (hstart : event.what ≠ .documentStart) (hend : event.what ≠ .streamEnd)
    (h : b.take event = .ok b') : Takes b [event] b' := by
  intro lack rest
  rw [List.singleton_append, takeAll]
  split
  next hwhat _ => exact absurd hwhat hend
  next hwhat _ => exact absurd hwhat hend
  next hwhat _ => exact absurd hwhat hstart
  next => rw [h]

/-- That a builder has got nodes for a value, the first of them for the value itself. -/
structure Builds (b : Builder) (j : Json) (nodes : Array Node) : Prop where
  kept : SameWithin 0 b.nodes.size b.nodes nodes
  grows : b.nodes.size + j.nesting ≤ nodes.size
  stands : ∀ nodes', SameWithin b.nodes.size nodes.size nodes nodes' → Stands nodes' b.nodes.size j

/-- That the events of a value build nodes for it, wherever the value may stand. -/
def IsBuilt (j : Json) : Prop :=
  ∀ {b : Builder} {events : List Event}, b.frames.length + j.nesting < nestingLimit →
    events.map (·.what) = j.occurrences →
      ∃ nodes, Takes b events (deliver { b with nodes } b.nodes.size) ∧ b.Builds j nodes

/-! ### Scalars -/

theorem isBuilt_atom {j : Json} {t : Text} {style : ScalarStyle} (h : j.IsAtom t style) :
    IsBuilt j := by
  intro b events hroom hevents
  rw [h.nesting, Nat.add_zero] at hroom
  rw [h.occurrences] at hevents
  obtain ⟨event, _, rfl, hwhat, hnil⟩ := List.map_eq_cons_iff.mp hevents
  obtain rfl := List.map_eq_nil_iff.mp hnil
  have htake : b.take event = .ok (deliver
      { b with nodes := b.nodes.push ⟨style.tagOf t, event.mark, .scalar t⟩ } b.nodes.size) := by
    unfold take
    simp only [hwhat, ge_iff_le, if_neg (Nat.not_le_of_lt hroom), addNode, Outcome.ok_bind,
      Option.getD_none, decide_eq_true_eq]
    rfl
  refine ⟨_, takes_of_take (by rw [hwhat]; nofun) (by rw [hwhat]; nofun) htake,
    sameWithin_push _ _, ?_, ?_⟩
  · rw [h.nesting, Array.size_push]
    exact Nat.le_succ _
  · intro nodes' hsame
    refine @Stands.atom _ _ _ _ _ event.mark ?_ h
    rw [hsame _ (Nat.le_refl _) (by rw [Array.size_push]; exact Nat.lt_succ_self _),
      Array.getElem?_push_size]

/-! ### Items -/

/-- That a builder has got nodes for the items of a sequence. -/
structure BuildsItems (b : Builder) (items : List Json) (ids : List NodeId)
    (nodes : Array Node) : Prop where
  kept : SameWithin 0 b.nodes.size b.nodes nodes
  grows : b.nodes.size + Json.nestingItems items ≤ nodes.size
  stands : ∀ nodes', SameWithin b.nodes.size nodes.size nodes nodes' →
    List.Forall₂ (Stands nodes') ids items

/-- The items of an open sequence become its parts. -/
theorem takes_items {items : List Json} (h : ∀ item ∈ items, IsBuilt item) {id : NodeId}
    (outer : List Frame) (hroom : outer.length + 1 + Json.nestingItems items < nestingLimit) :
    ∀ {b : Builder} {acc : List NodeId} {events : List Event},
      b.frames = .sequence id acc :: outer → events.map (·.what) = Json.itemOccurrences items →
        ∃ ids nodes,
          Takes b events { b with nodes, frames := .sequence id (ids.reverse ++ acc) :: outer } ∧
            b.BuildsItems items ids nodes := by
  induction items with
  | nil =>
    intro b acc events hframes hevents
    obtain rfl := List.map_eq_nil_iff.mp hevents
    obtain ⟨nodes, anchors, _, root⟩ := b
    cases hframes
    exact ⟨[], nodes, .refl _, .refl _ _ _, Nat.le_refl _, fun _ _ => .nil⟩
  | cons item items ih =>
    intro b acc events hframes hevents
    obtain ⟨hitem, hitems⟩ := List.forall_mem_cons.mp h
    rw [Json.nestingItems] at hroom
    rw [Json.itemOccurrences] at hevents
    obtain ⟨own, others, rfl, hown, hothers⟩ := List.map_eq_append_iff.mp hevents
    have hlength : b.frames.length = outer.length + 1 := by rw [hframes, List.length_cons]
    obtain ⟨nodes, htakes, hbuilds⟩ := hitem (by rw [hlength]; omega) hown
    rw [show deliver { b with nodes } b.nodes.size =
        { b with nodes, frames := .sequence id (b.nodes.size :: acc) :: outer } by
      rw [deliver, hframes]] at htakes
    obtain ⟨ids, nodes', htakes', hbuilds'⟩ := ih hitems (by omega) (b := { b with
      nodes, frames := .sequence id (b.nodes.size :: acc) :: outer }) rfl hothers
    have hle : b.nodes.size ≤ nodes.size := by
      have hgrows := hbuilds.grows
      omega
    refine ⟨b.nodes.size :: ids, nodes', ?_, ?_, ?_, ?_⟩
    · rw [List.reverse_cons, List.append_assoc]
      exact htakes.trans htakes'
    · exact hbuilds.kept.trans (hbuilds'.kept.mono (Nat.le_refl _) hle)
    · have hgrows := hbuilds.grows
      have hgrows' := hbuilds'.grows
      rw [Json.nestingItems]
      dsimp only at hgrows'
      omega
    · intro final hsame
      have hle' : nodes.size ≤ nodes'.size := Nat.le_of_add_right_le hbuilds'.grows
      have hfirst := (hbuilds'.kept.mono (Nat.zero_le _) (Nat.le_refl _)).trans
        (hsame.mono (Nat.le_refl _) hle')
      exact .cons (hbuilds.stands final hfirst)
        (hbuilds'.stands final (hsame.mono hle (Nat.le_refl _)))

/-! ### Fields -/

/-- That a builder has got nodes for the fields of a mapping. -/
structure BuildsFields (b : Builder) (fields : List (Text × Json))
    (entries : List (NodeId × NodeId)) (nodes : Array Node) : Prop where
  kept : SameWithin 0 b.nodes.size b.nodes nodes
  grows : b.nodes.size + Json.nestingFields fields ≤ nodes.size
  keys : ∀ nodes', SameWithin b.nodes.size nodes.size nodes nodes' →
    List.Forall₂ (fun e f => Stands nodes' e.1 (.text f.1)) entries fields
  values : ∀ nodes', SameWithin b.nodes.size nodes.size nodes nodes' →
    List.Forall₂ (fun e f => Stands nodes' e.2 f.2) entries fields

/-- The fields of an open mapping become its entries. -/
theorem takes_fields {fields : List (Text × Json)} (hkeys : ∀ f ∈ fields, f.1.IsBasic)
    (h : ∀ f ∈ fields, IsBuilt f.2) {id : NodeId} (outer : List Frame)
    (hroom : outer.length + 1 + Json.nestingFields fields < nestingLimit) :
    ∀ {b : Builder} {acc : List (NodeId × NodeId)} {events : List Event},
      b.frames = .mapping id acc :: outer → events.map (·.what) = Json.fieldOccurrences fields →
        ∃ entries nodes,
          Takes b events { b with nodes, frames := .mapping id (entries.reverse ++ acc) :: outer } ∧
            b.BuildsFields fields entries nodes := by
  induction fields with
  | nil =>
    intro b acc events hframes hevents
    obtain rfl := List.map_eq_nil_iff.mp hevents
    obtain ⟨nodes, anchors, _, root⟩ := b
    cases hframes
    exact ⟨[], nodes, .refl _, .refl _ _ _, Nat.le_refl _, fun _ _ => .nil, fun _ _ => .nil⟩
  | cons f fields ih =>
    intro b acc events hframes hevents
    obtain ⟨name, value⟩ := f
    obtain ⟨hkey, hothers⟩ := List.forall_mem_cons.mp hkeys
    obtain ⟨hvalue, hvalues⟩ := List.forall_mem_cons.mp h
    have hatom : (Json.text name).IsAtom name .marked := .text hkey
    rw [Json.nestingFields] at hroom
    rw [Json.fieldOccurrences_cons, List.cons_append, ← List.singleton_append] at hevents
    obtain ⟨written, others, rfl, hwritten, hbehind⟩ := List.map_eq_append_iff.mp hevents
    obtain ⟨own, others, rfl, hown, hbehind⟩ := List.map_eq_append_iff.mp hbehind
    -- the key waits in a frame of its own for the value
    have hlength : b.frames.length = outer.length + 1 := by rw [hframes, List.length_cons]
    obtain ⟨nodes, htakes, hbuilds⟩ := isBuilt_atom hatom (b := b)
      (by rw [hlength, hatom.nesting]; omega) hwritten
    rw [show deliver { b with nodes } b.nodes.size =
        { b with nodes, frames := .value id acc b.nodes.size :: outer } by
      rw [deliver, hframes]] at htakes
    obtain ⟨nodes', htakes', hbuilds'⟩ := hvalue
      (b := { b with nodes, frames := .value id acc b.nodes.size :: outer })
      (by rw [List.length_cons]; dsimp only; omega) hown
    obtain ⟨entries, nodes'', htakes'', hbuilds''⟩ := ih hothers hvalues (by omega)
      (b := { b with
        nodes := nodes', frames := .mapping id ((b.nodes.size, nodes.size) :: acc) :: outer })
      rfl hbehind
    have hgrows := hbuilds.grows
    have hgrows' := hbuilds'.grows
    have hgrows'' := hbuilds''.grows
    dsimp only at hgrows' hgrows''
    have hle : b.nodes.size ≤ nodes.size := by omega
    have hle' : nodes.size ≤ nodes'.size := by omega
    have hle'' : nodes'.size ≤ nodes''.size := by omega
    refine ⟨(b.nodes.size, nodes.size) :: entries, nodes'', ?_, ?_, ?_, ?_, ?_⟩
    · rw [List.reverse_cons, List.append_assoc]
      exact htakes.trans (htakes'.trans htakes'')
    · have hkept := hbuilds'.kept.trans (hbuilds''.kept.mono (Nat.le_refl _) hle')
      exact hbuilds.kept.trans (hkept.mono (Nat.le_refl _) hle)
    · rw [Json.nestingFields]
      omega
    all_goals
      intro final hsame
      have hlast := hsame.mono (Nat.le_trans hle hle') (Nat.le_refl _)
      have hmiddle := (hbuilds''.kept.mono (Nat.zero_le _) (Nat.le_refl _)).trans
        (hsame.mono hle hle'')
    · refine .cons (hbuilds.stands final ?_) (hbuilds''.keys final hlast)
      exact (hbuilds'.kept.mono (Nat.zero_le _) (Nat.le_refl _)).trans
        ((hbuilds''.kept.mono (Nat.zero_le _) hle').trans
          (hsame.mono (Nat.le_refl _) (Nat.le_trans hle' hle'')))
    · exact .cons (hbuilds'.stands final hmiddle) (hbuilds''.values final hlast)

/-! ### Collections -/

/-- The events of a collection: one where it begins, those inside of it, and one where it ends. -/
theorem exists_of_map_eq_collection {first last : Occurrence} {inside : List Occurrence}
    (h : events.map (·.what) = first :: (inside ++ [last])) :
    ∃ start inner stop, events = start :: (inner ++ [stop]) ∧ start.what = first ∧
      inner.map (·.what) = inside ∧ stop.what = last := by
  obtain ⟨start, behind, rfl, hstart, hbehind⟩ := List.map_eq_cons_iff.mp h
  obtain ⟨inner, ends, rfl, hinner, hends⟩ := List.map_eq_append_iff.mp hbehind
  obtain ⟨stop, _, rfl, hstop, hnil⟩ := List.map_eq_cons_iff.mp hends
  obtain rfl := List.map_eq_nil_iff.mp hnil
  exact ⟨start, inner, stop, rfl, hstart, hinner, hstop⟩

/-- The node of a collection comes first and gets its parts last. In between only nodes behind
it are added. -/
theorem builds_of_parts {n : Node} {parts : Nat} (content : Content)
    (hkept : SameWithin 0 (b.nodes.push n).size (b.nodes.push n) nodes)
    (hgrows : (b.nodes.push n).size + parts ≤ nodes.size) (hnesting : j.nesting = parts + 1)
    (hstands : ∀ nodes', nodes'[b.nodes.size]? = some { n with content } →
      SameWithin (b.nodes.push n).size nodes.size nodes nodes' → Stands nodes' b.nodes.size j) :
    b.Builds j (nodes.modify b.nodes.size fun node => { node with content }) := by
  rw [Array.size_push] at hkept hgrows hstands
  refine ⟨?_, ?_, fun final hsame => ?_⟩
  · exact ((sameWithin_push b.nodes n).trans (hkept.mono (Nat.le_refl _) (Nat.le_succ _))).trans
      (sameWithin_modify (.inr (Nat.le_refl _)))
  · rw [Array.size_modify, hnesting]
    omega
  · rw [Array.size_modify] at hsame
    refine hstands final ?_ ?_
    · rw [hsame _ (Nat.le_refl _) (by omega), Array.getElem?_modify, if_pos rfl,
        hkept _ (Nat.zero_le _) (Nat.lt_succ_self _), Array.getElem?_push_size]
      rfl
    · exact (sameWithin_modify (.inl (Nat.lt_succ_self _))).trans
        (hsame.mono (Nat.le_succ _) (Nat.le_refl _))

theorem isBuilt_array {items : List Json} (h : ∀ item ∈ items, IsBuilt item) :
    IsBuilt (.array items) := by
  intro b events hroom hevents
  rw [Json.nesting] at hroom
  obtain ⟨start, inner, stop, rfl, hstart, hinner, hstop⟩ := exists_of_map_eq_collection hevents
  have hopen : b.take start = .ok { b with
      nodes := b.nodes.push ⟨Tag.seq, start.mark, .sequence []⟩
      frames := .sequence b.nodes.size [] :: b.frames } := by
    unfold take
    simp only [hstart, ge_iff_le, if_neg (show ¬nestingLimit ≤ b.frames.length by omega), addNode,
      Outcome.ok_bind, Option.getD_none]
    rfl
  obtain ⟨ids, nodes, htakes, hbuilds⟩ := takes_items h b.frames (by omega)
    (b := { b with nodes := b.nodes.push ⟨Tag.seq, start.mark, .sequence []⟩
                   frames := .sequence b.nodes.size [] :: b.frames }) rfl hinner
  have hclose : take
      { b with nodes, frames := .sequence b.nodes.size (ids.reverse ++ []) :: b.frames } stop =
      .ok (deliver { b with
        nodes := nodes.modify b.nodes.size fun node => { node with content := .sequence ids }
        } b.nodes.size) := by
    unfold take
    simp only [hstop, close, List.append_nil, List.reverse_reverse]
    rfl
  refine ⟨_, ?_, builds_of_parts (.sequence ids) hbuilds.kept hbuilds.grows rfl
    fun final hown hparts => ?_⟩
  · exact (takes_of_take (by rw [hstart]; nofun) (by rw [hstart]; nofun) hopen).trans
      (htakes.trans (takes_of_take (by rw [hstop]; nofun) (by rw [hstop]; nofun) hclose))
  · exact .array hown (hbuilds.stands final hparts)

theorem isBuilt_object {fields : List (Text × Json)} (hkeys : ∀ f ∈ fields, f.1.IsBasic)
    (h : ∀ f ∈ fields, IsBuilt f.2) : IsBuilt (.object fields) := by
  intro b events hroom hevents
  rw [Json.nesting] at hroom
  obtain ⟨start, inner, stop, rfl, hstart, hinner, hstop⟩ := exists_of_map_eq_collection hevents
  have hopen : b.take start = .ok { b with
      nodes := b.nodes.push ⟨Tag.map, start.mark, .mapping []⟩
      frames := .mapping b.nodes.size [] :: b.frames } := by
    unfold take
    simp only [hstart, ge_iff_le, if_neg (show ¬nestingLimit ≤ b.frames.length by omega), addNode,
      Outcome.ok_bind, Option.getD_none]
    rfl
  obtain ⟨entries, nodes, htakes, hbuilds⟩ := takes_fields hkeys h b.frames (by omega)
    (b := { b with nodes := b.nodes.push ⟨Tag.map, start.mark, .mapping []⟩
                   frames := .mapping b.nodes.size [] :: b.frames }) rfl hinner
  have hclose : take
      { b with nodes, frames := .mapping b.nodes.size (entries.reverse ++ []) :: b.frames } stop =
      .ok (deliver { b with
        nodes := nodes.modify b.nodes.size fun node => { node with content := .mapping entries }
        } b.nodes.size) := by
    unfold take
    simp only [hstop, close, List.append_nil, List.reverse_reverse]
    rfl
  refine ⟨_, ?_, builds_of_parts (.mapping entries) hbuilds.kept hbuilds.grows rfl
    fun final hown hparts => ?_⟩
  · exact (takes_of_take (by rw [hstart]; nofun) (by rw [hstart]; nofun) hopen).trans
      (htakes.trans (takes_of_take (by rw [hstop]; nofun) (by rw [hstop]; nofun) hclose))
  · exact .object hown (hbuilds.keys final hparts) (hbuilds.values final hparts)

/-- **The events of a value build nodes that stand for it.** -/
theorem isBuilt_of_isFlow {j : Json} (h : j.IsFlow) : IsBuilt j := by
  induction h with
  | atom hatom => exact isBuilt_atom hatom
  | array _ ih => exact isBuilt_array ih
  | object _ hkeys _ ih => exact isBuilt_object (fun f hf => (hkeys f hf).isBasic) ih

end Builder

/-! ## Documents -/

namespace Builder

variable {event stop : Event} {events : List Event} {lack : Error}

theorem takeAll_documentStart (hwhat : event.what = .documentStart) :
    takeAll lack (event :: events) init = takeAll lack events init := by
  have htake : init.take event = .ok init := by
    unfold take
    simp only [hwhat]
    rfl
  rw [takeAll]
  simp only [hwhat, htake]
  rfl

theorem takeAll_documentEnd {b : Builder} {root : NodeId} (hwhat : event.what = .documentEnd)
    (hstop : stop.what = .streamEnd) (hroot : b.root = some root) :
    takeAll lack [event, stop] b = .ok (some ⟨b.nodes, root⟩) := by
  have htake : b.take event = .ok b := by
    unfold take
    simp only [hwhat]
    rfl
  have htakes := takes_of_take (by rw [hwhat]; nofun) (by rw [hwhat]; nofun) htake lack [stop]
  rw [List.singleton_append] at htakes
  rw [htakes, takeAll]
  simp only [hstop, hroot]

end Builder

/-- The events of the text of a collection are a graph that stands for the collection. -/
theorem ofEvents_of_occurrences {j : Json} (h : j.IsFlow) (hnesting : j.nesting < nestingLimit)
    {events : Supply Event} (hevents : events.items.map (·.what) =
      .documentStart :: (j.occurrences ++ [.documentEnd, .streamEnd])) :
    ∃ g, Graph.ofEvents events = .ok (some g) ∧ Stands g.nodes g.root j ∧
      j.nesting ≤ g.nodes.size := by
  obtain ⟨items, failure⟩ := events
  obtain ⟨start, behind, rfl, hstart, hbehind⟩ := List.map_eq_cons_iff.mp hevents
  obtain ⟨value, ends, rfl, hvalue, hends⟩ := List.map_eq_append_iff.mp hbehind
  obtain ⟨close, ends, rfl, hclose, hends⟩ := List.map_eq_cons_iff.mp hends
  obtain ⟨stop, _, rfl, hstop, hnil⟩ := List.map_eq_cons_iff.mp hends
  obtain rfl := List.map_eq_nil_iff.mp hnil
  obtain ⟨nodes, htakes, hbuilds⟩ := Builder.isBuilt_of_isFlow h (b := Builder.init)
    (by rw [Builder.init, List.length_nil, Nat.zero_add]; exact hnesting) hvalue
  refine ⟨⟨nodes, 0⟩, ?_, hbuilds.stands nodes (.refl _ _ _), ?_⟩
  · rw [ofEvents, Builder.takeAll_documentStart hstart, htakes]
    exact Builder.takeAll_documentEnd hclose hstop rfl
  · exact Nat.le_trans (Nat.le_add_left _ _) hbuilds.grows

/-- **The graph of the text of a collection stands for the collection.** -/
theorem read_compact {j : Json} (h : j.IsFlow) (hcollection : j.IsCollection)
    (hnesting : j.nesting < nestingLimit) :
    ∃ g, Graph.read (Json.compact j) = .ok (some g) ∧ Stands g.nodes g.root j ∧
      j.nesting ≤ g.nodes.size := by
  have hpermitted : (Json.compact j).takeWhile isPermitted = Json.compact j :=
    List.takeWhile_eq_self_iff.mpr fun c hc => isPermitted_of_graphic (h.graphic c hc)
  obtain ⟨-, hlexemes⟩ := Token.scan_compact h hcollection
  obtain ⟨-, hevents⟩ := Event.ofTokens_of_lexemes h hlexemes
  obtain ⟨g, hg, hstands⟩ := ofEvents_of_occurrences h hnesting hevents
  refine ⟨g, ?_, hstands⟩
  rw [Graph.read]
  simp only [hpermitted, List.drop_length]
  exact hg

end Graph

end TopologyAudit.Yaml
