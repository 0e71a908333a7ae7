import TopologyAudit.Proofs.Yaml.Flow.Value
import TopologyAudit.Yaml.Event

/-!
# The events of a flow collection

From the tokens of a value the grammar makes the events of the value, whatever is to come
after it (`IsNode`). A run of the grammar is told by what its events are, not by their places
(`Yields`), and it takes one step for each event; no value has more events than tokens.
-/

namespace TopologyAudit

/-! ## Events of values -/

namespace Json

open Yaml (Occurrence ScalarStyle)

mutual

/-- The events of a value. -/
def occurrences : Json → List Occurrence
  | .null => [.scalar none none true "null"]
  | .bool true => [.scalar none none true "true"]
  | .bool false => [.scalar none none true "false"]
  | .int n => [.scalar none none true (Text.ofInt n)]
  | .float x => [.scalar none none true (renderFloat x)]
  | .text t => [.scalar none none false t]
  | .array items => .sequenceStart none none :: (itemOccurrences items ++ [.sequenceEnd])
  | .object fields => .mappingStart none none :: (fieldOccurrences fields ++ [.mappingEnd])

def itemOccurrences : List Json → List Occurrence
  | [] => []
  | item :: rest => occurrences item ++ itemOccurrences rest

def fieldOccurrences : List (Text × Json) → List Occurrence
  | [] => []
  | (name, value) :: rest =>
    .scalar none none false name :: (occurrences value ++ fieldOccurrences rest)

end

theorem fieldOccurrences_cons (f : Text × Json) (fields : List (Text × Json)) :
    fieldOccurrences (f :: fields) =
      (.scalar none none false f.1 :: f.2.occurrences) ++ fieldOccurrences fields := rfl

/-- Only plain scalars are looked at for their content. -/
theorem IsAtom.occurrences {j : Json} {t : Text} {style : ScalarStyle} (h : IsAtom j t style) :
    j.occurrences = [.scalar none none (style = .plain) t] := by
  cases h <;> rfl

end Json

namespace Yaml.Grammar

variable {g g' g'' : Grammar} {token : Token} {tokens rest : List Token} {goal : Goal}
  {later : List Goal} {occs occs' : List Occurrence} {t : Text} {style : ScalarStyle} {began : Mark}

/-! ## Runs -/

/-- That a run goes from one place to another with these events. -/
def Yields (g : Grammar) (occs : List Occurrence) (g' : Grammar) : Prop :=
  ∃ events : List Event, events.map (·.what) = occs ∧
    ∀ fuel acc, g.run (fuel + events.length) acc = g'.run fuel (events.reverse ++ acc)

theorem Yields.refl (g : Grammar) : Yields g [] g := ⟨[], rfl, fun _ _ => rfl⟩

theorem Yields.trans (h : Yields g occs g') (h' : Yields g' occs' g'') :
    Yields g (occs ++ occs') g'' := by
  obtain ⟨events, rfl, hrun⟩ := h
  obtain ⟨events', rfl, hrun'⟩ := h'
  refine ⟨events ++ events', List.map_append, fun fuel acc => ?_⟩
  rw [List.length_append, Nat.add_comm events.length, ← Nat.add_assoc, hrun, hrun',
    List.reverse_append, List.append_assoc]

/-- A step is an event, unless nothing is expected any more. -/
theorem yields_of_step {event : Event} (hgoal : g.goal ≠ .nothing) (h : g.step = .ok (event, g')) :
    Yields g [event.what] g' := by
  refine ⟨[event], rfl, fun fuel acc => ?_⟩
  rw [List.length_singleton, run]
  split
  next hnothing => exact absurd hnothing hgoal
  next =>
    rw [h]
    rfl

/-! ## Nodes -/

/-- A token that a value begins with. -/
inductive BeginsNode : Lexeme → Prop
  | scalar (t : Text) (style : ScalarStyle) : BeginsNode (.scalar t style)
  | sequence : BeginsNode .flowSequenceStart
  | mapping : BeginsNode .flowMappingStart

theorem beginsNode_lexemes (j : Json) :
    ∃ first more, j.lexemes = first :: more ∧ BeginsNode first := by
  cases j with
  | bool b => cases b <;> exact ⟨_, _, rfl, .scalar _ _⟩
  | array => exact ⟨_, _, rfl, .sequence⟩
  | object => exact ⟨_, _, rfl, .mapping⟩
  | _ => exact ⟨_, _, rfl, .scalar _ _⟩

/-- The tokens of a value begin with one that a value begins with. -/
theorem exists_beginsNode {j : Json} (h : tokens.map (·.lexeme) = j.lexemes) :
    ∃ token more, tokens = token :: more ∧ BeginsNode token.lexeme := by
  obtain ⟨first, others, hfirst, hbegins⟩ := beginsNode_lexemes j
  obtain ⟨token, more, rfl, rfl, -⟩ := List.map_eq_cons_iff.mp (h.trans hfirst)
  exact ⟨token, more, rfl, hbegins⟩

/-- A token that is all there is. -/
theorem exists_of_map_eq_singleton {lexeme : Lexeme} (h : tokens.map (·.lexeme) = [lexeme]) :
    ∃ token, tokens = [token] ∧ token.lexeme = lexeme := by
  obtain ⟨token, _, rfl, htoken, hnil⟩ := List.map_eq_cons_iff.mp h
  obtain rfl := List.map_eq_nil_iff.mp hnil
  exact ⟨token, rfl, htoken⟩

theorem node_scalar (b i : Bool) (htokens : g.tokens = token :: rest)
    (h : token.lexeme = .scalar t style) :
    g.node b i =
      .ok (⟨.scalar none none (style = .plain) t, token.start⟩, g.drop.resume) := by
  unfold node takeProperties
  simp only [peek, htokens, Outcome.ok_bind, h]
  simp only [pure, Except.pure, Outcome.ok_bind, resolveTag, htokens, h, Option.isSome_none,
    Bool.false_or, Option.getD_none]

theorem node_sequence (b i : Bool) (htokens : g.tokens = token :: rest)
    (h : token.lexeme = .flowSequenceStart) :
    g.node b i = .ok (⟨.sequenceStart none none, token.start⟩,
      { g.drop with goal := .flowSequenceEntry token.start true }) := by
  unfold node takeProperties
  simp only [peek, htokens, Outcome.ok_bind, h]
  simp only [pure, Except.pure, Outcome.ok_bind, resolveTag, htokens, h, Option.getD_none]

theorem node_mapping (b i : Bool) (htokens : g.tokens = token :: rest)
    (h : token.lexeme = .flowMappingStart) :
    g.node b i = .ok (⟨.mappingStart none none, token.start⟩,
      { g.drop with goal := .flowMappingKey token.start true }) := by
  unfold node takeProperties
  simp only [peek, htokens, Outcome.ok_bind, h]
  simp only [pure, Except.pure, Outcome.ok_bind, resolveTag, htokens, h, Option.getD_none]

/-- That tokens are a node with some events, wherever one may stand. -/
def IsNode (lexemes : List Lexeme) (occs : List Occurrence) : Prop :=
  ∀ {g : Grammar} {tokens rest : List Token} {goal : Goal} {later : List Goal} (b i : Bool),
    g.tokens = tokens ++ rest → tokens.map (·.lexeme) = lexemes → g.later = goal :: later →
      ∃ event more g', occs = event.what :: more ∧ g.node b i = .ok (event, g') ∧
        Yields g' more { g with tokens := rest, goal, later }

/-- A step to a node. -/
theorem IsNode.yields {lexemes : List Lexeme} {b i : Bool} (h : IsNode lexemes occs)
    (hgoal : g.goal ≠ .nothing) (hstep : g.step = g'.node b i)
    (htokens : g'.tokens = tokens ++ rest) (hlexemes : tokens.map (·.lexeme) = lexemes)
    (hlater : g'.later = goal :: later) :
    Yields g occs { g' with tokens := rest, goal, later } := by
  obtain ⟨event, more, next, rfl, hnode, hyields⟩ := h b i htokens hlexemes hlater
  exact (yields_of_step hgoal (hstep.trans hnode)).trans hyields

/-- Behind the last token of a node comes what was to come later. -/
theorem resume_drop (htokens : g.tokens = token :: rest) (hlater : g.later = goal :: later) :
    g.drop.resume = { g with tokens := rest, goal, later } := by
  simp only [resume, drop, hlater, htokens, List.tail_cons]

theorem isNode_scalar (t : Text) (style : ScalarStyle) :
    IsNode [.scalar t style] [.scalar none none (style = .plain) t] := by
  intro g tokens rest goal later b i htokens hlexemes hlater
  obtain ⟨token, rfl, htoken⟩ := exists_of_map_eq_singleton hlexemes
  refine ⟨_, [], g.drop.resume, rfl, node_scalar b i htokens htoken, ?_⟩
  rw [resume_drop htokens hlater]
  exact .refl _

/-! ## Sequences -/

section Sequence

variable {isFirst : Bool} {comma : Token}

theorem yields_sequence_end (hgoal : g.goal = .flowSequenceEntry began isFirst)
    (htokens : g.tokens = tokens ++ rest) (h : tokens.map (·.lexeme) = [.flowSequenceEnd])
    (hlater : g.later = goal :: later) :
    Yields g [.sequenceEnd] { g with tokens := rest, goal, later } := by
  obtain ⟨token, rfl, htoken⟩ := exists_of_map_eq_singleton h
  have hstep : g.step = .ok (⟨.sequenceEnd, token.start⟩, g.drop.resume) := by
    unfold step
    simp only [hgoal, flowSequenceEntry, takeComma, peek, htokens, List.singleton_append,
      Outcome.ok_bind, htoken, beq_self_eq_true, Bool.true_or, if_true]
    simp only [pure, Except.pure, Outcome.ok_bind, htokens, List.singleton_append, htoken]
  rw [resume_drop htokens hlater] at hstep
  exact yields_of_step (by rw [hgoal]; exact Goal.noConfusion) hstep

theorem step_sequence_first (hgoal : g.goal = .flowSequenceEntry began true)
    (htokens : g.tokens = token :: rest) (h : BeginsNode token.lexeme) :
    g.step = (g.andThen (.flowSequenceEntry began false)).node false false := by
  unfold step
  simp only [hgoal, flowSequenceEntry, takeComma, peek, htokens, Outcome.ok_bind, Bool.or_true,
    if_true]
  simp only [pure, Except.pure, Outcome.ok_bind, htokens]
  generalize token.lexeme = lexeme at h
  cases h <;> rfl

theorem step_sequence_next (hgoal : g.goal = .flowSequenceEntry began false)
    (htokens : g.tokens = comma :: token :: rest) (hcomma : comma.lexeme = .flowEntry)
    (h : BeginsNode token.lexeme) :
    g.step = (g.drop.andThen (.flowSequenceEntry began false)).node false false := by
  have hstop : (Lexeme.flowEntry == Lexeme.flowSequenceEnd) = false := by decide
  unfold step
  simp only [hgoal, flowSequenceEntry, takeComma, peek, drop, htokens, Outcome.ok_bind, hcomma,
    hstop, Bool.false_or, Bool.false_eq_true, if_false, beq_self_eq_true, if_true]
  simp only [pure, Except.pure, Outcome.ok_bind, List.tail_cons]
  generalize token.lexeme = lexeme at h
  cases h <;> rfl

/-- An item without the comma in front of it. -/
theorem yields_item {item : Json} (h : IsNode item.lexemes item.occurrences)
    (hstep : ∀ {token : Token} {rest : List Token}, g'.tokens = token :: rest →
      BeginsNode token.lexeme →
        g.step = (g'.andThen (.flowSequenceEntry began false)).node false false)
    (hgoal : g.goal ≠ .nothing) (htokens : g'.tokens = tokens ++ rest)
    (hlexemes : tokens.map (·.lexeme) = item.lexemes) :
    Yields g item.occurrences
      { g' with tokens := rest, goal := .flowSequenceEntry began false } := by
  obtain ⟨token, more, rfl, hbegins⟩ := exists_beginsNode hlexemes
  have hrest : (g'.andThen (.flowSequenceEntry began false)).tokens = token :: more ++ rest :=
    htokens
  have hyields := h.yields hgoal (hstep htokens hbegins) hrest hlexemes rfl
  exact hyields

/-- A sequence goes on with the items behind commas, up to its end. -/
theorem yields_items {items : List Json}
    (h : ∀ item ∈ items, IsNode item.lexemes item.occurrences) :
    ∀ {g : Grammar} {tokens : List Token}, g.goal = .flowSequenceEntry began false →
      g.tokens = tokens ++ rest →
      tokens.map (·.lexeme) = Json.itemLexemes items ++ [.flowSequenceEnd] →
      g.later = goal :: later →
      Yields g (Json.itemOccurrences items ++ [.sequenceEnd])
        { g with tokens := rest, goal, later } := by
  induction items with
  | nil =>
    intro g tokens hgoal htokens hlexemes hlater
    exact yields_sequence_end hgoal htokens hlexemes hlater
  | cons item items ih =>
    intro g tokens hgoal htokens hlexemes hlater
    obtain ⟨hitem, hitems⟩ := List.forall_mem_cons.mp h
    -- the comma, the item, and what follows it
    rw [Json.itemLexemes, List.cons_append, List.append_assoc] at hlexemes
    obtain ⟨comma, behind, rfl, hcomma, hbehind⟩ := List.map_eq_cons_iff.mp hlexemes
    obtain ⟨node, after, rfl, hnode, hafter⟩ := List.map_eq_append_iff.mp hbehind
    rw [List.cons_append, List.append_assoc] at htokens
    have hdrop : g.drop.tokens = node ++ (after ++ rest) := by
      rw [drop, htokens, List.tail_cons]
    have hstep : ∀ {token : Token} {others : List Token}, g.drop.tokens = token :: others →
        BeginsNode token.lexeme →
          g.step = (g.drop.andThen (.flowSequenceEntry began false)).node false false :=
      fun hbehind hbegins =>
        step_sequence_next hgoal (by rw [htokens, ← hdrop, hbehind]) hcomma hbegins
    have hyields := yields_item hitem hstep (by rw [hgoal]; exact Goal.noConfusion) hdrop hnode
    rw [Json.itemOccurrences, List.append_assoc]
    exact hyields.trans (ih hitems rfl rfl hafter hlater)

/-- A sequence of nodes is a node. -/
theorem isNode_array {items : List Json}
    (h : ∀ item ∈ items, IsNode item.lexemes item.occurrences) :
    IsNode (Json.array items).lexemes (Json.array items).occurrences := by
  intro g tokens rest goal later b i htokens hlexemes hlater
  rw [Json.lexemes] at hlexemes
  obtain ⟨start, inner, rfl, hstart, hinner⟩ := List.map_eq_cons_iff.mp hlexemes
  refine ⟨_, _, _, rfl, node_sequence b i htokens hstart, ?_⟩
  have hdrop : g.drop.tokens = inner ++ rest := by
    rw [drop, htokens]
    rfl
  have hlater' : g.drop.later = goal :: later := hlater
  cases items with
  | nil => exact yields_sequence_end rfl hdrop hinner hlater'
  | cons item items =>
    -- the first item has no comma in front
    obtain ⟨hitem, hitems⟩ := List.forall_mem_cons.mp h
    rw [Json.itemLexemes, List.tail_cons, List.append_assoc] at hinner
    obtain ⟨node, after, rfl, hnode, hafter⟩ := List.map_eq_append_iff.mp hinner
    rw [List.append_assoc] at hdrop
    have hyields := yields_item hitem
      (g := { g.drop with goal := .flowSequenceEntry start.start true })
      (fun hbehind hbegins => step_sequence_first rfl hbehind hbegins) Goal.noConfusion hdrop hnode
    rw [Json.itemOccurrences, List.append_assoc]
    exact hyields.trans (yields_items hitems rfl rfl hafter hlater')

end Sequence

/-! ## Mappings -/

section Mapping

variable {isFirst : Bool} {comma key : Token}

theorem yields_mapping_end (hgoal : g.goal = .flowMappingKey began isFirst)
    (htokens : g.tokens = tokens ++ rest) (h : tokens.map (·.lexeme) = [.flowMappingEnd])
    (hlater : g.later = goal :: later) :
    Yields g [.mappingEnd] { g with tokens := rest, goal, later } := by
  obtain ⟨token, rfl, htoken⟩ := exists_of_map_eq_singleton h
  have hstep : g.step = .ok (⟨.mappingEnd, token.start⟩, g.drop.resume) := by
    unfold step
    simp only [hgoal, flowMappingKey, takeComma, peek, htokens, List.singleton_append,
      Outcome.ok_bind, htoken, beq_self_eq_true, Bool.true_or, if_true]
    simp only [pure, Except.pure, Outcome.ok_bind, htokens, List.singleton_append, htoken]
  rw [resume_drop htokens hlater] at hstep
  exact yields_of_step (by rw [hgoal]; exact Goal.noConfusion) hstep

theorem step_mapping_first (hgoal : g.goal = .flowMappingKey began true)
    (htokens : g.tokens = key :: token :: rest) (hkey : key.lexeme = .key)
    (h : BeginsNode token.lexeme) :
    g.step = (g.drop.andThen (.flowMappingValue began)).node false false := by
  obtain ⟨_, lack, _, later, handles⟩ := g
  cases hgoal
  cases htokens
  simp only [step, flowMappingKey, takeComma, peek, drop, Outcome.ok_bind, Bool.or_true, if_true]
  simp only [pure, Except.pure, Outcome.ok_bind, hkey, List.tail_cons]
  generalize token.lexeme = lexeme at h
  cases h <;> rfl

theorem step_mapping_next (hgoal : g.goal = .flowMappingKey began false)
    (htokens : g.tokens = comma :: key :: token :: rest) (hcomma : comma.lexeme = .flowEntry)
    (hkey : key.lexeme = .key) (h : BeginsNode token.lexeme) :
    g.step = (g.drop.drop.andThen (.flowMappingValue began)).node false false := by
  have hstop : (Lexeme.flowEntry == Lexeme.flowMappingEnd) = false := by decide
  unfold step
  simp only [hgoal, flowMappingKey, takeComma, peek, drop, htokens, Outcome.ok_bind, hcomma, hstop,
    Bool.false_or, Bool.false_eq_true, if_false, beq_self_eq_true, if_true]
  simp only [pure, Except.pure, Outcome.ok_bind, hkey, List.tail_cons]
  generalize token.lexeme = lexeme at h
  cases h <;> rfl

theorem step_mapping_value {colon : Token} (hgoal : g.goal = .flowMappingValue began)
    (htokens : g.tokens = colon :: token :: rest) (hcolon : colon.lexeme = .value)
    (h : BeginsNode token.lexeme) :
    g.step = (g.drop.andThen (.flowMappingKey began false)).node false false := by
  unfold step
  simp only [hgoal, flowMappingValue, peek, drop, htokens, Outcome.ok_bind, hcolon, List.tail_cons]
  generalize token.lexeme = lexeme at h
  cases h <;> rfl

/-- A field without the comma in front of it: its name, and its value. -/
theorem yields_field {name : Text} {value : Json}
    (h : IsNode value.lexemes value.occurrences)
    (hstep : ∀ {key token : Token} {rest : List Token}, g'.tokens = key :: token :: rest →
      key.lexeme = .key → BeginsNode token.lexeme →
        g.step = (g'.drop.andThen (.flowMappingValue began)).node false false)
    (hgoal : g.goal ≠ .nothing) (htokens : g'.tokens = tokens ++ rest)
    (hlexemes : tokens.map (·.lexeme) = Json.lexemesOfField (name, value)) :
    Yields g (.scalar none none false name :: value.occurrences)
      { g' with tokens := rest, goal := .flowMappingKey began false } := by
  obtain ⟨key, behind, rfl, hkey, hbehind⟩ := List.map_eq_cons_iff.mp hlexemes
  obtain ⟨written, behind, rfl, hwritten, hbehind⟩ := List.map_eq_cons_iff.mp hbehind
  obtain ⟨colon, node, rfl, hcolon, hnode⟩ := List.map_eq_cons_iff.mp hbehind
  obtain ⟨token, node, rfl, hbegins⟩ := exists_beginsNode hnode
  have hname := IsNode.yields (isNode_scalar name .marked) hgoal
    (hstep htokens hkey (hwritten ▸ .scalar _ _))
    (show (g'.drop.andThen (.flowMappingValue began)).tokens =
        [written] ++ (colon :: token :: (node ++ rest)) by
      rw [andThen, drop, htokens]
      rfl)
    (congrArg ([·]) hwritten) rfl
  have hvalue := IsNode.yields h Goal.noConfusion
    (@step_mapping_value { g'.drop with
      tokens := colon :: token :: (node ++ rest), goal := .flowMappingValue began } _ _ _ _ rfl rfl
      hcolon hbegins)
    (show _ = token :: node ++ rest from rfl) hnode rfl
  exact hname.trans hvalue

/-- A mapping goes on with the fields behind commas, up to its end. -/
theorem yields_fields {fields : List (Text × Json)}
    (h : ∀ f ∈ fields, IsNode f.2.lexemes f.2.occurrences) :
    ∀ {g : Grammar} {tokens : List Token}, g.goal = .flowMappingKey began false →
      g.tokens = tokens ++ rest →
      tokens.map (·.lexeme) = Json.fieldLexemes fields ++ [.flowMappingEnd] →
      g.later = goal :: later →
      Yields g (Json.fieldOccurrences fields ++ [.mappingEnd])
        { g with tokens := rest, goal, later } := by
  induction fields with
  | nil =>
    intro g tokens hgoal htokens hlexemes hlater
    exact yields_mapping_end hgoal htokens hlexemes hlater
  | cons f fields ih =>
    intro g tokens hgoal htokens hlexemes hlater
    obtain ⟨hvalue, hfields⟩ := List.forall_mem_cons.mp h
    -- the comma, the field, and what follows it
    rw [Json.fieldLexemes_eq, List.map_cons, Json.lexemesAfterCommas_cons, List.cons_append,
      List.append_assoc, ← Json.fieldLexemes_eq] at hlexemes
    obtain ⟨comma, behind, rfl, hcomma, hbehind⟩ := List.map_eq_cons_iff.mp hlexemes
    obtain ⟨field, after, rfl, hfield, hafter⟩ := List.map_eq_append_iff.mp hbehind
    rw [List.cons_append, List.append_assoc] at htokens
    have hdrop : g.drop.tokens = field ++ (after ++ rest) := by
      rw [drop, htokens, List.tail_cons]
    have hstep : ∀ {key token : Token} {others : List Token},
        g.drop.tokens = key :: token :: others → key.lexeme = .key → BeginsNode token.lexeme →
          g.step = (g.drop.drop.andThen (.flowMappingValue began)).node false false :=
      fun hbehind hkey hbegins =>
        step_mapping_next hgoal (by rw [htokens, ← hdrop, hbehind]) hcomma hkey hbegins
    have hyields := yields_field hvalue hstep (by rw [hgoal]; exact Goal.noConfusion) hdrop hfield
    rw [Json.fieldOccurrences_cons, List.append_assoc]
    exact hyields.trans (ih hfields rfl rfl hafter hlater)

/-- A mapping of nodes is a node. -/
theorem isNode_object {fields : List (Text × Json)}
    (h : ∀ f ∈ fields, IsNode f.2.lexemes f.2.occurrences) :
    IsNode (Json.object fields).lexemes (Json.object fields).occurrences := by
  intro g tokens rest goal later b i htokens hlexemes hlater
  rw [Json.lexemes] at hlexemes
  obtain ⟨start, inner, rfl, hstart, hinner⟩ := List.map_eq_cons_iff.mp hlexemes
  refine ⟨_, _, _, rfl, node_mapping b i htokens hstart, ?_⟩
  have hdrop : g.drop.tokens = inner ++ rest := by
    rw [drop, htokens]
    rfl
  have hlater' : g.drop.later = goal :: later := hlater
  cases fields with
  | nil => exact yields_mapping_end rfl hdrop hinner hlater'
  | cons f fields =>
    -- the first field has no comma in front
    obtain ⟨hvalue, hfields⟩ := List.forall_mem_cons.mp h
    rw [Json.fieldLexemes_eq, List.map_cons, Json.lexemesAfterCommas_cons, List.tail_cons,
      List.append_assoc, ← Json.fieldLexemes_eq] at hinner
    obtain ⟨field, after, rfl, hfield, hafter⟩ := List.map_eq_append_iff.mp hinner
    rw [List.append_assoc] at hdrop
    have hyields := yields_field hvalue
      (g := { g.drop with goal := .flowMappingKey start.start true })
      (fun hbehind hkey hbegins => step_mapping_first rfl hbehind hkey hbegins)
      Goal.noConfusion hdrop hfield
    rw [Json.fieldOccurrences_cons, List.append_assoc]
    exact hyields.trans (yields_fields hfields rfl rfl hafter hlater')

end Mapping

/-- **The tokens of a value are a node with the events of the value.** -/
theorem isNode_of_isFlow {j : Json} (h : j.IsFlow) : IsNode j.lexemes j.occurrences := by
  induction h with
  | atom hatom =>
    rw [hatom.lexemes, hatom.occurrences]
    exact isNode_scalar _ _
  | array _ ih => exact isNode_array ih
  | object _ _ _ ih => exact isNode_object ih

end Yaml.Grammar

/-! ## Documents -/

namespace Json

mutual

/-- No value has more events than tokens. -/
theorem length_occurrences_le : ∀ j : Json, j.occurrences.length ≤ j.lexemes.length
  | .null | .bool true | .bool false | .int _ | .float _ | .text _ => Nat.le_refl 1
  | .array items => by
    have hitems := length_itemOccurrences_le items
    simp only [occurrences, lexemes, List.length_cons, List.length_append, List.length_nil]
    omega
  | .object fields => by
    have hfields := length_fieldOccurrences_le fields
    simp only [occurrences, lexemes, List.length_cons, List.length_append, List.length_nil]
    omega

theorem length_itemOccurrences_le :
    ∀ items : List Json, (itemOccurrences items).length ≤ (itemLexemes items).tail.length
  | [] => Nat.le_refl 0
  | item :: rest => by
    have hitem := length_occurrences_le item
    have hrest := length_itemOccurrences_le rest
    rw [List.length_tail] at hrest
    simp only [itemOccurrences, itemLexemes, List.tail_cons, List.length_append]
    omega

theorem length_fieldOccurrences_le : ∀ fields : List (Text × Json),
    (fieldOccurrences fields).length ≤ (fieldLexemes fields).tail.length
  | [] => Nat.le_refl 0
  | (_, value) :: rest => by
    have hvalue := length_occurrences_le value
    have hrest := length_fieldOccurrences_le rest
    rw [List.length_tail] at hrest
    simp only [fieldOccurrences, fieldLexemes, List.tail_cons, List.length_append, List.length_cons]
    omega

end

end Json

namespace Yaml

namespace Grammar

variable {g g' : Grammar} {occs : List Occurrence} {token : Token} {rest : List Token}

/-- A run that comes to where nothing more is expected has its events. -/
theorem Yields.run_eq (h : Yields g occs g') (hgoal : g'.goal = .nothing) {fuel : Nat}
    (hfuel : occs.length < fuel) :
    (g.run fuel []).failure = none ∧ (g.run fuel []).items.map (·.what) = occs := by
  obtain ⟨events, rfl, hrun⟩ := h
  rw [List.length_map] at hfuel
  obtain ⟨left, rfl⟩ : ∃ left, fuel = left + 1 + events.length :=
    ⟨fuel - 1 - events.length, by omega⟩
  rw [hrun, run, hgoal, List.append_nil, List.reverse_reverse]
  exact ⟨rfl, rfl⟩

/-- A document may begin with its node. -/
theorem yields_firstDocument (hgoal : g.goal = .firstDocument)
    (htokens : g.tokens.tail = token :: rest) (h : BeginsNode token.lexeme) :
    Yields g [.documentStart] { g.drop.andThen .documentEnd with
      goal := .blockNode, handles := standardHandles } := by
  obtain ⟨tokens, lack, _, later, handles⟩ := g
  cases hgoal
  have hstep : step ⟨tokens, lack, .firstDocument, later, handles⟩ =
      .ok (⟨.documentStart, token.start⟩,
        { (drop ⟨tokens, lack, .firstDocument, later, handles⟩).andThen .documentEnd with
          goal := .blockNode, handles := standardHandles }) := by
    simp only [step, implicitDocument, peek, drop, htokens, Outcome.ok_bind]
    generalize token.lexeme = lexeme at h
    cases h <;> rfl
  exact yields_of_step Goal.noConfusion hstep

/-- The end of the text ends a document. -/
theorem yields_documentEnd (hgoal : g.goal = .documentEnd) (htokens : g.tokens = [token])
    (h : token.lexeme = .streamEnd) :
    Yields g [.documentEnd, .streamEnd] { g with tokens := [], goal := .nothing } := by
  obtain ⟨_, lack, _, later, handles⟩ := g
  cases hgoal
  cases htokens
  have hend : isDocumentEnd token = false := by
    rw [isDocumentEnd, h]
    rfl
  have hdocument : step ⟨[token], lack, .documentEnd, later, handles⟩ =
      .ok (⟨.documentEnd, token.start⟩, ⟨[token], lack, .document, later, handles⟩) := by
    simp only [step, peek, Outcome.ok_bind, hend]
    rfl
  have hstream : step ⟨[token], lack, .document, later, handles⟩ =
      .ok (⟨.streamEnd, token.start⟩, ⟨[], lack, .nothing, later, handles⟩) := by
    have hkept : [token].dropWhile isDocumentEnd = [token] := by
      rw [List.dropWhile_cons, hend, if_neg Bool.false_ne_true]
    simp only [step, explicitDocument, peek, hkept, Outcome.ok_bind, h]
    rfl
  exact (yields_of_step Goal.noConfusion hdocument).trans (yields_of_step Goal.noConfusion hstream)

end Grammar

open Grammar

/-- **The events of the text of a collection.** -/
theorem Event.ofTokens_of_lexemes {j : Json} (h : j.IsFlow) {tokens : Supply Token}
    (hlexemes : tokens.items.map (·.lexeme) = .streamStart :: (j.lexemes ++ [.streamEnd])) :
    (Event.ofTokens tokens).failure = none ∧
      (Event.ofTokens tokens).items.map (·.what) =
        .documentStart :: (j.occurrences ++ [.documentEnd, .streamEnd]) := by
  have hlength : tokens.items.length = j.lexemes.length + 2 := by
    rw [← List.length_map, hlexemes, List.length_cons, List.length_append, List.length_singleton]
  obtain ⟨items, failure⟩ := tokens
  obtain ⟨start, behind, rfl, -, hbehind⟩ := List.map_eq_cons_iff.mp hlexemes
  obtain ⟨node, ends, rfl, hnode, hends⟩ := List.map_eq_append_iff.mp hbehind
  obtain ⟨stop, rfl, hstop⟩ := exists_of_map_eq_singleton hends
  obtain ⟨token, node, rfl, hbegins⟩ := exists_beginsNode hnode
  have hdocument := @yields_firstDocument
    ⟨start :: (token :: node ++ [stop]), failure.getD (.refused .tooDeep), .firstDocument, [],
      standardHandles⟩ token (node ++ [stop]) rfl rfl hbegins
  have hvalue := @IsNode.yields
    ⟨token :: node ++ [stop], failure.getD (.refused .tooDeep), .blockNode, [.documentEnd],
      standardHandles⟩ _ _ _ _ [] _ _ true false (isNode_of_isFlow h) Goal.noConfusion rfl rfl
      hnode rfl
  have hyields := hdocument.trans (hvalue.trans (yields_documentEnd rfl rfl hstop))
  have hfuel := Json.length_occurrences_le j
  refine hyields.run_eq rfl ?_
  simp only [List.length_append, List.length_cons, List.length_nil] at hlength ⊢
  omega

end Yaml

end TopologyAudit
