import TopologyAudit.Proofs.Yaml.Token.Lexer
import TopologyAudit.Yaml.Event

/-!
# The events of a text are from the text

Only a node with a tag in front of it has a tag, and only a plain scalar, or one with a
tag in front of it, is looked at for its content. So a text without exclamation marks has
no events with tags. `Grammar.IsFrom` carries this from token to token (`step_isFrom`) and
through a whole run (`Event.ofTokens_isFrom`).
-/

namespace TopologyAudit.Yaml

variable {t : Text}

/-- What a text needs to hold for an occurrence to be found in it. -/
def Occurrence.IsFrom (t : Text) : Occurrence → Prop
  | .scalar _ tag byContent text =>
    (tag.isSome = true → CodePoint.ofChar '!' ∈ t) ∧
      (byContent = true → CodePoint.ofChar '!' ∈ t ∨ IsPlainOf t text)
  | .sequenceStart _ tag | .mappingStart _ tag => tag.isSome = true → CodePoint.ofChar '!' ∈ t
  | _ => True

theorem isPlainOf_nil (t : Text) : IsPlainOf t [] := ⟨by simp, by simp⟩

namespace Grammar

/-- The tokens left are found in a text, and behind them comes a breakdown only for an
escape in the text. -/
structure IsFrom (t : Text) (g : Grammar) : Prop where
  lexemes : ∀ token ∈ g.tokens, token.lexeme.IsFrom t
  lack : ∀ b, g.lack = .broken b → EscapeIn t b

/-- An event from a text, and a place in the grammar from it. -/
def IsStepFrom (t : Text) (r : Event × Grammar) : Prop := r.1.what.IsFrom t ∧ r.2.IsFrom t

theorem emptyAt_isFrom (mark : Mark) : (emptyAt mark).what.IsFrom t :=
  ⟨nofun, fun _ => Or.inr (isPlainOf_nil t)⟩

namespace IsFrom

variable {g : Grammar}

theorem failed {α : Type} {P : α → Prop} (h : g.IsFrom t) :
    Ends (EscapeIn t) P (.error g.lack : Except Error α) := by
  have hlack := h.lack
  cases hg : g.lack with
  | refused r => exact Ends.refused r
  | broken b => exact Ends.broken (hlack b hg)

theorem peek (h : g.IsFrom t) :
    Ends (EscapeIn t) (fun token => token.lexeme.IsFrom t) g.peek := by
  unfold Grammar.peek
  split
  next => exact h.failed
  next token rest heq => exact Ends.ok (h.lexemes token (heq ▸ List.mem_cons_self ..))

theorem drop (h : g.IsFrom t) : g.drop.IsFrom t :=
  ⟨fun token htoken => h.lexemes token (List.mem_of_mem_tail htoken), h.lack⟩

theorem goal (h : g.IsFrom t) (goal : Goal) : IsFrom t { g with goal } := ⟨h.lexemes, h.lack⟩

theorem andThen (h : g.IsFrom t) (goal : Goal) : (g.andThen goal).IsFrom t := ⟨h.lexemes, h.lack⟩

theorem resume (h : g.IsFrom t) : g.resume.IsFrom t := by
  unfold Grammar.resume
  split
  next => exact h.goal _
  next => exact ⟨h.lexemes, h.lack⟩

end IsFrom

/-! ## Nodes -/

variable {g : Grammar}

theorem takeProperties_ends (h : g.IsFrom t) :
    Ends (EscapeIn t)
      (fun r => (r.1.tag.isSome = true → CodePoint.ofChar '!' ∈ t) ∧ r.2.IsFrom t)
      g.takeProperties := by
  refine Ends.bind h.peek ?_
  intro first hfirst
  dsimp only
  split
  next name heq =>
    refine Ends.bind h.drop.peek ?_
    intro second hsecond
    split
    next handle suffix heq =>
      rw [heq] at hsecond
      exact Ends.ok ⟨fun _ => hsecond, h.drop.drop⟩
    next => exact Ends.ok ⟨nofun, h.drop⟩
  next handle suffix heq =>
    rw [heq] at hfirst
    refine Ends.bind h.drop.peek ?_
    intro second _
    split
    next => exact Ends.ok ⟨fun _ => hfirst, h.drop.drop⟩
    next => exact Ends.ok ⟨fun _ => hfirst, h.drop⟩
  next => exact Ends.ok ⟨nofun, h⟩

/-- A node has a tag only if one is written in front of it. -/
theorem resolveTag_ends {B : Breakdown → Prop} (g : Grammar) (p : Properties) :
    Ends B (fun tag => tag.isSome = true → p.tag.isSome = true) (g.resolveTag p) := by
  unfold resolveTag
  split
  next => exact Ends.ok nofun
  next heq =>
    refine Ends.ok fun _ => ?_
    rw [heq]
    rfl
  next heq =>
    split
    next =>
      refine Ends.ok fun _ => ?_
      rw [heq]
      rfl
    next => exact Ends.during

theorem unexpectedToken_ends {α : Type} {B : Breakdown → Prop} {P : α → Prop}
    {activity : Activity} {began : Mark} {problem : Text → Problem} {token : Token} :
    Ends B P (unexpectedToken activity began problem token) :=
  Ends.during

theorem node_isFrom {inBlock indentless : Bool} (h : g.IsFrom t) :
    Ends (EscapeIn t) (IsStepFrom t) (g.node inBlock indentless) := by
  refine Ends.bind h.peek ?_
  intro first _
  dsimp only
  split
  next => exact Ends.ok ⟨trivial, h.drop.resume⟩
  next =>
    refine Ends.bind (takeProperties_ends h) ?_
    intro r hr
    obtain ⟨p, g⟩ := r
    obtain ⟨hp, hg⟩ := hr
    refine Ends.bind (resolveTag_ends g p) ?_
    intro tag htag
    have hmark : tag.isSome = true → CodePoint.ofChar '!' ∈ t := fun hs => hp (htag hs)
    refine Ends.bind hg.peek ?_
    intro token htoken
    -- a node with properties and no content is an empty scalar
    have hempty : Ends (EscapeIn t) (IsStepFrom t)
        (if p.began.isSome = true then
          .ok (⟨.scalar p.anchor tag true [], p.began.getD token.start⟩, g.resume)
        else
          unexpectedToken (if inBlock then Activity.parsingBlockNode else .parsingFlowNode)
            (p.began.getD token.start) .expectedContent token) :=
      Ends.ite (fun _ => Ends.ok ⟨⟨hmark, fun _ => Or.inr (isPlainOf_nil t)⟩, hg.resume⟩)
        fun _ => unexpectedToken_ends
    dsimp only
    split
    next => exact Ends.ite (fun _ => Ends.ok ⟨hmark, hg.goal _⟩) fun _ => hempty
    next text style heq =>
      rw [heq] at htoken
      refine Ends.ok ⟨⟨hmark, ?_⟩, hg.drop.resume⟩
      intro hcontent
      -- a scalar is looked at for its content if it has a tag or is plain
      rcases Bool.or_eq_true_iff.mp hcontent with htagged | hplain
      · exact Or.inl (hp htagged)
      · obtain rfl : style = .plain := of_decide_eq_true hplain
        exact Or.inr htoken
    next => exact Ends.ok ⟨hmark, hg.drop.goal _⟩
    next => exact Ends.ok ⟨hmark, hg.drop.goal _⟩
    next => exact Ends.ite (fun _ => Ends.ok ⟨hmark, hg.drop.goal _⟩) fun _ => hempty
    next => exact Ends.ite (fun _ => Ends.ok ⟨hmark, hg.drop.goal _⟩) fun _ => hempty
    next => exact hempty

/-! ## Documents -/

theorem takeDirectives_ends {B : Breakdown → Prop} {tokens : List Token}
    {version : Option (Nat × Nat)} {handles : List (Text × Text)} :
    Ends B (fun r => r.2 <:+ tokens) (takeDirectives tokens version handles) := by
  induction tokens generalizing version handles with
  | nil => exact Ends.ok (List.suffix_refl _)
  | cons token rest ih =>
    -- any version and any handles: both change on the way
    have hrest : ∀ {version : Option (Nat × Nat)} {handles : List (Text × Text)},
        Ends B (fun r => r.2 <:+ token :: rest) (takeDirectives rest version handles) :=
      ih.mono (fun _ hb => hb) fun _ hr => hr.trans (List.suffix_cons _ _)
    unfold takeDirectives
    split
    next =>
      refine Ends.ite (fun _ => Ends.here) fun _ => ?_
      exact Ends.ite (fun _ => Ends.here) fun _ => hrest
    next => exact Ends.ite (fun _ => Ends.here) fun _ => hrest
    next => exact hrest
    next => exact Ends.ok (List.suffix_refl _)

theorem explicitDocument_isFrom (h : g.IsFrom t) :
    Ends (EscapeIn t) (IsStepFrom t) g.explicitDocument := by
  have hg : IsFrom t { g with tokens := g.tokens.dropWhile isDocumentEnd } :=
    ⟨fun token htoken => h.lexemes token ((List.dropWhile_sublist _).subset htoken), h.lack⟩
  refine Ends.bind hg.peek ?_
  intro first _
  dsimp only
  split
  next => exact Ends.ok ⟨trivial, hg.drop.goal _⟩
  next =>
    refine Ends.bind takeDirectives_ends ?_
    intro r htokens
    obtain ⟨handles, tokens⟩ := r
    have hnext : IsFrom t
        { tokens, lack := g.lack, goal := g.goal, later := g.later,
          handles := handles ++ standardHandles } :=
      ⟨fun token htoken => hg.lexemes token (htokens.subset htoken), h.lack⟩
    refine Ends.bind hnext.peek ?_
    intro token _
    dsimp only
    split
    next => exact Ends.ok ⟨trivial, (hnext.drop.andThen _).goal _⟩
    next => exact Ends.here

theorem implicitDocument_isFrom (h : g.IsFrom t) :
    Ends (EscapeIn t) (IsStepFrom t) g.implicitDocument := by
  refine Ends.bind h.peek ?_
  intro first _
  dsimp only
  split
  next => exact explicitDocument_isFrom h
  next => exact explicitDocument_isFrom h
  next => exact explicitDocument_isFrom h
  next => exact Ends.ok ⟨trivial, ⟨h.lexemes, h.lack⟩⟩

/-- An empty scalar stands where nothing is written. -/
theorem emptyAt_ends {mark : Mark} (h : g.IsFrom t) :
    Ends (EscapeIn t) (IsStepFrom t) (.ok (emptyAt mark, g)) :=
  Ends.ok ⟨emptyAt_isFrom mark, h⟩

theorem documentContent_isFrom (h : g.IsFrom t) :
    Ends (EscapeIn t) (IsStepFrom t) g.documentContent := by
  refine Ends.bind h.peek ?_
  intro token _
  split
  next => exact emptyAt_ends h.resume
  next => exact emptyAt_ends h.resume
  next => exact emptyAt_ends h.resume
  next => exact emptyAt_ends h.resume
  next => exact node_isFrom h

/-! ## Collections -/

theorem blockSequenceEntry_isFrom (h : g.IsFrom t) (began : Mark) :
    Ends (EscapeIn t) (IsStepFrom t) (g.blockSequenceEntry began) := by
  refine Ends.bind h.peek ?_
  intro token _
  dsimp only
  split
  next =>
    refine Ends.bind h.drop.peek ?_
    intro next _
    split
    next => exact emptyAt_ends (h.drop.goal _)
    next => exact emptyAt_ends (h.drop.goal _)
    next => exact node_isFrom (h.drop.andThen _)
  next => exact Ends.ok ⟨trivial, h.drop.resume⟩
  next => exact unexpectedToken_ends

theorem indentlessEntry_isFrom (h : g.IsFrom t) :
    Ends (EscapeIn t) (IsStepFrom t) g.indentlessEntry := by
  refine Ends.bind h.peek ?_
  intro token _
  dsimp only
  split
  next =>
    refine Ends.bind h.drop.peek ?_
    intro next _
    exact Ends.ite (fun _ => emptyAt_ends (h.drop.goal _)) fun _ =>
      node_isFrom (h.drop.andThen _)
  next => exact Ends.ok ⟨trivial, h.resume⟩

theorem blockMappingKey_isFrom (h : g.IsFrom t) (began : Mark) :
    Ends (EscapeIn t) (IsStepFrom t) (g.blockMappingKey began) := by
  refine Ends.bind h.peek ?_
  intro token _
  dsimp only
  split
  next =>
    refine Ends.bind h.drop.peek ?_
    intro next _
    exact Ends.ite (fun _ => emptyAt_ends (h.drop.goal _)) fun _ =>
      node_isFrom (h.drop.andThen _)
  next => exact Ends.ok ⟨trivial, h.drop.resume⟩
  next => exact unexpectedToken_ends

theorem blockMappingValue_isFrom (h : g.IsFrom t) (began : Mark) :
    Ends (EscapeIn t) (IsStepFrom t) (g.blockMappingValue began) := by
  refine Ends.bind h.peek ?_
  intro token _
  dsimp only
  split
  next =>
    refine Ends.bind h.drop.peek ?_
    intro next _
    exact Ends.ite (fun _ => emptyAt_ends (h.drop.goal _)) fun _ =>
      node_isFrom (h.drop.andThen _)
  next => exact emptyAt_ends (h.goal _)

theorem takeComma_isFrom {isFirst : Bool} {isEnd : Lexeme → Bool}
    {complain : Token → Except Error Grammar} (h : g.IsFrom t)
    (hcomplain : ∀ token, Ends (EscapeIn t) (IsFrom t) (complain token)) :
    Ends (EscapeIn t) (IsFrom t) (g.takeComma isFirst isEnd complain) := by
  refine Ends.bind h.peek ?_
  intro token _
  refine Ends.ite (fun _ => Ends.ok h) fun _ => ?_
  exact Ends.ite (fun _ => Ends.ok h.drop) fun _ => hcomplain token

theorem flowSequenceEntry_isFrom (h : g.IsFrom t) (began : Mark) (isFirst : Bool) :
    Ends (EscapeIn t) (IsStepFrom t) (g.flowSequenceEntry began isFirst) := by
  refine Ends.bind (takeComma_isFrom h fun _ => unexpectedToken_ends) ?_
  intro g h
  refine Ends.bind h.peek ?_
  intro token _
  split
  next => exact Ends.ok ⟨trivial, h.drop.resume⟩
  next => exact Ends.ok ⟨nofun, h.goal _⟩
  next => exact node_isFrom (h.andThen _)

theorem flowPairKey_isFrom (h : g.IsFrom t) (began : Mark) :
    Ends (EscapeIn t) (IsStepFrom t) (g.flowPairKey began) := by
  refine Ends.bind h.peek ?_
  intro token _
  refine Ends.bind h.drop.peek ?_
  intro next _
  split
  next => exact emptyAt_ends (h.drop.goal _)
  next => exact emptyAt_ends (h.drop.goal _)
  next => exact emptyAt_ends (h.drop.goal _)
  next => exact node_isFrom (h.drop.andThen _)

theorem flowPairValue_isFrom (h : g.IsFrom t) (began : Mark) :
    Ends (EscapeIn t) (IsStepFrom t) (g.flowPairValue began) := by
  refine Ends.bind h.peek ?_
  intro token _
  dsimp only
  split
  next =>
    refine Ends.bind h.drop.peek ?_
    intro next _
    split
    next => exact emptyAt_ends (h.drop.goal _)
    next => exact emptyAt_ends (h.drop.goal _)
    next => exact node_isFrom (h.drop.andThen _)
  next => exact emptyAt_ends (h.goal _)

theorem flowPairEnd_isFrom (h : g.IsFrom t) (began : Mark) :
    Ends (EscapeIn t) (IsStepFrom t) (g.flowPairEnd began) := by
  refine Ends.bind h.peek ?_
  intro token _
  exact Ends.ok ⟨trivial, h.goal _⟩

theorem flowMappingKey_isFrom (h : g.IsFrom t) (began : Mark) (isFirst : Bool) :
    Ends (EscapeIn t) (IsStepFrom t) (g.flowMappingKey began isFirst) := by
  refine Ends.bind (takeComma_isFrom h fun _ => unexpectedToken_ends) ?_
  intro g h
  refine Ends.bind h.peek ?_
  intro token _
  dsimp only
  split
  next => exact Ends.ok ⟨trivial, h.drop.resume⟩
  next =>
    refine Ends.bind h.drop.peek ?_
    intro next _
    split
    next => exact emptyAt_ends (h.drop.goal _)
    next => exact emptyAt_ends (h.drop.goal _)
    next => exact emptyAt_ends (h.drop.goal _)
    next => exact node_isFrom (h.drop.andThen _)
  next => exact node_isFrom (h.andThen _)

theorem flowMappingValue_isFrom (h : g.IsFrom t) (began : Mark) :
    Ends (EscapeIn t) (IsStepFrom t) (g.flowMappingValue began) := by
  refine Ends.bind h.peek ?_
  intro token _
  dsimp only
  split
  next =>
    refine Ends.bind h.drop.peek ?_
    intro next _
    split
    next => exact emptyAt_ends (h.drop.goal _)
    next => exact emptyAt_ends (h.drop.goal _)
    next => exact node_isFrom (h.drop.andThen _)
  next => exact emptyAt_ends (h.goal _)

theorem flowMappingNoValue_isFrom (h : g.IsFrom t) (began : Mark) :
    Ends (EscapeIn t) (IsStepFrom t) (g.flowMappingNoValue began) := by
  refine Ends.bind h.peek ?_
  intro token _
  exact emptyAt_ends (h.goal _)

/-! ## Runs -/

/-- **Step.** The next event is from the text, whatever is expected. -/
theorem step_isFrom (h : g.IsFrom t) : Ends (EscapeIn t) (IsStepFrom t) g.step := by
  unfold step
  cases g.goal with
  | firstDocument => exact implicitDocument_isFrom h.drop
  | document => exact explicitDocument_isFrom h
  | documentContent => exact documentContent_isFrom h
  | documentEnd =>
    refine Ends.bind h.peek ?_
    intro token _
    refine Ends.ok ⟨trivial, IsFrom.goal ?_ _⟩
    split
    next => exact h.drop
    next => exact h
  | blockNode => exact node_isFrom h
  | blockSequenceEntry began => exact blockSequenceEntry_isFrom h began
  | indentlessEntry => exact indentlessEntry_isFrom h
  | blockMappingKey began => exact blockMappingKey_isFrom h began
  | blockMappingValue began => exact blockMappingValue_isFrom h began
  | flowSequenceEntry began isFirst => exact flowSequenceEntry_isFrom h began isFirst
  | flowPairKey began => exact flowPairKey_isFrom h began
  | flowPairValue began => exact flowPairValue_isFrom h began
  | flowPairEnd began => exact flowPairEnd_isFrom h began
  | flowMappingKey began isFirst => exact flowMappingKey_isFrom h began isFirst
  | flowMappingValue began => exact flowMappingValue_isFrom h began
  | flowMappingNoValue began => exact flowMappingNoValue_isFrom h began
  | nothing => exact h.failed

end Grammar

/-- The events of a supply are found in a text, and it breaks off with a breakdown only on
an escape in the text. -/
structure Supply.EventsFrom (t : Text) (supply : Supply Event) : Prop where
  events : ∀ event ∈ supply.items, event.what.IsFrom t
  failure : ∀ b, supply.failure = some (.broken b) → EscapeIn t b

/-- A run of the grammar keeps the invariant of its steps. -/
theorem Grammar.IsFrom.run {g : Grammar} {fuel : Nat} {acc : List Event} (h : g.IsFrom t)
    (hacc : ∀ event ∈ acc, event.what.IsFrom t) : (Grammar.run fuel g acc).EventsFrom t := by
  have hitems : ∀ {acc : List Event}, (∀ event ∈ acc, event.what.IsFrom t) →
      ∀ event ∈ acc.reverse, event.what.IsFrom t :=
    fun hacc event hevent => hacc event (List.mem_reverse.mp hevent)
  induction fuel generalizing g acc with
  | zero => exact ⟨hitems hacc, fun b hb => h.lack b (Option.some.inj hb)⟩
  | succ fuel ih =>
    unfold Grammar.run
    split
    next => exact ⟨hitems hacc, by rintro b ⟨⟩⟩
    next =>
      have hstep := Grammar.step_isFrom h
      split
      next e he =>
        refine ⟨hitems hacc, ?_⟩
        intro b hr
        cases hr
        exact hstep.breakdown he
      next event next hnext =>
        obtain ⟨hevent, hg⟩ := hstep.value hnext
        refine ih hg ?_
        intro other hother
        rcases List.mem_cons.mp hother with rfl | hother
        · exact hevent
        · exact hacc other hother

/-- **The events of tokens from a text are from the text.** -/
theorem Event.ofTokens_isFrom {tokens : Supply Token} (h : tokens.IsFrom t) :
    (Event.ofTokens tokens).EventsFrom t := by
  refine Grammar.IsFrom.run ⟨h.lexemes, ?_⟩ (by simp)
  intro b hb
  -- a supply that does not break off lacks nothing but the end
  rcases Option.getD_eq_iff.mp hb with hfailure | ⟨-, hend⟩
  · exact h.failure b hfailure
  · cases hend

end TopologyAudit.Yaml
