import TopologyAudit.Proofs.Yaml.Token.Scalar
import TopologyAudit.Yaml.Token.Lexer

/-!
# The tokens of a text are from the text

`Lexer.IsFrom` is the invariant of the lexer: its cursor is within the text, and each of
its tokens is found there. Every step keeps it and breaks down only on an escape with
eight digits, so the same holds of the whole run (`Token.scan_isFrom`).
-/

namespace TopologyAudit.Yaml

variable {t : Text}

namespace Lexer

/-- The cursor is within a text, and the tokens are found in it. -/
structure IsFrom (t : Text) (s : Lexer) : Prop where
  within : s.cursor.Within t
  lexemes : ∀ token ∈ s.tokens, token.lexeme.IsFrom t

namespace IsFrom

variable {s : Lexer}

theorem init (t : Text) : (Lexer.init t).IsFrom t := by
  refine ⟨Cursor.Within.ofText t, ?_⟩
  intro token htoken
  rw [List.mem_singleton.mp htoken]
  exact trivial

/-- Tokens are added at the end. -/
theorem push (h : s.IsFrom t) (token : Token) (htoken : token.lexeme.IsFrom t) :
    (s.push token).IsFrom t := by
  refine ⟨h.within, ?_⟩
  intro other hother
  rcases List.mem_cons.mp hother with rfl | hother
  · exact htoken
  · exact h.lexemes other hother

theorem pushTo (h : s.IsFrom t) (lexeme : Lexeme) {after : Cursor} (hlexeme : lexeme.IsFrom t)
    (hafter : after.Within t) : (s.pushTo lexeme after).IsFrom t :=
  ⟨hafter, (h.push ⟨lexeme, s.mark, after.mark⟩ hlexeme).lexemes⟩

/-- Tokens are put in front of others. -/
theorem insertAt (h : s.IsFrom t) (position : Nat) (token : Token)
    (htoken : token.lexeme.IsFrom t) : (s.insertAt position token).IsFrom t := by
  refine ⟨h.within, ?_⟩
  intro other hother
  rcases List.mem_append.mp hother with hother | hother
  · exact h.lexemes other (List.mem_of_mem_take hother)
  · rcases List.mem_cons.mp hother with rfl | hother
    · exact htoken
    · exact h.lexemes other (List.mem_of_mem_drop hother)

/-! ## Possible keys -/

theorem setCurrentKey (h : s.IsFrom t) (key : Option PossibleKey) :
    (s.setCurrentKey key).IsFrom t := by
  unfold Lexer.setCurrentKey
  split
  next => exact ⟨h.within, h.lexemes⟩
  next => exact ⟨h.within, h.lexemes⟩

theorem cursor_setCurrentKey (s : Lexer) (key : Option PossibleKey) :
    (s.setCurrentKey key).cursor = s.cursor := by
  unfold Lexer.setCurrentKey
  split <;> rfl

theorem dropKey {B : Breakdown → Prop} (h : s.IsFrom t) :
    Ends B (fun next => next.IsFrom t ∧ next.cursor = s.cursor) s.dropKey := by
  unfold Lexer.dropKey
  split
  next =>
    split
    next => exact Ends.during
    next => exact Ends.ok ⟨h.setCurrentKey none, cursor_setCurrentKey s none⟩
  next => exact Ends.ok ⟨h, rfl⟩

theorem saveKey {B : Breakdown → Prop} (h : s.IsFrom t) :
    Ends B (fun next => next.IsFrom t ∧ next.cursor = s.cursor) s.saveKey := by
  unfold Lexer.saveKey
  split
  next =>
    refine Ends.bind h.dropKey ?_
    intro next hr
    obtain ⟨hnext, hcursor⟩ := hr
    exact Ends.ok ⟨hnext.setCurrentKey _, (cursor_setCurrentKey next _).trans hcursor⟩
  next => exact Ends.ok ⟨h, rfl⟩

theorem dropStaleKeys {B : Breakdown → Prop} (h : s.IsFrom t) :
    Ends B (IsFrom t) s.dropStaleKeys := by
  unfold Lexer.dropStaleKeys
  split
  next =>
    split
    next => exact Ends.during
    next => exact Ends.ok ⟨h.within, h.lexemes⟩
  next => exact Ends.ok ⟨h.within, h.lexemes⟩

theorem finalTokens (h : s.IsFrom t) : ∀ token ∈ s.finalTokens, token.lexeme.IsFrom t := by
  intro token htoken
  unfold Lexer.finalTokens at htoken
  split at htoken
  next => exact h.lexemes token (List.mem_reverse.mp htoken)
  next => exact h.lexemes token (List.mem_reverse.mp (List.mem_of_mem_take htoken))

/-! ## Indentation -/

theorem unwindList {mark : Mark} {column : Int} {indents : List Nat} {tokens : List Token}
    {count : Nat} (h : ∀ token ∈ tokens, token.lexeme.IsFrom t) :
    ∀ token ∈ (Lexer.unwindList mark column indents tokens count).2.1, token.lexeme.IsFrom t := by
  induction indents generalizing tokens count with
  | nil => exact h
  | cons i outer ih =>
    unfold Lexer.unwindList
    split
    -- a block end is put out for the level that is left
    next =>
      refine ih ?_
      intro token htoken
      rcases List.mem_cons.mp htoken with rfl | htoken
      · exact trivial
      · exact h token htoken
    next => exact h

theorem unwind (h : s.IsFrom t) (column : Int) : (s.unwind column).IsFrom t := by
  unfold Lexer.unwind
  split
  next => exact h
  next => exact ⟨h.within, unwindList h.lexemes⟩

theorem openBlock (h : s.IsFrom t) {lexeme : Lexeme} (hlexeme : lexeme.IsFrom t) :
    (s.openBlock lexeme).IsFrom t := by
  unfold Lexer.openBlock
  split
  next => exact ⟨h.within, (h.push ⟨lexeme, s.mark, s.mark⟩ hlexeme).lexemes⟩
  next => exact h

/-- In a flow collection no block is opened. -/
theorem openUnlessFlow (h : s.IsFrom t) (lexeme : Lexeme) (hlexeme : lexeme.IsFrom t) :
    (if s.inFlow then s else s.openBlock lexeme).IsFrom t := by
  split
  next => exact h
  next => exact h.openBlock hlexeme

/-! ## Tokens -/

theorem skipToToken {fuel : Text} (h : s.IsFrom t) : (Lexer.skipToToken fuel s).IsFrom t := by
  induction fuel generalizing s with
  | nil => exact h
  | cons _ fuel ih =>
    unfold Lexer.skipToToken
    dsimp only
    split
    next => exact ih ⟨h.within.skipSpaces.skipComment.takeBreak, h.lexemes⟩
    next => exact ⟨h.within.skipSpaces.skipComment, h.lexemes⟩

theorem skipByteOrderMark (h : s.IsFrom t) : s.skipByteOrderMark.IsFrom t := by
  unfold Lexer.skipByteOrderMark
  split
  next => exact ⟨h.within.next, h.lexemes⟩
  next => exact h

theorem fetchEnd {B : Breakdown → Prop} (h : s.IsFrom t) : Ends B (IsFrom t) s.fetchEnd := by
  refine Ends.bind (h.unwind (-1)).dropKey ?_
  intro s hs
  obtain ⟨hs, -⟩ := hs
  have hend := hs.push ⟨.streamEnd, s.mark, s.mark⟩ trivial
  exact Ends.ok ⟨hend.within, hend.lexemes⟩

section

variable {B : Breakdown → Prop} {scan : Cursor → Except Error (Lexeme × Cursor)} {lexeme : Lexeme}

/-- What a reader takes off the cursor is appended. -/
theorem fetchTopLevel (h : s.IsFrom t)
    (hscan : ∀ c : Cursor, c.Within t → Ends B (fun r => r.1.IsFrom t ∧ r.2.Within t) (scan c)) :
    Ends B (IsFrom t) (s.fetchTopLevel scan) := by
  refine Ends.bind (h.unwind (-1)).dropKey ?_
  intro s hs
  obtain ⟨hs, -⟩ := hs
  refine Ends.bind (hscan s.cursor hs.within) ?_
  intro r hr
  obtain ⟨lexeme, after⟩ := r
  obtain ⟨hlexeme, hafter⟩ := hr
  have hpush := hs.pushTo lexeme hlexeme hafter
  exact Ends.ok ⟨hpush.within, hpush.lexemes⟩

theorem fetchKeyLike (h : s.IsFrom t)
    (hscan : Ends B (fun r => r.1.IsFrom t ∧ r.2.Within t) (scan s.cursor)) :
    Ends B (IsFrom t) (s.fetchKeyLike scan) := by
  refine Ends.bind h.saveKey ?_
  intro next hr
  obtain ⟨hnext, hcursor⟩ := hr
  dsimp only
  rw [hcursor]
  refine Ends.bind hscan ?_
  intro r hr
  obtain ⟨lexeme, after⟩ := r
  obtain ⟨hlexeme, hafter⟩ := hr
  have hpush := hnext.pushTo lexeme hlexeme hafter
  exact Ends.ok ⟨hpush.within, hpush.lexemes⟩

theorem fetchFlowStart (h : s.IsFrom t) (hlexeme : lexeme.IsFrom t) :
    Ends B (IsFrom t) (s.fetchFlowStart lexeme) := by
  refine Ends.bind h.saveKey ?_
  intro s hs
  obtain ⟨hs, -⟩ := hs
  have hpush := hs.pushTo lexeme hlexeme hs.within.next
  exact Ends.ok ⟨hpush.within, hpush.lexemes⟩

theorem fetchFlowEnd (h : s.IsFrom t) (hlexeme : lexeme.IsFrom t) :
    Ends B (IsFrom t) (s.fetchFlowEnd lexeme) := by
  refine Ends.bind h.dropKey ?_
  intro s hs
  obtain ⟨hs, -⟩ := hs
  have hpush := hs.pushTo lexeme hlexeme hs.within.next
  exact Ends.ok ⟨hpush.within, hpush.lexemes⟩

theorem fetchFlowEntry (h : s.IsFrom t) : Ends B (IsFrom t) s.fetchFlowEntry := by
  refine Ends.bind h.dropKey ?_
  intro s hs
  obtain ⟨hs, -⟩ := hs
  have hpush := hs.pushTo .flowEntry trivial hs.within.next
  exact Ends.ok ⟨hpush.within, hpush.lexemes⟩

theorem fetchBlockEntry (h : s.IsFrom t) : Ends B (IsFrom t) s.fetchBlockEntry := by
  unfold Lexer.fetchBlockEntry
  split
  next => exact Ends.here
  next =>
    refine Ends.bind (h.openUnlessFlow .blockSequenceStart trivial).dropKey ?_
    intro s hs
    obtain ⟨hs, -⟩ := hs
    have hpush := hs.pushTo .blockEntry trivial hs.within.next
    exact Ends.ok ⟨hpush.within, hpush.lexemes⟩

theorem fetchKey (h : s.IsFrom t) : Ends B (IsFrom t) s.fetchKey := by
  unfold Lexer.fetchKey
  split
  next => exact Ends.here
  next =>
    refine Ends.bind (h.openUnlessFlow .blockMappingStart trivial).dropKey ?_
    intro s hs
    obtain ⟨hs, -⟩ := hs
    have hpush := hs.pushTo .key trivial hs.within.next
    exact Ends.ok ⟨hpush.within, hpush.lexemes⟩

theorem fetchValue (h : s.IsFrom t) : Ends B (IsFrom t) s.fetchValue := by
  unfold Lexer.fetchValue
  split
  next key _ =>
    -- a key was open: its token and maybe that of a mapping are put in front
    have hkey := (h.setCurrentKey none).insertAt key.position
      ⟨.key, key.mark, key.mark⟩ trivial
    have hstart := hkey.insertAt key.position ⟨.blockMappingStart, key.mark, key.mark⟩ trivial
    dsimp only
    split
    next =>
      have hpush := hstart.pushTo .value trivial hstart.within.next
      exact Ends.ok ⟨hpush.within, hpush.lexemes⟩
    next =>
      have hpush := hkey.pushTo .value trivial hkey.within.next
      exact Ends.ok ⟨hpush.within, hpush.lexemes⟩
  next =>
    split
    -- no key was open: the value has an empty one
    next => exact Ends.here
    next =>
      have hopen := h.openUnlessFlow .blockMappingStart trivial
      have hpush := hopen.pushTo .value trivial hopen.within.next
      exact Ends.ok ⟨hpush.within, hpush.lexemes⟩

theorem fetchBlockScalar {isFolded : Bool} (h : s.IsFrom t) :
    Ends B (IsFrom t) (s.fetchBlockScalar isFolded) := by
  refine Ends.bind h.dropKey ?_
  intro s hs
  obtain ⟨hs, -⟩ := hs
  refine Ends.bind (scanBlock_ends hs.within) ?_
  intro r hr
  obtain ⟨lexeme, after⟩ := r
  obtain ⟨hlexeme, hafter⟩ := hr
  have hpush := hs.pushTo lexeme hlexeme hafter
  exact Ends.ok ⟨hpush.within, hpush.lexemes⟩

theorem fetchPlain (h : s.IsFrom t) : Ends B (IsFrom t) s.fetchPlain := by
  refine Ends.bind h.saveKey ?_
  intro s hs
  obtain ⟨hs, -⟩ := hs
  have hplain := scanPlain_isOf s.inFlow s.indent hs.within
  have hpush := hs.push ⟨.scalar (scanPlain s.inFlow s.indent s.cursor).text.reverse .plain,
    s.mark, (scanPlain s.inFlow s.indent s.cursor).stop⟩ (scanPlain_isPlainOf hs.within)
  exact Ends.ok ⟨hplain.within, hpush.lexemes⟩

end

/-- A name behind its sign is appended as an anchor or an alias. -/
theorem fetchName {B : Breakdown → Prop} {activity : Activity} {lexeme : Text → Lexeme}
    (h : s.IsFrom t) (hlexeme : ∀ name, (lexeme name).IsFrom t) :
    Ends B (IsFrom t) (s.fetchKeyLike fun c => do
      let (name, after) ← takeName activity c
      return (lexeme name, after)) := by
  refine h.fetchKeyLike ?_
  refine Ends.bind (takeName_ends h.within) ?_
  intro r hafter
  obtain ⟨name, after⟩ := r
  exact Ends.ok ⟨hlexeme name, hafter⟩

/-- **Step.** A token is taken from the text, or an escape in it breaks down. The cases are
those of the code point at the cursor. -/
theorem fetchToken (h : s.IsFrom t) : Ends (EscapeIn t) (IsFrom t) s.fetchToken := by
  have htop : ∀ lexeme : Lexeme, lexeme.IsFrom t → ∀ c : Cursor, c.Within t →
      Ends (EscapeIn t) (fun r => r.1.IsFrom t ∧ r.2.Within t)
        (.ok (lexeme, c.advance 3) : Except Error (Lexeme × Cursor)) :=
    fun _ hlexeme _ hc => Ends.ok ⟨hlexeme, hc.advance 3⟩
  unfold Lexer.fetchToken
  refine Ends.ite (fun _ => h.fetchEnd) fun _ => ?_
  refine Ends.ite (fun _ => h.fetchTopLevel fun c hc => scanDirective_ends hc) fun _ => ?_
  refine Ends.ite (fun _ => h.fetchTopLevel (htop .documentStart trivial)) fun _ => ?_
  refine Ends.ite (fun _ => h.fetchTopLevel (htop .documentEnd trivial)) fun _ => ?_
  refine Ends.ite (fun _ => h.fetchFlowStart trivial) fun _ => ?_
  refine Ends.ite (fun _ => h.fetchFlowStart trivial) fun _ => ?_
  refine Ends.ite (fun _ => h.fetchFlowEnd trivial) fun _ => ?_
  refine Ends.ite (fun _ => h.fetchFlowEnd trivial) fun _ => ?_
  refine Ends.ite (fun _ => h.fetchFlowEntry) fun _ => ?_
  refine Ends.ite (fun _ => h.fetchBlockEntry) fun _ => ?_
  refine Ends.ite (fun _ => h.fetchKey) fun _ => ?_
  refine Ends.ite (fun _ => h.fetchValue) fun _ => ?_
  refine Ends.ite (fun _ => h.fetchName fun _ => trivial) fun _ => ?_
  refine Ends.ite (fun _ => h.fetchName fun _ => trivial) fun _ => ?_
  refine Ends.ite (fun hmark => h.fetchKeyLike (scanTag_ends h.within (eq_of_beq hmark)))
    fun _ => ?_
  refine Ends.ite (fun _ => h.fetchBlockScalar) fun _ => ?_
  refine Ends.ite (fun _ => h.fetchBlockScalar) fun _ => ?_
  refine Ends.ite (fun _ => h.fetchKeyLike (scanQuoted_ends h.within)) fun _ => ?_
  refine Ends.ite (fun _ => h.fetchKeyLike (scanQuoted_ends h.within)) fun _ => ?_
  refine Ends.ite (fun _ => h.fetchPlain) fun _ => ?_
  exact Ends.refused _

theorem fetch (h : s.IsFrom t) : Ends (EscapeIn t) (IsFrom t) s.fetch := by
  refine Ends.bind h.skipByteOrderMark.skipToToken.dropStaleKeys ?_
  intro s hs
  exact (hs.unwind _).fetchToken

end IsFrom

end Lexer

/-- The tokens of a supply are found in a text, and it breaks off with a breakdown only on
an escape in the text. -/
structure Supply.IsFrom (t : Text) (supply : Supply Token) : Prop where
  lexemes : ∀ token ∈ supply.items, token.lexeme.IsFrom t
  failure : ∀ b, supply.failure = some (.broken b) → EscapeIn t b

/-- A run of the lexer keeps the invariant of its steps. -/
theorem Lexer.IsFrom.run {s : Lexer} {fuel : Text} (h : s.IsFrom t) : (s.run fuel).IsFrom t := by
  induction fuel generalizing s with
  | nil => exact ⟨h.finalTokens, by rintro b ⟨⟩⟩
  | cons _ fuel ih =>
    unfold Lexer.run
    split
    next => exact ⟨fun token htoken => h.lexemes token (List.mem_reverse.mp htoken), by rintro b ⟨⟩⟩
    next =>
      have hfetch := h.fetch
      split
      next e he =>
        refine ⟨h.finalTokens, ?_⟩
        intro b hr
        cases hr
        exact hfetch.breakdown he
      next next hnext =>
        have hs := hfetch.value hnext
        split
        next => exact ih hs
        next =>
          have hfresh := hs.dropStaleKeys (B := EscapeIn t)
          split
          next e he =>
            refine ⟨h.finalTokens, ?_⟩
            intro b hr
            cases hr
            exact hfresh.breakdown he
          next next hnext => exact ih (hfresh.value hnext)

/-- **The tokens of a text are found in it.** -/
theorem Token.scan_isFrom (t : Text) : (Token.scan t).IsFrom t := (Lexer.IsFrom.init t).run

end TopologyAudit.Yaml
