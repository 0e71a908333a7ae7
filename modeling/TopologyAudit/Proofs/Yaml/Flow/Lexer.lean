import TopologyAudit.Proofs.Yaml.Flow.Value
import TopologyAudit.Yaml.Token.Lexer

/-!
# The tokens of a flow collection

On a line that holds nothing but a flow collection the lexer never meets indentation, a key
that has to be one or a line end. What is left to keep track of is one structure (`IsAt`): the
rest of the line, how many collections are open, and the tokens so far. Each token is one step
of a run (`LeadsTo`), and a step takes at least one code point, so a run never lacks steps.
-/

namespace TopologyAudit.Yaml.Lexer

open Text (EndsLine)
open Cursor (onLine)
open Json (IsAtom IsFlow IsKey afterCommas afterCommas_cons compact compactField lexemesAfterCommas
  lexemesAfterCommas_cons lexemesOfField renderText)

variable {s s' : Lexer} {size depth n m : Nat} {c : CodePoint} {t rest : Text}
  {lexemes : List Lexeme}

/-! ## Runs -/

/-- That a run goes from one state to another in a number of steps. -/
def LeadsTo (n : Nat) (s s' : Lexer) : Prop :=
  ∀ fuel : Text, n ≤ fuel.length → s.run fuel = s'.run (fuel.drop n)

theorem LeadsTo.refl (s : Lexer) : LeadsTo 0 s s := fun _ _ => rfl

theorem LeadsTo.trans {s'' : Lexer} (h : LeadsTo n s s') (h' : LeadsTo m s' s'') :
    LeadsTo (n + m) s s'' := by
  intro fuel hfuel
  rw [h fuel (by omega), h' _ (by rw [List.length_drop]; omega), List.drop_drop]

theorem leadsTo_of_fetch {next : Lexer} (hrunning : s.isDone = false) (hfetch : s.fetch = .ok next)
    (hnext : next.isDone = false) (hstale : next.dropStaleKeys = .ok s') : LeadsTo 1 s s' := by
  intro fuel hfuel
  obtain ⟨f, fuel, rfl⟩ := List.exists_cons_of_length_pos hfuel
  rw [run, hrunning, hfetch]
  simp only [hnext, hstale, Bool.false_eq_true, if_false]
  rfl

/-! ## States -/

/-- That the lexer stands before the rest of a line, in a number of flow collections, when it
has taken some tokens. No block collection is open, and no key has to be one. -/
structure IsAt (size : Nat) (rest : Text) (depth : Nat) (lexemes : List Lexeme) (s : Lexer) :
    Prop where
  cursor : s.cursor = onLine size rest
  endsLine : EndsLine size rest
  lexemes : s.tokens.map (·.lexeme) = lexemes.reverse
  count : s.count = s.tokens.length
  indents : s.indents = []
  depth : s.flowKeys.length = depth
  blockKey : ∀ key ∈ s.blockKey, key.isRequired = false
  flowKeys : ∀ key ∈ s.flowKeys, ∀ k ∈ key, k.isRequired = false
  running : s.isDone = false

/-- The state without the keys that are stale. -/
def fresh (s : Lexer) : Lexer :=
  { s with blockKey := s.keepFresh s.blockKey, flowKeys := s.flowKeys.map s.keepFresh }

theorem currentKey_fresh (s : Lexer) : s.fresh.currentKey = s.keepFresh s.currentKey := by
  unfold currentKey fresh
  cases s.flowKeys <;> rfl

theorem setCurrentKey_setCurrentKey (s : Lexer) (key key' : Option PossibleKey) :
    (s.setCurrentKey key).setCurrentKey key' = s.setCurrentKey key' := by
  unfold setCurrentKey
  cases s.flowKeys <;> rfl

theorem currentKey_setCurrentKey (s : Lexer) (key : Option PossibleKey) :
    (s.setCurrentKey key).currentKey = key := by
  unfold setCurrentKey currentKey
  cases s.flowKeys <;> rfl

theorem setCurrentKey_of_eq {key : Option PossibleKey} (h : s.currentKey = key) :
    s.setCurrentKey key = s := by
  obtain ⟨cursor, tokens, count, indents, allowsKey, blockKey, flowKeys, isDone⟩ := s
  subst h
  cases flowKeys <;> rfl

theorem count_setCurrentKey (s : Lexer) (key : Option PossibleKey) :
    (s.setCurrentKey key).count = s.count := by
  unfold setCurrentKey
  cases s.flowKeys <;> rfl

namespace IsAt

theorem mem_currentKey (h : s.IsAt size rest depth lexemes) :
    ∀ k ∈ s.currentKey, k.isRequired = false := by
  unfold currentKey
  cases hkeys : s.flowKeys with
  | nil => exact h.blockKey
  | cons key outer => exact h.flowKeys key (hkeys ▸ List.mem_cons_self ..)

theorem fresh (h : s.IsAt size rest depth lexemes) : s.fresh.IsAt size rest depth lexemes := by
  have hkeep : ∀ {key : Option PossibleKey}, (∀ k ∈ key, k.isRequired = false) →
      ∀ k ∈ s.keepFresh key, k.isRequired = false := by
    intro key hkey k hk
    exact hkey k (Option.mem_filter_iff.mp hk).1
  refine ⟨h.cursor, h.endsLine, h.lexemes, h.count, h.indents, ?_, hkeep h.blockKey, ?_, h.running⟩
  · rw [← h.depth]
    exact List.length_map _
  · exact List.forall_mem_map.mpr fun key hkey => hkeep (h.flowKeys key hkey)

theorem dropStaleKeys_eq (h : s.IsAt size rest depth lexemes) : s.dropStaleKeys = .ok s.fresh := by
  unfold dropStaleKeys Lexer.fresh
  cases hkey : s.blockKey with
  | none => rfl
  | some key =>
    dsimp only
    rw [h.blockKey key hkey, Bool.and_false, if_neg Bool.false_ne_true]

theorem setCurrentKey (h : s.IsAt size rest depth lexemes) {key : Option PossibleKey}
    (hkey : ∀ k ∈ key, k.isRequired = false) :
    (s.setCurrentKey key).IsAt size rest depth lexemes := by
  unfold Lexer.setCurrentKey
  have hdepth := h.depth
  have hflow := h.flowKeys
  cases hkeys : s.flowKeys with
  | nil =>
    rw [hkeys] at hdepth hflow
    exact ⟨h.cursor, h.endsLine, h.lexemes, h.count, h.indents, hdepth, hkey, hflow, h.running⟩
  | cons first outer =>
    rw [hkeys] at hdepth hflow
    exact ⟨h.cursor, h.endsLine, h.lexemes, h.count, h.indents, hdepth, h.blockKey,
      List.forall_mem_cons.mpr ⟨hkey, (List.forall_mem_cons.mp hflow).2⟩, h.running⟩

theorem dropKey_eq (h : s.IsAt size rest depth lexemes) :
    s.dropKey = .ok (s.setCurrentKey none) := by
  unfold dropKey
  cases hkey : s.currentKey with
  | none => rw [setCurrentKey_of_eq hkey]
  | some key =>
    dsimp only
    rw [if_neg (Bool.eq_false_iff.mp (h.mem_currentKey key hkey))]

/-- Outside all flow collections no key has to be one either, since no block is open. -/
theorem saveKey_eq (h : s.IsAt size rest depth lexemes) :
    s.saveKey =
      .ok (if s.allowsKey then s.setCurrentKey (some ⟨s.count, false, s.mark⟩) else s) := by
  have hindent : (s.indent == (s.cursor.column : Int)) = false := by
    refine beq_eq_false_iff_ne.mpr ?_
    rw [indent, h.indents]
    show (-1 : Int) ≠ _
    omega
  unfold saveKey
  split_ifs
  · rw [h.dropKey_eq, hindent, Bool.and_false, Outcome.ok_bind, setCurrentKey_setCurrentKey]
    rfl
  · rfl

theorem push (h : s.IsAt size (t ++ rest) depth lexemes) (token : Token) (allowsKey : Bool) :
    IsAt size rest depth (lexemes ++ [token.lexeme])
      { s.push token with cursor := onLine size rest, allowsKey } where
  cursor := rfl
  endsLine := h.endsLine.of_append
  lexemes := by
    rw [List.reverse_append, ← h.lexemes]
    rfl
  count := congrArg (· + 1) h.count
  indents := h.indents
  depth := h.depth
  blockKey := h.blockKey
  flowKeys := h.flowKeys
  running := h.running

/-- Before the token that is last another one can be put. -/
theorem insertAt {last : Lexeme} (h : s.IsAt size rest depth (lexemes ++ [last])) {position : Nat}
    (hposition : position + 1 = s.count) (token : Token) :
    (s.insertAt position token).IsAt size rest depth (lexemes ++ [token.lexeme, last]) := by
  have htokens := h.lexemes
  rw [List.reverse_append, List.reverse_singleton, List.singleton_append] at htokens
  obtain ⟨first, later, hsplit, hfirst, hlater⟩ := List.map_eq_cons_iff.mp htokens
  have hplace : s.count - position = 1 := by omega
  have hinsert : (s.insertAt position token).tokens = first :: token :: later := by
    show s.tokens.take (s.count - position) ++ token :: s.tokens.drop (s.count - position) = _
    rw [hplace, hsplit]
    rfl
  have hcount := h.count
  rw [hsplit] at hcount
  refine ⟨h.cursor, h.endsLine, ?_, ?_, h.indents, h.depth, h.blockKey, h.flowKeys, h.running⟩
  · rw [hinsert, List.map_cons, List.map_cons, hfirst, hlater, List.reverse_append]
    rfl
  · rw [hinsert]
    exact congrArg (· + 1) hcount

theorem inFlow (h : s.IsAt size rest (depth + 1) lexemes) : s.inFlow = true := by
  have hne : s.flowKeys ≠ [] := List.ne_nil_of_length_eq_add_one h.depth
  rw [Lexer.inFlow, List.isEmpty_eq_false_iff.mpr hne, Bool.not_false]

theorem unwind_eq (h : s.IsAt size rest depth lexemes) (column : Int) : s.unwind column = s := by
  obtain ⟨cursor, tokens, count, indents, allowsKey, blockKey, flowKeys, isDone⟩ := s
  obtain rfl : indents = [] := h.indents
  unfold unwind
  split_ifs <;> rfl

end IsAt

/-! ## Steps -/

/-- That a token, or the end, is where a code point is shown: nothing is passed over first. -/
def BeginsToken (c : CodePoint) : Prop :=
  isSpace c = false ∧ (c == '#') = false ∧ isBreak c = false ∧ isByteOrderMark c = false

instance (c : CodePoint) : Decidable (BeginsToken c) := inferInstanceAs (Decidable (_ ∧ _ ∧ _ ∧ _))

theorem IsAt.fetch_eq (h : s.IsAt size rest depth lexemes) (hc : BeginsToken s.cursor.peek) :
    s.fetch = s.fresh.fetchToken := by
  obtain ⟨hspace, hcomment, hbreak, hbom⟩ := hc
  have hmark : s.skipByteOrderMark = s := by
    rw [skipByteOrderMark, hbom, Bool.and_false, if_neg Bool.false_ne_true]
  have hrest : rest.dropWhile isSpace = rest := by
    rw [h.cursor] at hspace
    cases rest with
    | nil => rfl
    | cons c rest => exact List.dropWhile_cons_of_neg (Bool.eq_false_iff.mp hspace)
  have hcursor : s.cursor.skipSpaces = s.cursor := by
    rw [h.cursor, Cursor.skipSpaces, Cursor.skipWhile, Cursor.takeWhile_onLine h.endsLine, hrest]
  have hskip : skipToToken s.cursor.steps s = s := by
    rw [Cursor.steps, skipToToken]
    simp only [hcursor, Cursor.skipComment, hcomment, hbreak, Bool.false_eq_true, if_false]
  rw [fetch, hmark, hskip, h.dropStaleKeys_eq, Outcome.ok_bind, h.fresh.unwind_eq]

/-- A step of a run, given the token that is fetched. -/
theorem IsAt.exists_leadsTo {rest' : Text} {depth' : Nat} {lexemes' : List Lexeme} {next : Lexer}
    (h : s.IsAt size (c :: rest) depth lexemes) (hc : BeginsToken c)
    (hfetch : s.fresh.fetchToken = .ok next) (hnext : next.IsAt size rest' depth' lexemes') :
    LeadsTo 1 s next.fresh ∧ next.fresh.IsAt size rest' depth' lexemes' := by
  have hpeek : BeginsToken s.cursor.peek := by
    rw [h.cursor]
    exact hc
  exact ⟨leadsTo_of_fetch h.running ((h.fetch_eq hpeek).trans hfetch) hnext.running
    hnext.dropStaleKeys_eq, hnext.fresh⟩

/-- A token that may be a key is saved as one, which changes nothing that is kept track of. -/
theorem IsAt.exists_saveKey (h : s.IsAt size rest depth lexemes) :
    ∃ saved, s.saveKey = .ok saved ∧ saved.IsAt size rest depth lexemes ∧ saved.count = s.count ∧
      saved.mark = s.mark ∧
        (s.allowsKey = true → saved.currentKey = some ⟨s.count, false, s.mark⟩) := by
  refine ⟨_, h.saveKey_eq, ?_⟩
  split_ifs with hallows
  · have hset : (s.setCurrentKey (some ⟨s.count, false, s.mark⟩)).IsAt size rest depth lexemes :=
      h.setCurrentKey fun k hk => by cases hk; rfl
    refine ⟨hset, count_setCurrentKey .., ?_, fun _ => currentKey_setCurrentKey ..⟩
    rw [mark, hset.cursor, ← h.cursor]
    rfl
  · exact ⟨h, rfl, rfl, fun hyes => absurd hyes hallows⟩

/-- The brackets of a kind of flow collection, and their tokens. -/
inductive Brackets : CodePoint → CodePoint → Lexeme → Lexeme → Prop
  | square : Brackets '[' ']' .flowSequenceStart .flowSequenceEnd
  | curly : Brackets '\x7b' '\x7d' .flowMappingStart .flowMappingEnd

section Brackets

variable {left right : CodePoint} {start stop : Lexeme}

/-- A bracket opens a collection, in which a key may begin. -/
theorem IsAt.openBracket (h : s.IsAt size (left :: rest) depth lexemes)
    (hbrackets : Brackets left right start stop) :
    ∃ s', LeadsTo 1 s s' ∧ s'.IsAt size rest (depth + 1) (lexemes ++ [start]) ∧
      s'.allowsKey = true := by
  have hfetch : s.fresh.fetchToken = s.fresh.fetchFlowStart start := by
    unfold fetchToken
    rw [h.fresh.cursor, Cursor.peek_onLine]
    cases hbrackets <;> rfl
  have hbegins : BeginsToken left := by cases hbrackets <;> decide
  obtain ⟨saved, hsave, hsaved, -⟩ := h.fresh.exists_saveKey
  rw [fetchFlowStart, hsave, Outcome.ok_bind, hsaved.cursor,
    Cursor.next_onLine h.endsLine] at hfetch
  have hpush := IsAt.push (t := [left]) hsaved ⟨start, saved.mark, (onLine size rest).mark⟩ true
  have hnext : IsAt size rest (depth + 1) (lexemes ++ [start])
      { saved.pushTo start (onLine size rest) with
        allowsKey := true, flowKeys := none :: saved.flowKeys } :=
    { hpush with
      depth := congrArg (· + 1) hpush.depth
      flowKeys := List.forall_mem_cons.mpr ⟨nofun, hpush.flowKeys⟩ }
  obtain ⟨hleads, hat⟩ := h.exists_leadsTo hbegins hfetch hnext
  exact ⟨_, hleads, hat, rfl⟩

theorem IsAt.closeBracket (h : s.IsAt size (right :: rest) (depth + 1) lexemes)
    (hbrackets : Brackets left right start stop) :
    ∃ s', LeadsTo 1 s s' ∧ s'.IsAt size rest depth (lexemes ++ [stop]) := by
  have hfetch : s.fresh.fetchToken = s.fresh.fetchFlowEnd stop := by
    unfold fetchToken
    rw [h.fresh.cursor, Cursor.peek_onLine]
    cases hbrackets <;> rfl
  have hbegins : BeginsToken right := by cases hbrackets <;> decide
  have hdrop : (s.fresh.setCurrentKey none).IsAt _ _ _ _ := h.fresh.setCurrentKey nofun
  rw [fetchFlowEnd, h.fresh.dropKey_eq, Outcome.ok_bind, hdrop.cursor,
    Cursor.next_onLine h.endsLine] at hfetch
  have hpush := IsAt.push (t := [right]) hdrop ⟨stop, s.fresh.mark, (onLine size rest).mark⟩ false
  have hnext : IsAt size rest depth (lexemes ++ [stop])
      { (s.fresh.setCurrentKey none).pushTo stop (onLine size rest) with
        allowsKey := false, flowKeys := (s.fresh.setCurrentKey none).flowKeys.tail } :=
    { hpush with
      depth := by
        rw [List.length_tail, hdrop.depth]
        rfl
      flowKeys := fun key hkey => hpush.flowKeys key (List.mem_of_mem_tail hkey) }
  obtain ⟨hleads, hat⟩ := h.exists_leadsTo hbegins hfetch hnext
  exact ⟨_, hleads, hat⟩

end Brackets

/-- Behind a comma a key may begin. -/
theorem IsAt.comma (h : s.IsAt size (CodePoint.ofChar ',' :: rest) depth lexemes) :
    ∃ s', LeadsTo 1 s s' ∧ s'.IsAt size rest depth (lexemes ++ [.flowEntry]) ∧
      s'.allowsKey = true := by
  have hfetch : s.fresh.fetchToken = s.fresh.fetchFlowEntry := by
    unfold fetchToken
    rw [h.fresh.cursor, Cursor.peek_onLine]
    rfl
  have hdrop : (s.fresh.setCurrentKey none).IsAt _ _ _ _ := h.fresh.setCurrentKey nofun
  rw [fetchFlowEntry, h.fresh.dropKey_eq, Outcome.ok_bind, hdrop.cursor,
    Cursor.next_onLine h.endsLine] at hfetch
  have hpush := IsAt.push (t := [CodePoint.ofChar ',']) hdrop
    ⟨.flowEntry, (s.fresh.setCurrentKey none).mark, (onLine size rest).mark⟩ true
  obtain ⟨hleads, hat⟩ := h.exists_leadsTo (by decide) hfetch hpush
  exact ⟨_, hleads, hat, rfl⟩

/-! ## Scalars -/

/-- A text between quotes. -/
theorem IsAt.quoted (h : s.IsAt size (renderText t ++ rest) depth lexemes) (ht : t.IsBasic) :
    ∃ s', s.fetchToken = .ok s' ∧ s'.IsAt size rest depth (lexemes ++ [.scalar t .marked]) ∧
      s'.count = s.count + 1 ∧
        (s.allowsKey = true → s'.currentKey = some ⟨s.count, false, s.mark⟩) := by
  obtain ⟨e, heq⟩ : ∃ e, renderText t ++ rest = CodePoint.ofChar '"' :: e := ⟨_, rfl⟩
  have hfetch : s.fetchToken = s.fetchKeyLike (scanQuoted true) := by
    unfold fetchToken
    rw [h.cursor, heq, Cursor.peek_onLine]
    rfl
  obtain ⟨saved, hsave, hsaved, hcount, hmark, hkey⟩ := h.exists_saveKey
  rw [fetchKeyLike, hsave, Outcome.ok_bind, hsaved.cursor, scanQuoted_renderText ht h.endsLine,
    Outcome.ok_bind] at hfetch
  exact ⟨_, hfetch, hsaved.push ⟨.scalar t .marked, saved.mark, (onLine size rest).mark⟩ false,
    congrArg (· + 1) hcount, hkey⟩

/-- A word begins no other token than a plain scalar. -/
theorem fetchToken_of_isPlainWord (ht : IsPlainWord t)
    (hcursor : s.cursor = onLine size (t ++ rest)) : s.fetchToken = s.fetchPlain := by
  rcases ht.start with ⟨w, t, rfl, hdash⟩ | ⟨d, t, rfl, hd⟩
  · have hw := ht.isWord w (List.mem_cons_self ..)
    have hblank : isBlankOrEnd w = false := by
      rw [isBlankOrEnd_of_graphic (graphic_of_isWord hw)]
      exact beq_of_isWord hw (by decide)
    have hindicator : isIndicator w = false := by
      have hword : (isWord w && !(w == '-')) = true := by rw [hw, hdash]; rfl
      exact @has_eq_false w (fun c => isWord c && !(c == '-')) _ hword (by decide)
    have hstarts : s.startsPlain = true := by
      rw [startsPlain, hcursor, List.cons_append, Cursor.peek_onLine, hblank, hindicator]
      rfl
    have hne : ∀ x : Char, isWord x = false → (w == CodePoint.ofChar x) = false :=
      fun x hx => beq_of_isWord hw hx
    unfold fetchToken
    rw [hstarts, hcursor, List.cons_append, Cursor.peek_onLine]
    simp only [isEnd_of_graphic (graphic_of_isWord hw), hdash, hne '%' (by decide),
      hne '.' (by decide), hne '[' (by decide), hne '\x7b' (by decide), hne ']' (by decide),
      hne '\x7d' (by decide), hne ',' (by decide), hne '?' (by decide), hne ':' (by decide),
      hne '*' (by decide), hne '&' (by decide), hne '!' (by decide), hne '|' (by decide),
      hne '>' (by decide), hne '\'' (by decide), hne '"' (by decide), Bool.false_and,
      Bool.false_eq_true, if_false, if_true]
  -- behind the dash stands a digit, neither a blank nor another dash
  · have hdigit : isBlankOrEnd d = false := by
      have hval := CodePoint.isDigit_iff.mp hd
      have hgraphic : d.within 0x20 0x7E = true := by
        rw [CodePoint.within, Bool.and_eq_true, decide_eq_true_eq, decide_eq_true_eq]
        omega
      rw [isBlankOrEnd_of_graphic hgraphic]
      exact CodePoint.beq_of_isDigit hd (by decide)
    have hafter : s.cursor.peekAt 1 = d := by rw [hcursor]; rfl
    have hseparator : s.cursor.atSeparator '-' = false := by
      rw [Cursor.atSeparator, hafter, CodePoint.beq_of_isDigit hd (by decide), Bool.and_false,
        Bool.false_and, Bool.false_and]
    have hpeek : s.cursor.peek = CodePoint.ofChar '-' := by rw [hcursor]; rfl
    have hstarts : s.startsPlain = true := by
      rw [startsPlain, hafter, hdigit, hpeek]
      rfl
    unfold fetchToken
    rw [hstarts, hafter, hdigit, hseparator, hpeek]
    simp only [Bool.and_false, Bool.false_eq_true, if_false]
    rfl

/-- A word, up to the sign of a flow collection. -/
theorem IsAt.plain (h : s.IsAt size (t ++ c :: rest) (depth + 1) lexemes) (ht : IsPlainWord t)
    (hc : isFlowSign c = true) :
    ∃ s', s.fetchToken = .ok s' ∧
      s'.IsAt size (c :: rest) (depth + 1) (lexemes ++ [.scalar t .plain]) := by
  have hfetch := fetchToken_of_isPlainWord ht h.cursor
  obtain ⟨saved, hsave, hsaved, -⟩ := h.exists_saveKey
  rw [fetchPlain, hsave, Outcome.ok_bind, hsaved.inFlow, hsaved.cursor,
    scanPlain_word ht hc h.endsLine] at hfetch
  have hpush := hsaved.push
    ⟨.scalar t.reverse.reverse .plain, saved.mark, (onLine size (c :: rest)).mark⟩ false
  rw [List.reverse_reverse] at hpush
  refine ⟨_, hfetch, ?_⟩
  rw [List.reverse_reverse]
  exact hpush

/-- A code point that a scalar begins with. -/
theorem beginsToken_of_isWord (h : isWord c = true) : BeginsToken c :=
  ⟨beq_of_isWord h (by decide), beq_of_isWord h (by decide),
    isBreak_of_graphic (graphic_of_isWord h), isByteOrderMark_of_graphic (graphic_of_isWord h)⟩

/-- **A value without parts is one token**, up to the sign of a flow collection. -/
theorem IsAt.atom {j : Json} {style : ScalarStyle} (hj : IsAtom j t style)
    (h : s.IsAt size (compact j ++ c :: rest) (depth + 1) lexemes) (hc : isFlowSign c = true) :
    ∃ s', LeadsTo 1 s s' ∧ s'.IsAt size (c :: rest) (depth + 1) (lexemes ++ [.scalar t style]) := by
  cases style with
  | plain =>
    obtain ⟨heq, hword⟩ := hj.isPlainWord
    rw [heq] at h
    obtain ⟨next, hfetch, hnext⟩ := h.fresh.plain hword hc
    obtain ⟨w, t', hw⟩ := List.exists_cons_of_ne_nil hword.ne_nil
    rw [hw, List.cons_append] at h
    have hbegins := beginsToken_of_isWord (hword.isWord w (hw ▸ List.mem_cons_self ..))
    exact ⟨_, h.exists_leadsTo hbegins hfetch hnext⟩
  | marked =>
    obtain ⟨heq, hbasic⟩ := hj.isBasic
    rw [heq] at h
    obtain ⟨next, hfetch, hnext, -⟩ := h.fresh.quoted hbasic
    exact ⟨_, IsAt.exists_leadsTo (c := CodePoint.ofChar '"') h (by decide) hfetch hnext⟩

/-! ## Names -/

/-- At its colon a name is not forgotten, since it is on the line and near enough. -/
theorem currentKey_fresh_of_name (hkey : IsKey t)
    (hline : EndsLine size (renderText t ++ CodePoint.ofChar ':' :: rest))
    (hcursor : s.cursor = onLine size (CodePoint.ofChar ':' :: rest)) {key : PossibleKey}
    (hcurrent : s.currentKey = some key)
    (hmark : key.mark = (onLine size (renderText t ++ CodePoint.ofChar ':' :: rest)).mark) :
    s.fresh.currentKey = some key := by
  have hreach := hkey.length_le
  have hlength := hline.length_le
  rw [List.length_append] at hlength
  have hnear : ¬(onLine size (CodePoint.ofChar ':' :: rest)).offset -
      (onLine size (renderText t ++ CodePoint.ofChar ':' :: rest)).offset > keyReach := by
    simp only [onLine, List.length_append]
    omega
  have hstale : s.isStale key = false := by
    rw [isStale, hcursor, hmark]
    exact Bool.or_eq_false_iff.mpr ⟨rfl, decide_eq_false hnear⟩
  rw [currentKey_fresh, hcurrent, keepFresh, Option.filter_some, hstale]
  rfl

/-- The colon of a key puts the sign of the key in front of it. -/
theorem IsAt.colon {last : Lexeme} {key : PossibleKey}
    (h : s.IsAt size (CodePoint.ofChar ':' :: rest) (depth + 1) (lexemes ++ [last]))
    (hkey : s.currentKey = some key) (hposition : key.position + 1 = s.count) :
    ∃ s', s.fetchToken = .ok s' ∧
      s'.IsAt size rest (depth + 1) (lexemes ++ [.key, last, .value]) := by
  have hfetch : s.fetchToken = s.fetchValue := by
    unfold fetchToken
    rw [standsAlone, h.inFlow, h.cursor, Cursor.peek_onLine]
    rfl
  have hset : (s.setCurrentKey none).IsAt size (CodePoint.ofChar ':' :: rest) (depth + 1)
      (lexemes ++ [last]) := h.setCurrentKey nofun
  have hinsert := hset.insertAt (hposition.trans (count_setCurrentKey ..).symm)
    ⟨.key, key.mark, key.mark⟩
  rw [fetchValue, hkey] at hfetch
  simp only [hinsert.inFlow, hinsert.cursor, Cursor.next_onLine h.endsLine, Bool.not_true,
    Bool.false_and, Bool.false_eq_true, if_false] at hfetch
  have hpush := IsAt.push (t := [CodePoint.ofChar ':']) hinsert
    ⟨.value, (onLine size (CodePoint.ofChar ':' :: rest)).mark, (onLine size rest).mark⟩ false
  rw [List.append_assoc] at hpush
  refine ⟨_, hfetch, ?_⟩
  rw [← hinsert.cursor] at hpush
  exact hpush

/-- **A name and its colon are a key.** -/
theorem IsAt.key (hkey : IsKey t)
    (h : s.IsAt size (renderText t ++ CodePoint.ofChar ':' :: rest) (depth + 1) lexemes)
    (hallows : s.allowsKey = true) :
    ∃ s', LeadsTo 2 s s' ∧
      s'.IsAt size rest (depth + 1) (lexemes ++ [.key, .scalar t .marked, .value]) := by
  obtain ⟨named, hfetch, hnamed, hcount, hkeyed⟩ := h.fresh.quoted hkey.isBasic
  obtain ⟨hleads, hat⟩ :=
    IsAt.exists_leadsTo (c := CodePoint.ofChar '"') h (by decide) hfetch hnamed
  -- the key is kept until the colon is taken
  have hmark : s.fresh.mark = (onLine size (renderText t ++ CodePoint.ofChar ':' :: rest)).mark :=
    congrArg Cursor.mark h.fresh.cursor
  have hcurrent := currentKey_fresh_of_name hkey h.endsLine hnamed.cursor (hkeyed hallows) hmark
  have hcurrent' := currentKey_fresh_of_name hkey h.endsLine hat.cursor hcurrent hmark
  obtain ⟨valued, hfetch', hvalued⟩ := hat.fresh.colon hcurrent' hcount.symm
  obtain ⟨hleads', hat'⟩ := hat.exists_leadsTo (by decide) hfetch' hvalued
  exact ⟨_, hleads.trans hleads', hat'⟩

/-! ## Collections -/

/-- That a text is read as some tokens, up to the sign of a flow collection; where `atKey` says
so, if a key may begin there. -/
def Reads (atKey : Bool) (t : Text) (added : List Lexeme) : Prop :=
  ∀ {size depth : Nat} {c : CodePoint} {rest : Text} {lexemes : List Lexeme} {s : Lexer},
    isFlowSign c = true → s.IsAt size (t ++ c :: rest) (depth + 1) lexemes →
      (atKey = true → s.allowsKey = true) →
        ∃ n s', n ≤ t.length ∧ LeadsTo n s s' ∧
          s'.IsAt size (c :: rest) (depth + 1) (lexemes ++ added)

theorem Reads.atKey {added : List Lexeme} (h : Reads false t added) : Reads true t added :=
  fun hc hat _ => h hc hat nofun

variable {texts : List Text} {parts : List (List Lexeme)} {added : List Lexeme} {atKey : Bool}

/-- What stands in front of a comma, and what stands from there on. -/
theorem Reads.append_afterCommas {behind : List Lexeme} (h : Reads atKey t added)
    (hbehind : Reads false (afterCommas texts) behind) :
    Reads atKey (t ++ afterCommas texts) (added ++ behind) := by
  intro size depth c rest lexemes s hc hat hallows
  obtain ⟨d, after, hafter, hd⟩ : ∃ d after, afterCommas texts ++ c :: rest = d :: after ∧
      isFlowSign d = true := by
    cases texts with
    | nil => exact ⟨c, rest, rfl, hc⟩
    | cons t texts => exact ⟨_, _, rfl, by decide⟩
  rw [List.append_assoc, hafter] at hat
  obtain ⟨n, middle, hn, hleads, hmiddle⟩ := h hd hat hallows
  rw [← hafter] at hmiddle
  obtain ⟨m, last, hm, hleads', hlast⟩ := hbehind hc hmiddle nofun
  refine ⟨n + m, last, ?_, hleads.trans hleads', ?_⟩
  · rw [List.length_append]
    omega
  · rw [← List.append_assoc]
    exact hlast

/-- Parts that are read one by one are read with a comma in front of each. -/
theorem reads_afterCommas (h : List.Forall₂ (Reads true) texts parts) :
    Reads false (afterCommas texts) (lexemesAfterCommas parts) := by
  induction h with
  | nil =>
    intro size depth c rest lexemes s hc hat hallows
    refine ⟨0, s, Nat.le_refl 0, .refl s, ?_⟩
    rw [lexemesAfterCommas, List.flatMap_nil, List.append_nil]
    exact hat
  | cons hpart _ ih =>
    intro size depth c rest lexemes s hc hat hallows
    rw [afterCommas_cons, List.cons_append] at hat
    obtain ⟨first, hleads, hfirst, hkey⟩ := hat.comma
    obtain ⟨n, last, hn, hleads', hlast⟩ := hpart.append_afterCommas ih hc hfirst fun _ => hkey
    refine ⟨1 + n, last, ?_, hleads.trans hleads', ?_⟩
    · rw [afterCommas_cons, List.length_cons]
      omega
    · rw [lexemesAfterCommas_cons, List.append_cons]
      exact hlast

/-- The first part has no comma in front. -/
theorem reads_separated (h : List.Forall₂ (Reads true) texts parts) :
    Reads true (afterCommas texts).tail (lexemesAfterCommas parts).tail := by
  cases h with
  | nil => exact Reads.atKey (reads_afterCommas .nil)
  | cons hpart hparts =>
    rw [afterCommas_cons, lexemesAfterCommas_cons]
    exact hpart.append_afterCommas (reads_afterCommas hparts)

/-- A collection is read from one bracket to the other. -/
theorem IsAt.collection {left right : CodePoint} {start stop : Lexeme}
    (h : s.IsAt size (left :: ((afterCommas texts).tail ++ [right]) ++ rest) depth lexemes)
    (hbrackets : Brackets left right start stop) (hparts : List.Forall₂ (Reads true) texts parts) :
    ∃ n s', n ≤ (left :: ((afterCommas texts).tail ++ [right])).length ∧ LeadsTo n s s' ∧
      s'.IsAt size rest depth
        (lexemes ++ start :: ((lexemesAfterCommas parts).tail ++ [stop])) := by
  have hright : isFlowSign right = true := by cases hbrackets <;> decide
  rw [List.cons_append, List.append_assoc, List.singleton_append] at h
  obtain ⟨opened, hleads, hopened, hkey⟩ := h.openBracket hbrackets
  obtain ⟨n, read, hn, hleads', hread⟩ := reads_separated hparts hright hopened fun _ => hkey
  obtain ⟨closed, hleads'', hclosed⟩ := hread.closeBracket hbrackets
  refine ⟨1 + n + 1, closed, ?_, (hleads.trans hleads').trans hleads'', ?_⟩
  · rw [List.length_cons, List.length_append, List.length_singleton]
    omega
  · rw [List.append_cons, ← List.append_assoc]
    exact hclosed

theorem forall₂_map_map {α β γ : Type} {R : β → γ → Prop} {f : α → β} {g : α → γ} {list : List α}
    (h : ∀ a ∈ list, R (f a) (g a)) : List.Forall₂ R (list.map f) (list.map g) := by
  rw [List.forall₂_map_left_iff, List.forall₂_map_right_iff, List.forall₂_same]
  exact h

/-- A field is read as a key and a value. -/
theorem reads_compactField {f : Text × Json} (hkey : IsKey f.1)
    (h : Reads false (compact f.2) f.2.lexemes) :
    Reads true (compactField f) (lexemesOfField f) := by
  intro size depth c rest lexemes s hc hat hallows
  rw [compactField, List.append_assoc, List.cons_append] at hat
  obtain ⟨keyed, hleads, hkeyed⟩ := hat.key hkey (hallows rfl)
  obtain ⟨n, last, hn, hleads', hlast⟩ := h hc hkeyed nofun
  refine ⟨2 + n, last, ?_, hleads.trans hleads', ?_⟩
  · have hname : 0 < (renderText f.1).length := List.length_pos_iff.mpr (List.cons_ne_nil _ _)
    rw [compactField, List.length_append, List.length_cons]
    omega
  · rw [lexemesOfField, ← List.append_assoc]
    exact hlast

/-- An array or an object of parts that are read is read wherever it stands. -/
theorem IsAt.array {items : List Json}
    (h : s.IsAt size (compact (.array items) ++ rest) depth lexemes)
    (hitems : ∀ item ∈ items, Reads false (compact item) item.lexemes) :
    ∃ n s', n ≤ (compact (.array items)).length ∧ LeadsTo n s s' ∧
      s'.IsAt size rest depth (lexemes ++ (Json.array items).lexemes) := by
  rw [Json.compact_array] at h ⊢
  rw [Json.lexemes, Json.itemLexemes_eq]
  exact h.collection .square (forall₂_map_map fun item hitem => Reads.atKey (hitems item hitem))

theorem IsAt.object {fields : List (Text × Json)}
    (h : s.IsAt size (compact (.object fields) ++ rest) depth lexemes)
    (hkeys : ∀ f ∈ fields, IsKey f.1)
    (hvalues : ∀ f ∈ fields, Reads false (compact f.2) f.2.lexemes) :
    ∃ n s', n ≤ (compact (.object fields)).length ∧ LeadsTo n s s' ∧
      s'.IsAt size rest depth (lexemes ++ (Json.object fields).lexemes) := by
  rw [Json.compact_object] at h ⊢
  rw [Json.lexemes, Json.fieldLexemes_eq]
  exact h.collection .curly
    (forall₂_map_map fun f hf => reads_compactField (hkeys f hf) (hvalues f hf))

/-- **A value is read as its tokens**, up to the sign of a flow collection. -/
theorem reads_compact {j : Json} (h : j.IsFlow) : Reads false (compact j) j.lexemes := by
  induction h with
  | @atom j t style hatom =>
    intro size depth c rest lexemes s hc hat hallows
    obtain ⟨s', hleads, hat'⟩ := hat.atom hatom hc
    refine ⟨1, s', hatom.length_pos, hleads, ?_⟩
    rw [hatom.lexemes]
    exact hat'
  | array _ ih => exact fun _ hat _ => hat.array ih
  | object _ hkeys _ ih => exact fun _ hat _ => hat.object hkeys ih

/-! ## Whole texts -/

theorem isAt_init {t : Text} (h : ∀ c ∈ t, c.within 0x20 0x7E = true) :
    (init t).IsAt t.length t 0 [.streamStart] where
  cursor := Cursor.ofText_eq_onLine t
  endsLine := ⟨Nat.le_refl _, h⟩
  lexemes := rfl
  count := rfl
  indents := rfl
  depth := rfl
  blockKey := nofun
  flowKeys := nofun
  running := rfl

/-- The end of the line ends the tokens. -/
theorem IsAt.run_end (h : s.IsAt size [] depth lexemes) {fuel : Text} (hfuel : 2 ≤ fuel.length) :
    (s.run fuel).failure = none ∧
      (s.run fuel).items.map (·.lexeme) = lexemes ++ [.streamEnd] := by
  have hpeek : s.cursor.peek = endSign := by
    rw [h.cursor]
    rfl
  have hfetch : s.fetch = s.fresh.fetchEnd := by
    rw [h.fetch_eq (by rw [hpeek]; decide), fetchToken]
    rw [show s.fresh.cursor.peek = endSign from hpeek]
    rfl
  have hset : (s.fresh.setCurrentKey none).IsAt size [] depth lexemes :=
    h.fresh.setCurrentKey nofun
  rw [fetchEnd, h.fresh.unwind_eq, h.fresh.dropKey_eq, Outcome.ok_bind] at hfetch
  obtain ⟨f, fuel, rfl⟩ := List.exists_cons_of_length_pos (Nat.zero_lt_of_lt hfuel)
  obtain ⟨f', fuel, rfl⟩ := List.exists_cons_of_length_pos (Nat.lt_of_succ_lt_succ hfuel)
  rw [run, h.running, hfetch]
  refine ⟨rfl, ?_⟩
  show ((⟨.streamEnd, _, _⟩ :: (s.fresh.setCurrentKey none).tokens).reverse).map (·.lexeme) = _
  rw [List.map_reverse, List.map_cons, hset.lexemes, List.reverse_cons, List.reverse_reverse]

end Lexer

/-- **The tokens of a collection that is written on one line.** -/
theorem Token.scan_compact {j : Json} (h : j.IsFlow) (hcollection : j.IsCollection) :
    (Token.scan (Json.compact j)).failure = none ∧
      (Token.scan (Json.compact j)).items.map (·.lexeme) =
        .streamStart :: (j.lexemes ++ [.streamEnd]) := by
  have hinit := Lexer.isAt_init h.graphic
  obtain ⟨n, s, hn, hleads, hat⟩ : ∃ n s, n ≤ (Json.compact j).length ∧
      Lexer.LeadsTo n (Lexer.init (Json.compact j)) s ∧
        s.IsAt (Json.compact j).length [] 0 ([.streamStart] ++ j.lexemes) := by
    cases hcollection with
    | array items =>
      refine Lexer.IsAt.array ?_ fun item hitem => Lexer.reads_compact (h.of_array item hitem)
      rwa [List.append_nil]
    | object fields =>
      obtain ⟨-, hkeys, hvalues⟩ := h.of_object
      refine Lexer.IsAt.object ?_ hkeys fun f hf => Lexer.reads_compact (hvalues f hf)
      rwa [List.append_nil]
  rw [Token.scan, hleads _ (by
    rw [List.length_cons, Cursor.steps, List.length_cons]
    exact Nat.le_succ_of_le (Nat.le_succ_of_le hn))]
  refine hat.run_end ?_
  rw [List.length_drop, List.length_cons, Cursor.steps, List.length_cons]
  show 2 ≤ (Json.compact j).length + 1 + 1 - n
  omega

end TopologyAudit.Yaml
