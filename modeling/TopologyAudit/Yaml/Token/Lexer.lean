import TopologyAudit.Yaml.Token.Scalar

/-!
# The tokens of a text

The lexer takes one token after another off a cursor. In a block, indentation
opens and closes collections. A token that may turn out to be a key is remembered
until a colon follows or can no longer follow; then the sign of a key, and the
start of a mapping where one is needed, are put in front of it.

A token is final once no remembered key stands at it or before it. When the lexer
fails, the tokens that were final by then have been handed out and the failure
comes after them.
-/

namespace TopologyAudit.Yaml

/-- A token that may turn out to be a key: its position among all tokens, and
whether it has to be one. -/
structure PossibleKey where
  position : Nat
  isRequired : Bool
  mark : Mark

structure Lexer where
  cursor : Cursor
  /-- The tokens so far, last one first, and how many they are. -/
  tokens : List Token
  count : Nat
  /-- The columns of the open block collections, the innermost first. -/
  indents : List Nat
  /-- Whether a key may begin here. -/
  allowsKey : Bool
  /-- The possible key outside all flow collections. -/
  blockKey : Option PossibleKey
  /-- The possible keys in the open flow collections, the innermost first. -/
  flowKeys : List (Option PossibleKey)
  isDone : Bool

namespace Lexer

def init (t : Text) : Lexer :=
  let c := Cursor.ofText t
  ⟨c, [⟨.streamStart, c.mark, c.mark⟩], 1, [], true, none, [], false⟩

def inFlow (s : Lexer) : Bool := !s.flowKeys.isEmpty

/-- The column of the innermost block collection, or one less than any column. -/
def indent (s : Lexer) : Int :=
  match s.indents with
  | [] => -1
  | column :: _ => column

def mark (s : Lexer) : Mark := s.cursor.mark

/-- Appends a token. -/
def push (s : Lexer) (token : Token) : Lexer :=
  { s with tokens := token :: s.tokens, count := s.count + 1 }

/-- Appends a token that takes up no text. -/
def pushHere (s : Lexer) (lexeme : Lexeme) : Lexer := s.push ⟨lexeme, s.mark, s.mark⟩

/-- Appends a token that goes up to a cursor, and moves there. -/
def pushTo (s : Lexer) (lexeme : Lexeme) (after : Cursor) : Lexer :=
  { s.push ⟨lexeme, s.mark, after.mark⟩ with cursor := after }

/-- Puts a token in front of the one at a position. -/
def insertAt (s : Lexer) (position : Nat) (token : Token) : Lexer :=
  -- tokens are kept last one first, so a position is counted from the other end
  let later := s.count - position
  { s with
    tokens := s.tokens.take later ++ token :: s.tokens.drop later, count := s.count + 1 }

/-! ## Possible keys -/

/-- The possible key of the innermost collection. -/
def currentKey (s : Lexer) : Option PossibleKey :=
  match s.flowKeys with
  | [] => s.blockKey
  | key :: _ => key

def setCurrentKey (s : Lexer) (key : Option PossibleKey) : Lexer :=
  match s.flowKeys with
  | [] => { s with blockKey := key }
  | _ :: outer => { s with flowKeys := key :: outer }

/-- The fault of a key without its colon. -/
def missingColon (s : Lexer) (key : PossibleKey) : Error :=
  .during .scanningSimpleKey key.mark .missingColon s.mark

/-- Forgets the possible key of the innermost collection. -/
def dropKey (s : Lexer) : Except Error Lexer :=
  match s.currentKey with
  | some key => if key.isRequired then .error (s.missingColon key) else .ok (s.setCurrentKey none)
  | none => .ok s

/-- Remembers that the next token may be a key. At the column of a block
collection it has to be one. -/
def saveKey (s : Lexer) : Except Error Lexer :=
  if s.allowsKey then do
    let isRequired := !s.inFlow && s.indent == (s.cursor.column : Int)
    let key := ⟨s.count, isRequired, s.mark⟩
    return (← s.dropKey).setCurrentKey (some key)
  else .ok s

/-- The longest distance of a key from its colon. -/
def keyReach : Nat := 1024

/-- Whether the colon of a key can no longer follow: it has to be on the line of
the key and not too far off. -/
def isStale (s : Lexer) (key : PossibleKey) : Bool :=
  key.mark.line != s.cursor.line || s.cursor.offset - key.mark.offset > keyReach

/-- Forgets a key that is stale. -/
def keepFresh (s : Lexer) (key : Option PossibleKey) : Option PossibleKey :=
  key.filter fun k => !s.isStale k

/-- Forgets all stale keys; none of them may be required. -/
def dropStaleKeys (s : Lexer) : Except Error Lexer :=
  match s.blockKey with
  | some key =>
    if s.isStale key && key.isRequired then .error (s.missingColon key)
    else
      .ok { s with blockKey := s.keepFresh s.blockKey, flowKeys := s.flowKeys.map s.keepFresh }
  | none => .ok { s with flowKeys := s.flowKeys.map s.keepFresh }

/-- The position of the outermost possible key. -/
def firstKeyPosition (s : Lexer) : Option Nat :=
  ((s.blockKey :: s.flowKeys.reverse).filterMap id).head?.map (·.position)

/-- The tokens that no possible key can change any more. -/
def finalTokens (s : Lexer) : List Token :=
  match s.firstKeyPosition with
  | none => s.tokens.reverse
  | some n => s.tokens.reverse.take n

/-! ## Indentation -/

/-- Closes the block collections that lie deeper than a column. -/
def unwindList (mark : Mark) (column : Int) : List Nat → List Token → Nat → List Nat × List Token × Nat
  | [], tokens, count => ([], tokens, count)
  | i :: outer, tokens, count =>
    if column < (i : Int) then
      unwindList mark column outer (⟨.blockEnd, mark, mark⟩ :: tokens) (count + 1)
    else (i :: outer, tokens, count)

/-- Closes the block collections that lie deeper than a column, unless a flow
collection is open. -/
def unwind (s : Lexer) (column : Int) : Lexer :=
  if s.inFlow then s
  else
    let (indents, tokens, count) := unwindList s.mark column s.indents s.tokens s.count
    { s with indents, tokens, count }

/-- Opens a block collection at the cursor if it lies deeper than the innermost. -/
def openBlock (s : Lexer) (lexeme : Lexeme) : Lexer :=
  if s.indent < (s.cursor.column : Int) then
    { s.pushHere lexeme with indents := s.cursor.column :: s.indents }
  else s

/-! ## Tokens -/

/-- Passes over spaces, comments and line ends. After a line end in a block a key
may begin. -/
def skipToToken : (fuel : Text) → Lexer → Lexer
  | [], s => s
  | _ :: fuel, s =>
    let c := s.cursor.skipSpaces.skipComment
    if isBreak c.peek then
      skipToToken fuel
        { s with cursor := c.takeBreak.2, allowsKey := s.allowsKey || !s.inFlow }
    else { s with cursor := c }

/-- Passes over one byte order mark at the beginning of the text. -/
def skipByteOrderMark (s : Lexer) : Lexer :=
  if s.cursor.offset = 0 && isByteOrderMark s.cursor.peek then { s with cursor := s.cursor.next }
  else s

/-- The end of the text closes all block collections. -/
def fetchEnd (s : Lexer) : Except Error Lexer := do
  let s ← (s.unwind (-1)).dropKey
  return { s.pushHere .streamEnd with
    allowsKey := false, blockKey := none, flowKeys := s.flowKeys.map fun _ => none, isDone := true }

/-- A token that stands outside all collections. -/
def fetchTopLevel (s : Lexer) (scan : Cursor → Except Error (Lexeme × Cursor)) :
    Except Error Lexer := do
  let s ← (s.unwind (-1)).dropKey
  let (lexeme, after) ← scan s.cursor
  return { s.pushTo lexeme after with allowsKey := false }

/-- The start of a flow collection, which may be a key as a whole. -/
def fetchFlowStart (s : Lexer) (lexeme : Lexeme) : Except Error Lexer := do
  let s ← s.saveKey
  return { s.pushTo lexeme s.cursor.next with allowsKey := true, flowKeys := none :: s.flowKeys }

/-- The end of a flow collection. -/
def fetchFlowEnd (s : Lexer) (lexeme : Lexeme) : Except Error Lexer := do
  let s ← s.dropKey
  return { s.pushTo lexeme s.cursor.next with allowsKey := false, flowKeys := s.flowKeys.tail }

/-- The comma between items of a flow collection. -/
def fetchFlowEntry (s : Lexer) : Except Error Lexer := do
  let s ← s.dropKey
  return { s.pushTo .flowEntry s.cursor.next with allowsKey := true }

/-- The dash of a block sequence. -/
def fetchBlockEntry (s : Lexer) : Except Error Lexer := do
  if !s.inFlow && !s.allowsKey then .error (.here .sequenceNotAllowed s.mark)
  else
    let s := if s.inFlow then s else s.openBlock .blockSequenceStart
    let s ← s.dropKey
    return { s.pushTo .blockEntry s.cursor.next with allowsKey := true }

/-- The question mark of a key. -/
def fetchKey (s : Lexer) : Except Error Lexer := do
  if !s.inFlow && !s.allowsKey then .error (.here .keyNotAllowed s.mark)
  else
    let s := if s.inFlow then s else s.openBlock .blockMappingStart
    let s ← s.dropKey
    return { s.pushTo .key s.cursor.next with allowsKey := !s.inFlow }

/-- The colon of a value. It makes a key of the possible key, if there is one. -/
def fetchValue (s : Lexer) : Except Error Lexer := do
  match s.currentKey with
  | some key =>
    let s := s.setCurrentKey none
    -- the key stands in the tokens already: its own token goes in front of it
    let s := s.insertAt key.position ⟨.key, key.mark, key.mark⟩
    let s :=
      -- the first key of a block mapping opens it, at the column of the key
      if !s.inFlow && s.indent < (key.mark.column : Int) then
        { s.insertAt key.position ⟨.blockMappingStart, key.mark, key.mark⟩ with
          indents := key.mark.column :: s.indents }
      else s
    return { s.pushTo .value s.cursor.next with allowsKey := false }
  | none =>
    if !s.inFlow && !s.allowsKey then .error (.here .valueNotAllowed s.mark)
    else
      let s := if s.inFlow then s else s.openBlock .blockMappingStart
      return { s.pushTo .value s.cursor.next with allowsKey := !s.inFlow }

/-- A token that may be a key or the start of one. -/
def fetchKeyLike (s : Lexer) (scan : Cursor → Except Error (Lexeme × Cursor)) :
    Except Error Lexer := do
  let s ← s.saveKey
  let (lexeme, after) ← scan s.cursor
  return { s.pushTo lexeme after with allowsKey := false }

def fetchBlockScalar (s : Lexer) (isFolded : Bool) : Except Error Lexer := do
  let s ← s.dropKey
  let (lexeme, after) ← scanBlock isFolded s.indent s.cursor
  return { s.pushTo lexeme after with allowsKey := true }

/-- A plain scalar takes the space behind it with it. -/
def fetchPlain (s : Lexer) : Except Error Lexer := do
  let s ← s.saveKey
  let plain := scanPlain s.inFlow s.indent s.cursor
  -- the token ends with the text, the cursor goes on behind the space
  let token := ⟨.scalar plain.text.reverse .plain, s.mark, plain.stop⟩
  return { s.push token with cursor := plain.cursor, allowsKey := plain.crossed }

/-- Signs that begin no plain scalar by themselves. -/
def isIndicator (c : CodePoint) : Bool := Text.has "-?:,[]\x7b\x7d#&*!|>'\"%@\x60" c

/-- Whether a plain scalar begins at the cursor. -/
def startsPlain (s : Lexer) : Bool :=
  let c := s.cursor.peek
  (!isBlankOrEnd c && !isIndicator c)
    || (!isBlankOrEnd (s.cursor.peekAt 1) && (c == '-' || (!s.inFlow && (c == '?' || c == ':'))))

/-- Whether the sign at the cursor stands for itself: a blank follows, or a flow
collection is open. -/
def standsAlone (s : Lexer) : Bool := s.inFlow || isBlankOrEnd (s.cursor.peekAt 1)

/-- Takes the token at the cursor. -/
def fetchToken (s : Lexer) : Except Error Lexer :=
  let c := s.cursor.peek
  let atMargin := s.cursor.column = 0
  if isEnd c then s.fetchEnd
  else if c == '%' && atMargin then s.fetchTopLevel scanDirective
  else if c == '-' && atMargin && s.cursor.atSeparator '-' then
    s.fetchTopLevel fun c => .ok (.documentStart, c.advance 3)
  else if c == '.' && atMargin && s.cursor.atSeparator '.' then
    s.fetchTopLevel fun c => .ok (.documentEnd, c.advance 3)
  else if c == '[' then s.fetchFlowStart .flowSequenceStart
  else if c == '\x7b' then s.fetchFlowStart .flowMappingStart
  else if c == ']' then s.fetchFlowEnd .flowSequenceEnd
  else if c == '\x7d' then s.fetchFlowEnd .flowMappingEnd
  else if c == ',' then s.fetchFlowEntry
  else if c == '-' && isBlankOrEnd (s.cursor.peekAt 1) then s.fetchBlockEntry
  else if c == '?' && s.standsAlone then s.fetchKey
  else if c == ':' && s.standsAlone then s.fetchValue
  else if c == '*' then
    s.fetchKeyLike fun c => do
      let (name, after) ← takeName .scanningAlias c
      return (.alias name, after)
  else if c == '&' then
    s.fetchKeyLike fun c => do
      let (name, after) ← takeName .scanningAnchor c
      return (.anchor name, after)
  else if c == '!' then s.fetchKeyLike scanTag
  -- in a flow collection these two signs begin no token
  else if c == '|' && !s.inFlow then s.fetchBlockScalar false
  else if c == '>' && !s.inFlow then s.fetchBlockScalar true
  else if c == '\'' then s.fetchKeyLike (scanQuoted false)
  else if c == '"' then s.fetchKeyLike (scanQuoted true)
  else if s.startsPlain then s.fetchPlain
  else .error (.refused (.fault ⟨some .scanningToken, none, .startsNoToken c, s.mark⟩))

/-- Takes the next token and what comes before it. -/
def fetch (s : Lexer) : Except Error Lexer := do
  let s := skipToToken s.cursor.steps s.skipByteOrderMark
  let s ← s.dropStaleKeys
  (s.unwind s.cursor.column).fetchToken

/-- Takes tokens to the end of the text. Each takes a step, and so does the end. -/
def run : (fuel : Text) → Lexer → Supply Token
  | [], s => ⟨s.finalTokens, none⟩
  | _ :: fuel, s =>
    if s.isDone then ⟨s.tokens.reverse, none⟩
    else
      match s.fetch with
      | .error e => ⟨s.finalTokens, some e⟩
      | .ok next =>
        if next.isDone then run fuel next
        else
          -- a key that has gone stale by now is an error before the next token is
          match next.dropStaleKeys with
          | .error e => ⟨s.finalTokens, some e⟩
          | .ok next => run fuel next

end Lexer

/-- The tokens of a text. -/
def Token.scan (t : Text) : Supply Token := (Lexer.init t).run (endSign :: (Cursor.ofText t).steps)

end TopologyAudit.Yaml
