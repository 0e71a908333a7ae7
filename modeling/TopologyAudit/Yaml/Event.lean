import TopologyAudit.Yaml.Token.Lexer

/-!
# Events

The events of a YAML text: documents begin and end, collections begin and end, and
scalars and aliases occur in between. Tag handles have been replaced by what they
stand for. `Event.ofTokens` follows the grammar of YAML with a stack of what is
still expected, and hands out one event a step until a token does not fit or the
tokens break off.
-/

namespace TopologyAudit.Yaml

inductive Occurrence
  | documentStart
  | documentEnd
  | streamEnd
  | alias (name : Text)
  /-- A scalar without a tag of its own gets one by its content, or is a text. -/
  | scalar (anchor tag : Option Text) (byContent : Bool) (value : Text)
  | sequenceStart (anchor tag : Option Text)
  | sequenceEnd
  | mappingStart (anchor tag : Option Text)
  | mappingEnd
deriving DecidableEq

/-- An occurrence and the place where it begins. -/
structure Event where
  what : Occurrence
  mark : Mark
deriving DecidableEq

/-- What is expected next. Inside a collection the place where it began is kept. -/
inductive Goal
  | firstDocument
  | document
  | documentContent
  | documentEnd
  | blockNode
  | blockSequenceEntry (began : Mark)
  | indentlessEntry
  | blockMappingKey (began : Mark)
  | blockMappingValue (began : Mark)
  | flowSequenceEntry (began : Mark) (isFirst : Bool)
  | flowPairKey (began : Mark)
  | flowPairValue (began : Mark)
  | flowPairEnd (began : Mark)
  | flowMappingKey (began : Mark) (isFirst : Bool)
  | flowMappingValue (began : Mark)
  | flowMappingNoValue (began : Mark)
  | nothing

/-- A place in the grammar: the tokens left, the error behind the last of them,
what is expected now and afterwards, and the tag handles of the document. -/
structure Grammar where
  tokens : List Token
  lack : Error
  goal : Goal
  later : List Goal
  handles : List (Text × Text)

namespace Grammar

/-- The tag handles that every document has. -/
def standardHandles : List (Text × Text) := [("!", "!"), ("!!", "tag:yaml.org,2002:")]

/-- The token in front. -/
def peek (g : Grammar) : Except Error Token :=
  match g.tokens with
  | [] => .error g.lack
  | token :: _ => .ok token

/-- Takes the token in front. -/
def drop (g : Grammar) : Grammar := { g with tokens := g.tokens.tail }

/-- Goes on with what was to come later. -/
def resume (g : Grammar) : Grammar :=
  match g.later with
  | [] => { g with goal := .nothing }
  | goal :: later => { g with goal, later }

/-- What is to come after the next node. -/
def andThen (g : Grammar) (goal : Goal) : Grammar := { g with later := goal :: g.later }

/-- An empty scalar at a place. -/
def emptyAt (mark : Mark) : Event := ⟨.scalar none none true [], mark⟩

/-- A fault at a token within a collection. -/
def unexpectedToken {α : Type} (activity : Activity) (began : Mark) (problem : Text → Problem)
    (token : Token) : Except Error α :=
  .error (.during activity began (problem token.lexeme.name) token.start)

/-! ## Nodes -/

/-- What may stand in front of a node: an anchor, a tag with its place, and where
the first of them begins. -/
structure Properties where
  anchor : Option Text
  tag : Option (Option Text × Text × Mark)
  began : Option Mark

/-- Takes an anchor and a tag, in either order. -/
def takeProperties (g : Grammar) : Except Error (Properties × Grammar) := do
  let first ← g.peek
  match first.lexeme with
  | .anchor name =>
    let g := g.drop
    let second ← g.peek
    match second.lexeme with
    | .tag handle suffix =>
      return (⟨some name, some (handle, suffix, second.start), some first.start⟩, g.drop)
    | _ => return (⟨some name, none, some first.start⟩, g)
  | .tag handle suffix =>
    let g := g.drop
    let tag := some (handle, suffix, first.start)
    let second ← g.peek
    match second.lexeme with
    | .anchor name => return (⟨some name, tag, some first.start⟩, g.drop)
    | _ => return (⟨none, tag, some first.start⟩, g)
  | _ => return (⟨none, none, none⟩, g)

/-- The tag in full. An exclamation mark alone is no tag. -/
def resolveTag (g : Grammar) (p : Properties) : Except Error (Option Text) :=
  match p.tag with
  | none => .ok none
  | some (none, suffix, _) => .ok (if suffix = "!" then none else some suffix)
  | some (some handle, suffix, mark) =>
    match g.handles.lookup handle with
    | some expansion => .ok (some (expansion ++ suffix))
    | none =>
      .error (.during .parsingNode (p.began.getD mark) (.undefinedHandle handle) mark)

/-- Parses a node. Block collections are allowed in `inBlock`; a dash begins a
sequence without indentation where `indentless` says so. Properties without a node
belong to an empty scalar. -/
def node (g : Grammar) (inBlock indentless : Bool) : Except Error (Event × Grammar) := do
  let first ← g.peek
  match first.lexeme with
  | .alias name => return (⟨.alias name, first.start⟩, g.drop.resume)
  | _ =>
    let (p, g) ← g.takeProperties
    let tag ← g.resolveTag p
    let token ← g.peek
    let began := p.began.getD token.start
    let sequence : Event := ⟨.sequenceStart p.anchor tag, began⟩
    let mapping : Event := ⟨.mappingStart p.anchor tag, began⟩
    let empty : Except Error (Event × Grammar) :=
      if p.began.isSome then .ok (⟨.scalar p.anchor tag true [], began⟩, g.resume)
      else
        let activity := if inBlock then Activity.parsingBlockNode else .parsingFlowNode
        unexpectedToken activity began .expectedContent token
    match token.lexeme with
    -- the dash is left for the sequence to take
    | .blockEntry => if indentless then return (sequence, { g with goal := .indentlessEntry }) else empty
    | .scalar value style =>
      -- quoted text is a string, unless a tag in front says otherwise
      let byContent := p.tag.isSome || style = .plain
      return (⟨.scalar p.anchor tag byContent value, began⟩, g.drop.resume)
    | .flowSequenceStart =>
      return (sequence, { g.drop with goal := .flowSequenceEntry token.start true })
    | .flowMappingStart =>
      return (mapping, { g.drop with goal := .flowMappingKey token.start true })
    | .blockSequenceStart =>
      if inBlock then return (sequence, { g.drop with goal := .blockSequenceEntry token.start })
      else empty
    | .blockMappingStart =>
      if inBlock then return (mapping, { g.drop with goal := .blockMappingKey token.start })
      else empty
    | _ => empty

/-! ## Documents -/

/-- Collects the directives in front of a document: the version that was given,
and the tag handles. -/
def takeDirectives : List Token → (version : Option (Nat × Nat)) → (handles : List (Text × Text)) →
    Except Error (List (Text × Text) × List Token)
  | [], _, handles => .ok (handles, [])
  | token :: rest, version, handles =>
    match token.lexeme with
    | .directive (.version major minor) =>
      if version.isSome then .error (.here .duplicateVersion token.start)
      else if major != 1 then .error (.here .incompatibleVersion token.start)
      else takeDirectives rest (some (major, minor)) handles
    | .directive (.handle handle expansion) =>
      if (handles.lookup handle).isSome then
        .error (.here (.duplicateHandle handle) token.start)
      else takeDirectives rest version (handles ++ [(handle, expansion)])
    | .directive .other => takeDirectives rest version handles
    | _ => .ok (handles, token :: rest)

/-- Whether a token is the sign of the end of a document. -/
def isDocumentEnd (token : Token) : Bool := token.lexeme == .documentEnd

/-- A document with a sign of its own, or the end of the text. -/
def explicitDocument (g : Grammar) : Except Error (Event × Grammar) := do
  let g := { g with tokens := g.tokens.dropWhile isDocumentEnd }
  let first ← g.peek
  match first.lexeme with
  | .streamEnd => return (⟨.streamEnd, first.start⟩, { g.drop with goal := .nothing })
  | _ =>
    -- handles of the text come first, so they can stand for others than usual
    let (handles, tokens) ← takeDirectives g.tokens none []
    let g := { g with tokens, handles := handles ++ standardHandles }
    let token ← g.peek
    match token.lexeme with
    | .documentStart =>
      return (⟨.documentStart, first.start⟩,
        { g.drop.andThen .documentEnd with goal := .documentContent })
    | name => .error (.here (.expectedDocumentStart name.name) token.start)

/-- The first document, which needs no sign. -/
def implicitDocument (g : Grammar) : Except Error (Event × Grammar) := do
  let first ← g.peek
  match first.lexeme with
  | .directive _ | .documentStart | .streamEnd => g.explicitDocument
  | _ =>
    return (⟨.documentStart, first.start⟩,
      { g.andThen .documentEnd with goal := .blockNode, handles := standardHandles })

/-- The content of a document, which may be missing. -/
def documentContent (g : Grammar) : Except Error (Event × Grammar) := do
  let token ← g.peek
  match token.lexeme with
  | .directive _ | .documentStart | .documentEnd | .streamEnd =>
    return (emptyAt token.start, g.resume)
  | _ => g.node true false

/-! ## Collections -/

/-- Whether a token ends the place of a node in a block mapping. -/
def endsBlockPart : Lexeme → Bool
  | .key | .value | .blockEnd => true
  | _ => false

/-- An item of a block sequence, or its end. -/
def blockSequenceEntry (g : Grammar) (began : Mark) : Except Error (Event × Grammar) := do
  let token ← g.peek
  match token.lexeme with
  | .blockEntry =>
    let g := g.drop
    let next ← g.peek
    match next.lexeme with
    | .blockEntry | .blockEnd => return (emptyAt token.stop, { g with goal := .blockSequenceEntry began })
    | _ => (g.andThen (.blockSequenceEntry began)).node true false
  | .blockEnd => return (⟨.sequenceEnd, token.start⟩, g.drop.resume)
  | _ => unexpectedToken .parsingBlockSequence began .expectedBlockEnd token

/-- An item of a sequence without indentation, or its end. -/
def indentlessEntry (g : Grammar) : Except Error (Event × Grammar) := do
  let token ← g.peek
  match token.lexeme with
  | .blockEntry =>
    let g := g.drop
    let next ← g.peek
    if next.lexeme == .blockEntry || endsBlockPart next.lexeme then
      return (emptyAt token.stop, { g with goal := .indentlessEntry })
    else (g.andThen .indentlessEntry).node true false
  | _ => return (⟨.sequenceEnd, token.start⟩, g.resume)

/-- A key of a block mapping, or its end. -/
def blockMappingKey (g : Grammar) (began : Mark) : Except Error (Event × Grammar) := do
  let token ← g.peek
  match token.lexeme with
  | .key =>
    let g := g.drop
    let next ← g.peek
    if endsBlockPart next.lexeme then
      return (emptyAt token.stop, { g with goal := .blockMappingValue began })
    else (g.andThen (.blockMappingValue began)).node true true
  | .blockEnd => return (⟨.mappingEnd, token.start⟩, g.drop.resume)
  | _ => unexpectedToken .parsingBlockMapping began .expectedBlockEnd token

/-- A value of a block mapping, which may be missing. -/
def blockMappingValue (g : Grammar) (began : Mark) : Except Error (Event × Grammar) := do
  let token ← g.peek
  match token.lexeme with
  | .value =>
    let g := g.drop
    let next ← g.peek
    if endsBlockPart next.lexeme then
      return (emptyAt token.stop, { g with goal := .blockMappingKey began })
    else (g.andThen (.blockMappingKey began)).node true true
  | _ => return (emptyAt token.start, { g with goal := .blockMappingKey began })

/-- Takes the comma in front of every item but the first; `isEnd` tells the
closing sign, which may take its place. -/
def takeComma (g : Grammar) (isFirst : Bool) (isEnd : Lexeme → Bool)
    (complain : Token → Except Error Grammar) : Except Error Grammar := do
  let token ← g.peek
  if isEnd token.lexeme || isFirst then return g
  else if token.lexeme == .flowEntry then return g.drop
  else complain token

/-- An item of a flow sequence, or its end. A key begins a mapping of one pair. -/
def flowSequenceEntry (g : Grammar) (began : Mark) (isFirst : Bool) :
    Except Error (Event × Grammar) := do
  let g ← g.takeComma isFirst (· == .flowSequenceEnd) fun token =>
    unexpectedToken .parsingFlowSequence began .expectedCommaOrBracket token
  let token ← g.peek
  match token.lexeme with
  | .flowSequenceEnd => return (⟨.sequenceEnd, token.start⟩, g.drop.resume)
  | .key => return (⟨.mappingStart none none, token.start⟩, { g with goal := .flowPairKey began })
  | _ => (g.andThen (.flowSequenceEntry began false)).node false false

/-- The key of a pair in a flow sequence. -/
def flowPairKey (g : Grammar) (began : Mark) : Except Error (Event × Grammar) := do
  let token ← g.peek
  let g := g.drop
  let next ← g.peek
  match next.lexeme with
  | .value | .flowEntry | .flowSequenceEnd =>
    return (emptyAt token.stop, { g with goal := .flowPairValue began })
  | _ => (g.andThen (.flowPairValue began)).node false false

/-- The value of a pair in a flow sequence. -/
def flowPairValue (g : Grammar) (began : Mark) : Except Error (Event × Grammar) := do
  let token ← g.peek
  match token.lexeme with
  | .value =>
    let g := g.drop
    let next ← g.peek
    match next.lexeme with
    | .flowEntry | .flowSequenceEnd =>
      return (emptyAt token.stop, { g with goal := .flowPairEnd began })
    | _ => (g.andThen (.flowPairEnd began)).node false false
  | _ => return (emptyAt token.start, { g with goal := .flowPairEnd began })

/-- The end of a pair in a flow sequence. -/
def flowPairEnd (g : Grammar) (began : Mark) : Except Error (Event × Grammar) := do
  let token ← g.peek
  return (⟨.mappingEnd, token.start⟩, { g with goal := .flowSequenceEntry began false })

/-- A key of a flow mapping, or its end. Without the sign of a key the value is
missing. -/
def flowMappingKey (g : Grammar) (began : Mark) (isFirst : Bool) :
    Except Error (Event × Grammar) := do
  let g ← g.takeComma isFirst (· == .flowMappingEnd) fun token =>
    unexpectedToken .parsingFlowMapping began .expectedCommaOrBrace token
  let token ← g.peek
  match token.lexeme with
  | .flowMappingEnd => return (⟨.mappingEnd, token.start⟩, g.drop.resume)
  | .key =>
    let g := g.drop
    let next ← g.peek
    match next.lexeme with
    | .value | .flowEntry | .flowMappingEnd =>
      return (emptyAt token.stop, { g with goal := .flowMappingValue began })
    | _ => (g.andThen (.flowMappingValue began)).node false false
  | _ => (g.andThen (.flowMappingNoValue began)).node false false

/-- A value of a flow mapping, which may be missing. -/
def flowMappingValue (g : Grammar) (began : Mark) : Except Error (Event × Grammar) := do
  let token ← g.peek
  match token.lexeme with
  | .value =>
    let g := g.drop
    let next ← g.peek
    match next.lexeme with
    | .flowEntry | .flowMappingEnd =>
      return (emptyAt token.stop, { g with goal := .flowMappingKey began false })
    | _ => (g.andThen (.flowMappingKey began false)).node false false
  | _ => return (emptyAt token.start, { g with goal := .flowMappingKey began false })

/-- The value of a flow mapping that has none. -/
def flowMappingNoValue (g : Grammar) (began : Mark) : Except Error (Event × Grammar) := do
  let token ← g.peek
  return (emptyAt token.start, { g with goal := .flowMappingKey began false })

/-! ## Runs -/

/-- The next event. -/
def step (g : Grammar) : Except Error (Event × Grammar) :=
  match g.goal with
  | .firstDocument => g.drop.implicitDocument
  | .document => g.explicitDocument
  | .documentContent => g.documentContent
  | .documentEnd => do
    let token ← g.peek
    let g := if isDocumentEnd token then g.drop else g
    return (⟨.documentEnd, token.start⟩, { g with goal := .document })
  | .blockNode => g.node true false
  | .blockSequenceEntry began => g.blockSequenceEntry began
  | .indentlessEntry => g.indentlessEntry
  | .blockMappingKey began => g.blockMappingKey began
  | .blockMappingValue began => g.blockMappingValue began
  | .flowSequenceEntry began isFirst => g.flowSequenceEntry began isFirst
  | .flowPairKey began => g.flowPairKey began
  | .flowPairValue began => g.flowPairValue began
  | .flowPairEnd began => g.flowPairEnd began
  | .flowMappingKey began isFirst => g.flowMappingKey began isFirst
  | .flowMappingValue began => g.flowMappingValue began
  | .flowMappingNoValue began => g.flowMappingNoValue began
  | .nothing => .error g.lack

/-- Takes steps until nothing more is expected; `fuel` bounds their number. -/
def run : (fuel : Nat) → Grammar → (acc : List Event) → Supply Event
  | 0, g, acc => ⟨acc.reverse, some g.lack⟩
  | fuel + 1, g, acc =>
    match g.goal with
    | .nothing => ⟨acc.reverse, none⟩
    | _ =>
      match g.step with
      | .error e => ⟨acc.reverse, some e⟩
      | .ok (event, next) => run fuel next (event :: acc)

end Grammar

/-- The events of tokens. No token gives rise to more than four events. -/
def Event.ofTokens (tokens : Supply Token) : Supply Event :=
  let lack := tokens.failure.getD (.refused .tooDeep)
  Grammar.run (4 * tokens.items.length + 8)
    ⟨tokens.items, lack, .firstDocument, [], Grammar.standardHandles⟩ []

end TopologyAudit.Yaml
