import TopologyAudit.Yaml.Token.Property

/-!
# Scalars

Readers for the four forms of scalars. Line ends inside a scalar are folded: a
single line feed becomes a space, and of several all but the first are kept; other
line ends are kept as they are.
-/

namespace TopologyAudit.Yaml

/-- What a folded line end becomes, given the line ends that follow it. -/
def foldBreak (lineEnd breaks : Text) : Text :=
  if lineEnd != [CodePoint.ofChar '\n'] then lineEnd ++ breaks
  else if breaks.isEmpty then [CodePoint.ofChar ' ']
  else breaks

/-! ## Between quotes -/

/-- The code point of a one-letter escape. -/
def escapeValue? (c : CodePoint) : Option CodePoint :=
  let table : List (Char × Nat) :=
    [('0', 0x00), ('a', 0x07), ('b', 0x08), ('t', 0x09), ('\t', 0x09), ('n', 0x0A), ('v', 0x0B),
     ('f', 0x0C), ('r', 0x0D), ('e', 0x1B), (' ', 0x20), ('"', 0x22), ('\\', 0x5C), ('/', 0x2F),
     ('N', 0x85), ('_', 0xA0), ('L', 0x2028), ('P', 0x2029)]
  (table.find? fun entry => c == entry.1).map fun entry => CodePoint.ofNat entry.2

/-- How many hexadecimal digits an escape by number has. -/
def escapeWidth? (c : CodePoint) : Option Nat :=
  if c == 'x' then some 2 else if c == 'u' then some 4 else if c == 'U' then some 8 else none

/-- The code point of an escape by number at the cursor. -/
def takeNumberedEscape (began : Mark) (width : Nat) (c : Cursor) :
    Except Error (CodePoint × Cursor) :=
  let digits := (c.rest.take width).takeWhile CodePoint.isHexDigit
  if digits.length < width then
    .error (.during .scanningDoubleQuoted began
      (.expected (.hexDigits width) (c.peekAt digits.length)) c.mark)
  else
    let n := Integer.value 16 digits
    match CodePoint.ofNat? n with
    | some x => .ok (x, c.advance width)
    | none => .error (if n < 0x80000000 then .refused .noCodePoint else .broken .hugeEscape)

/-- Takes line ends and the blanks around them. A document mark may not follow. The
line ends are gathered last one first. -/
def takeQuotedBreaks (began : Mark) :
    (fuel : Text) → Cursor → (acc : Text) → Except Error (Text × Cursor)
  | [], c, acc => .ok (acc.reverse, c)
  | _ :: fuel, c, acc =>
    if c.atDocumentMark then
      .error (.during .scanningQuoted began .documentSeparator c.mark)
    else
      let after := c.skipWhile isBlank
      if isBreak after.peek then
        let (lineEnd, after) := after.takeBreak
        takeQuotedBreaks began fuel after (lineEnd.reverse ++ acc)
      else .ok (acc.reverse, after)

/-- Takes blanks, or a folded run of line ends. -/
def takeQuotedSpace (began : Mark) (c : Cursor) : Except Error (Text × Cursor) := do
  let (blanks, after) := c.takeWhile isBlank
  if isEnd after.peek then .error (.during .scanningQuoted began .endOfText after.mark)
  else if isBreak after.peek then
    let (lineEnd, after) := after.takeBreak
    let (breaks, after) ← takeQuotedBreaks began after.steps after []
    return (foldBreak lineEnd breaks, after)
  else return (blanks, after)

/-- An escape behind its backslash. An escaped line end stands for nothing. -/
def takeEscape (began : Mark) (c : Cursor) : Except Error (Text × Cursor) := do
  let letter := c.peek
  match escapeValue? letter with
  | some x => return ([x], c.next)
  | none =>
    match escapeWidth? letter with
    | some width =>
      let (x, after) ← takeNumberedEscape began width c.next
      return ([x], after)
    | none =>
      if isBreak letter then
        let after := c.takeBreak.2
        takeQuotedBreaks began after.steps after []
      else .error (.during .scanningDoubleQuoted began (.unknownEscape letter) c.mark)

/-- A code point that needs no thought between quotes. -/
def isQuotedPlain (c : CodePoint) : Bool :=
  !(c == '\'' || c == '"' || c == '\\' || isBlankOrEnd c)

/-- Takes what stands between quotes up to a blank, a line end or the closing
quote. The text is gathered last code point first. -/
def takeQuotedRun (isDouble : Bool) (began : Mark) :
    (fuel : Text) → Cursor → (acc : Text) → Except Error (Text × Cursor)
  | [], c, acc => .ok (acc, c)
  | _ :: fuel, c, acc => do
    let (run, after) := c.takeWhile isQuotedPlain
    let acc := run.reverse ++ acc
    let x := after.peek
    if !isDouble && x == '\'' && after.peekAt 1 == '\'' then
      takeQuotedRun isDouble began fuel (after.advance 2) (x :: acc)
    else if (isDouble && x == '\'') || (!isDouble && (x == '"' || x == '\\')) then
      takeQuotedRun isDouble began fuel after.next (x :: acc)
    else if isDouble && x == '\\' then
      let (escaped, after) ← takeEscape began after.next
      takeQuotedRun isDouble began fuel after (escaped.reverse ++ acc)
    else return (acc, after)

/-- Takes runs and the space between them up to the closing quote. -/
def takeQuotedFrom (isDouble : Bool) (quote : Char) (began : Mark) :
    (fuel : Text) → Cursor → (acc : Text) → Except Error (Text × Cursor)
  | [], c, acc => .ok (acc, c)
  | _ :: fuel, c, acc =>
    if c.peek == quote then .ok (acc.reverse, c.next)
    else do
      let (space, after) ← takeQuotedSpace began c
      let (acc, after) ←
        takeQuotedRun isDouble began after.steps after (space.reverse ++ acc)
      takeQuotedFrom isDouble quote began fuel after acc

/-- A scalar between quotes of the kind at the cursor. -/
def scanQuoted (isDouble : Bool) (c : Cursor) : Except Error (Lexeme × Cursor) := do
  let quote := if isDouble then '"' else '\''
  let began := c.mark
  let (acc, after) ← takeQuotedRun isDouble began c.steps c.next []
  let (value, after) ← takeQuotedFrom isDouble quote began after.steps after acc
  return (.scalar value .marked, after)

/-! ## Plain -/

/-- A sign of flow collections. -/
def isFlowSign (c : CodePoint) : Bool := Text.has ",[]\x7b\x7d" c

/-- Whether a colon before this code point ends a plain scalar. -/
def isAfterColon (inFlow : Bool) (c : CodePoint) : Bool :=
  isBlankOrEnd c || (inFlow && isFlowSign c)

/-- The code points of a plain scalar up to a blank or a sign that ends it. -/
def plainRun (inFlow : Bool) : Text → Text
  | [] => []
  | c :: rest =>
    if isBlankOrEnd c
        || (c == ':' && isAfterColon inFlow (rest.headD endSign))
        || (inFlow && (isFlowSign c || c == '?')) then []
    else c :: plainRun inFlow rest

/-- Takes line ends and the spaces around them; no text when a document mark
follows a line end. The line ends are gathered last one first. -/
def takePlainBreaks : (fuel : Text) → Cursor → (acc : Text) → Option Text × Cursor
  | [], c, acc => (some acc.reverse, c)
  | _ :: fuel, c, acc =>
    let after := c.skipSpaces
    if isBreak after.peek then
      let (lineEnd, after) := after.takeBreak
      if after.atDocumentMark then (none, after)
      else takePlainBreaks fuel after (lineEnd.reverse ++ acc)
    else (some acc.reverse, after)

/-- The space behind a run of a plain scalar, whether a line end is in it, and the
cursor behind it. Empty space ends the scalar. -/
def takePlainSpace (c : Cursor) : Text × Bool × Cursor :=
  let (spaces, after) := c.takeWhile isSpace
  if isBreak after.peek then
    let (lineEnd, after) := after.takeBreak
    if after.atDocumentMark then ([], true, after)
    else
      match takePlainBreaks after.steps after [] with
      | (none, after) => ([], true, after)
      | (some breaks, after) => (foldBreak lineEnd breaks, true, after)
  else (spaces, false, after)

/-- What is known of a plain scalar when some runs have been taken: its text with
the last code point first, where it ends, whether a line end follows, and the
cursor behind the space that follows. -/
structure PlainState where
  text : Text
  stop : Mark
  crossed : Bool
  cursor : Cursor

/-- Takes further runs; `space` is the space behind the last one. -/
def takePlainFrom (inFlow : Bool) (indent : Int) :
    (fuel : Text) → (space : Text) → PlainState → PlainState
  | [], _, s => s
  | _ :: fuel, space, s =>
    let c := s.cursor
    let run := if c.peek == '#' then [] else plainRun inFlow c.rest
    if run.isEmpty then s
    else
      let after := c.advance run.length
      let (next, crossed, cursor) := takePlainSpace after
      let s := ⟨run.reverse ++ (space.reverse ++ s.text), after.mark, crossed, cursor⟩
      if next.isEmpty || cursor.peek == '#' || (!inFlow && (cursor.column : Int) < indent) then s
      else takePlainFrom inFlow indent fuel next s

/-- A plain scalar in a block that is indented by `indent`. -/
def scanPlain (inFlow : Bool) (indent : Int) (c : Cursor) : PlainState :=
  takePlainFrom inFlow (indent + 1) c.steps [] ⟨[], c.mark, false, c⟩

/-! ## Blocks -/

/-- What becomes of the line ends behind a block scalar. -/
inductive Chomping
  | strip
  | clip
  | keep
deriving DecidableEq

def chomping? (c : CodePoint) : Option Chomping :=
  if c == '+' then some .keep else if c == '-' then some .strip else none

/-- An indentation digit, which may not be zero. -/
def takeIndentation (began : Mark) (c : Cursor) : Except Error (Option Nat × Cursor) :=
  if c.peek.isDigit then
    if c.peek == '0' then
      .error (.during .scanningBlockScalar began .zeroIndentation c.mark)
    else .ok (some (c.peek.val - 0x30), c.next)
  else .ok (none, c)

/-- The indicators behind the sign of a block scalar, in either order. -/
def takeIndicators (began : Mark) (c : Cursor) :
    Except Error ((Chomping × Option Nat) × Cursor) := do
  let ((chomping, indentation), after) ← show Except Error ((Chomping × Option Nat) × Cursor) from do
    match chomping? c.peek with
    | some chomping =>
      let (indentation, after) ← takeIndentation began c.next
      return ((chomping, indentation), after)
    | none =>
      let (indentation, after) ← takeIndentation began c
      match indentation, chomping? after.peek with
      | some _, some chomping => return ((chomping, indentation), after.next)
      | _, _ => return ((.clip, indentation), after)
  if isSpaceOrEnd after.peek then return ((chomping, indentation), after)
  else unexpected .scanningBlockScalar began .blockIndicator after

/-- Takes the empty lines in front of a block scalar: their line ends, gathered last
one first, and the deepest column that spaces reach. -/
def takeLeadingBreaks : (fuel : Text) → Cursor → (acc : Text) → (deepest : Nat) →
    Text × Nat × Cursor
  | [], c, acc, deepest => (acc.reverse, deepest, c)
  | _ :: fuel, c, acc, deepest =>
    if c.peek == ' ' then takeLeadingBreaks fuel c.next acc (max deepest c.next.column)
    else if isBreak c.peek then
      let (lineEnd, after) := c.takeBreak
      takeLeadingBreaks fuel after (lineEnd.reverse ++ acc) deepest
    else (acc.reverse, deepest, c)

/-- Passes over spaces up to a column. -/
def skipIndentation (indent : Nat) (c : Cursor) : Cursor :=
  c.advance (((c.rest.take (indent - c.column)).takeWhile isSpace).length)

/-- Takes the line ends of empty lines and the indentation that follows. The line ends
are gathered last one first. -/
def takeBlockBreaks (indent : Nat) : (fuel : Text) → Cursor → (acc : Text) → Text × Cursor
  | [], c, acc => (acc.reverse, c)
  | _ :: fuel, c, acc =>
    let after := skipIndentation indent c
    if isBreak after.peek then
      let (lineEnd, after) := after.takeBreak
      takeBlockBreaks indent fuel after (lineEnd.reverse ++ acc)
    else (acc.reverse, after)

/-- Takes the lines of a block scalar. `breaks` are the line ends in front of the
next line. The result is the text with the last code point first, the end of the
last line, and the line ends behind it. -/
def takeBlockLines (isFolded : Bool) (indent : Nat) :
    (fuel : Text) → Cursor → (breaks acc : Text) → (Text × Text × Text) × Cursor
  | [], c, breaks, acc => ((acc, [], breaks), c)
  | _ :: fuel, c, breaks, acc =>
    if c.column = indent && !isEnd c.peek then
      let startsPlain := !isBlank c.peek
      let (line, after) := c.takeWhile fun x => !isBreakOrEnd x
      let acc := line.reverse ++ (breaks.reverse ++ acc)
      let (lineEnd, after) := after.takeBreak
      let (breaks, after) := takeBlockBreaks indent after.steps after []
      if after.column = indent && !isEnd after.peek then
        let isFoldable :=
          isFolded && lineEnd == [CodePoint.ofChar '\n'] && startsPlain && !isBlank after.peek
        let between : Text := if isFoldable then (if breaks.isEmpty then " " else "") else lineEnd
        takeBlockLines isFolded indent fuel after breaks (between.reverse ++ acc)
      else ((acc, lineEnd, breaks), after)
    else ((acc, [], breaks), c)

/-- A block scalar whose sign is at the cursor, in a block that is indented by
`indent`. -/
def scanBlock (isFolded : Bool) (indent : Int) (c : Cursor) : Except Error (Lexeme × Cursor) := do
  let began := c.mark
  let ((chomping, indentation), after) ← takeIndicators began c.next
  let after ← skipLine .scanningBlockScalar began after
  let least := max 1 (indent + 1).toNat
  let fuel := after.steps
  let (indent, breaks, after) :=
    match indentation with
    | some n =>
      let indent := least + n - 1
      let (breaks, after) := takeBlockBreaks indent fuel after []
      (indent, breaks, after)
    | none =>
      let (breaks, deepest, after) := takeLeadingBreaks fuel after [] 0
      (max least deepest, breaks, after)
  let ((text, lineEnd, breaks), after) := takeBlockLines isFolded indent fuel after breaks []
  let tail :=
    match chomping with
    | .strip => []
    | .clip => lineEnd
    | .keep => lineEnd ++ breaks
  return (.scalar (text.reverse ++ tail) .marked, after)

end TopologyAudit.Yaml
