import TopologyAudit.Yaml.Token.Basic

/-!
# Directives, tags, anchors and aliases

Readers for the tokens whose text is made of words and of the characters of
locations. Each takes its token off a cursor or says what it met instead.
-/

namespace TopologyAudit.Yaml

/-- What a directive or a tag is called in faults of its parts. -/
inductive Owner
  | directive
  | tag
deriving DecidableEq

namespace Owner

def scanning : Owner → Activity
  | directive => .scanningDirective
  | tag => .scanningTag

def reading : Owner → Activity
  | directive => .readingDirective
  | tag => .readingTag

end Owner

/-- A fault: something was expected where the cursor stands. -/
def unexpected {α : Type} (activity : Activity) (began : Mark) (what : Expected) (c : Cursor) :
    Except Error α :=
  .error (.during activity began (.expected what c.peek) c.mark)

/-- A character of a tag or of its expansion, the percent sign of an escape
apart. -/
def isUriCharacter (c : CodePoint) : Bool :=
  c.isDigit || c.isLetter || Text.has "-;/?:@&=+$,_.!~*'()[]" c

/-- The bytes of a run of escapes. -/
def takeUriBytes (owner : Owner) (began : Mark) :
    (fuel : Text) → Cursor → (acc : List UInt8) → Except Error (List UInt8 × Cursor)
  | [], c, acc => .ok (acc.reverse, c)
  | _ :: fuel, c, acc =>
    if c.peek == '%' then
      let digits := c.next
      match digits.peek.hexValue?, (digits.peekAt 1).hexValue? with
      | some high, some low =>
        takeUriBytes owner began fuel (digits.advance 2) (UInt8.ofNat (high * 16 + low) :: acc)
      | none, _ =>
        .error (.during owner.scanning began (.expected .uriEscape digits.peek) digits.mark)
      | some _, none =>
        .error (.during owner.scanning began (.expected .uriEscape (digits.peekAt 1)) digits.mark)
    else .ok (acc.reverse, c)

/-- A run of escapes as the text that its bytes write in UTF-8. -/
def takeUriEscapes (owner : Owner) (began : Mark) (c : Cursor) : Except Error (Text × Cursor) := do
  let (bytes, after) ← takeUriBytes owner began c.steps c []
  match Utf8.decode bytes with
  | .ok t => return (t, after)
  | .error e => .error (.during owner.scanning began (.undecodable e) c.mark)

/-- Characters and escapes, as many as follow. -/
def takeUriFrom (owner : Owner) (began : Mark) :
    (fuel : Text) → Cursor → (acc : Text) → Except Error (Text × Cursor)
  | [], c, acc => .ok (acc, c)
  | _ :: fuel, c, acc => do
    let (run, after) := c.takeWhile isUriCharacter
    if after.peek == '%' then
      let (decoded, after) ← takeUriEscapes owner began after
      takeUriFrom owner began fuel after (acc ++ run ++ decoded)
    else return (acc ++ run, after)

/-- A location, which is not empty. -/
def takeUri (owner : Owner) (began : Mark) (c : Cursor) : Except Error (Text × Cursor) := do
  let (uri, after) ← takeUriFrom owner began c.steps c []
  if uri.isEmpty then unexpected owner.reading began .uri after
  else return (uri, after)

/-- A tag handle: an exclamation mark alone before a space, or two with a word or
nothing between them. -/
def takeHandle (owner : Owner) (began : Mark) (c : Cursor) : Except Error (Text × Cursor) :=
  if !(c.peek == '!') then unexpected owner.scanning began .exclamationMark c
  else
    let first := c.next
    if first.peek == ' ' then .ok ("!", first)
    else
      let (word, after) := first.takeWhile isWord
      if after.peek == '!' then .ok (("!" : Text) ++ word ++ "!", after.next)
      else unexpected owner.scanning began .exclamationMark after

/-- A tag in one of its three forms: verbatim between angle brackets, a handle and
a suffix, or an exclamation mark alone. -/
def scanTag (c : Cursor) : Except Error (Lexeme × Cursor) := do
  let began := c.mark
  let second := c.peekAt 1
  let (lexeme, after) ← show Except Error (Lexeme × Cursor) from do
    if second == '<' then
      let (uri, after) ← takeUri .tag began (c.advance 2)
      if after.peek == '>' then return (.tag none uri, after.next)
      else unexpected .readingTag began .greaterThan after
    else if isBlankOrEnd second then
      return (.tag none "!", c.next)
    else
      let hasHandle := (c.next.upTo fun x => !isSpaceOrEnd x).contains '!'
      let (handle, after) ←
        if hasHandle then takeHandle .tag began c else .ok (("!" : Text), c.next)
      let (suffix, after) ← takeUri .tag began after
      return (.tag (some handle) suffix, after)
  if isSpaceOrEnd after.peek then return (lexeme, after)
  else unexpected .scanningTag began .space after

/-- The name behind the sign of an anchor or an alias. -/
def takeName (activity : Activity) (c : Cursor) : Except Error (Text × Cursor) :=
  let (name, after) := c.next.takeWhile isWord
  let ends := isBlankOrEnd after.peek || Text.has "?:,]\x7d%@\x60" after.peek
  if name.isEmpty || !ends then unexpected activity c.mark .wordCharacter after
  else .ok (name, after)

/-- The digits of a version number. -/
def takeVersionNumber (began : Mark) (c : Cursor) : Except Error (Nat × Cursor) := do
  let (digits, after) := c.takeWhile CodePoint.isDigit
  if digits.isEmpty then unexpected .scanningDirective began .digit c
  else
    match Integer.read 10 digits with
    | .ok n => return (n.toNat, after)
    | .error e => .error (.refused (.integer e))

/-- The two numbers of a version. -/
def takeVersion (began : Mark) (c : Cursor) : Except Error (Directive × Cursor) := do
  let (major, after) ← takeVersionNumber began c.skipSpaces
  if after.peek == '.' then
    let (minor, after) ← takeVersionNumber began after.next
    if isSpaceOrEnd after.peek then return (.version major minor, after)
    else unexpected .scanningDirective began .digitOrSpace after
  else unexpected .scanningDirective began .digitOrPoint after

/-- A handle and what it stands for. -/
def takeHandleDefinition (began : Mark) (c : Cursor) : Except Error (Directive × Cursor) := do
  let (handle, after) ← takeHandle .directive began c.skipSpaces
  if after.peek == ' ' then
    let (expansion, after) ← takeUri .directive began after.skipSpaces
    if isSpaceOrEnd after.peek then return (.handle handle expansion, after)
    else unexpected .scanningDirective began .space after
  else unexpected .scanningDirective began .space after

/-- Passes over the rest of a line on which only a comment may stand. -/
def skipLine (activity : Activity) (began : Mark) (c : Cursor) : Except Error Cursor :=
  let after := c.skipSpaces.skipComment
  if isBreakOrEnd after.peek then .ok after.takeBreak.2
  else unexpected activity began .lineEnd after

/-- A directive and the rest of its line. -/
def scanDirective (c : Cursor) : Except Error (Lexeme × Cursor) := do
  let began := c.mark
  let (name, after) := c.next.takeWhile isWord
  if name.isEmpty || !isSpaceOrEnd after.peek then
    unexpected .scanningDirective began .wordCharacter after
  else
    let (directive, after) ←
      if name = "YAML" then takeVersion began after
      else if name = "TAG" then takeHandleDefinition began after
      else .ok (Directive.other, after.skipWhile fun x => !isBreakOrEnd x)
    let after ← skipLine .scanningDirective began after
    return (.directive directive, after)

end TopologyAudit.Yaml
