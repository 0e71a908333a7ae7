import TopologyAudit.Text.Quoted

/-!
# Places in a YAML text

A cursor is what is left of a text together with its offset, line and column, all
from zero. Lines end at line feeds, carriage returns, the pair of both, next-line
controls, and line and paragraph separators; a byte order mark takes no column.
Behind the last code point the cursor shows the null code point, which no YAML
text contains.

A mark is a place that a message points to. It shows the line around it, cut to a
window of some seventy columns.
-/

namespace TopologyAudit.Yaml

/-- A place in a text: offset, line and column, counted from zero. -/
structure Mark where
  offset : Nat
  line : Nat
  column : Nat
deriving DecidableEq, Repr

/-- The code point that stands for the end of the text. -/
def endSign : CodePoint := ⟨0, Nat.zero_lt_succ _⟩

/-- Next-line control, line separator and paragraph separator. -/
def isNextLine (c : CodePoint) : Bool := c.val = 0x85
def isSeparator (c : CodePoint) : Bool := c.val = 0x2028 || c.val = 0x2029

def isEnd (c : CodePoint) : Bool := c.val = 0

/-- A code point that ends a line. -/
def isBreak (c : CodePoint) : Bool :=
  c == '\n' || c == '\r' || isNextLine c || isSeparator c

/-- A line end or the end of the text. -/
def isBreakOrEnd (c : CodePoint) : Bool := isBreak c || isEnd c

def isSpace (c : CodePoint) : Bool := c == ' '

/-- Space, line end or end of the text. -/
def isSpaceOrEnd (c : CodePoint) : Bool := isSpace c || isBreakOrEnd c

/-- A space or a tab. -/
def isBlank (c : CodePoint) : Bool := c == ' ' || c == '\t'

/-- Blank, line end or end of the text. -/
def isBlankOrEnd (c : CodePoint) : Bool := isBlank c || isBreakOrEnd c

/-- A code point of an anchor, of a handle or of the name of a directive. -/
def isWord (c : CodePoint) : Bool := c.isDigit || c.isLetter || c == '-' || c == '_'

/-- The byte order mark. -/
def isByteOrderMark (c : CodePoint) : Bool := c.val = 0xFEFF

/-- The rest of a text and where it begins. -/
structure Cursor where
  rest : Text
  offset : Nat
  line : Nat
  column : Nat

namespace Cursor

def ofText (t : Text) : Cursor := ⟨t, 0, 0, 0⟩

def mark (c : Cursor) : Mark := ⟨c.offset, c.line, c.column⟩

/-- What the steps of a reader are counted by: one for each code point that is left,
and one more. Readers that stop by themselves never use up all of them. -/
def steps (c : Cursor) : Text := endSign :: c.rest

/-- The code point at the cursor. -/
def peek (c : Cursor) : CodePoint := c.rest.headD endSign

/-- The code point some places further on. -/
def peekAt (c : Cursor) (n : Nat) : CodePoint := (c.rest.drop n).headD endSign

/-- One code point further on. A carriage return before a line feed leaves the
end of the line to the line feed. -/
def next (c : Cursor) : Cursor :=
  match c.rest with
  | [] => c
  | x :: rest =>
    let endsLine := isBreak x && !(x == '\r' && rest.head? == some (CodePoint.ofChar '\n'))
    if endsLine then ⟨rest, c.offset + 1, c.line + 1, 0⟩
    else if isByteOrderMark x then ⟨rest, c.offset + 1, c.line, c.column⟩
    else ⟨rest, c.offset + 1, c.line, c.column + 1⟩

/-- Some code points further on. -/
def advance : Nat → Cursor → Cursor
  | 0, c => c
  | n + 1, c => advance n c.next

/-- The code points from the cursor on that have a property. -/
def upTo (c : Cursor) (p : CodePoint → Bool) : Text := c.rest.takeWhile p

/-- Takes the code points that have a property. -/
def takeWhile (c : Cursor) (p : CodePoint → Bool) : Text × Cursor :=
  let taken := c.upTo p
  (taken, c.advance taken.length)

/-- Passes over the code points that have a property. -/
def skipWhile (c : Cursor) (p : CodePoint → Bool) : Cursor := (c.takeWhile p).2

/-- Passes over spaces. -/
def skipSpaces (c : Cursor) : Cursor := c.skipWhile isSpace

/-- Passes over a comment if one begins here. -/
def skipComment (c : Cursor) : Cursor :=
  if c.peek == '#' then c.skipWhile fun x => !isBreakOrEnd x else c

/-- Takes one line end, if one is here. All but the separators count as a line
feed. -/
def takeBreak (c : Cursor) : Text × Cursor :=
  let x := c.peek
  if isSeparator x then ([x], c.next)
  else if x == '\r' && c.peekAt 1 == '\n' then ([CodePoint.ofChar '\n'], c.advance 2)
  else if isBreak x then ([CodePoint.ofChar '\n'], c.next)
  else ([], c)

/-- Whether the text goes on with three dashes or three points that stand for
themselves. -/
def atSeparator (c : Cursor) (sign : Char) : Bool :=
  c.peek == sign && c.peekAt 1 == sign && c.peekAt 2 == sign && isBlankOrEnd (c.peekAt 3)

/-- Whether a document begins or ends here. -/
def atDocumentMark (c : Cursor) : Bool := c.atSeparator '-' || c.atSeparator '.'

end Cursor

/-- How many code points of a line are shown on either side of a mark, doubled;
the window is an odd number of half columns wide. -/
def snippetReach : Nat := 73

/-- Takes code points of a line, nearest first, until the line ends or the reach
is passed. In the latter case five of them give way to dots. -/
def snippetSide (t : Text) : Text × Bool :=
  let line := t.takeWhile fun c => !isBreakOrEnd c
  if 2 * line.length > snippetReach then (line.take (snippetReach / 2 + 1 - 5), true)
  else (line, false)

/-- The line around a mark and a caret under the place. -/
def Mark.snippet (m : Mark) (t : Text) : Text :=
  let dots : Text := " ... "
  let spaces (n : Nat) : Text := List.replicate n (CodePoint.ofChar ' ')
  let (left, leftCut) := snippetSide (t.take m.offset).reverse
  let (right, rightCut) := snippetSide (t.drop m.offset)
  let head := (if leftCut then dots else []) ++ left.reverse
  spaces 4 ++ head ++ right ++ (if rightCut then dots else [])
    ++ [CodePoint.ofChar '\n'] ++ spaces (4 + head.length) ++ [CodePoint.ofChar '^']

/-- The mark as it stands in a message about a text. -/
def Mark.message (m : Mark) (t : Text) : Text :=
  "  in \"<unicode string>\", line " ++ Text.ofNat (m.line + 1) ++ ", column "
    ++ Text.ofNat (m.column + 1) ++ ":\n" ++ m.snippet t

end TopologyAudit.Yaml
