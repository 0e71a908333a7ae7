import TopologyAudit.Host.Mark

/-!
# Direction of labels

Labels of scripts that run from right to left would be read in a wrong order beside
others, unless they keep to rules: they begin with a letter of such a script, hold none of
the other direction, have digits of one kind, and end in a letter or a digit.
-/

namespace TopologyAudit

inductive Direction
  | leftToRight
  | rightToLeft
  | europeanNumber
  | arabicNumber
  /-- That of the letter that a mark stands on. -/
  | inherited
  | neutral
deriving DecidableEq, Repr

/-- Ranges of letters that run from right to left. They also run over marks and over code
points that no label holds. -/
def rightToLeftSet : CodePointSet := [
  (1488, 1610), (1646, 1775), (1786, 2249), (65139, 65139), (67584, 68899), (69248, 69622),
  (124928, 125273)]

/-- The ranges of signs without a direction. -/
def neutralSet : CodePointSet := [
  (45, 45), (183, 183), (697, 698), (710, 719), (748, 748), (885, 885), (8204, 8205),
  (11823, 11823), (12539, 12539), (42623, 42623), (42775, 42783), (42888, 42888)]

/-- The direction of a code point that a label may hold. -/
def CodePoint.direction (c : CodePoint) : Direction :=
  if c.isOverlaidMark then .inherited
  else if c.isDigit || c.within 0x6F0 0x6F9 then .europeanNumber
  else if c.within 0x660 0x669 || c.within 0x10D30 0x10D39 then .arabicNumber
  else if neutralSet.contains c then .neutral
  else if rightToLeftSet.contains c then .rightToLeft
  else .leftToRight

/-- Whether a label may end in the direction: marks at the end are not looked at. -/
def Direction.mayEnd : Direction → Bool
  | rightToLeft | europeanNumber | arabicNumber => true
  | leftToRight | inherited | neutral => false

/-- Whether a label can be read in one order beside others. -/
def Text.hasOneDirection (label : Text) : Bool :=
  let directions := label.map CodePoint.direction
  let isLeftToRight :=
    !(directions.contains .rightToLeft || directions.contains .arabicNumber)
  isLeftToRight ||
    (directions.head? == some .rightToLeft
      && !directions.contains .leftToRight
      && !(directions.contains .europeanNumber && directions.contains .arabicNumber)
      && ((directions.reverse.dropWhile (· == .inherited)).head?.any Direction.mayEnd))

end TopologyAudit
