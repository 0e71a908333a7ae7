import TopologyAudit.Text.CodePointSet

/-!
# White space

The code points that count as white space around a word: the space separators of
Unicode, the line and paragraph separators, the control characters that move the
pen, and the four ASCII separators `1C` to `1F`. The zero-width space and the byte
order mark do not count.
-/

namespace TopologyAudit

/-- The white space code points. -/
def blankSet : CodePointSet := [
  (9, 13), (28, 32), (133, 133), (160, 160), (5760, 5760), (8192, 8202), (8232, 8233),
  (8239, 8239), (8287, 8287), (12288, 12288)]

/-- Whether a code point is white space. -/
def CodePoint.isBlank (c : CodePoint) : Bool := blankSet.contains c

namespace Text

/-- The text without the white space in front. -/
def trimLeft (t : Text) : Text := t.dropWhile CodePoint.isBlank

/-- The text without the white space at the end. -/
def trimRight (t : Text) : Text := (t.reverse.dropWhile CodePoint.isBlank).reverse

/-- The text without the white space at either end. -/
def trim (t : Text) : Text := t.trimLeft.trimRight

end Text

end TopologyAudit
