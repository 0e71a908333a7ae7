import TopologyAudit.Text.Printable

/-!
# Quoted texts

Messages show a text between quotes. Single quotes are used unless the text holds
single quotes and no double ones. The quote itself, the backslash and code points
that are not printable are escaped, by letter where there is one and by number in
the shortest of three widths elsewhere.
-/

namespace TopologyAudit.Text

/-- The code point as it stands between the given quotes. -/
def quoteCodePoint (quote : Char) (c : CodePoint) : Text :=
  if c == quote || c == '\\' then ['\\', c]
  else if c == '\t' then "\\t"
  else if c == '\n' then "\\n"
  else if c == '\r' then "\\r"
  else if c.within 0x20 0x7E then [c]
  else if c.isAscii then "\\x" ++ hex 2 c.val
  else if c.isPrintable then [c]
  else if c.val ≤ 0xFF then "\\x" ++ hex 2 c.val
  else if c.val ≤ 0xFFFF then "\\u" ++ hex 4 c.val
  else "\\U" ++ hex 8 c.val

/-- The quote that a text is put between. -/
def quoteFor (t : Text) : Char :=
  if t.contains ('\'' : CodePoint) && !t.contains ('"' : CodePoint) then '"' else '\''

/-- The text between quotes. -/
def quoted (t : Text) : Text :=
  let quote := quoteFor t
  ([CodePoint.ofChar quote] ++ t.flatMap (quoteCodePoint quote)) ++ [CodePoint.ofChar quote]

end TopologyAudit.Text
