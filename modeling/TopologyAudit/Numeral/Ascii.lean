import TopologyAudit.Text.Blank
import TopologyAudit.Text.DecimalDigit

/-!
# Numerals of all scripts

Before a numeral is read, the decimal digits of all scripts become ASCII digits
and all white space outside ASCII becomes the space. Around a numeral only the
white space of ASCII that moves the pen is passed over; the separators `1C` to
`1F` are not.
-/

namespace TopologyAudit

/-- The ASCII code point that stands for a code point in a numeral; `?` stands
for one that has no place there. -/
def CodePoint.numeralForm (c : CodePoint) : CodePoint :=
  if c.isAscii then c
  else if c.isBlank then ' '
  else
    match c.decimalValue? with
    | some n => Text.digit n
    | none => '?'

/-- White space of ASCII that moves the pen. -/
def CodePoint.isPadding (c : CodePoint) : Bool := c.within 9 13 || c == ' '

/-- The ASCII form of a numeral without the white space in front. -/
def Text.numeralStart (t : Text) : Text :=
  (t.map CodePoint.numeralForm).dropWhile CodePoint.isPadding

/-- Takes an optional sign off the front of a text: whether it is a minus, and
the rest. -/
def Text.takeSign : Text → Bool × Text
  | [] => (false, [])
  | c :: rest =>
    if c == '-' then (true, rest)
    else if c == '+' then (false, rest)
    else (false, c :: rest)

end TopologyAudit
