import TopologyAudit.Host.Composition
import TopologyAudit.Host.Context
import TopologyAudit.Host.Direction
import TopologyAudit.Host.Punycode

/-!
# Host names

A host name is a row of labels between dots. Labels in letters of all scripts have an
ASCII form, in which names are looked up: `xn--` and the label in Punycode.
-/

namespace TopologyAudit.HostName

/-- The most code points of a label in ASCII form. -/
def labelLimit : Nat := 63

/-- The most code points of a name in ASCII form, a dot at the end apart. -/
def nameLimit : Nat := 253

/-- The start of the ASCII form of a label that is not in ASCII. -/
def marker : Text := "xn--"

/-- The stops between labels, those of East Asian scripts included. -/
def isDot (c : CodePoint) : Bool :=
  c == '.' || c.val == 0x3002 || c.val == 0xFF0E || c.val == 0xFF61

/-- Whether hyphens stand neither at the ends nor where they would look like a marker. -/
def hyphensFit (label : Text) : Bool :=
  let hyphen := some (CodePoint.ofChar '-')
  label.head? != hyphen && label.getLast? != hyphen && (label.drop 2).take 2 != Text.ofString "--"

/-- Whether a text may be a label. -/
def isLabel (label : Text) : Bool :=
  !label.isEmpty && hyphensFit label && !label.head?.any CodePoint.isMark
    && Text.mayFollow [] label && label.composed == label && label.hasOneDirection

/-- Whether an ASCII text is a label or the ASCII form of one. -/
def isAsciiLabel (label : Text) : Bool :=
  if label.startsWith marker then
    let written := label.drop marker.length
    !written.isEmpty && written.getLast? != some (CodePoint.ofChar '-')
      && (Punycode.decode? written).any isLabel
  else isLabel label

/-- The ASCII form of a label. The form is no shorter than the label. -/
def asciiLabel? (label : Text) : Option Text :=
  if labelLimit < label.length then none
  else if label.all CodePoint.isAscii then (if isAsciiLabel label then some label else none)
  else
    let form := marker ++ Punycode.encode label
    if isLabel label && form.length ≤ labelLimit then some form else none

/-- The labels of a name; a dot may follow the last one. -/
def labels (name : Text) : List Text :=
  let dot := CodePoint.ofChar '.'
  let all := Text.splitOn dot (name.map fun c => if isDot c then dot else c)
  if all.getLast? = some [] then all.dropLast else all

/-- The ASCII form of a name in letters of either case. The form is no shorter than the
name. -/
def ascii? (name : Text) : Option Text :=
  if nameLimit + 1 < name.length then none
  else
    match (labels name.lower).mapM asciiLabel? with
    | none => none
    | some forms =>
      let form := Text.join "." forms
      if form.isEmpty || nameLimit < form.length then none else some form

end TopologyAudit.HostName
