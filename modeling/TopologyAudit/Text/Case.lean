import TopologyAudit.Text.CaseTable

/-!
# Case of texts

Lower, upper and title case of whole texts, with the mappings that change the
number of code points. A capital sigma that ends a word becomes `ς`; elsewhere it
becomes `σ`.
-/

namespace TopologyAudit

/-- A mapping to several code points if there is one, else the simple mapping. -/
def mapCase (expansions : List (Nat × List Nat)) (runs : List CaseRun) (c : CodePoint) : Text :=
  match expansions.lookup c.val with
  | some ns => ns.map CodePoint.ofNat
  | none => [((CaseRun.image? runs c.val).map CodePoint.ofNat).getD c]

namespace CodePoint

/-- Lower case without regard to the neighbours. -/
def lower (c : CodePoint) : Text :=
  if c.isAscii then [if c.within 0x41 0x5A then ofNat (c.val + 0x20) else c]
  else mapCase lowerExpansions lowerRuns c

def upper (c : CodePoint) : Text :=
  if c.isAscii then [if c.within 0x61 0x7A then ofNat (c.val - 0x20) else c]
  else mapCase upperExpansions upperRuns c

/-- Title case: that of the first letter of a word. -/
def title (c : CodePoint) : Text :=
  if c.isAscii then c.upper
  else
    match titleExpansions.lookup c.val with
    | some ns => ns.map ofNat
    | none =>
      match CaseRun.image? titleRuns c.val with
      | some n => [ofNat n]
      | none => c.upper

/-- The capital sigma. -/
def isSigma (c : CodePoint) : Bool := c.val == 0x3A3

def isCased (c : CodePoint) : Bool := casedSet.contains c

def isCaseIgnorable (c : CodePoint) : Bool := caseIgnorableSet.contains c

end CodePoint

namespace Text

/-- Whether the first code point that is not passed over takes part in case. -/
def meetsCased (t : Text) : Bool :=
  match t.dropWhile CodePoint.isCaseIgnorable with
  | [] => false
  | c :: _ => c.isCased

/-- Lower case of a text that follows other code points, the nearest first. -/
def lowerAfter (before : Text) : Text → Text
  | [] => []
  | c :: rest =>
    let image :=
      if c.isSigma then
        [CodePoint.ofNat (if meetsCased before && !meetsCased rest then 0x3C2 else 0x3C3)]
      else c.lower
    image ++ lowerAfter (c :: before) rest

/-- The text in lower case. -/
def lower (t : Text) : Text := lowerAfter [] t

/-- The text in upper case. -/
def upper (t : Text) : Text := t.flatMap CodePoint.upper

/-- The first code point in title case and the rest in lower case. -/
def capitalize : Text → Text
  | [] => []
  | c :: rest => c.title ++ lowerAfter [c] rest

end Text

end TopologyAudit
