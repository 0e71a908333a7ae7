import TopologyAudit.Report.Comparison

/-!
# Reports for reading

The reports of analyses and comparisons as lines of text, and the gate that decides
whether an analysis fails.
-/

namespace TopologyAudit

/-- A violation as a line. -/
def Violation.line (v : Violation) : Text :=
  "  [" ++ Text.upper v.severity.name ++ "] " ++ v.rule ++ " @ " ++ v.service ++ " -> "
    ++ v.description

/-- The fingerprint of the text that a topology came from. -/
def Topology.fingerprintText (t : Topology) : Text := t.metadata.fingerprint.getD "None"

namespace Analysis

/-- The number of violations, and how many there are of each severity. -/
def countLine (violations : List Violation) : Text :=
  let s := Summary.ofViolations violations
  "Found " ++ Text.ofNat violations.length ++ " violation(s) (high=" ++ Text.ofNat s.high
    ++ ", medium=" ++ Text.ofNat s.medium ++ ", low=" ++ Text.ofNat s.low ++ "):"

/-- The report of an analysis, line by line. -/
def lines (a : Analysis) : List Text :=
  let verdict : List Text :=
    if a.violations.isEmpty then ["No invariant violations found."]
    else countLine a.violations :: a.violations.map Violation.line
  ["Config hash: " ++ a.topology.fingerprintText,
   "Services: " ++ Text.ofNat a.topology.services.length, []] ++ verdict

/-- Whether some violation is at or above a severity. -/
def trips (a : Analysis) (gate : Severity) : Bool :=
  a.violations.any fun v => gate.rank ≤ v.severity.rank

end Analysis

/-- A drift of one service as lines. -/
def Change.lines (c : Change) : List Text :=
  [] :: (c.service ++ " [" ++ (c.impact.name ++ ("]" : Text)))
    :: c.messages.map fun message : Text => "  - " ++ message

/-- The report of a comparison, line by line. -/
def Comparison.lines (c : Comparison) : List Text :=
  ["Old hash: " ++ c.oldTopology.fingerprintText ++ "  New hash: "
      ++ c.newTopology.fingerprintText,
   "New violations: " ++ Text.ofNat c.drift.introduced,
   "Resolved violations: " ++ Text.ofNat c.drift.resolved]
    ++ c.drift.changes.flatMap Change.lines

/-- The messages of errors as lines. -/
def Report.errorLines (errors : List Text) : List Text :=
  "Parse / schema errors:" :: errors.map fun e : Text => "  - " ++ e

end TopologyAudit
