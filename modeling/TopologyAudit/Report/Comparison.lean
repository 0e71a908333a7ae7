import TopologyAudit.Report.Analysis

/-!
# Comparisons

The comparison of two configs: their topologies and violations, and the drift between
them. When either config fails, the comparison reports the errors of both, the earlier
config's first, and nothing of a config that did parse.
-/

namespace TopologyAudit

structure Comparison where
  drift : Drift
  oldTopology : Topology
  newTopology : Topology
  oldViolations : List Violation
  newViolations : List Violation
deriving DecidableEq

namespace Comparison

def ofTopologies (old new : Topology) : Comparison :=
  let before := old.audit
  let after := new.audit
  ⟨Drift.between old new before after, old, new, before, after⟩

/-- The report on two parsed configs. -/
def ofParsed (old new : ParseResult) : Report Comparison :=
  let errors := old.messages ++ new.messages
  match old.value, new.value with
  | some s, some t => ⟨some (ofTopologies s t), errors⟩
  | _, _ => .failure errors

/-- Compares two configs in the formats that two values name. -/
def run (order : SetOrder) (oldFormat newFormat : Value) (old new : Text) :
    Except Breakdown (Report Comparison) := do
  let oldParsed ← Topology.parse order oldFormat old
  let newParsed ← Topology.parse order newFormat new
  return ofParsed oldParsed newParsed

/-- The format of the second config: that of the first one if none is named. -/
def secondFormat (format named : Value) : Value := if named.isNull then format else named

/-- Compares two configs where the format of the second one may be left out. -/
def runNamed (order : SetOrder) (format named : Value) (old new : Text) :
    Except Breakdown (Report Comparison) :=
  run order format (secondFormat format named) old new

/-- The fields of a comparison. -/
def fields (c : Comparison) : List (Text × Json) :=
  [("diff", c.drift.wire), ("oldIr", c.oldTopology.wire), ("newIr", c.newTopology.wire),
    ("oldViolations", Violation.wireList c.oldViolations),
    ("newViolations", Violation.wireList c.newViolations)]

def toJson (r : Report Comparison) : Json := Report.toJson fields r

end Comparison

end TopologyAudit
