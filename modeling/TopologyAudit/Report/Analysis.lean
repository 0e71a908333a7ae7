import TopologyAudit.Record.Topology
import TopologyAudit.Report.Basic
import TopologyAudit.Source.Parse

/-!
# Analyses

The analysis of one config: its topology and its violations. An analysis that fails
reports nothing but errors.
-/

namespace TopologyAudit

structure Analysis where
  topology : Topology
  violations : List Violation
deriving DecidableEq

namespace Analysis

def ofTopology (t : Topology) : Analysis := ⟨t, t.audit⟩

/-- The report on a parsed config. -/
def ofParsed (r : ParseResult) : Report Analysis := ⟨r.value.map ofTopology, r.messages⟩

/-- Analyses a config in the format that a value names. -/
def run (order : SetOrder) (format : Value) (t : Text) : Except Breakdown (Report Analysis) := do
  return ofParsed (← Topology.parse order format t)

/-- The fields of an analysis. -/
def fields (a : Analysis) : List (Text × Json) :=
  [("ir", a.topology.wire), ("violations", Violation.wireList a.violations)]

def toJson (r : Report Analysis) : Json := Report.toJson fields r

end Analysis

end TopologyAudit
