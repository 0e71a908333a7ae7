import TopologyAudit.Audit.Rule
import TopologyAudit.Record.Wire

/-!
# The model as records

Topologies, violations and drifts with the attributes that reports show.
-/

namespace TopologyAudit

def Amount.toValue : Amount → Value
  | .int n => .int n
  | .float x => .float x

/-- The value of something that may be absent. -/
def Value.ofOption {α : Type} (toValue : α → Value) : Option α → Value
  | none => .null
  | some a => toValue a

def Binding.toValue (b : Binding) : Value :=
  .record [("host", .text b.host), ("port", .int b.port), ("protocol", .word (.protocol b.protocol))]

def Limits.toValue (l : Limits) : Value :=
  .record [("cpu", Value.ofOption Amount.toValue l.cpu),
    ("memory_mb", Value.ofOption Amount.toValue l.memoryMb)]

def Service.toValue (s : Service) : Value :=
  .record [("name", .text s.name), ("type", .word (.kind s.kind)), ("public", .bool s.isPublic),
    ("handles_pii", .bool s.handlesPii), ("network", .tuple (s.network.map Binding.toValue)),
    ("depends_on", .tuple (s.dependsOn.map .text)),
    ("resource_limits", Value.ofOption Limits.toValue s.limits)]

def Metadata.toValue (m : Metadata) : Value :=
  .record [("source_format", .word (.format m.format)),
    ("raw_hash", Value.ofOption Value.text m.fingerprint)]

def Topology.toValue (t : Topology) : Value :=
  .record [("services", .tuple (t.services.map Service.toValue)), ("metadata", t.metadata.toValue)]

def Violation.toValue (v : Violation) : Value :=
  .record [("id", .text v.rule), ("description", .text v.description),
    ("service_name", .text v.service), ("severity", .word (.severity v.severity))]

def Change.toValue (c : Change) : Value :=
  .record [("service_name", .text c.service), ("messages", .tuple (c.messages.map .text)),
    ("risk_impact", .word (.impact c.impact))]

def Drift.toValue (d : Drift) : Value :=
  .record [("summary", .record [("total_new_violations", .int d.introduced),
      ("total_resolved_violations", .int d.resolved)]),
    ("changes", .tuple (d.changes.map Change.toValue))]

/-- The wire form of a topology. -/
def Topology.wire (t : Topology) : Json := t.toValue.wire

/-- The wire form of a drift. -/
def Drift.wire (d : Drift) : Json := d.toValue.wire

/-- The wire form of a list of violations. -/
def Violation.wireList (vs : List Violation) : Json := (Value.list (vs.map Violation.toValue)).wire

/-- The wire form of a summary. -/
def Summary.wire (s : Summary) : Json :=
  .object [("high", .int s.high), ("medium", .int s.medium), ("low", .int s.low)]

end TopologyAudit
