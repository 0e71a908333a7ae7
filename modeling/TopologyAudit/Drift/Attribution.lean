import TopologyAudit.Audit.Violation

/-!
# Attribution

Violations grouped by the service that they are attributed to. The services stand
in the order in which they first occur, and the violations of each in their order.
-/

namespace TopologyAudit

/-- The names of services, each with its violations. -/
abbrev Attribution := List (Text × List Violation)

namespace Attribution

/-- Adds a violation after the ones of its service. -/
def add : Attribution → Violation → Attribution
  | [], v => [(v.service, [v])]
  | (name, vs) :: rest, v =>
    if name = v.service then (name, vs ++ [v]) :: rest else (name, vs) :: add rest v

/-- Groups violations by service. -/
def ofList (violations : List Violation) : Attribution := violations.foldl add []

/-- The violations of a service; a service that does not occur has none. -/
def get (a : Attribution) (name : Text) : List Violation := (a.lookup name).getD []

end Attribution

end TopologyAudit
