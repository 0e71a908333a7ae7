import TopologyAudit.Drift.Attribution
import TopologyAudit.Entries
import TopologyAudit.Topology.Basic

/-!
# Drift

How the violations of a topology differ from those of an earlier one, service by
service. Services are matched by name, and only the numbers of their violations are
compared: a rule that is broken in place of another one is no drift.
-/

namespace TopologyAudit

/-- What a drift means for the risk of a service. -/
inductive Impact
  | increase
  | decrease
  | neutral
deriving DecidableEq, Repr

def Impact.name : Impact → Text
  | .increase => "risk_increase"
  | .decrease => "risk_decrease"
  | .neutral => "neutral"

/-- The drift of one service: how many violations it had, and those it has. -/
structure Change where
  service : Text
  before : Nat
  current : List Violation
deriving DecidableEq

namespace Change

/-- How many violations the service has. -/
def after (c : Change) : Nat := c.current.length

def impact (c : Change) : Impact :=
  if c.before < c.after then .increase
  else if c.after < c.before then .decrease
  else .neutral

/-- How the number of violations changed. -/
def headline (c : Change) : Text :=
  if c.before = 0 then Text.ofNat c.after ++ " new violation(s) introduced"
  else if c.after = 0 then Text.ofNat c.before ++ " violation(s) resolved"
  else if c.before < c.after then
    "Violations increased from " ++ Text.ofNat c.before ++ " to " ++ Text.ofNat c.after
  else if c.after < c.before then
    "Violations decreased from " ++ Text.ofNat c.before ++ " to " ++ Text.ofNat c.after
  else "Violations count unchanged (" ++ (Text.ofNat c.after ++ (")" : Text))

/-- A violation by its rule and severity. -/
def label (v : Violation) : Text := v.rule ++ " (" ++ (v.severity.name ++ (")" : Text))

/-- The headline, and the violations that the service has, if any. -/
def messages (c : Change) : List Text :=
  if c.current.isEmpty then [c.headline]
  else [c.headline, "Current violations: " ++ Text.join ", " (c.current.map label)]

end Change

/-- The drift between two topologies: how many violations came in and went away over all
services, and what changed, by service. -/
structure Drift where
  introduced : Nat
  resolved : Nat
  changes : List Change
deriving DecidableEq

namespace Drift

def empty : Drift := ⟨0, 0, []⟩

/-- Goes on to one more service. A service that has no violations and had none is left out;
otherwise what came in or went away is added to the total. -/
def add (d : Drift) (c : Change) : Drift :=
  if c.before = 0 && c.after = 0 then d
  else
    let d := { d with changes := d.changes ++ [c] }
    if c.before = 0 then { d with introduced := d.introduced + c.after }
    else if c.after = 0 then { d with resolved := d.resolved + c.before }
    else if c.before < c.after then { d with introduced := d.introduced + (c.after - c.before) }
    else if c.after < c.before then { d with resolved := d.resolved + (c.before - c.after) }
    else d

/-- The names of the services of two topologies: first the earlier one's, then those
that only the later one has, each once. -/
def names (old new : Topology) : List Text := Entries.distinct (old.names ++ new.names)

/-- The drift between two topologies with their violations, name by name. -/
def between (old new : Topology) (oldViolations newViolations : List Violation) : Drift :=
  let before := Attribution.ofList oldViolations
  let after := Attribution.ofList newViolations
  (names old new).foldl
    (fun d name => d.add ⟨name, (before.get name).length, after.get name⟩) empty

end Drift

end TopologyAudit
