import TopologyAudit.Text.Basic

/-!
# Violations

A violation is a rule that a service breaks. The summary of a list counts its
violations by severity.
-/

namespace TopologyAudit

/-- How grave a violation is, from the least grave on. -/
inductive Severity
  | low
  | medium
  | high
deriving DecidableEq, Repr

namespace Severity

def all : List Severity := [low, medium, high]

def name : Severity → Text
  | low => "low"
  | medium => "medium"
  | high => "high"

/-- The place in the order of gravity. -/
def rank : Severity → Nat
  | low => 1
  | medium => 2
  | high => 3

end Severity

structure Violation where
  /-- The identifier of the rule. -/
  rule : Text
  description : Text
  /-- The name of the service. -/
  service : Text
  severity : Severity
deriving DecidableEq

/-- How many violations there are of each severity. -/
structure Summary where
  high : Nat
  medium : Nat
  low : Nat
deriving DecidableEq, Repr

namespace Summary

def zero : Summary := ⟨0, 0, 0⟩

/-- Counts one more violation of a severity. -/
def add (s : Summary) : Severity → Summary
  | .high => { s with high := s.high + 1 }
  | .medium => { s with medium := s.medium + 1 }
  | .low => { s with low := s.low + 1 }

/-- The summary of a list of violations. -/
def ofViolations (violations : List Violation) : Summary :=
  violations.foldl (fun s v => s.add v.severity) zero

/-- The count of a severity. -/
def count (s : Summary) : Severity → Nat
  | .high => s.high
  | .medium => s.medium
  | .low => s.low

end Summary

end TopologyAudit
