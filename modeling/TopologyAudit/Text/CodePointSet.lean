import TopologyAudit.Text.Basic

/-!
# Sets of code points

A Unicode property is kept as the ranges of the code points that have it, in
ascending order.
-/

namespace TopologyAudit

/-- Ranges of code points, first and last included. -/
abbrev CodePointSet := List (Nat × Nat)

/-- Whether a code point lies in one of the ranges. -/
def CodePointSet.contains (set : CodePointSet) (c : CodePoint) : Bool :=
  set.any fun range => c.within range.1 range.2

end TopologyAudit
