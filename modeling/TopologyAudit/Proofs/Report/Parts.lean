import TopologyAudit.Proofs.Report.Comparison

/-!
# The parts of a comparison

A comparison is two analyses and the drift between them, and so is its report: what it says
of either config stands word for word in the report of that config's analysis. When an
analysis fails, the report of the comparison is the errors of both and nothing else.
-/

namespace TopologyAudit

namespace Report

end Report

namespace Comparison

end Comparison

end TopologyAudit
