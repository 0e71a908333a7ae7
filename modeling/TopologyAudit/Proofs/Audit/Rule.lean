import TopologyAudit.Audit.Rule

/-!
# What an audit finds

A violation that an audit finds comes from a service of the topology and a rule that
the service breaks, and it carries the name of that service.
-/

namespace TopologyAudit

namespace Rule

/-- The violation of a rule names the service that breaks it. -/
theorem service_of_violation? {r : Rule} {s : Service} {v : Violation}
    (h : r.violation? s = some v) : v.service = s.name := by
  unfold violation? at h
  split at h
  next =>
    simp only [Option.some.injEq] at h
    rw [← h]
  next => exact absurd h (by simp)

end Rule

/-- All violations of a service carry its name. -/
theorem Service.service_of_mem_violations {rules : List Rule} {s : Service} {v : Violation}
    (h : v ∈ s.violations rules) : v.service = s.name := by
  obtain ⟨r, _, hr⟩ := List.mem_filterMap.mp h
  exact Rule.service_of_violation? hr

/-- Every violation is attributed to a name of the topology. -/
theorem Topology.service_mem_names {rules : List Rule} {t : Topology} {v : Violation}
    (h : v ∈ t.violationsOf rules) : v.service ∈ t.names := by
  obtain ⟨s, hs, hv⟩ := List.mem_flatMap.mp h
  rw [Service.service_of_mem_violations hv]
  exact List.mem_map_of_mem hs

end TopologyAudit
