import TopologyAudit.Proofs.Drift.Reversal

/-!
# The services that a drift lists

A drift goes through the names of the earlier topology and then those of the later one, and
passes over a name that it has met before. Of what is left it keeps the names that some
violation is attributed to, in either list. So its services are the first occurrences of these
names (`listing_between`), whatever else is different about them, and a violation of a service
that neither topology has makes no entry.
-/

namespace TopologyAudit

namespace Drift

open Violation (countOf)

/-- That a drift lists those of some names that some violations are attributed to, each once
and where it first occurs. -/
structure Lists (d : Drift) (names : List Text) (vs : List Violation) : Prop where
  services : d.changes.map (·.service) =
    names.eraseDups.filter fun name => vs.any fun v => v.service == name
  mem_iff : ∀ name, name ∈ d.changes.map (·.service) ↔ name ∈ names ∧ ∃ v ∈ vs, v.service = name
  nodup : (d.changes.map (·.service)).Nodup
  order : (d.changes.map (·.service)).Pairwise fun a b => names.idxOf a < names.idxOf b

/-- A name is relevant when a violation in either list is attributed to it. -/
theorem isRelevant_changeOf_eq_any (before after : List Violation) (name : Text) :
    (changeOf before after name).isRelevant = (before ++ after).any fun v => v.service == name := by
  rw [Bool.eq_iff_iff, isRelevant_changeOf, countOf_ne_zero, countOf_ne_zero, List.any_append,
    Bool.or_eq_true, List.any_eq_true, List.any_eq_true]
  simp only [beq_iff_eq]

/-- **The services of a drift** are the first occurrences of the old names and then the new
ones, restricted to the names that an old or a new violation is attributed to. -/
theorem listing_between (old new : Topology) (before after : List Violation) :
    (between old new before after).Lists (old.names ++ new.names) (before ++ after) := by
  have hservices : (between old new before after).changes.map (·.service) =
      (old.names ++ new.names).eraseDups.filter fun name =>
        (before ++ after).any fun v => v.service == name := by
    rw [services_between, names, Entries.distinct_eq_eraseDups]
    exact List.filter_congr fun name _ => isRelevant_changeOf_eq_any before after name
  refine ⟨hservices, ?_, nodup_services .., ?_⟩
  · intro name
    rw [hservices, List.mem_filter, List.mem_eraseDups, List.any_eq_true]
    simp only [beq_iff_eq]
  · rw [hservices]
    exact (Entries.pairwise_idxOf_eraseDups _).filter _

end Drift

end TopologyAudit
