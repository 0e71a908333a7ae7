import TopologyAudit.Proofs.Audit.Hardening
import TopologyAudit.Proofs.Drift.Composition
import TopologyAudit.Proofs.Drift.Reversal

/-!
# What an audit does not look at

The rules look at no more of a service than `Service.Alike` keeps: its name, kind and two
marks, whether some binding listens on every address, which of two protocols it speaks, and
whether its limits are both set. Topologies that agree on this, service by service, have the
same audit, and the drift between them is quiet: whatever else was edited, it shows the
services that have violations, and nothing about them changed.
-/

namespace TopologyAudit

/-- That two services agree on all that a rule looks at. -/
structure Service.Alike (s s' : Service) : Prop where
  name : s.name = s'.name
  kind : s.kind = s'.kind
  isPublic : s.isPublic = s'.isPublic
  handlesPii : s.handlesPii = s'.handlesPii
  anyHost : s.bindsAnyHost = s'.bindsAnyHost
  http : s.speaks .http = s'.speaks .http
  https : s.speaks .https = s'.speaks .https
  limits : s.hasLimits = s'.hasLimits

/-- Topologies whose services agree one by one, in as great a number. -/
def Topology.Alike (t t' : Topology) : Prop := List.Forall₂ Service.Alike t.services t'.services

namespace Service.Alike

variable {s s' : Service}

theorem isBroken_eq (h : s.Alike s') {r : Rule} (hr : r ∈ Rule.all) :
    r.isBroken s = r.isBroken s' := by
  simp only [Rule.all, List.mem_cons, List.not_mem_nil, or_false] at hr
  rcases hr with rfl | rfl | rfl | rfl
  -- a public database
  · show (s.kind == .db && (s.isPublic || s.bindsAnyHost)) =
      (s'.kind == .db && (s'.isPublic || s'.bindsAnyHost))
    rw [h.kind, h.isPublic, h.anyHost]
  -- HTTP without HTTPS
  · show (s.isPublic && s.speaks .http && !s.speaks .https) =
      (s'.isPublic && s'.speaks .http && !s'.speaks .https)
    rw [h.isPublic, h.http, h.https]
  -- personal data in public
  · show (s.handlesPii && s.isPublic) = (s'.handlesPii && s'.isPublic)
    rw [h.handlesPii, h.isPublic]
  -- no limits
  · show (!s.hasLimits) = !s'.hasLimits
    rw [h.limits]

theorem violations_eq (h : s.Alike s') : s.violations Rule.all = s'.violations Rule.all := by
  refine List.filterMap_congr fun r hr => ?_
  rw [Rule.violation?, Rule.violation?, h.isBroken_eq hr, h.name]

end Service.Alike

namespace Topology.Alike

variable {t t' : Topology}

/-- What is the same of services that agree is the same of the lists of them. -/
theorem map_eq {α : Type} {f : Service → α} (h : t.Alike t')
    (hf : ∀ s s', s.Alike s' → f s = f s') : t.services.map f = t'.services.map f := by
  rw [← List.forall₂_eq_eq_eq, List.forall₂_map_left_iff, List.forall₂_map_right_iff]
  exact h.imp hf

theorem audit_eq (h : t.Alike t') : t.audit = t'.audit := by
  rw [audit, audit, violationsOf, violationsOf, List.flatMap_def, List.flatMap_def,
    h.map_eq fun _ _ hs => hs.violations_eq]

end Topology.Alike

namespace Drift

open Violation (countOf)

/-- That a drift shows the services of some violations and no change to any of them. -/
structure IsQuiet (d : Drift) (vs : List Violation) : Prop where
  introduced : d.introduced = 0
  resolved : d.resolved = 0
  impact : ∀ c ∈ d.changes, c.impact = .neutral
  services : ∀ name, name ∈ d.changes.map (·.service) ↔ ∃ v ∈ vs, v.service = name
  nodup : (d.changes.map (·.service)).Nodup

/-- Between two topologies that own the same violations the drift is quiet. -/
theorem isQuiet_between {old new : Topology} {vs : List Violation} (h : old.Owns vs) :
    (between old new vs vs).IsQuiet vs := by
  refine ⟨?_, ?_, ?_, ?_, nodup_services ..⟩
  · rw [introduced_between]
    exact Finset.sum_eq_zero fun name _ => Nat.sub_self _
  · rw [resolved_between]
    exact Finset.sum_eq_zero fun name _ => Nat.sub_self _
  · intro c hc
    have heq : c.after = c.before := by
      rw [eq_changeOf_of_mem hc, after_changeOf, before_changeOf]
    rw [Change.impact, heq, if_neg (Nat.lt_irrefl _), if_neg (Nat.lt_irrefl _)]
  · intro name
    rw [services_between, List.mem_filter, isRelevant_changeOf, or_self, countOf_ne_zero, mem_names]
    -- a name with violations is one of the earlier topology
    refine and_iff_right_of_imp ?_
    rintro ⟨v, hv, rfl⟩
    exact Or.inl (h v hv)

/-- **Cosmetic edits are invisible.** Two topologies whose services agree on what the rules
look at have the same audit, and the drift between them is quiet. -/
theorem quiet_of_alike {t t' : Topology} (h : t.Alike t') :
    t.audit = t'.audit ∧ (between t t' t.audit t'.audit).IsQuiet t.audit := by
  refine ⟨h.audit_eq, ?_⟩
  rw [← h.audit_eq]
  exact isQuiet_between t.owns_audit

/-- A public database on every address, and a service without limits for its memory. -/
def plainTopology : Topology where
  services :=
    [⟨"a", .db, true, false, [⟨"0.0.0.0", 80, .http⟩, ⟨"h", 443, .https⟩], ["b"],
        some ⟨some (.int 1), some (.int 512)⟩⟩,
      ⟨"b", .api, false, true, [], [], some ⟨some (.float Binary64.zero), none⟩⟩]
  metadata := ⟨.yaml, none⟩

/-- The same services with other ports, hosts, bindings in another order and number, other
dependencies and other amounts, one of them no number. -/
def retouchedTopology : Topology where
  services :=
    [⟨"a", .db, true, false,
        [⟨"x", 1, .https⟩, ⟨"y", 2, .tcp⟩, ⟨"0.0.0.0", 3, .tcp⟩, ⟨"z", 4, .http⟩, ⟨"z", 4, .http⟩], [],
        some ⟨some (.int 0), some (.float Binary64.nan)⟩⟩,
      ⟨"b", .api, false, true, [⟨"h", 0, .tcp⟩], ["a", "a"], none⟩]
  metadata := ⟨.json, some "c0ffee"⟩

/-- The edits leave one violation of each service where it was. -/
theorem quiet_of_retouched_bindings :
    plainTopology.Alike retouchedTopology ∧ plainTopology.audit.length = 2 ∧
      plainTopology.audit = retouchedTopology.audit ∧
        (between plainTopology retouchedTopology plainTopology.audit
          retouchedTopology.audit).IsQuiet plainTopology.audit := by
  have h : plainTopology.Alike retouchedTopology := by
    refine .cons ?_ (.cons ?_ .nil)
    · constructor <;> decide
    · constructor <;> decide
  exact ⟨h, by decide, quiet_of_alike h⟩

end Drift

end TopologyAudit
