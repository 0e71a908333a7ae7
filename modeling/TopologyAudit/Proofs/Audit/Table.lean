import Mathlib.Data.List.Sort
import TopologyAudit.Proofs.Audit.Finding

/-!
# The table of hazards

What the standing rules are meant to find, as a table: four hazards, each with an identifier, a
severity and the condition under which a service is exposed to it. The conditions are said of
the bindings and limits of a service, not of how a rule looks through them.

The audit is that table applied (`audit_eq_iff`): put in order, by service and then by row, the
findings that are due, each once, and their violations are the audit. Whether a finding is due
hangs on its own service and row alone, so no name, no other service and no other row can hide
one or double it.
-/

namespace TopologyAudit

/-- What a service may be exposed to. -/
inductive Hazard
  | reachableDatabase
  | plainHttp
  | publicPersonalData
  | openLimits
deriving DecidableEq

namespace Hazard

/-- The rows of the table in their order. -/
def all : List Hazard := [reachableDatabase, plainHttp, publicPersonalData, openLimits]

def id : Hazard → Text
  | reachableDatabase => "R1_NO_PUBLIC_DB"
  | plainHttp => "R2_PUBLIC_REQUIRES_TLS"
  | publicPersonalData => "R3_NO_PII_PUBLIC"
  | openLimits => "R4_RESOURCE_LIMITS"

def severity : Hazard → Severity
  | reachableDatabase => .high
  | plainHttp => .high
  | publicPersonalData => .high
  | openLimits => .medium

/-- The rule that looks for the hazard. -/
def rule : Hazard → Rule
  | reachableDatabase => .noPublicDatabase
  | plainHttp => .publicRequiresTls
  | publicPersonalData => .noPublicPersonalData
  | openLimits => .limitsRequired

/-- The condition under which a service is exposed to the hazard. -/
def Endangers : Hazard → Service → Prop
  | reachableDatabase, s =>
    s.kind = .db ∧ (s.isPublic = true ∨ ∃ b ∈ s.network, b.host = ("0.0.0.0" : Text))
  | plainHttp, s =>
    s.isPublic = true ∧ (∃ b ∈ s.network, b.protocol = .http) ∧
      ∀ b ∈ s.network, b.protocol ≠ .https
  | publicPersonalData, s => s.handlesPii = true ∧ s.isPublic = true
  | openLimits, s =>
    s.limits = none ∨ ∃ l, s.limits = some l ∧ (l.cpu = none ∨ l.memoryMb = none)

/-- What is said of a service that is exposed to the hazard. -/
def violation (h : Hazard) (s : Service) : Violation :=
  ⟨h.id, h.rule.description, s.name, h.severity⟩

end Hazard

namespace Service

variable {s : Service}

theorem speaks_eq_true {p : Protocol} : s.speaks p = true ↔ ∃ b ∈ s.network, b.protocol = p := by
  rw [speaks, List.any_eq_true]
  simp only [beq_iff_eq]

theorem speaks_eq_false {p : Protocol} : s.speaks p = false ↔ ∀ b ∈ s.network, b.protocol ≠ p := by
  rw [speaks, List.any_eq_false]
  simp only [beq_iff_eq, ne_eq]

theorem hasLimits_eq_false :
    s.hasLimits = false ↔
      s.limits = none ∨ ∃ l, s.limits = some l ∧ (l.cpu = none ∨ l.memoryMb = none) := by
  unfold hasLimits
  cases s.limits with
  | none => simp
  | some l =>
    rw [Option.any_some, Limits.isComplete, Bool.and_eq_false_iff, Option.isSome_eq_false_iff,
      Option.isSome_eq_false_iff, Option.isNone_iff_eq_none, Option.isNone_iff_eq_none]
    simp

end Service

namespace Hazard

variable {h : Hazard} {s : Service} {v : Violation}

/-- A rule is broken by the services that its hazard endangers, and by no others. -/
theorem isBroken_rule : h.rule.isBroken s = true ↔ h.Endangers s := by
  cases h with
  | reachableDatabase =>
    have hhost : s.network.any (·.host == Rule.anyHost) = true ↔
        ∃ b ∈ s.network, b.host = ("0.0.0.0" : Text) := by
      rw [List.any_eq_true]
      simp only [beq_iff_eq, Rule.anyHost]
    show (s.kind == .db && (s.isPublic || s.network.any (·.host == Rule.anyHost))) = true ↔ _
    rw [Bool.and_eq_true, Bool.or_eq_true, beq_iff_eq, hhost]
    exact Iff.rfl
  | plainHttp =>
    show (s.isPublic && s.speaks .http && !s.speaks .https) = true ↔ _
    rw [Bool.and_eq_true, Bool.and_eq_true, Bool.not_eq_true', Service.speaks_eq_true,
      Service.speaks_eq_false, and_assoc]
    exact Iff.rfl
  | publicPersonalData => exact Bool.and_eq_true_iff
  | openLimits =>
    show (!s.hasLimits) = true ↔ _
    rw [Bool.not_eq_true']
    exact Service.hasLimits_eq_false

/-- The violation of a rule is what the table says of the service. -/
theorem violation?_rule : h.rule.violation? s = some v ↔ h.Endangers s ∧ v = h.violation s := by
  have hrow : (⟨h.rule.id, h.rule.description, s.name, h.rule.severity⟩ : Violation) =
      h.violation s := by
    cases h <;> rfl
  unfold Rule.violation?
  rw [hrow, ← isBroken_rule]
  split
  next hb => simp only [Option.some.injEq, hb, true_and, eq_comm]
  next hb => simp only [reduceCtorEq, hb, false_and]

end Hazard

namespace Finding

/-- That a finding is due by the table: the hazard of its row endangers its service, and it says
of that service what the row does. -/
def IsDue (f : Finding) (t : Topology) : Prop :=
  ∃ s h, t.services[f.service]? = some s ∧ Hazard.all[f.rule]? = some h ∧ h.Endangers s ∧
    f.violation = h.violation s

/-- The standing rules are those of the table, row by row. -/
theorem isOf_all {f : Finding} {t : Topology} : f.IsOf Rule.all t ↔ f.IsDue t := by
  have hrows : Rule.all = Hazard.all.map Hazard.rule := rfl
  constructor
  · intro hr
    obtain ⟨s, r, hs, hr, hv⟩ := hr
    rw [hrows, List.getElem?_map] at hr
    obtain ⟨h, hh, rfl⟩ := Option.map_eq_some_iff.mp hr
    obtain ⟨hdanger, hv⟩ := Hazard.violation?_rule.mp hv
    exact ⟨s, h, hs, hh, hdanger, hv⟩
  · intro hr
    obtain ⟨s, h, hs, hh, hdanger, hv⟩ := hr
    refine ⟨s, h.rule, hs, ?_, Hazard.violation?_rule.mpr ⟨hdanger, hv⟩⟩
    rw [hrows, List.getElem?_map, hh]
    rfl

theorem Before.not_before {f g : Finding} (h : f.Before g) : ¬g.Before f := by
  unfold Before at h ⊢
  omega

instance : Std.Irrefl Before := ⟨fun _ h => h.not_before h⟩

instance : Std.Antisymm Before := ⟨fun _ _ h h' => absurd h' h.not_before⟩

end Finding

namespace Topology

/-- That violations are what the table gives: the findings that are due, each of them once, by
service and then by row. -/
def Tabulates (t : Topology) (vs : List Violation) : Prop :=
  ∃ fs : List Finding, fs.Pairwise Finding.Before ∧ (∀ f, f ∈ fs ↔ f.IsDue t) ∧
    fs.map (·.violation) = vs

/-- **The audit is the table applied.** The violations that the table gives for a topology are
one list, and that list is the audit. -/
theorem audit_eq_iff (t : Topology) (vs : List Violation) : t.audit = vs ↔ t.Tabulates vs := by
  have hordered := t.pairwise_findings Rule.all
  have hmem : ∀ f, f ∈ t.findings Rule.all ↔ f.IsDue t :=
    fun f => mem_findings.trans Finding.isOf_all
  have haudit : (t.findings Rule.all).map (·.violation) = t.audit := t.map_violation_findings _
  constructor
  · intro hr
    exact ⟨_, hordered, hmem, haudit.trans hr⟩
  · intro hr
    obtain ⟨fs, hfs, hdue, rfl⟩ := hr
    -- strictly ordered lists of the same findings are the same
    rw [← haudit, hordered.eq_of_mem_iff hfs fun f => (hmem f).trans (hdue f).symm]

/-- Two services of one name: four rows are due for the first of them, the last two for the
second. -/
example :
    (audit ⟨[⟨"a", .db, true, true, [⟨"0.0.0.0", 80, .http⟩], [], none⟩,
      ⟨"a", .api, true, true, [⟨"0.0.0.0", 443, .https⟩, ⟨"h", 80, .http⟩], [],
        some ⟨some (.int 0), none⟩⟩], ⟨.yaml, none⟩⟩).map (·.rule) =
      Hazard.all.map Hazard.id ++ [Hazard.publicPersonalData, .openLimits].map Hazard.id := by
  decide

end Topology

end TopologyAudit
