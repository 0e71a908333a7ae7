import Mathlib.Algebra.BigOperators.Fin
import Mathlib.Data.Fintype.Prod
import TopologyAudit.Proofs.Audit.Table

/-!
# What a summary counts

A summary is made by a fold that counts one violation at a time, so what is said of it goes by
induction from the last violation on: each of its counts is the number of violations of that
severity, and none is left out (`count_ofViolations`, `total_ofViolations`).

Of an audit more can be said. A service has one violation for each hazard that endangers it
(`Service.violations_all`), and so the violations of some hazards are as many as the pairs of a
service and one of these hazards that endangers it. Three hazards are of high severity, the
missing limits are of medium severity, and none is of low severity.
-/

namespace TopologyAudit

namespace Summary

/-- Two summaries taken together. -/
instance : Add Summary := ⟨fun s s' => ⟨s.high + s'.high, s.medium + s'.medium, s.low + s'.low⟩⟩

variable {s s' : Summary} {vs ws : List Violation} {g : Severity}

theorem ext_count (h : ∀ g, s.count g = s'.count g) : s = s' := by
  obtain ⟨high, medium, low⟩ := s
  obtain ⟨high', medium', low'⟩ := s'
  obtain rfl : high = high' := h .high
  obtain rfl : medium = medium' := h .medium
  obtain rfl : low = low' := h .low
  rfl

theorem count_plus (s s' : Summary) (g : Severity) : (s + s').count g = s.count g + s'.count g := by
  cases g <;> rfl

theorem count_add (s : Summary) (g g' : Severity) :
    (s.add g).count g' = s.count g' + if g = g' then 1 else 0 := by
  cases g <;> cases g' <;> rfl

/-- All counts together. -/
def total (s : Summary) : Nat := s.high + s.medium + s.low

theorem total_add (s : Summary) (g : Severity) : (s.add g).total = s.total + 1 := by
  cases g <;> simp only [add, total] <;> omega

theorem ofViolations_concat (vs : List Violation) (v : Violation) :
    ofViolations (vs ++ [v]) = (ofViolations vs).add v.severity :=
  List.foldl_concat ..

/-- Each count is the number of violations of its severity. -/
theorem count_ofViolations (vs : List Violation) (g : Severity) :
    (ofViolations vs).count g = vs.countP fun v => v.severity = g := by
  induction vs using List.reverseRecOn with
  | nil => cases g <;> rfl
  | append_singleton vs v ih =>
    rw [ofViolations_concat, count_add, ih, List.countP_append, List.countP_singleton]
    simp only [decide_eq_true_eq]

/-- No violation is left out. -/
theorem total_ofViolations (vs : List Violation) : (ofViolations vs).total = vs.length := by
  induction vs using List.reverseRecOn with
  | nil => rfl
  | append_singleton vs v ih =>
    rw [ofViolations_concat, total_add, ih, List.length_append, List.length_singleton]

theorem ofViolations_append (vs ws : List Violation) :
    ofViolations (vs ++ ws) = ofViolations vs + ofViolations ws := by
  refine ext_count fun g => ?_
  rw [count_plus, count_ofViolations, count_ofViolations, count_ofViolations, List.countP_append]

theorem ofViolations_perm (h : vs.Perm ws) : ofViolations vs = ofViolations ws := by
  refine ext_count fun g => ?_
  rw [count_ofViolations, count_ofViolations, h.countP_eq]

end Summary

/-! ## Audits -/

namespace Hazard

instance (h : Hazard) (s : Service) : Decidable (h.Endangers s) :=
  decidable_of_iff (h.rule.isBroken s = true) isBroken_rule

theorem nodup_all : all.Nodup := by decide

theorem mem_all (h : Hazard) : h ∈ all := by cases h <;> decide

instance : Fintype Hazard := ⟨all.toFinset, fun h => List.mem_toFinset.mpr h.mem_all⟩

end Hazard

/-- A service has one violation for each hazard that endangers it. -/
theorem Service.violations_all (s : Service) :
    s.violations Rule.all = (Hazard.all.filter (·.Endangers s)).map (·.violation s) := by
  have hrows : Rule.all = Hazard.all.map Hazard.rule := rfl
  rw [violations, hrows, List.filterMap_map, ← List.filterMap_eq_map, List.filterMap_filter]
  refine List.filterMap_congr fun h _ => ?_
  by_cases hd : h.Endangers s
  · simp only [Function.comp_apply, hd, decide_true, if_true]
    exact Hazard.violation?_rule.mpr ⟨hd, rfl⟩
  · simp only [Function.comp_apply, hd, decide_false, Bool.false_eq_true, if_false]
    refine Option.eq_none_iff_forall_ne_some.mpr fun v hv => hd (Hazard.violation?_rule.mp hv).1

theorem Topology.mem_audit {t : Topology} {v : Violation} :
    v ∈ t.audit ↔ ∃ s ∈ t.services, ∃ h : Hazard, h.Endangers s ∧ v = h.violation s := by
  rw [audit, violationsOf, List.mem_flatMap]
  simp only [Service.violations_all, List.mem_map, List.mem_filter, Hazard.mem_all, true_and,
    decide_eq_true_eq, @eq_comm _ v]

/-- Of each severity a service has as many violations as hazards of it endanger the service. -/
theorem Service.countP_violations (s : Service) (g : Severity) :
    (s.violations Rule.all).countP (fun v => v.severity = g) =
      Hazard.all.countP fun h => h.severity = g ∧ h.Endangers s := by
  rw [violations_all, List.countP_map, List.countP_filter]
  refine List.countP_congr fun h _ => ?_
  simp [Hazard.violation]

/-- A list has as many members that pass a test as it has ones in place of them. -/
private theorem sum_indicator {α : Type} (p : α → Prop) [DecidablePred p] (l : List α) :
    (l.map fun a => if p a then 1 else 0).sum = l.countP fun a => p a := by
  induction l with
  | nil => rfl
  | cons a l ih =>
    rw [List.map_cons, List.sum_cons, ih, List.countP_cons, Nat.add_comm]
    simp only [decide_eq_true_eq]

namespace Topology

variable {hazards : List Hazard}

/-- The pairs of a service, given by its position, and one of some hazards that endangers it. -/
def exposures (hazards : List Hazard) (t : Topology) : Finset (Fin t.services.length × Hazard) :=
  Finset.univ.filter fun p => p.2 ∈ hazards ∧ p.2.Endangers t.services[p.1]

theorem card_exposures (hazards : List Hazard) (t : Topology) :
    (t.exposures hazards).card =
      (t.services.map fun s => Hazard.all.countP fun h => h ∈ hazards ∧ h.Endangers s).sum := by
  rw [exposures, Finset.card_filter, Fintype.sum_prod_type, ← Fin.sum_univ_fun_getElem]
  refine Finset.sum_congr rfl fun i _ => ?_
  rw [← sum_indicator, ← List.sum_toFinset _ Hazard.nodup_all]
  rfl

/-- To one hazard as many services are exposed as it endangers. -/
theorem card_exposures_singleton (h : Hazard) (t : Topology) :
    (t.exposures [h]).card = t.services.countP fun s => h.Endangers s := by
  rw [card_exposures, ← sum_indicator]
  refine congrArg _ (List.map_congr_left fun s _ => ?_)
  by_cases hs : h.Endangers s
  · have hself : ∀ h' ∈ Hazard.all, decide (h' ∈ [h] ∧ h'.Endangers s) = true ↔
        (h' == h) = true := by
      intro h' _
      rw [decide_eq_true_eq, List.mem_singleton, beq_iff_eq]
      exact ⟨And.left, fun heq => ⟨heq, heq ▸ hs⟩⟩
    rw [if_pos hs, List.countP_congr hself]
    exact List.count_eq_one_of_mem Hazard.nodup_all h.mem_all
  · rw [if_neg hs, List.countP_eq_zero]
    intro h' _ hexposed
    obtain ⟨hmem, hdanger⟩ := of_decide_eq_true hexposed
    exact hs (List.mem_singleton.mp hmem ▸ hdanger)

/-- No service is exposed to a hazard twice. -/
theorem card_exposures_le (hazards : List Hazard) (t : Topology) :
    (t.exposures hazards).card ≤ hazards.length * t.services.length := by
  have hsubset : t.exposures hazards ⊆ Finset.univ ×ˢ hazards.toFinset := by
    intro p hp
    obtain ⟨-, hmem, -⟩ := Finset.mem_filter.mp hp
    exact Finset.mem_product.mpr ⟨Finset.mem_univ _, List.mem_toFinset.mpr hmem⟩
  calc (t.exposures hazards).card
      ≤ (Finset.univ ×ˢ hazards.toFinset).card := Finset.card_le_card hsubset
    _ = t.services.length * hazards.toFinset.card := by rw [Finset.card_product, Finset.card_fin]
    _ ≤ t.services.length * hazards.length := Nat.mul_le_mul_left _ hazards.toFinset_card_le
    _ = hazards.length * t.services.length := Nat.mul_comm _ _

/-- The violations of a severity are as many as the exposures to the hazards of it. -/
theorem count_audit (t : Topology) {g : Severity} (h : ∀ h : Hazard, h ∈ hazards ↔ h.severity = g) :
    (Summary.ofViolations t.audit).count g = (t.exposures hazards).card := by
  rw [Summary.count_ofViolations, audit, violationsOf, List.countP_flatMap, card_exposures]
  congr 2
  funext s
  simp only [Function.comp_apply, s.countP_violations, h]

/-- That a summary is what the table gives for a topology: of high severity are the exposures to
the first three hazards, of medium severity the services that lack a limit. -/
structure IsSummedUpBy (t : Topology) (s : Summary) : Prop where
  low : s.low = 0
  medium : s.medium = t.services.countP fun s => Hazard.openLimits.Endangers s
  high : s.high = (t.exposures [.reachableDatabase, .plainHttp, .publicPersonalData]).card
  high_le : s.high ≤ 3 * t.services.length

theorem isSummedUpBy_audit (t : Topology) : t.IsSummedUpBy (Summary.ofViolations t.audit) := by
  have hlow : ∀ h : Hazard, h ∈ [] ↔ h.severity = .low := fun h => by cases h <;> decide
  have hmedium : ∀ h : Hazard, h ∈ [Hazard.openLimits] ↔ h.severity = .medium :=
    fun h => by cases h <;> decide
  have hhigh : ∀ h : Hazard, h ∈ [Hazard.reachableDatabase, .plainHttp, .publicPersonalData] ↔
      h.severity = .high :=
    fun h => by cases h <;> decide
  have hle := t.card_exposures_le []
  rw [List.length_nil, Nat.zero_mul] at hle
  exact {
    low := (t.count_audit hlow).trans (Nat.le_zero.mp hle)
    medium := (t.count_audit hmedium).trans (card_exposures_singleton _ t)
    high := t.count_audit hhigh
    high_le := (t.count_audit hhigh).trans_le (t.card_exposures_le _) }

end Topology

namespace Summary

/-- **The summary accounts for every violation.** The counts of a list of violations add up to
its length, each is the number of violations of its severity, those of two lists add up, and the
order does not matter. The summary of an audit is what the table of hazards gives. -/
theorem tallies_violations :
    (∀ vs : List Violation, (ofViolations vs).high + (ofViolations vs).medium +
        (ofViolations vs).low = vs.length ∧
        ∀ g, (ofViolations vs).count g = vs.countP fun v => v.severity = g) ∧
      (∀ vs ws : List Violation, ofViolations (vs ++ ws) = ofViolations vs + ofViolations ws) ∧
      (∀ vs ws : List Violation, vs.Perm ws → ofViolations vs = ofViolations ws) ∧
      ∀ t : Topology, t.IsSummedUpBy (ofViolations t.audit) :=
  ⟨fun vs => ⟨total_ofViolations vs, count_ofViolations vs⟩, ofViolations_append,
    fun _ _ => ofViolations_perm, Topology.isSummedUpBy_audit⟩

/-- The twins have their violations in another order when they are turned round, and the same
summary: four rows of high severity are due, and both twins lack a limit. -/
theorem tallies_violations_of_twins :
    Topology.twinTopology.audit.reverse ≠ Topology.twinTopology.audit ∧
      ofViolations Topology.twinTopology.audit.reverse = ⟨4, 2, 0⟩ := by
  have hperm := tallies_violations.2.2.1 _ _ (List.reverse_perm Topology.twinTopology.audit)
  exact ⟨by decide, hperm.trans (by decide)⟩

end Summary

end TopologyAudit
