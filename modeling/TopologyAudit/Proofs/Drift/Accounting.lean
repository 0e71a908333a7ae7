import Mathlib.Algebra.BigOperators.Group.Finset.Piecewise
import Mathlib.Algebra.Ring.Nat
import TopologyAudit.Proofs.Audit.Rule
import TopologyAudit.Proofs.Drift.Attribution
import TopologyAudit.Proofs.Entries
import TopologyAudit.Proofs.Report.Comparison

/-!
# The accounting of a drift

The totals of a drift are kept name by name, in five cases. One step adds the excess of the
new violations of a name over its old ones to the one total, and the excess the other way
round to the other (`add_eq`), so that both totals are sums over the names of both topologies
(`foldl_add`). Each name is taken once, since the names are distinct (`nodup_distinct`), and
the violations found under a name are those attributed to it (`length_get_ofList`).

Where every violation is attributed to a name of its topology, as the violations of an
audit are, the two totals differ by as much as the numbers of violations do.
-/

namespace TopologyAudit

namespace Violation

theorem countOf_cons (v : Violation) (vs : List Violation) (name : Text) :
    countOf (v :: vs) name = countOf vs name + if v.service = name then 1 else 0 := by
  unfold countOf
  rw [List.countP_cons]
  by_cases h : v.service = name
  · rw [if_pos h, if_pos (by simpa using h)]
  · rw [if_neg h, if_neg (by simpa using h)]

/-- No violation is counted under two names, and none is missed when the names are
all there. -/
theorem sum_countOf {names : Finset Text} :
    ∀ {vs : List Violation}, (∀ v ∈ vs, v.service ∈ names) →
      ∑ name ∈ names, countOf vs name = vs.length := by
  intro vs
  induction vs with
  | nil => intro _; exact Finset.sum_const_zero
  | cons v vs ih =>
    intro h
    have hv : v.service ∈ names := h v (List.mem_cons_self ..)
    simp only [countOf_cons]
    -- the one more is counted under one name, the violation's own
    rw [Finset.sum_add_distrib, ih (fun w hw => h w (List.mem_cons_of_mem _ hw)),
      Finset.sum_ite_eq, if_pos hv, List.length_cons]

end Violation

namespace Change

/-- By how much the number of violations rose. -/
def introduced (c : Change) : Nat := c.after - c.before

/-- By how much the number of violations fell. -/
def resolved (c : Change) : Nat := c.before - c.after

/-- Whether the service has violations or had some. -/
def isRelevant (c : Change) : Bool := c.before != 0 || c.after != 0

end Change

namespace Drift

open Violation (countOf)

/-- A change that is left out has neither old nor new violations. -/
theorem counts_of_not_isRelevant {c : Change} (h : c.isRelevant = false) :
    c.before = 0 ∧ c.after = 0 := by
  simp only [Change.isRelevant, Bool.or_eq_false_iff, bne_eq_false_iff_eq] at h
  exact h

/-- The change that a drift would show for a name. -/
def changeOf (before after : List Violation) (name : Text) : Change :=
  ⟨name, ((Attribution.ofList before).get name).length, (Attribution.ofList after).get name⟩

/-! ## One name after another -/

/-- In each of the five cases one step adds the excess to the total that it belongs to. -/
theorem add_eq (d : Drift) (c : Change) :
    d.add c = ⟨d.introduced + c.introduced, d.resolved + c.resolved,
      d.changes ++ [c].filter (·.isRelevant)⟩ := by
  rw [Change.introduced, Change.resolved]
  by_cases hrelevant : c.isRelevant = true
  · have hne := hrelevant
    rw [Change.isRelevant, Bool.or_eq_true, bne_iff_ne, bne_iff_ne] at hne
    have hnone : (c.before = 0 && c.after = 0) = false := by
      rw [Bool.and_eq_false_iff, decide_eq_false_iff_not, decide_eq_false_iff_not]
      omega
    rw [List.filter_cons_of_pos hrelevant, List.filter_nil, add, hnone, if_neg Bool.false_ne_true]
    dsimp only
    split_ifs <;> congr 1 <;> omega
  · obtain ⟨hbefore, hafter⟩ := counts_of_not_isRelevant (Bool.eq_false_iff.mpr hrelevant)
    rw [List.filter_cons_of_neg hrelevant, List.filter_nil, List.append_nil, add, hbefore, hafter]
    rfl

theorem foldl_add (cs : List Change) (d : Drift) :
    cs.foldl add d = ⟨d.introduced + (cs.map (·.introduced)).sum,
      d.resolved + (cs.map (·.resolved)).sum, d.changes ++ cs.filter (·.isRelevant)⟩ := by
  induction cs generalizing d with
  | nil => simp
  | cons c cs ih =>
    rw [List.foldl_cons, ih, add_eq, List.map_cons, List.map_cons, List.sum_cons, List.sum_cons,
      List.append_assoc, ← List.filter_append, List.singleton_append, Nat.add_assoc, Nat.add_assoc]

/-- A drift gathers the changes of all names. -/
theorem between_eq (old new : Topology) (before after : List Violation) :
    between old new before after =
      ⟨(((names old new).map (changeOf before after)).map (·.introduced)).sum,
        (((names old new).map (changeOf before after)).map (·.resolved)).sum,
        ((names old new).map (changeOf before after)).filter (·.isRelevant)⟩ := by
  have hgather : between old new before after =
      ((names old new).map (changeOf before after)).foldl add empty := by
    rw [List.foldl_map]
    rfl
  rw [hgather, foldl_add, empty, Nat.zero_add, Nat.zero_add, List.nil_append]

theorem changes_between (old new : Topology) (before after : List Violation) :
    (between old new before after).changes =
      ((names old new).map (changeOf before after)).filter (·.isRelevant) := by
  rw [between_eq]

/-! ## What a name adds -/

theorem before_changeOf (before after : List Violation) (name : Text) :
    (changeOf before after name).before = countOf before name :=
  Attribution.length_get_ofList before name

theorem after_changeOf (before after : List Violation) (name : Text) :
    (changeOf before after name).after = countOf after name :=
  Attribution.length_get_ofList after name

theorem isRelevant_changeOf {before after : List Violation} {name : Text} :
    (changeOf before after name).isRelevant = true ↔
      countOf before name ≠ 0 ∨ countOf after name ≠ 0 := by
  rw [Change.isRelevant, before_changeOf, after_changeOf]
  simp

theorem countOf_ne_zero {vs : List Violation} {name : Text} :
    countOf vs name ≠ 0 ↔ ∃ v ∈ vs, v.service = name := by
  rw [countOf, Nat.ne_zero_iff_zero_lt, List.countP_pos_iff]
  simp only [decide_eq_true_eq]

/-- A name is taken from either topology. -/
theorem mem_names {old new : Topology} {name : Text} :
    name ∈ names old new ↔ name ∈ old.names ∨ name ∈ new.names := by
  rw [names, Entries.mem_distinct, List.mem_append]

/-- The changes stand under the names that have violations or had some, in the order of
the names. -/
theorem services_between (old new : Topology) (before after : List Violation) :
    (between old new before after).changes.map (·.service) =
      (names old new).filter fun name => (changeOf before after name).isRelevant := by
  rw [changes_between, List.filter_map, List.map_map]
  exact List.map_id _

/-- A change that is shown is the one of its name. -/
theorem eq_changeOf_of_mem {old new : Topology} {before after : List Violation} {c : Change}
    (h : c ∈ (between old new before after).changes) : c = changeOf before after c.service := by
  rw [changes_between] at h
  obtain ⟨name, -, rfl⟩ := List.mem_map.mp (List.mem_of_mem_filter h)
  rfl

theorem nodup_names (old new : Topology) : (names old new).Nodup := Entries.nodup_distinct _

theorem toFinset_names (old new : Topology) :
    (names old new).toFinset = (old.names ++ new.names).toFinset := by
  ext name
  rw [List.mem_toFinset, List.mem_toFinset, mem_names, List.mem_append]

/-- A sum over the changes of all names is one over the set of the names. -/
theorem sum_map_changeOf (f : Change → Nat) (old new : Topology)
    (before after : List Violation) :
    (((names old new).map (changeOf before after)).map f).sum =
      ∑ name ∈ (old.names ++ new.names).toFinset, f (changeOf before after name) := by
  rw [List.map_map, ← toFinset_names, List.sum_toFinset _ (nodup_names old new)]
  rfl

theorem introduced_between (old new : Topology) (before after : List Violation) :
    (between old new before after).introduced =
      ∑ name ∈ (old.names ++ new.names).toFinset, (countOf after name - countOf before name) := by
  simp only [between_eq, sum_map_changeOf]
  refine Finset.sum_congr rfl fun name _ => ?_
  rw [Change.introduced, before_changeOf, after_changeOf]

theorem resolved_between (old new : Topology) (before after : List Violation) :
    (between old new before after).resolved =
      ∑ name ∈ (old.names ++ new.names).toFinset, (countOf before name - countOf after name) := by
  simp only [between_eq, sum_map_changeOf]
  refine Finset.sum_congr rfl fun name _ => ?_
  rw [Change.resolved, before_changeOf, after_changeOf]

/-! ## The totals in the changes -/

/-- Leaving out changes that add nothing leaves a total as it is. -/
private theorem sum_filter_isRelevant {f : Change → Nat}
    (hf : ∀ c : Change, c.before = 0 → c.after = 0 → f c = 0) (cs : List Change) :
    ((cs.filter (·.isRelevant)).map f).sum = (cs.map f).sum := by
  induction cs with
  | nil => rfl
  | cons c cs ih =>
    rw [List.map_cons, List.sum_cons]
    cases hc : c.isRelevant with
    | true => rw [List.filter_cons_of_pos hc, List.map_cons, List.sum_cons, ih]
    | false =>
      -- the change is left out, and would have added zero
      obtain ⟨hb, ha⟩ := counts_of_not_isRelevant hc
      rw [List.filter_cons_of_neg (by simp [hc]), ih, hf c hb ha, Nat.zero_add]

/-- What came in is told by the changes that are shown. -/
theorem introduced_eq_sum (old new : Topology) (before after : List Violation) :
    (between old new before after).introduced =
      ((between old new before after).changes.map (·.introduced)).sum := by
  have hf : ∀ c : Change, c.before = 0 → c.after = 0 → c.introduced = 0 := by
    intro c hb ha
    rw [Change.introduced, hb, ha]
  rw [between_eq, sum_filter_isRelevant hf]

theorem resolved_eq_sum (old new : Topology) (before after : List Violation) :
    (between old new before after).resolved =
      ((between old new before after).changes.map (·.resolved)).sum := by
  have hf : ∀ c : Change, c.before = 0 → c.after = 0 → c.resolved = 0 := by
    intro c hb ha
    rw [Change.resolved, hb, ha]
  rw [between_eq, sum_filter_isRelevant hf]

/-! ## The two totals together -/

/-- What came in makes up for what went away, violation by violation, as soon as both
lists are attributed to names of the two topologies. -/
theorem introduced_add_length (old new : Topology) {before after : List Violation}
    (hbefore : ∀ v ∈ before, v.service ∈ old.names) (hafter : ∀ v ∈ after, v.service ∈ new.names) :
    (between old new before after).introduced + before.length =
      (between old new before after).resolved + after.length := by
  have hb : ∀ v ∈ before, v.service ∈ (old.names ++ new.names).toFinset := fun v hv =>
    List.mem_toFinset.mpr (List.mem_append_left _ (hbefore v hv))
  have ha : ∀ v ∈ after, v.service ∈ (old.names ++ new.names).toFinset := fun v hv =>
    List.mem_toFinset.mpr (List.mem_append_right _ (hafter v hv))
  rw [introduced_between, resolved_between, ← Violation.sum_countOf hb, ← Violation.sum_countOf ha,
    ← Finset.sum_add_distrib, ← Finset.sum_add_distrib]
  -- name by name: (a - b) + b = (b - a) + a for subtraction that stops at zero
  refine Finset.sum_congr rfl fun name _ => ?_
  omega

/-- **The accounting of a drift.** Both totals are sums over the distinct names of the
two topologies, where subtraction stops at zero; and in a comparison of two configs no
violation escapes them: they differ by exactly the difference in numbers. -/
theorem accounting :
    (∀ (old new : Topology) (before after : List Violation),
      (between old new before after).introduced =
          ∑ name ∈ (old.names ++ new.names).toFinset,
            (countOf after name - countOf before name) ∧
        (between old new before after).resolved =
          ∑ name ∈ (old.names ++ new.names).toFinset,
            (countOf before name - countOf after name)) ∧
      ∀ (order : SetOrder) (f g : Value) (old new : Text) (c : Comparison),
        Comparison.run order f g old new = .ok (.success c) →
          (c.drift.introduced : Int) - c.drift.resolved =
            (c.newViolations.length : Int) - c.oldViolations.length := by
  refine ⟨fun old new before after => ⟨introduced_between .., resolved_between ..⟩, ?_⟩
  intro order f g old new c hrun
  obtain ⟨s, t, -, -, rfl⟩ := Comparison.run_eq_ok_iff.mp hrun
  -- an audit attributes each violation to a service of its topology
  have hs : ∀ v ∈ s.audit, v.service ∈ s.names := fun _ hv => Topology.service_mem_names hv
  have ht : ∀ v ∈ t.audit, v.service ∈ t.names := fun _ hv => Topology.service_mem_names hv
  have hnet := introduced_add_length s t hs ht
  show ((between s t s.audit t.audit).introduced : Int) - (between s t s.audit t.audit).resolved =
    (t.audit.length : Int) - s.audit.length
  omega

/-- Two services share a name before, and one of them goes away while a service of
another name comes in. -/
theorem accounting_of_shared_name :
    ∃ c, Comparison.run .asWritten (.text "yaml") (.text "YAML ")
        "services:\n- name: a\n  type: db\n  public: true\n- name: a\n  type: api\n"
        "services:\n- name: b\n  type: cache\n- name: a\n  type: api\n" = .ok (.success c) ∧
      c.drift.introduced = 1 ∧ c.drift.resolved = 2 ∧ ((1 : Nat) : Int) - (2 : Nat) =
        (c.newViolations.length : Int) - c.oldViolations.length := by
  obtain ⟨c, hrun, hc⟩ := Result.exists_of_passes
    (p := fun c : Comparison => c.drift.introduced == 1 && c.drift.resolved == 2)
    (x := Comparison.run .asWritten (.text "yaml") (.text "YAML ")
      "services:\n- name: a\n  type: db\n  public: true\n- name: a\n  type: api\n"
      "services:\n- name: b\n  type: cache\n- name: a\n  type: api\n") (by decide +kernel)
  obtain ⟨hi, hr⟩ := Bool.and_eq_true_iff.mp hc
  have hnet := accounting.2 _ _ _ _ _ c hrun
  rw [eq_of_beq hi, eq_of_beq hr] at hnet
  exact ⟨c, hrun, eq_of_beq hi, eq_of_beq hr, hnet⟩

end Drift

end TopologyAudit
