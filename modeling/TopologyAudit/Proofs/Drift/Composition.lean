import Mathlib.Algebra.Order.BigOperators.Group.Finset
import Mathlib.Algebra.Order.Ring.Nat
import TopologyAudit.Proofs.Drift.Accounting

/-!
# Drifts one after the other

The drift over two steps is no more than the drifts of the steps together, and what comes
in less what goes away is exactly their sum. Each total is a sum over the names of its own
two topologies, so the three are first taken over the names of all three: a name that
neither of two topologies has carries none of their violations and adds nothing. Name by
name it is then a matter of three numbers.
-/

namespace TopologyAudit

open Violation (countOf)

/-- That violations are attributed to services of a topology. -/
def Topology.Owns (t : Topology) (vs : List Violation) : Prop := ∀ v ∈ vs, v.service ∈ t.names

theorem Topology.owns_audit (t : Topology) : t.Owns t.audit := fun _ hv => service_mem_names hv

theorem Topology.Owns.countOf_eq_zero {t : Topology} {vs : List Violation} {name : Text}
    (h : t.Owns vs) (hname : name ∉ t.names) : countOf vs name = 0 := by
  rw [countOf, List.countP_eq_zero]
  intro v hv hservice
  exact hname (of_decide_eq_true hservice ▸ h v hv)

namespace Drift

section Wider

variable {old new : Topology} {before after : List Violation} {names : Finset Text}

/-- A sum over the names of two topologies is one over any further names as well, when a
name without violations adds nothing. -/
private theorem sum_wider {f : Nat → Nat → Nat} (hf : f 0 0 = 0) (hbefore : old.Owns before)
    (hafter : new.Owns after) (hnames : (old.names ++ new.names).toFinset ⊆ names) :
    ∑ name ∈ (old.names ++ new.names).toFinset, f (countOf before name) (countOf after name) =
      ∑ name ∈ names, f (countOf before name) (countOf after name) := by
  refine Finset.sum_subset hnames fun name _ hname => ?_
  rw [List.mem_toFinset, List.mem_append, not_or] at hname
  rw [hbefore.countOf_eq_zero hname.1, hafter.countOf_eq_zero hname.2, hf]

theorem introduced_wider (hbefore : old.Owns before) (hafter : new.Owns after)
    (hnames : (old.names ++ new.names).toFinset ⊆ names) :
    (between old new before after).introduced =
      ∑ name ∈ names, (countOf after name - countOf before name) := by
  rw [introduced_between]
  exact sum_wider (f := fun b a => a - b) rfl hbefore hafter hnames

theorem resolved_wider (hbefore : old.Owns before) (hafter : new.Owns after)
    (hnames : (old.names ++ new.names).toFinset ⊆ names) :
    (between old new before after).resolved =
      ∑ name ∈ names, (countOf before name - countOf after name) := by
  rw [resolved_between]
  exact sum_wider (f := fun b a => b - a) rfl hbefore hafter hnames

end Wider

/-- What comes in, less what goes away. -/
def net (d : Drift) : Int := d.introduced - d.resolved

/-- The net drift is the difference in numbers of violations. -/
theorem net_between {old new : Topology} {before after : List Violation}
    (hbefore : old.Owns before) (hafter : new.Owns after) :
    (between old new before after).net = (after.length : Int) - before.length := by
  have hlength := introduced_add_length old new hbefore hafter
  rw [net]
  omega

/-- That a drift leads as far as two others do one after the other. -/
structure IsComposite (whole first second : Drift) : Prop where
  introduced : whole.introduced ≤ first.introduced + second.introduced
  resolved : whole.resolved ≤ first.resolved + second.resolved
  net : whole.net = first.net + second.net

/-- The names of any two of three topologies are among those of all three. -/
private theorem subset_names {a b : Topology} {all : List Text} (ha : a.names ⊆ all)
    (hb : b.names ⊆ all) : (a.names ++ b.names).toFinset ⊆ all.toFinset := by
  intro name hname
  rw [List.mem_toFinset] at hname ⊢
  rcases List.mem_append.mp hname with h | h
  · exact ha h
  · exact hb h

theorem isComposite_between {a b c : Topology} {va vb vc : List Violation} (ha : a.Owns va)
    (hb : b.Owns vb) (hc : c.Owns vc) :
    (between a c va vc).IsComposite (between a b va vb) (between b c vb vc) := by
  have hma : a.names ⊆ a.names ++ b.names ++ c.names := fun n hn => by simp [hn]
  have hmb : b.names ⊆ a.names ++ b.names ++ c.names := fun n hn => by simp [hn]
  have hmc : c.names ⊆ a.names ++ b.names ++ c.names := fun n hn => by simp [hn]
  constructor
  · rw [introduced_wider ha hc (subset_names hma hmc), introduced_wider ha hb (subset_names hma hmb),
      introduced_wider hb hc (subset_names hmb hmc), ← Finset.sum_add_distrib]
    refine Finset.sum_le_sum fun name _ => ?_
    omega
  · rw [resolved_wider ha hc (subset_names hma hmc), resolved_wider ha hb (subset_names hma hmb),
      resolved_wider hb hc (subset_names hmb hmc), ← Finset.sum_add_distrib]
    refine Finset.sum_le_sum fun name _ => ?_
    omega
  -- the number of violations in the middle cancels
  · rw [net_between ha hc, net_between ha hb, net_between hb hc]
    omega

/-- **Drifts compose.** Over three topologies with violations of their own services, in
particular with the violations of their audits, the whole drift brings in and takes away no
more than its two steps, and its net is the sum of theirs. -/
theorem isComposite_of_steps :
    (∀ (a b c : Topology) (va vb vc : List Violation), a.Owns va → b.Owns vb → c.Owns vc →
      (between a c va vc).IsComposite (between a b va vb) (between b c vb vc)) ∧
      ∀ a b c : Topology,
        (between a c a.audit c.audit).IsComposite (between a b a.audit b.audit)
          (between b c b.audit c.audit) :=
  ⟨fun _ _ _ _ _ _ ha hb hc => isComposite_between ha hb hc,
    fun a b c => isComposite_between a.owns_audit b.owns_audit c.owns_audit⟩

/-- A topology of services without limits, which break one rule each. -/
def unlimited (names : List Text) : Topology :=
  ⟨names.map fun name => ⟨name, .api, false, false, [], [], none⟩, ⟨.yaml, none⟩⟩

/-- One service stands in the middle only, and one goes away and comes back twice over:
each step shows more than the whole, and the nets add up. -/
theorem isComposite_of_passing_service :
    (unlimited ["a"]).Owns (unlimited ["a"]).audit ∧ (unlimited ["b"]).Owns (unlimited ["b"]).audit ∧
      (unlimited ["a", "a"]).Owns (unlimited ["a", "a"]).audit ∧
        (between (unlimited ["a"]) (unlimited ["a", "a"]) (unlimited ["a"]).audit
            (unlimited ["a", "a"]).audit).introduced = 1 ∧
          (between (unlimited ["b"]) (unlimited ["a", "a"]) (unlimited ["b"]).audit
              (unlimited ["a", "a"]).audit).introduced = 2 ∧
            (between (unlimited ["a"]) (unlimited ["a", "a"]) (unlimited ["a"]).audit
                (unlimited ["a", "a"]).audit).IsComposite
              (between (unlimited ["a"]) (unlimited ["b"]) (unlimited ["a"]).audit
                (unlimited ["b"]).audit)
              (between (unlimited ["b"]) (unlimited ["a", "a"]) (unlimited ["b"]).audit
                (unlimited ["a", "a"]).audit) := by
  have hone := (unlimited ["a"]).owns_audit
  have hmiddle := (unlimited ["b"]).owns_audit
  have htwo := (unlimited ["a", "a"]).owns_audit
  exact ⟨hone, hmiddle, htwo, by decide, by decide,
    isComposite_of_steps.1 _ _ _ _ _ _ hone hmiddle htwo⟩

end Drift

end TopologyAudit
