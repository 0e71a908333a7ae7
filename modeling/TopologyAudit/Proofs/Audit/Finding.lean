import Mathlib.Data.List.Perm.Basic
import TopologyAudit.Proofs.Audit.Rule

/-!
# Where violations come from

An audit runs through the services and, for each of them, through the rules. A *finding* is a
violation with the two positions it comes from. Where two services share a name, or a rule
stands in the list twice, equal violations are different findings, and so it is findings that
tell which violations a rule accounts for.

The findings of an audit are its violations in their order (`map_violation_findings`), each of
them from one rule and one service that breaks it (`mem_findings`). To drop the findings of some
rules is to audit without these rules (`map_violation_filter_findings`). With that, the order of
rules and services changes nothing but the order of the violations, the blocks of the services
stay where they are, and a further rule only adds its own violations (`independent_of_order`).
-/

namespace TopologyAudit

structure Finding where
  /-- The position of the service. -/
  service : Nat
  /-- The position of the rule. -/
  rule : Nat
  violation : Violation

namespace Finding

/-- The order of findings: by service, and for one service by rule. -/
def Before (f g : Finding) : Prop :=
  f.service < g.service ∨ f.service = g.service ∧ f.rule < g.rule

/-- That a finding is what the rule at its one position says of the service at the other. -/
def IsOf (f : Finding) (rules : List Rule) (t : Topology) : Prop :=
  ∃ s r, t.services[f.service]? = some s ∧ rules[f.rule]? = some r ∧
    r.violation? s = some f.violation

end Finding

/-- The positions in a list rise. -/
private theorem pairwise_snd_zipIdx {α : Type} (l : List α) :
    l.zipIdx.Pairwise fun p q => p.2 < q.2 := by
  rw [← List.pairwise_map (f := Prod.snd) (R := (· < ·)), List.zipIdx_map_snd]
  exact List.pairwise_lt_range' 1

/-- The rules at the positions that pass a test. -/
def Rule.select (keep : Nat → Bool) (rules : List Rule) : List Rule :=
  (rules.zipIdx.filter fun p => keep p.2).map (·.1)

namespace Rule

theorem select_true (rules : List Rule) : select (fun _ => true) rules = rules := by
  rw [select, List.filter_eq_self.mpr fun _ _ => rfl, List.zipIdx_map_fst]

/-- All positions in front of a rule and behind it are other positions than its own. -/
private theorem ne_of_mem_zipIdx_front {front : List Rule} {p : Rule × Nat}
    (hp : p ∈ front.zipIdx) : p.2 ≠ front.length :=
  Nat.ne_of_lt (List.snd_lt_of_mem_zipIdx hp)

private theorem ne_of_mem_zipIdx_back {back : List Rule} {n : Nat} {p : Rule × Nat}
    (hp : p ∈ back.zipIdx (n + 1)) : p.2 ≠ n :=
  Nat.ne_of_gt (List.mem_zipIdx (x := p.1) (i := p.2) hp).1

/-- Without the position of a rule, the other rules are left. -/
theorem select_ne (front back : List Rule) (r : Rule) :
    select (· != front.length) (front ++ r :: back) = front ++ back := by
  have hfront : front.zipIdx.filter (fun p => p.2 != front.length) = front.zipIdx :=
    List.filter_eq_self.mpr fun p hp => bne_iff_ne.mpr (ne_of_mem_zipIdx_front hp)
  have hback : (back.zipIdx (front.length + 1)).filter (fun p => p.2 != front.length) =
      back.zipIdx (front.length + 1) :=
    List.filter_eq_self.mpr fun p hp => bne_iff_ne.mpr (ne_of_mem_zipIdx_back hp)
  rw [select, List.zipIdx_append, Nat.zero_add, List.zipIdx_cons, List.filter_append, hfront,
    List.filter_cons_of_neg (by simp), hback, List.map_append, List.zipIdx_map_fst,
    List.zipIdx_map_fst]

/-- At the position of a rule there is that rule. -/
theorem select_eq (front back : List Rule) (r : Rule) :
    select (· == front.length) (front ++ r :: back) = [r] := by
  have hfront : front.zipIdx.filter (fun p => p.2 == front.length) = [] :=
    List.filter_eq_nil_iff.mpr fun p hp => by
      simpa using ne_of_mem_zipIdx_front hp
  have hback : (back.zipIdx (front.length + 1)).filter (fun p => p.2 == front.length) = [] :=
    List.filter_eq_nil_iff.mpr fun p hp => by
      simpa using ne_of_mem_zipIdx_back hp
  rw [select, List.zipIdx_append, Nat.zero_add, List.zipIdx_cons, List.filter_append, hfront,
    List.filter_cons_of_pos (by simp), hback]
  rfl

end Rule

namespace Service

/-- The findings of rules on the service at a position. -/
def findings (rules : List Rule) (position : Nat) (s : Service) : List Finding :=
  rules.zipIdx.filterMap fun (r, i) => (r.violation? s).map fun v => ⟨position, i, v⟩

variable {rules : List Rule} {position : Nat} {s : Service} {f : Finding}

theorem mem_findings :
    f ∈ s.findings rules position ↔
      f.service = position ∧ ∃ r, rules[f.rule]? = some r ∧ r.violation? s = some f.violation := by
  rw [findings, List.mem_filterMap]
  constructor
  · intro hr
    obtain ⟨⟨r, i⟩, hmem, hf⟩ := hr
    obtain ⟨v, hv, rfl⟩ := Option.map_eq_some_iff.mp hf
    exact ⟨rfl, r, List.mk_mem_zipIdx_iff_getElem?.mp hmem, hv⟩
  · intro hr
    obtain ⟨rfl, r, hr, hv⟩ := hr
    exact ⟨(r, f.rule), List.mk_mem_zipIdx_iff_getElem?.mpr hr, Option.map_eq_some_iff.mpr ⟨_, hv, rfl⟩⟩

/-- The rules are gone through in their order. -/
theorem pairwise_findings (rules : List Rule) (position : Nat) (s : Service) :
    (s.findings rules position).Pairwise Finding.Before := by
  rw [findings, List.pairwise_filterMap]
  refine (pairwise_snd_zipIdx rules).imp fun {p q} hlt f hf g hg => ?_
  obtain ⟨v, -, rfl⟩ := Option.map_eq_some_iff.mp hf
  obtain ⟨w, -, rfl⟩ := Option.map_eq_some_iff.mp hg
  exact Or.inr ⟨rfl, hlt⟩

/-- The findings of some of the rules are the violations of these rules. -/
theorem map_violation_filter_findings (keep : Nat → Bool) (rules : List Rule) (position : Nat)
    (s : Service) :
    ((s.findings rules position).filter fun f => keep f.rule).map (·.violation) =
      s.violations (Rule.select keep rules) := by
  rw [findings, List.filter_filterMap, List.map_filterMap, violations, Rule.select,
    List.filterMap_map, List.filterMap_filter]
  refine List.filterMap_congr fun p _ => ?_
  obtain ⟨r, i⟩ := p
  -- a finding is dropped exactly when the position of its rule is
  cases hv : r.violation? s with
  | none => simp [hv]
  | some v => by_cases hk : keep i = true <;> simp [hv, hk]

/-- The order of the rules is only that of the violations. -/
theorem violations_perm {rules rules' : List Rule} (h : rules.Perm rules') (s : Service) :
    (s.violations rules').Perm (s.violations rules) :=
  (h.filterMap _).symm

end Service

namespace Topology

/-- The findings of rules on the services. -/
def findings (rules : List Rule) (t : Topology) : List Finding :=
  t.services.zipIdx.flatMap fun (s, i) => s.findings rules i

variable {rules rules' : List Rule} {t t' : Topology} {f : Finding}

/-- Every rule that a service breaks makes a finding, and there are no other ones. -/
theorem mem_findings : f ∈ t.findings rules ↔ f.IsOf rules t := by
  rw [findings, List.mem_flatMap]
  constructor
  · intro hr
    obtain ⟨⟨s, i⟩, hs, hf⟩ := hr
    obtain ⟨rfl, r, hr, hv⟩ := Service.mem_findings.mp hf
    exact ⟨s, r, List.mk_mem_zipIdx_iff_getElem?.mp hs, hr, hv⟩
  · intro hr
    obtain ⟨s, r, hs, hr, hv⟩ := hr
    exact ⟨(s, f.service), List.mk_mem_zipIdx_iff_getElem?.mpr hs,
      Service.mem_findings.mpr ⟨rfl, r, hr, hv⟩⟩

/-- The findings stand in their order, so none of them stands there twice. -/
theorem pairwise_findings (rules : List Rule) (t : Topology) :
    (t.findings rules).Pairwise Finding.Before := by
  rw [findings, List.pairwise_flatMap]
  refine ⟨fun p _ => p.1.pairwise_findings rules p.2, ?_⟩
  refine (pairwise_snd_zipIdx t.services).imp fun {p q} hlt f hf g hg => Or.inl ?_
  obtain ⟨hf, -⟩ := Service.mem_findings.mp hf
  obtain ⟨hg, -⟩ := Service.mem_findings.mp hg
  rwa [hf, hg]

/-- What is left without the findings of some rules is the audit without these rules. -/
theorem map_violation_filter_findings (keep : Nat → Bool) (rules : List Rule) (t : Topology) :
    ((t.findings rules).filter fun f => keep f.rule).map (·.violation) =
      t.violationsOf (Rule.select keep rules) := by
  rw [findings, List.filter_flatMap, List.map_flatMap, violationsOf]
  simp only [Service.map_violation_filter_findings]
  rw [← List.flatMap_map Prod.fst, List.zipIdx_map_fst]

/-- **The findings are the violations** that an audit lists, in their order. -/
theorem map_violation_findings (rules : List Rule) (t : Topology) :
    (t.findings rules).map (·.violation) = t.violationsOf rules := by
  have hall := map_violation_filter_findings (fun _ => true) rules t
  rwa [List.filter_eq_self.mpr fun _ _ => rfl, Rule.select_true] at hall

/-! ## Independence of order -/

/-- Neither order is more than that of the violations. -/
theorem violationsOf_perm (hrules : rules.Perm rules') (hservices : t.services.Perm t'.services) :
    (t'.violationsOf rules').Perm (t.violationsOf rules) :=
  hservices.symm.flatMap fun s _ => s.violations_perm hrules

/-- The place in the audit at which the violations of the service at a position begin: behind
those of the services in front of it. -/
def offset (rules : List Rule) (t : Topology) (position : Nat) : Nat :=
  ((t.services.take position).flatMap (·.violations rules)).length

/-- That a topology has the same blocks of violations for two lists of rules: those of each
service stand together, at one place and in one number for both lists. -/
structure SameBlocks (rules rules' : List Rule) (t : Topology) : Prop where
  length : ∀ s ∈ t.services, (s.violations rules').length = (s.violations rules).length
  offset : ∀ i, t.offset rules' i = t.offset rules i
  block : ∀ i s, t.services[i]? = some s →
    ((t.violationsOf rules).drop (t.offset rules i)).take (s.violations rules).length =
        s.violations rules ∧
      ((t.violationsOf rules').drop (t.offset rules i)).take (s.violations rules).length =
        s.violations rules'

/-- That a further rule adds findings of its own to those of other rules and leaves these as
they are. -/
structure OnlyAdds (front back : List Rule) (r : Rule) (t : Topology) : Prop where
  /-- The findings are the violations with the positions that they come from. -/
  findings : (t.findings (front ++ r :: back)).map (·.violation) = t.violationsOf (front ++ r :: back)
  origin : ∀ f ∈ t.findings (front ++ r :: back), f.IsOf (front ++ r :: back) t
  added : ((t.findings (front ++ r :: back)).filter (·.rule == front.length)).map (·.violation) =
    t.services.filterMap r.violation?
  others : ((t.findings (front ++ r :: back)).filter (·.rule != front.length)).map (·.violation) =
    t.violationsOf (front ++ back)

/-- The violations of a service begin at its offset. -/
theorem take_drop_violationsOf (rules : List Rule) (t : Topology) {i : Nat} {s : Service}
    (hs : t.services[i]? = some s) :
    ((t.violationsOf rules).drop (t.offset rules i)).take (s.violations rules).length =
      s.violations rules := by
  have hsplit : t.services = t.services.take i ++ s :: t.services.drop (i + 1) := by
    obtain ⟨hi, rfl⟩ := List.getElem?_eq_some_iff.mp hs
    rw [← List.drop_eq_getElem_cons hi, List.take_append_drop]
  have hblocks : t.violationsOf rules = (t.services.take i).flatMap (·.violations rules) ++
      (s.violations rules ++ (t.services.drop (i + 1)).flatMap (·.violations rules)) := by
    rw [violationsOf, ← List.flatMap_cons, ← List.flatMap_append, ← hsplit]
  rw [hblocks, offset, List.drop_left, List.take_left]

/-- A permutation of the rules keeps the blocks. -/
theorem sameBlocks_of_perm (t : Topology) (h : rules.Perm rules') : t.SameBlocks rules rules' := by
  have hlength : ∀ s : Service, (s.violations rules').length = (s.violations rules).length :=
    fun s => (s.violations_perm h).length_eq
  have hoffset : ∀ i, t.offset rules' i = t.offset rules i := by
    intro i
    rw [offset, offset, List.length_flatMap, List.length_flatMap]
    simp only [hlength]
  refine ⟨fun s _ => hlength s, hoffset, fun i s hs => ⟨t.take_drop_violationsOf rules hs, ?_⟩⟩
  rw [← hoffset, ← hlength]
  exact t.take_drop_violationsOf rules' hs

theorem onlyAdds (front back : List Rule) (r : Rule) (t : Topology) : t.OnlyAdds front back r := by
  refine ⟨t.map_violation_findings _, fun f hf => mem_findings.mp hf, ?_, ?_⟩
  · rw [map_violation_filter_findings (· == front.length), Rule.select_eq, violationsOf]
    -- one rule makes at most one violation of a service
    simp only [Service.violations, List.filterMap_cons, List.filterMap_nil]
    rw [List.filterMap_eq_flatMap_toList]
    refine List.flatMap_congr fun s _ => ?_
    cases r.violation? s <;> rfl
  · rw [map_violation_filter_findings (· != front.length), Rule.select_ne]

/-- **The order of rules and services does not matter.** A permutation of either permutes the
violations. If only the rules are permuted, those of each service stay one block of the same
place and length. And if one more rule comes in, wherever it does, the violations of the other
rules are left as they were. -/
theorem independent_of_order (hrules : rules.Perm rules')
    (hservices : t.services.Perm t'.services) :
    (t'.violationsOf rules').Perm (t.violationsOf rules) ∧ t.SameBlocks rules rules' ∧
      ∀ front back r, rules = front ++ back → t.OnlyAdds front back r :=
  ⟨violationsOf_perm hrules hservices, t.sameBlocks_of_perm hrules,
    fun front back r _ => t.onlyAdds front back r⟩

/-- Two services of one name, of which the first breaks every rule and the second two. -/
def twinTopology : Topology where
  services :=
    [⟨"a", .db, true, true, [⟨"0.0.0.0", 80, .http⟩], [], none⟩,
      ⟨"a", .api, true, true, [], [], none⟩]
  metadata := ⟨.yaml, none⟩

/-- Turned round, the rules and the twins have their violations in another order, but the block
of the second twin begins behind the four violations of the first as before. And where the first
rule comes in once more, only what it says itself is added, though it says nothing new. -/
theorem independent_of_order_of_twins :
    let turned : Topology := { twinTopology with services := twinTopology.services.reverse }
    turned.violationsOf Rule.all.reverse ≠ twinTopology.audit ∧
      (turned.violationsOf Rule.all.reverse).Perm twinTopology.audit ∧
        twinTopology.offset Rule.all.reverse 1 = 4 ∧
          twinTopology.OnlyAdds [] Rule.all Rule.noPublicDatabase := by
  intro turned
  obtain ⟨hperm, hblocks, hadds⟩ := @independent_of_order _ _ twinTopology turned
    (List.reverse_perm Rule.all).symm (List.reverse_perm twinTopology.services).symm
  exact ⟨by decide, hperm, (hblocks.offset 1).trans (by decide), hadds [] Rule.all _ rfl⟩

end Topology

end TopologyAudit
