import TopologyAudit.Proofs.Audit.Rule
import TopologyAudit.Proofs.Drift.Attribution
import TopologyAudit.Proofs.Entries

/-!
# Groups of violations

Grouping by service takes one violation after another: it goes behind those of its service, or
opens a group at the end (`services_add`, `violations_add_perm`). So the groups stand in the order
in which their services first occur, each holds what is attributed to its service in the order of
the list, and all of them together hold the list (`groups_by_service`).

The violations of an audit come service by service, and services may share a name. The group of
a name then has what the rules say of each service of that name, in the order of the services.
-/

namespace TopologyAudit

namespace Attribution

variable {a : Attribution} {v : Violation}

/-- The services of the groups. -/
def services (a : Attribution) : List Text := a.map (·.1)

/-- The violations of all groups, one group behind the other. -/
def violations (a : Attribution) : List Violation := a.flatMap (·.2)

/-- That an attribution is a stable partition of some violations by their services. -/
structure Groups (a : Attribution) (vs : List Violation) : Prop where
  services : a.services = (vs.map (·.service)).eraseDups
  mem_iff : ∀ name, name ∈ a.services ↔ ∃ v ∈ vs, v.service = name
  nodup : a.services.Nodup
  /-- The services stand in the order in which they first occur. -/
  order : a.services.Pairwise fun m n =>
    (vs.map (·.service)).idxOf m < (vs.map (·.service)).idxOf n
  ne_nil : ∀ group ∈ a, group.2 ≠ []
  /-- A group is the part of the list that is attributed to its service. -/
  part : ∀ group ∈ a, group.2 = vs.filter fun v => v.service = group.1
  found : ∀ group ∈ a, a.get group.1 = group.2
  /-- Nothing is lost, and nothing comes in twice. -/
  perm : a.violations.Perm vs

/-! ## One more violation -/

/-- A violation opens a group at the end unless its service has one. -/
theorem services_add (a : Attribution) (v : Violation) :
    (add a v).services =
      if a.services.any (· == v.service) then a.services else a.services ++ [v.service] := by
  induction a with
  | nil => rfl
  | cons group rest ih =>
    obtain ⟨name, vs⟩ := group
    have hcons : ∀ us, services ((name, us) :: rest) = name :: services rest := fun _ => rfl
    rw [add, hcons, List.any_cons]
    by_cases h : name = v.service
    · rw [if_pos h, hcons, beq_iff_eq.mpr h, Bool.true_or, if_pos rfl]
    · have hbeq : (name == v.service) = false := beq_eq_false_iff_ne.mpr h
      have hadd : services ((name, vs) :: add rest v) = name :: services (add rest v) := rfl
      rw [if_neg h, hadd, ih, hbeq, Bool.false_or]
      split <;> rfl

/-- All violations that were there stay, and the new one comes in. -/
theorem violations_add_perm (a : Attribution) (v : Violation) :
    (add a v).violations.Perm (v :: a.violations) := by
  induction a with
  | nil => exact List.Perm.refl _
  | cons group rest ih =>
    obtain ⟨name, vs⟩ := group
    rw [add]
    split
    next =>
      show (vs ++ [v] ++ violations rest).Perm (v :: (vs ++ violations rest))
      rw [List.append_assoc, List.singleton_append]
      exact List.perm_middle
    next =>
      show (vs ++ violations (add rest v)).Perm (v :: (vs ++ violations rest))
      exact (ih.append_left vs).trans List.perm_middle

theorem ofList_concat (vs : List Violation) (v : Violation) :
    ofList (vs ++ [v]) = add (ofList vs) v := by
  rw [ofList, List.foldl_append]
  rfl

/-! ## All violations -/

theorem services_ofList (vs : List Violation) :
    (ofList vs).services = Entries.distinct (vs.map (·.service)) := by
  induction vs using List.reverseRecOn with
  | nil => rfl
  | append_singleton vs v ih =>
    rw [ofList_concat, services_add, ih, List.map_append, Entries.distinct, Entries.distinct,
      List.foldl_append]
    rfl

theorem violations_ofList_perm (vs : List Violation) : (ofList vs).violations.Perm vs := by
  induction vs using List.reverseRecOn with
  | nil => exact List.Perm.refl _
  | append_singleton vs v ih =>
    rw [ofList_concat]
    exact (violations_add_perm _ v).trans ((ih.cons v).trans (List.perm_append_singleton v vs).symm)

/-- A group is found under its service if no other group has that service. -/
theorem get_of_mem (hnodup : a.services.Nodup) {group : Text × List Violation} (h : group ∈ a) :
    a.get group.1 = group.2 := by
  induction a with
  | nil => exact absurd h List.not_mem_nil
  | cons first rest ih =>
    obtain ⟨hfirst, hrest⟩ : first.1 ∉ services rest ∧ (services rest).Nodup :=
      List.nodup_cons.mp hnodup
    rcases List.mem_cons.mp h with rfl | hmem
    · exact get_cons_self ..
    · have hne : group.1 ≠ first.1 := by
        intro he
        rw [← he] at hfirst
        exact hfirst (List.mem_map_of_mem hmem)
      rw [get_cons_ne hne, ih hrest hmem]

theorem groups_ofList (vs : List Violation) : (ofList vs).Groups vs := by
  have hservices : (ofList vs).services = (vs.map (·.service)).eraseDups := by
    rw [services_ofList, Entries.distinct_eq_eraseDups]
  have hmem : ∀ name, name ∈ (ofList vs).services ↔ ∃ v ∈ vs, v.service = name := by
    intro name
    rw [hservices, List.mem_eraseDups, List.mem_map]
  have hnodup : (ofList vs).services.Nodup := by
    rw [services_ofList]
    exact Entries.nodup_distinct _
  have hpart : ∀ group ∈ ofList vs, group.2 = vs.filter fun v => v.service = group.1 := by
    intro group hgroup
    rw [← get_of_mem hnodup hgroup, get_ofList]
  refine ⟨hservices, hmem, hnodup, ?_, ?_, hpart, fun group => get_of_mem hnodup,
    violations_ofList_perm vs⟩
  · rw [hservices]
    exact Entries.pairwise_idxOf_eraseDups _
  · -- a service comes from some violation, and that one is in its group
    intro group hgroup
    obtain ⟨v, hv, hname⟩ := (hmem group.1).mp (List.mem_map_of_mem hgroup)
    rw [hpart group hgroup]
    exact List.ne_nil_of_mem (List.mem_filter.mpr ⟨hv, decide_eq_true hname⟩)

end Attribution

/-! ## The violations of an audit -/

/-- Of what the rules say of a service, all or nothing is attributed to a name. -/
theorem Service.filter_violations (rules : List Rule) (s : Service) (name : Text) :
    (s.violations rules).filter (fun v => v.service = name) =
      if s.name = name then s.violations rules else [] := by
  split
  next h =>
    refine List.filter_eq_self.mpr fun v hv => decide_eq_true ?_
    rw [service_of_mem_violations hv, h]
  next h =>
    refine List.filter_eq_nil_iff.mpr fun v hv hname => h ?_
    rw [← service_of_mem_violations hv]
    exact of_decide_eq_true hname

theorem Topology.filter_violationsOf (rules : List Rule) (t : Topology) (name : Text) :
    (t.violationsOf rules).filter (fun v => v.service = name) =
      (t.services.filter fun s => s.name = name).flatMap (·.violations rules) := by
  rw [violationsOf]
  induction t.services with
  | nil => rfl
  | cons s rest ih =>
    rw [List.flatMap_cons, List.filter_append, ih, Service.filter_violations, List.filter_cons]
    by_cases h : s.name = name <;> simp [h]

namespace Attribution

/-- **Grouping by service is a stable partition**, whatever the violations are. Of the violations
that rules find in a topology, the group of a name has those of each service of that name, service
by service. -/
theorem groups_by_service (vs : List Violation) (rules : List Rule) (t : Topology) (name : Text) :
    (ofList vs).Groups vs ∧
      (ofList (t.violationsOf rules)).get name =
        (t.services.filter fun s => s.name = name).flatMap (·.violations rules) :=
  ⟨groups_ofList vs, by rw [get_ofList, t.filter_violationsOf]⟩

/-- A group goes on behind what belongs to another one. -/
example :
    let violation (rule service : Text) : Violation := ⟨rule, "", service, .low⟩
    ofList [violation "R1" "web", violation "R2" "cache", violation "R3" "web"] =
      ([("web", [violation "R1" "web", violation "R3" "web"]),
        ("cache", [violation "R2" "cache"])] : List (Text × List Violation)) := by
  decide

end Attribution

end TopologyAudit
