import TopologyAudit.Drift.Attribution

/-!
# Attribution separates the services

`get_ofList`: what is found under a name is exactly the part of the violations that is
attributed to it, in their order. The grouping is a fold that adds one violation at a
time, so `get_add` says what one addition does to the view of every name.
-/

namespace TopologyAudit

/-- How many of some violations are attributed to a name. -/
def Violation.countOf (violations : List Violation) (name : Text) : Nat :=
  violations.countP fun v => v.service = name

namespace Attribution

/-- A name other than that of the first group is looked up in the rest. -/
theorem get_cons_ne {first name : Text} {vs : List Violation} {rest : Attribution}
    (h : name ≠ first) : get ((first, vs) :: rest) name = get rest name := by
  have hne : (name == first) = false := beq_eq_false_iff_ne.mpr h
  unfold get
  rw [List.lookup_cons, hne]

theorem get_cons_self (name : Text) (vs : List Violation) (rest : Attribution) :
    get ((name, vs) :: rest) name = vs := by
  unfold get
  rw [List.lookup_cons_self, Option.getD_some]

/-- A violation is added behind those of its service and nowhere else. -/
theorem get_add (a : Attribution) (v : Violation) (name : Text) :
    get (add a v) name = if v.service = name then get a name ++ [v] else get a name := by
  induction a with
  | nil =>
    by_cases h : v.service = name
    · rw [if_pos h, add, ← h, get_cons_self]
      rfl
    · rw [if_neg h, add, get_cons_ne (Ne.symm h)]
  | cons group rest ih =>
    obtain ⟨first, vs⟩ := group
    rw [add]
    -- either the violation goes into this group, or the group is passed over
    by_cases hv : first = v.service
    · rw [if_pos hv]
      by_cases h : name = first
      · rw [if_pos (hv ▸ h.symm), h, get_cons_self, get_cons_self]
      · rw [if_neg (fun he => h (hv ▸ he.symm)), get_cons_ne h, get_cons_ne h]
    · rw [if_neg hv]
      by_cases h : name = first
      · rw [if_neg (fun he => hv (h ▸ he.symm)), h, get_cons_self, get_cons_self]
      · rw [get_cons_ne h, get_cons_ne h, ih]

private theorem get_foldl_add (name : Text) :
    ∀ (vs : List Violation) (a : Attribution),
      get (vs.foldl add a) name = get a name ++ vs.filter fun v => v.service = name := by
  intro vs
  induction vs with
  | nil => intro a; simp
  | cons v vs ih =>
    intro a
    rw [List.foldl_cons, ih, get_add]
    by_cases h : v.service = name
    · rw [if_pos h, List.filter_cons_of_pos (by simpa using h), List.append_assoc,
        List.singleton_append]
    · rw [if_neg h, List.filter_cons_of_neg (by simpa using h)]

/-- Under each name stand the violations attributed to it, in their order. -/
theorem get_ofList (vs : List Violation) (name : Text) :
    get (ofList vs) name = vs.filter fun v => v.service = name := by
  rw [ofList, get_foldl_add]
  rfl

/-- As many violations are found under a name as are attributed to it. -/
theorem length_get_ofList (vs : List Violation) (name : Text) :
    (get (ofList vs) name).length = Violation.countOf vs name := by
  rw [get_ofList, Violation.countOf, List.countP_eq_length_filter]

end Attribution

end TopologyAudit
