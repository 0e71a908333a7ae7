import TopologyAudit.Topology.Schema

/-!
# What accepted checks say

A combination of checks accepts exactly when its parts do. From that, whatever the
schema accepts is *expressible*: no port is negative, and an integer limit is near a
finite double. Configs can express nothing else.
-/

namespace TopologyAudit

namespace Checked

variable {α β : Type}

theorem map_eq_ok {f : α → β} {x : Checked α} {b : β} :
    x.map f = .ok b ↔ ∃ a, x = .ok a ∧ f a = b := by
  cases x <;> simp [map]

theorem both_eq_ok {x : Checked α} {y : Checked β} {a : α} {b : β} :
    x.both y = .ok (a, b) ↔ x = .ok a ∧ y = .ok b := by
  cases x <;> cases y <;> simp [both]

theorem under_eq_ok {step : Step} {x : Checked α} {a : α} : x.under step = .ok a ↔ x = .ok a := by
  cases x <;> simp [under]

/-- A list is accepted when its items are. -/
theorem items_map (check : α → Checked β) (write : β → α) :
    ∀ {list : List β} (position : Nat), (∀ b ∈ list, check (write b) = .ok b) →
      items check position (list.map write) = .ok list := by
  intro list
  induction list with
  | nil => intro _ _; rfl
  | cons b rest ih =>
    intro position h
    rw [List.map_cons, items, h b (List.mem_cons_self ..),
      ih (position + 1) fun c hc => h c (List.mem_cons_of_mem _ hc)]
    rfl

/-- What an accepted list holds has been accepted item by item. -/
theorem exists_of_items_eq_ok {check : α → Checked β} :
    ∀ {list : List α} {position : Nat} {bs : List β}, items check position list = .ok bs →
      ∀ b ∈ bs, ∃ a ∈ list, check a = .ok b := by
  intro list
  induction list with
  | nil =>
    intro position bs h b hb
    rw [items] at h
    cases h
    exact absurd hb List.not_mem_nil
  | cons a rest ih =>
    intro position bs h b hb
    rw [items] at h
    obtain ⟨⟨first, others⟩, hboth, rfl⟩ := map_eq_ok.mp h
    obtain ⟨hfirst, hothers⟩ := both_eq_ok.mp hboth
    rcases List.mem_cons.mp hb with rfl | hb
    · exact ⟨a, List.mem_cons_self .., under_eq_ok.mp hfirst⟩
    · obtain ⟨c, hc, hcheck⟩ := ih hothers b hb
      exact ⟨c, List.mem_cons_of_mem _ hc, hcheck⟩

end Checked

/-- That configs can express an amount: an integer needs a finite double near it. -/
def Amount.IsExpressible : Amount → Prop
  | .int n => (Binary64.ofInt n).isFinite = true
  | .float _ => True

/-- That configs can express limits. -/
structure Limits.IsExpressible (l : Limits) : Prop where
  cpu : ∀ a ∈ l.cpu, a.IsExpressible
  memoryMb : ∀ a ∈ l.memoryMb, a.IsExpressible

/-- That configs can express a service. -/
structure Service.IsExpressible (s : Service) : Prop where
  port : ∀ b ∈ s.network, 0 ≤ b.port
  limits : ∀ l ∈ s.limits, l.IsExpressible

/-- That configs can express a topology. -/
def Topology.IsExpressible (t : Topology) : Prop := ∀ s ∈ t.services, s.IsExpressible

namespace Schema

variable {α : Type} {check : Tree → Checked α} {f : FieldName} {entries : List (Scalar × Tree)}

theorem exists_of_required_eq_ok {a : α} (h : required f check entries = .ok a) :
    ∃ tree, check tree = .ok a := by
  unfold required at h
  split at h
  next name value _ => exact ⟨value, Checked.under_eq_ok.mp h⟩
  next => exact absurd h (by simp [Checked.mismatch, Checked.under])

theorem exists_of_optional_eq_ok {a default : α} (h : optional f default check entries = .ok a) :
    a = default ∨ ∃ tree, check tree = .ok a := by
  unfold optional at h
  split at h
  next name value _ => exact Or.inr ⟨value, Checked.under_eq_ok.mp h⟩
  next =>
    cases h
    exact Or.inl rfl

theorem exists_of_nullable_eq_ok {tree : Tree} {o : Option α} (h : nullable check tree = .ok o) :
    ∀ a ∈ o, ∃ tree, check tree = .ok a := by
  intro a ha
  unfold nullable at h
  split at h
  next =>
    cases h
    exact absurd ha (by simp)
  next =>
    obtain ⟨b, hb, rfl⟩ := Checked.map_eq_ok.mp h
    cases ha
    exact ⟨tree, hb⟩

theorem exists_of_listOf_eq_ok {tree : Tree} {as : List α} (h : listOf check tree = .ok as) :
    ∀ a ∈ as, ∃ tree, check tree = .ok a := by
  intro a ha
  unfold listOf at h
  split at h
  next =>
    obtain ⟨t, -, ht⟩ := Checked.exists_of_items_eq_ok h a ha
    exact ⟨t, ht⟩
  next =>
    obtain ⟨t, -, ht⟩ := Checked.exists_of_items_eq_ok h a ha
    exact ⟨t, ht⟩
  next => exact absurd h (by simp [Checked.mismatch])

/-- What a check of a mapping accepts is what it makes of the entries. -/
theorem exists_of_mappingOf_eq_ok {part : Text} {check : List (Scalar × Tree) → Checked α}
    {tree : Tree} {a : α} (h : mappingOf part check tree = .ok a) :
    ∃ entries, check entries = .ok a := by
  unfold mappingOf at h
  split at h
  next entries => exact ⟨entries, h⟩
  next => exact absurd h (by simp [Checked.mismatch])

theorem nonneg_of_natural_eq_ok {tree : Tree} {n : Int} (h : natural tree = .ok n) : 0 ≤ n := by
  unfold natural at h
  split at h
  next =>
    split at h
    next hn =>
      cases h
      exact hn
    next => exact absurd h (by simp [Checked.mismatch])
  next => exact absurd h (by simp [Checked.mismatch])

theorem isExpressible_of_amount_eq_ok {tree : Tree} {a : Amount} (h : amount tree = .ok a) :
    a.IsExpressible := by
  unfold amount at h
  split at h
  next =>
    split at h
    next hn =>
      cases h
      exact hn
    next => exact absurd h (by simp [Checked.mismatch])
  next =>
    cases h
    exact trivial
  next => exact absurd h (by simp [Checked.mismatch])

theorem nonneg_of_binding_eq_ok {tree : Tree} {b : Binding} (h : binding tree = .ok b) :
    0 ≤ b.port := by
  obtain ⟨entries, h⟩ := exists_of_mappingOf_eq_ok h
  obtain ⟨⟨host, port, protocol⟩, hall, rfl⟩ := Checked.map_eq_ok.mp h
  obtain ⟨-, hall⟩ := Checked.both_eq_ok.mp hall
  obtain ⟨hport, -⟩ := Checked.both_eq_ok.mp hall
  obtain ⟨_, hport⟩ := exists_of_required_eq_ok hport
  exact nonneg_of_natural_eq_ok hport

/-- An accepted amount that may be left out is expressible when it is there. -/
private theorem isExpressible_of_optional_eq_ok {o : Option Amount}
    (h : optional f none (nullable amount) entries = .ok o) : ∀ a ∈ o, a.IsExpressible := by
  intro a ha
  rcases exists_of_optional_eq_ok h with rfl | ⟨_, h⟩
  · exact absurd ha (by simp)
  · obtain ⟨_, h⟩ := exists_of_nullable_eq_ok h a ha
    exact isExpressible_of_amount_eq_ok h

theorem isExpressible_of_limits_eq_ok {tree : Tree} {l : Limits} (h : limits tree = .ok l) :
    l.IsExpressible := by
  obtain ⟨entries, h⟩ := exists_of_mappingOf_eq_ok h
  obtain ⟨⟨cpu, memoryMb⟩, hall, rfl⟩ := Checked.map_eq_ok.mp h
  obtain ⟨hcpu, hmemory⟩ := Checked.both_eq_ok.mp hall
  exact ⟨isExpressible_of_optional_eq_ok hcpu, isExpressible_of_optional_eq_ok hmemory⟩

theorem isExpressible_of_service_eq_ok {tree : Tree} {s : Service} (h : service tree = .ok s) :
    s.IsExpressible := by
  obtain ⟨entries, h⟩ := exists_of_mappingOf_eq_ok h
  obtain ⟨⟨name, kind, isPublic, handlesPii, network, dependsOn, lims⟩, hall, rfl⟩ :=
    Checked.map_eq_ok.mp h
  obtain ⟨-, hall⟩ := Checked.both_eq_ok.mp hall
  obtain ⟨-, hall⟩ := Checked.both_eq_ok.mp hall
  obtain ⟨-, hall⟩ := Checked.both_eq_ok.mp hall
  obtain ⟨-, hall⟩ := Checked.both_eq_ok.mp hall
  obtain ⟨hnetwork, hall⟩ := Checked.both_eq_ok.mp hall
  obtain ⟨-, hlimits⟩ := Checked.both_eq_ok.mp hall
  constructor
  · intro b hb
    rcases exists_of_optional_eq_ok hnetwork with rfl | ⟨_, hnetwork⟩
    · exact absurd hb List.not_mem_nil
    · obtain ⟨_, hbinding⟩ := exists_of_listOf_eq_ok hnetwork b hb
      exact nonneg_of_binding_eq_ok hbinding
  · intro l hl
    rcases exists_of_optional_eq_ok hlimits with rfl | ⟨_, hlimits⟩
    · exact absurd hl (by simp)
    · obtain ⟨_, hlimits⟩ := exists_of_nullable_eq_ok hlimits l hl
      exact isExpressible_of_limits_eq_ok hlimits

/-- **The schema accepts only what configs can express.** -/
theorem isExpressible_of_check_eq_ok {tree : Tree} {services : List Service}
    (h : Schema.check tree = .ok services) : ∀ s ∈ services, s.IsExpressible := by
  intro s hs
  obtain ⟨entries, h⟩ := exists_of_mappingOf_eq_ok h
  obtain ⟨_, h⟩ := exists_of_required_eq_ok h
  obtain ⟨_, h⟩ := exists_of_listOf_eq_ok h s hs
  exact isExpressible_of_service_eq_ok h

end Schema

end TopologyAudit
