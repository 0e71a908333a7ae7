import Mathlib.Logic.Relation
import TopologyAudit.Proofs.Drift.Accounting

/-!
# Hardening brings in no risk

A service is hardened by taking it off the public, by completing its limits, by taking
plain bindings away and the like. Each such edit leaves the service *no riskier* than it
was (`NoRiskier`): everything that a rule objects to was there before, and nothing that a
rule asks for has gone. The rules are monotone in that order, so the audit after any
sequence of edits is a sublist of the audit before (`sublist_audit_of_hardening`), and no
name gains violations.
-/

namespace TopologyAudit

namespace Service

/-- Whether a service listens on every address. -/
def bindsAnyHost (s : Service) : Bool := s.network.any (·.host == Rule.anyHost)

/-- Edits of one service that harden it. -/
inductive Hardening : Service → Service → Prop
  | withdraw (s : Service) : Hardening s { s with isPublic := false }
  | dropPersonalData (s : Service) : Hardening s { s with handlesPii := false }
  | limit (s : Service) (l : Limits) (hl : l.isComplete = true) :
    Hardening s { s with limits := some l }
  | retype (s : Service) (k : ServiceKind) (hk : k ≠ .db) : Hardening s { s with kind := k }
  | bind (s : Service) (front back : List Binding) (b : Binding)
    (hn : s.network = front ++ back) (hhost : b.host ≠ Rule.anyHost) (hp : b.protocol ≠ .http) :
    Hardening s { s with network := front ++ b :: back }
  | unbind (s : Service) (front back : List Binding) (b : Binding)
    (hn : s.network = front ++ b :: back) (hp : b.protocol ≠ .https) :
    Hardening s { s with network := front ++ back }

/-- That a service gives no rule more cause than another one of its name does. -/
structure NoRiskier (s' s : Service) : Prop where
  name : s'.name = s.name
  db : s'.kind = .db → s.kind = .db
  isPublic : s'.isPublic = true → s.isPublic = true
  handlesPii : s'.handlesPii = true → s.handlesPii = true
  anyHost : s'.bindsAnyHost = true → s.bindsAnyHost = true
  http : s'.speaks .http = true → s.speaks .http = true
  https : s.speaks .https = true → s'.speaks .https = true
  limits : s.hasLimits = true → s'.hasLimits = true

/-- Two services that differ in nothing but their bindings are in order when their
bindings are. -/
theorem NoRiskier.of_network {s : Service} {network : List Binding}
    (hhost : network.any (·.host == Rule.anyHost) = true → s.bindsAnyHost = true)
    (hhttp : network.any (·.protocol == .http) = true → s.speaks .http = true)
    (hhttps : s.speaks .https = true → network.any (·.protocol == .https) = true) :
    NoRiskier { s with network := network } s :=
  ⟨rfl, id, id, id, hhost, hhttp, hhttps, id⟩

/-- A test that a further binding does not pass holds of as many lists as before. -/
private theorem any_insert_of_not {p : Binding → Bool} {b : Binding} (front back : List Binding)
    (hb : p b = false) : (front ++ b :: back).any p = (front ++ back).any p := by
  rw [List.any_append, List.any_append, List.any_cons, hb, Bool.false_or]

private theorem any_of_any_append {p : Binding → Bool} {b : Binding} {front back : List Binding}
    (h : (front ++ back).any p = true) : (front ++ b :: back).any p = true := by
  rw [List.any_append, Bool.or_eq_true] at h ⊢
  rcases h with hf | hb
  · exact Or.inl hf
  · refine Or.inr ?_
    rw [List.any_cons, hb, Bool.or_true]

/-- Each edit leaves the service no riskier. -/
theorem Hardening.noRiskier {s s' : Service} (h : Hardening s s') : NoRiskier s' s := by
  cases h with
  | withdraw =>
    exact ⟨rfl, id, fun hp => absurd hp Bool.false_ne_true, id, id, id, id, id⟩
  | dropPersonalData =>
    exact ⟨rfl, id, id, fun hp => absurd hp Bool.false_ne_true, id, id, id, id⟩
  | limit l hl =>
    exact ⟨rfl, id, id, id, id, id, id, fun _ => hl⟩
  | retype k hk =>
    exact ⟨rfl, fun he => absurd he hk, id, id, id, id, id, id⟩
  | bind front back b hn hhost hp =>
    -- the binding is seen by no test but that for HTTPS, which may only gain by it
    have hnotHost : (b.host == Rule.anyHost) = false := beq_eq_false_iff_ne.mpr hhost
    have hnotHttp : (b.protocol == .http) = false := beq_eq_false_iff_ne.mpr hp
    refine NoRiskier.of_network ?_ ?_ ?_
    · intro h
      rw [any_insert_of_not (p := (·.host == Rule.anyHost)) front back hnotHost, ← hn] at h
      exact h
    · intro h
      rw [any_insert_of_not (p := (·.protocol == .http)) front back hnotHttp, ← hn] at h
      exact h
    · intro h
      rw [speaks, hn] at h
      exact any_of_any_append h
  | unbind front back b hn hp =>
    -- the binding is missed by no test but those that may only lose by it
    have hnotHttps : (b.protocol == .https) = false := beq_eq_false_iff_ne.mpr hp
    refine NoRiskier.of_network ?_ ?_ ?_
    · intro h
      rw [bindsAnyHost, hn]
      exact any_of_any_append h
    · intro h
      rw [speaks, hn]
      exact any_of_any_append h
    · intro h
      rw [speaks, hn, any_insert_of_not (p := (·.protocol == .https)) front back hnotHttps] at h
      exact h

/-- A rule that a service breaks is broken by every riskier one. -/
theorem NoRiskier.isBroken {s' s : Service} (h : NoRiskier s' s) {r : Rule} (hr : r ∈ Rule.all)
    (hb : r.isBroken s' = true) : r.isBroken s = true := by
  simp only [Rule.all, List.mem_cons, List.not_mem_nil, or_false] at hr
  rcases hr with rfl | rfl | rfl | rfl
  -- a public database
  · obtain ⟨hdb, hexposed⟩ := Bool.and_eq_true_iff.mp hb
    refine Bool.and_eq_true_iff.mpr ⟨beq_iff_eq.mpr (h.db (eq_of_beq hdb)), ?_⟩
    rcases Bool.or_eq_true_iff.mp hexposed with hp | hh
    · exact Bool.or_eq_true_iff.mpr (Or.inl (h.isPublic hp))
    · exact Bool.or_eq_true_iff.mpr (Or.inr (h.anyHost hh))
  -- HTTP without HTTPS: the only rule that asks for a binding as well
  · obtain ⟨hph, hns⟩ := Bool.and_eq_true_iff.mp hb
    obtain ⟨hp, hh⟩ := Bool.and_eq_true_iff.mp hph
    refine Bool.and_eq_true_iff.mpr ⟨Bool.and_eq_true_iff.mpr ⟨h.isPublic hp, h.http hh⟩, ?_⟩
    rw [Bool.not_eq_true'] at hns ⊢
    exact Bool.eq_false_iff.mpr fun hs => Bool.eq_false_iff.mp hns (h.https hs)
  -- personal data in public
  · obtain ⟨hpii, hp⟩ := Bool.and_eq_true_iff.mp hb
    exact Bool.and_eq_true_iff.mpr ⟨h.handlesPii hpii, h.isPublic hp⟩
  -- no limits
  · have hno : (!s'.hasLimits) = true := hb
    show (!s.hasLimits) = true
    rw [Bool.not_eq_true'] at hno ⊢
    exact Bool.eq_false_iff.mpr fun hl => Bool.eq_false_iff.mp hno (h.limits hl)

theorem NoRiskier.violation? {s' s : Service} (h : NoRiskier s' s) {r : Rule} (hr : r ∈ Rule.all)
    {v : Violation} (hv : r.violation? s' = some v) : r.violation? s = some v := by
  unfold Rule.violation? at hv ⊢
  split at hv
  next hb =>
    rw [if_pos (h.isBroken hr hb), ← h.name]
    exact hv
  next => exact absurd hv (by simp)

/-- Where one of two partial functions is defined it agrees with the other, so it has
fewer results. -/
private theorem filterMap_sublist {α β : Type} {f g : α → Option β} :
    ∀ {l : List α}, (∀ a ∈ l, ∀ b, f a = some b → g a = some b) →
      (l.filterMap f).Sublist (l.filterMap g) := by
  intro l
  induction l with
  | nil => intro _; exact List.Sublist.refl _
  | cons a l ih =>
    intro h
    have hrest := ih fun x hx => h x (List.mem_cons_of_mem _ hx)
    cases hfa : f a with
    | none =>
      rw [List.filterMap_cons_none hfa]
      cases hga : g a with
      | none => rw [List.filterMap_cons_none hga]; exact hrest
      | some b => rw [List.filterMap_cons_some hga]; exact hrest.cons b
    | some b =>
      rw [List.filterMap_cons_some hfa, List.filterMap_cons_some (h a (List.mem_cons_self ..) b hfa)]
      exact hrest.cons_cons b

theorem NoRiskier.sublist_violations {s' s : Service} (h : NoRiskier s' s) :
    (s'.violations Rule.all).Sublist (s.violations Rule.all) :=
  filterMap_sublist fun _ hr _ hv => h.violation? hr hv

end Service

namespace Topology

/-- Edits of a topology that harden it: a service is hardened or deleted, or one without
violations comes in, under whatever name. -/
inductive Hardening : Topology → Topology → Prop
  | edit (t : Topology) (front back : List Service) (s s' : Service)
    (ht : t.services = front ++ s :: back) (hs : s.Hardening s') :
    Hardening t { t with services := front ++ s' :: back }
  | delete (t : Topology) (front back : List Service) (s : Service)
    (ht : t.services = front ++ s :: back) : Hardening t { t with services := front ++ back }
  | insert (t : Topology) (front back : List Service) (s : Service)
    (ht : t.services = front ++ back) (hs : s.violations Rule.all = []) :
    Hardening t { t with services := front ++ s :: back }

/-- The audit goes through the services one by one. -/
private theorem audit_append_cons {t : Topology} {front back : List Service} {s : Service}
    (ht : t.services = front ++ s :: back) :
    t.audit = front.flatMap (·.violations Rule.all) ++
      (s.violations Rule.all ++ back.flatMap (·.violations Rule.all)) := by
  rw [audit, violationsOf, ht, List.flatMap_append, List.flatMap_cons]

private theorem audit_append {t : Topology} {front back : List Service}
    (ht : t.services = front ++ back) :
    t.audit = front.flatMap (·.violations Rule.all) ++ back.flatMap (·.violations Rule.all) := by
  rw [audit, violationsOf, ht, List.flatMap_append]

/-- One edit takes violations away from the audit and changes nothing else about it. -/
theorem Hardening.sublist_audit {t t' : Topology} (h : Hardening t t') :
    t'.audit.Sublist t.audit := by
  cases h with
  | edit front back s s' ht hs =>
    rw [audit_append_cons ht, audit_append_cons (t := { t with services := _ }) rfl]
    exact (List.Sublist.refl _).append
      (hs.noRiskier.sublist_violations.append (List.Sublist.refl _))
  | delete front back s ht =>
    rw [audit_append_cons ht, audit_append (t := { t with services := _ }) rfl]
    exact (List.Sublist.refl _).append (List.sublist_append_right _ _)
  | insert front back s ht hs =>
    -- the service that comes in has no violations of its own
    rw [audit_append ht, audit_append_cons (t := { t with services := _ }) rfl, hs, List.nil_append]

/-- So does any sequence of edits. -/
theorem sublist_audit_of_hardening {t t' : Topology} (h : Relation.ReflTransGen Hardening t t') :
    t'.audit.Sublist t.audit := by
  induction h with
  | refl => exact List.Sublist.refl _
  | tail _ hstep ih => exact hstep.sublist_audit.trans ih

end Topology

theorem Violation.countOf_le_of_sublist {vs ws : List Violation} (h : vs.Sublist ws) (name : Text) :
    countOf vs name ≤ countOf ws name :=
  h.countP_le

namespace Drift

/-- Where no name gains violations, nothing comes in and no risk rises. -/
theorem no_increase_of_countOf_le (old new : Topology) {before after : List Violation}
    (h : ∀ name, Violation.countOf after name ≤ Violation.countOf before name) :
    (between old new before after).introduced = 0 ∧
      ∀ c ∈ (between old new before after).changes, c.impact ≠ .increase := by
  constructor
  · rw [introduced_between]
    exact Finset.sum_eq_zero fun name _ => Nat.sub_eq_zero_of_le (h name)
  · intro c hc
    rw [changes_between] at hc
    -- every change that is shown is that of some name
    obtain ⟨name, -, rfl⟩ := List.mem_map.mp (List.mem_of_mem_filter hc)
    have hle : (changeOf before after name).after ≤ (changeOf before after name).before := by
      rw [before_changeOf, after_changeOf]
      exact h name
    rw [Change.impact, if_neg (Nat.not_lt.mpr hle)]
    split <;> simp

/-- **Hardening never shows up as new risk.** After any sequence of hardening edits the
drift from the old topology to the edited one brings in nothing and raises no risk, and
no name has more violations than it had. -/
theorem no_new_risk_of_hardening {old edited : Topology}
    (h : Relation.ReflTransGen Topology.Hardening old edited) :
    (between old edited old.audit edited.audit).introduced = 0 ∧
      (∀ c ∈ (between old edited old.audit edited.audit).changes, c.impact ≠ .increase) ∧
        ∀ name, Violation.countOf edited.audit name ≤ Violation.countOf old.audit name := by
  have hle := Violation.countOf_le_of_sublist (Topology.sublist_audit_of_hardening h)
  obtain ⟨hnone, hrise⟩ := no_increase_of_countOf_le old edited hle
  exact ⟨hnone, hrise, hle⟩

/-- A public database on every address, with all four rules broken. -/
def exposedDatabase : Service :=
  ⟨"a", .db, true, true, [⟨"0.0.0.0", 80, .http⟩], [], none⟩

/-- A service that breaks no rule and has the name of the database. -/
def soundService : Service :=
  ⟨"a", .api, false, true, [], [], some ⟨some (.int 0), some (.int 512)⟩⟩

/-- The database is withdrawn and loses its binding, and a sound service of its name
comes in: three rules fall silent and the fourth stays. -/
theorem no_new_risk_of_withdrawn_database :
    let withdrawn := { exposedDatabase with isPublic := false }
    let unbound := { withdrawn with network := [] }
    let old : Topology := ⟨[exposedDatabase], ⟨.yaml, none⟩⟩
    let edited : Topology := ⟨[unbound, soundService], ⟨.yaml, none⟩⟩
    Relation.ReflTransGen Topology.Hardening old edited ∧
      old.audit.length = 4 ∧ edited.audit.length = 1 ∧
        (between old edited old.audit edited.audit).introduced = 0 ∧
          ∀ c ∈ (between old edited old.audit edited.audit).changes, c.impact ≠ .increase := by
  intro withdrawn unbound old edited
  have hwithdraw : Topology.Hardening old ⟨[withdrawn], ⟨.yaml, none⟩⟩ :=
    .edit old [] [] _ _ rfl (.withdraw _)
  have hunbind : Topology.Hardening ⟨[withdrawn], ⟨.yaml, none⟩⟩ ⟨[unbound], ⟨.yaml, none⟩⟩ :=
    .edit _ [] [] _ _ rfl (.unbind withdrawn [] [] ⟨"0.0.0.0", 80, .http⟩ rfl (by decide))
  have hinsert : Topology.Hardening ⟨[unbound], ⟨.yaml, none⟩⟩ edited :=
    .insert _ [unbound] [] soundService rfl (by decide)
  have hsteps : Relation.ReflTransGen Topology.Hardening old edited :=
    ((Relation.ReflTransGen.single hwithdraw).tail hunbind).tail hinsert
  obtain ⟨hnone, hrise, -⟩ := no_new_risk_of_hardening hsteps
  exact ⟨hsteps, by decide, by decide, hnone, hrise⟩

end Drift

end TopologyAudit
