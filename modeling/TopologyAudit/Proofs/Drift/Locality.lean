import TopologyAudit.Proofs.Drift.Message
import TopologyAudit.Record.Topology

/-!
# What a drift depends on

Of the earlier violations a drift reads how many there are of each service, and of the later
ones the rules and severities of each service, in their order. Two drifts that read the same of
a service report the same of it, whatever the other services are (`locality_of_between`). So
nothing changes when violations of different services are interleaved in another way, when they
are described in other words, or when earlier violations are taken in another order.
-/

namespace TopologyAudit

open Violation (countOf)

namespace Violation

/-- A violation as a message cites it. -/
def citation (v : Violation) : Text × Severity := (v.rule, v.severity)

/-- What is cited of the violations of a service, in their order. -/
def citationsOf (vs : List Violation) (name : Text) : List (Text × Severity) :=
  (vs.filter fun v => v.service = name).map citation

/-- The same violations told in another way: with other descriptions, or with those of
different services interleaved differently. -/
inductive Retold : List Violation → List Violation → Prop
  | nil : Retold [] []
  | cons {v w : Violation} {vs ws : List Violation} (service : v.service = w.service)
      (citation : v.citation = w.citation) (rest : Retold vs ws) : Retold (v :: vs) (w :: ws)
  | swap {v w : Violation} (vs : List Violation) (service : v.service ≠ w.service) :
      Retold (v :: w :: vs) (w :: v :: vs)
  | trans {us vs ws : List Violation} (first : Retold us vs) (second : Retold vs ws) : Retold us ws

theorem citationsOf_cons (v : Violation) (vs : List Violation) (name : Text) :
    citationsOf (v :: vs) name =
      if v.service = name then v.citation :: citationsOf vs name else citationsOf vs name := by
  unfold citationsOf
  by_cases h : v.service = name
  · rw [if_pos h, List.filter_cons_of_pos (by simpa using h), List.map_cons]
  · rw [if_neg h, List.filter_cons_of_neg (by simpa using h)]

/-- What is told in another way is cited in the same way under each name. -/
theorem Retold.citationsOf_eq {vs ws : List Violation} (h : Retold vs ws) (name : Text) :
    citationsOf vs name = citationsOf ws name := by
  induction h with
  | nil => rfl
  | cons service citation _ ih =>
    rw [citationsOf_cons, citationsOf_cons, service, citation, ih]
  | @swap v w vs service =>
    -- not both of them stand under the name
    simp only [citationsOf_cons]
    by_cases hv : v.service = name
    · have hw : w.service ≠ name := fun hw => service (hv.trans hw.symm)
      rw [if_pos hv, if_neg hw, if_neg hw, if_pos hv]
    · rw [if_neg hv, if_neg hv]
  | trans _ _ ih ih' => exact ih.trans ih'

/-- As many violations are counted under a name as the services have that name. -/
theorem countOf_eq_count (vs : List Violation) (name : Text) :
    countOf vs name = (vs.map (·.service)).count name := by
  rw [countOf, List.count, List.countP_map]
  exact List.countP_congr fun v _ => by simp

end Violation

open Violation (citation citationsOf Retold)

/-- What a report shows of a notice. -/
def Notice.toValue (n : Notice) : Value :=
  .record [("service_name", .text n.service), ("messages", .tuple (n.messages.map .text)),
    ("risk_impact", .word (.impact n.impact))]

/-- A change is reported by its service, the number of violations that it had, and what is cited
of those that it has. -/
theorem Change.notice_congr {c c' : Change} (hservice : c.service = c'.service)
    (hbefore : c.before = c'.before) (hcurrent : c.current.map citation = c'.current.map citation) :
    c.notice = c'.notice := by
  have hafter : c.after = c'.after := by
    have hlength := congrArg List.length hcurrent
    rwa [List.length_map, List.length_map] at hlength
  have himpact : c.impact = c'.impact := by rw [impact, impact, hbefore, hafter]
  have hheadline : c.headline = c'.headline := by simp only [headline, hbefore, hafter]
  -- a label shows no more of a violation than is cited of it
  have hlabels : c.current.map label = c'.current.map label := by
    have hshown := congrArg
      (List.map fun p : Text × Severity => p.1 ++ " (" ++ (p.2.name ++ (")" : Text))) hcurrent
    rwa [List.map_map, List.map_map] at hshown
  have hempty : c.current.isEmpty = c'.current.isEmpty := by
    rw [Bool.eq_iff_iff, List.isEmpty_iff_length_eq_zero, List.isEmpty_iff_length_eq_zero]
    exact iff_of_eq (congrArg (· = 0) hafter)
  rw [notice, notice, hservice, himpact, messages, messages, hheadline, hlabels, hempty]

namespace Drift

/-- What is reported of a service, if anything. -/
def notice? (d : Drift) (name : Text) : Option Notice :=
  d.notices.find? fun n => n.service = name

/-- That two drifts, from some violations to others each, read the same of a name. -/
structure Agree (before after before' after' : List Violation) (name : Text) : Prop where
  count : countOf before name = countOf before' name
  citations : citationsOf after name = citationsOf after' name

variable {old new old' new' : Topology} {before after before' after' : List Violation} {name : Text}

theorem Agree.notice_eq (h : Agree before after before' after' name) :
    (changeOf before after name).notice = (changeOf before' after' name).notice := by
  refine Change.notice_congr rfl ?_ ?_
  · rw [before_changeOf, before_changeOf, h.count]
  · show ((Attribution.ofList after).get name).map citation =
      ((Attribution.ofList after').get name).map citation
    rw [Attribution.get_ofList, Attribution.get_ofList]
    exact h.citations

theorem Agree.isRelevant_eq (h : Agree before after before' after' name) :
    (changeOf before after name).isRelevant = (changeOf before' after' name).isRelevant := by
  have hafter : countOf after name = countOf after' name := by
    have hlength := congrArg List.length h.citations
    rwa [citationsOf, citationsOf, List.length_map, List.length_map, ← List.countP_eq_length_filter,
      ← List.countP_eq_length_filter] at hlength
  rw [Bool.eq_iff_iff, isRelevant_changeOf, isRelevant_changeOf, h.count, hafter]

/-- Under a name of either topology stands the change of that name or nothing. -/
theorem notice?_between (hname : name ∈ names old new) :
    (between old new before after).notice? name =
      if (changeOf before after name).isRelevant then some (changeOf before after name).notice
      else none := by
  rw [notice?, notices, List.find?_map]
  by_cases hrelevant : (changeOf before after name).isRelevant = true
  · have hmem : changeOf before after name ∈ (between old new before after).changes := by
      rw [changes_between]
      exact List.mem_filter.mpr ⟨List.mem_map_of_mem hname, hrelevant⟩
    have hfound : ((between old new before after).changes.find?
        ((fun n => decide (n.service = name)) ∘ Change.notice)).isSome = true :=
      List.find?_isSome.mpr ⟨_, hmem, decide_eq_true (Eq.refl name)⟩
    obtain ⟨c, hc⟩ := Option.isSome_iff_exists.mp hfound
    -- whatever is found is the change of its name
    have hservice : c.notice.service = name := by simpa using List.find?_some hc
    obtain rfl : c = changeOf before after name :=
      hservice ▸ eq_changeOf_of_mem (List.mem_of_find?_eq_some hc)
    rw [hc, if_pos hrelevant, Option.map_some]
  · rw [if_neg hrelevant, Option.map_eq_none_iff, List.find?_eq_none]
    intro c hc hservice
    obtain rfl : c = changeOf before after name :=
      of_decide_eq_true hservice ▸ eq_changeOf_of_mem hc
    rw [changes_between] at hc
    exact hrelevant (List.mem_filter.mp hc).2

theorem notices_between (old new : Topology) (before after : List Violation) :
    (between old new before after).notices =
      ((names old new).filter fun name => (changeOf before after name).isRelevant).map
        fun name => (changeOf before after name).notice := by
  rw [notices, changes_between, List.filter_map, List.map_map]
  rfl

/-- A report of a drift shows the totals and the notices. -/
theorem toValue_congr {d d' : Drift} (hnotices : d.notices = d'.notices)
    (hin : d.introduced = d'.introduced) (hout : d.resolved = d'.resolved) :
    d.toValue = d'.toValue := by
  have hchanges : ∀ d : Drift, d.changes.map Change.toValue = d.notices.map Notice.toValue := by
    intro d
    rw [notices, List.map_map]
    rfl
  rw [toValue, toValue, hchanges, hchanges, hnotices, hin, hout]

/-- Where all names agree, the whole reports do. -/
theorem toValue_between_congr (hnames : names old new = names old' new')
    (h : ∀ name ∈ names old new, Agree before after before' after' name) :
    (between old new before after).toValue = (between old' new' before' after').toValue := by
  have hnotices : (between old new before after).notices =
      (between old' new' before' after').notices := by
    -- the same names are shown, and the same is reported of each
    have hshown : (names old new).filter (fun name => (changeOf before after name).isRelevant) =
        (names old new).filter fun name => (changeOf before' after' name).isRelevant :=
      List.filter_congr fun name hname => (h name hname).isRelevant_eq
    rw [notices_between, notices_between, ← hnames, ← hshown]
    exact List.map_congr_left fun name hname => (h name (List.mem_of_mem_filter hname)).notice_eq
  have hin := (addsUp_between old new before after).introduced_notices
  have hout := (addsUp_between old new before after).resolved_notices
  rw [hnotices] at hin hout
  refine toValue_congr hnotices ?_ ?_
  · rw [hin, ← (addsUp_between old' new' before' after').introduced_notices]
  · rw [hout, ← (addsUp_between old' new' before' after').resolved_notices]

/-- **What a drift depends on.** What is reported of a service depends on how many violations it
had and what is cited of those it has. So a whole report depends on these and the names, and it
is the same when the later violations are told in another way and when the earlier ones are
exchanged for as many of the same services in any order. -/
theorem locality_of_between :
    (∀ (old new old' new' : Topology) (before after before' after' : List Violation) (name : Text),
      name ∈ names old new → name ∈ names old' new' → Agree before after before' after' name →
        (between old new before after).notice? name =
          (between old' new' before' after').notice? name) ∧
    (∀ (old new old' new' : Topology) (before after before' after' : List Violation),
      names old new = names old' new' →
        (∀ name ∈ names old new, Agree before after before' after' name) →
          (between old new before after).toValue = (between old' new' before' after').toValue) ∧
    ∀ (old new : Topology) (before after before' after' : List Violation),
      (before.map (·.service)).Perm (before'.map (·.service)) → Retold after after' →
        (between old new before after).toValue = (between old new before' after').toValue := by
  refine ⟨?_, fun _ _ _ _ _ _ _ _ hnames h => toValue_between_congr hnames h, ?_⟩
  · intro old new old' new' before after before' after' name hname hname' h
    rw [notice?_between hname, notice?_between hname', h.isRelevant_eq, h.notice_eq]
  · intro old new before after before' after' hperm hretold
    refine toValue_between_congr rfl fun name _ => ⟨?_, hretold.citationsOf_eq name⟩
    rw [Violation.countOf_eq_count, Violation.countOf_eq_count, hperm.count_eq]

/-- A database breaks two rules and another service one of them. The violations are told in two
ways, and compared once with those of the same services and once with those of others. -/
theorem locality_of_database :
    let database (rule description : Text) : Violation := ⟨rule, description, "db", .high⟩
    let api : Violation := ⟨"R4_RESOURCE_LIMITS", "", "api", .medium⟩
    let both : Topology := ⟨[unlimitedService "db", unlimitedService "api"], ⟨.yaml, none⟩⟩
    let other : Topology := ⟨[unlimitedService "db"], ⟨.json, some "0"⟩⟩
    let told := [database "R1_NO_PUBLIC_DB" "", api, database "R3_NO_PII_PUBLIC" "public"]
    let retold := [api, database "R1_NO_PUBLIC_DB" "open", database "R3_NO_PII_PUBLIC" ""]
    (between both both [api, database "R1_NO_PUBLIC_DB" ""] told).toValue =
        (between both both [database "R4_RESOURCE_LIMITS" "", api] retold).toValue ∧
      (between both both [api, database "R1_NO_PUBLIC_DB" ""] told).notice? "db" =
          (between other both [database "R4_RESOURCE_LIMITS" ""] retold).notice? "db" ∧
        (between both both [api, database "R1_NO_PUBLIC_DB" ""] told).toValue =
          (between both other [api, database "R1_NO_PUBLIC_DB" ""] told).toValue := by
  intro database api both other told retold
  have hretold : Retold told retold :=
    .trans (.swap _ (by decide)) (.cons rfl rfl (.cons rfl rfl (.cons rfl rfl .nil)))
  refine ⟨?_, ?_, ?_⟩
  · exact locality_of_between.2.2 _ _ _ _ _ _ (by decide) hretold
  · refine locality_of_between.1 _ _ _ _ _ _ _ _ _ (by decide) (by decide) ⟨by decide, ?_⟩
    exact hretold.citationsOf_eq _
  · exact locality_of_between.2.1 _ _ _ _ _ _ _ _ (by decide) fun _ _ => ⟨rfl, rfl⟩

end Drift

end TopologyAudit
