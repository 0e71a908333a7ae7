import TopologyAudit.Proofs.Drift.Accounting
import TopologyAudit.Proofs.Numeral.Integer

/-!
# What the messages of a drift tell

A change is reported by its service, its messages and its impact. The first message is one of
five sentences with the numbers of violations in it. The digits of a sentence give its numbers,
the rest of it tells which sentence it is, and both together give back how many violations
there were and are (`counts?_headline`). So different numbers make different sentences, and the
totals of a drift can be worked out from what is reported of its changes
(`story_of_between`).
-/

namespace TopologyAudit

open CodePoint (isDigit)

/-! ## Numbers within a text -/

namespace Text

/-- A text without its digits. -/
def template (t : Text) : Text := t.filter fun c => !c.isDigit

/-- The numbers that the runs of digits of a text write. -/
def numbers : Text → List Nat
  | [] => []
  | c :: rest =>
    if c.isDigit then
      Integer.value 10 (c :: rest.takeWhile isDigit) :: numbers (rest.dropWhile isDigit)
    else numbers rest
  termination_by t => t.length
  decreasing_by
    · exact Nat.lt_succ_of_le (List.dropWhile_suffix _).length_le
    · exact Nat.lt_succ_self _

variable {t digits rest : Text}

/-- What is no digit is passed over. -/
theorem numbers_append (h : ∀ c ∈ t, c.isDigit = false) : numbers (t ++ rest) = numbers rest := by
  induction t with
  | nil => rfl
  | cons c t ih =>
    obtain ⟨hc, ht⟩ := List.forall_mem_cons.mp h
    rw [List.cons_append, numbers, hc, if_neg Bool.false_ne_true, ih ht]

/-- Digits up to a code point that is none are one number. -/
theorem numbers_digits (h : digits.IsDigits) (hrest : ∀ c ∈ rest.head?, c.isDigit = false) :
    numbers (digits ++ rest) = Integer.value 10 digits :: numbers rest := by
  obtain ⟨c, digits, rfl⟩ := List.exists_cons_of_ne_nil h.ne_nil
  obtain ⟨hc, hdigits⟩ := List.forall_mem_cons.mp h.isDigit
  have htake : rest.takeWhile isDigit = [] ∧ rest.dropWhile isDigit = rest := by
    cases rest with
    | nil => exact ⟨rfl, rfl⟩
    | cons d rest =>
      have hd := Bool.eq_false_iff.mp (hrest d rfl)
      exact ⟨List.takeWhile_cons_of_neg hd, List.dropWhile_cons_of_neg hd⟩
  rw [List.cons_append, numbers, if_pos hc, List.takeWhile_append_of_pos hdigits,
    List.dropWhile_append_of_pos hdigits, htake.1, htake.2, List.append_nil]

theorem numbers_ofNat (n : Nat) (hrest : ∀ c ∈ rest.head?, c.isDigit = false) :
    numbers (ofNat n ++ rest) = n :: numbers rest := by
  rw [numbers_digits (.ofNat n) hrest, ofNat, Integer.value_numeral (by decide) (by decide)]

theorem template_append (t t' : Text) : template (t ++ t') = t.template ++ t'.template :=
  List.filter_append ..

theorem template_ofNat (n : Nat) : template (ofNat n) = [] := by
  refine List.filter_eq_nil_iff.mpr fun c hc => ?_
  rw [(IsDigits.ofNat n).isDigit c hc]
  decide

end Text

/-! ## What is reported of a change -/

/-- A change as it is reported. -/
structure Notice where
  service : Text
  messages : List Text
  impact : Impact
deriving DecidableEq

def Change.notice (c : Change) : Notice := ⟨c.service, c.messages, c.impact⟩

/-- What is reported of the changes of a drift. -/
def Drift.notices (d : Drift) : List Notice := d.changes.map (·.notice)

namespace Notice

/-- The numbers of violations, the earlier one first, that a sentence tells. -/
def counts? (t : Text) : Option (Nat × Nat) :=
  match t.numbers with
  | [n] =>
    if t.template = " new violation(s) introduced" then some (0, n)
    else if t.template = " violation(s) resolved" then some (n, 0)
    else if t.template = "Violations count unchanged ()" then some (n, n)
    else none
  | [before, after] => some (before, after)
  | _ => none

/-- By how much the number of violations rose, as far as the notice tells. -/
def rise (n : Notice) : Nat :=
  match n.impact, n.messages.head?.bind counts? with
  | .increase, some (before, after) => after - before
  | _, _ => 0

/-- By how much the number of violations fell, as far as the notice tells. -/
def fall (n : Notice) : Nat :=
  match n.impact, n.messages.head?.bind counts? with
  | .decrease, some (before, after) => before - after
  | _, _ => 0

end Notice

namespace Change

open Notice (counts?)
open Text (numbers template numbers_append numbers_ofNat template_append template_ofNat)

variable {c : Change}

/-- A sentence that begins with a number. -/
theorem numbers_ofNat_words (words : Text) (n : Nat) (h : ∀ c ∈ words, c.isDigit = false) :
    numbers (Text.ofNat n ++ words) = [n] ∧ template (Text.ofNat n ++ words) = template words := by
  have hends : ∀ c ∈ words.head?, c.isDigit = false := fun c hc => h c (List.mem_of_mem_head? hc)
  have hwords : numbers words = [] := by
    rw [← List.append_nil words, numbers_append h, numbers]
  rw [numbers_ofNat n hends, hwords, template_append, template_ofNat, List.nil_append]
  exact ⟨rfl, rfl⟩

/-- A sentence with a number within it. -/
theorem numbers_words_ofNat (words rest : Text) (n : Nat) (h : ∀ c ∈ words, c.isDigit = false)
    (hrest : ∀ c ∈ rest, c.isDigit = false) :
    numbers (words ++ (Text.ofNat n ++ rest)) = [n] ∧
      template (words ++ (Text.ofNat n ++ rest)) = template (words ++ rest) := by
  obtain ⟨hnumbers, htemplate⟩ := numbers_ofNat_words rest n hrest
  rw [numbers_append h, hnumbers, template_append, htemplate, template_append]
  exact ⟨rfl, rfl⟩

/-- A sentence that leads from one number to another. -/
theorem numbers_words_span {words : Text} (n m : Nat) (h : ∀ c ∈ words, c.isDigit = false) :
    numbers (words ++ Text.ofNat n ++ " to " ++ Text.ofNat m) = [n, m] := by
  have hlast := numbers_ofNat_words [] m nofun
  rw [List.append_nil] at hlast
  rw [List.append_assoc, List.append_assoc, numbers_append h, numbers_ofNat n ?_,
    numbers_append (by decide), hlast.1]
  intro c hc
  cases hc
  decide

/-- **The numbers are read back from the headline**, whichever sentence it is. -/
theorem counts?_headline : counts? c.headline = some (c.before, c.after) := by
  unfold headline
  split_ifs with hbefore hafter hlt hgt
  · obtain ⟨hnumbers, htemplate⟩ :=
      numbers_ofNat_words " new violation(s) introduced" c.after (by decide)
    rw [counts?, hnumbers, htemplate, hbefore]
    rfl
  · obtain ⟨hnumbers, htemplate⟩ :=
      numbers_ofNat_words " violation(s) resolved" c.before (by decide)
    rw [counts?, hnumbers, htemplate, hafter]
    rfl
  · rw [counts?, numbers_words_span c.before c.after (by decide)]
  · rw [counts?, numbers_words_span c.before c.after (by decide)]
  -- one number is told when it is both
  · obtain ⟨hnumbers, htemplate⟩ := numbers_words_ofNat
      "Violations count unchanged (" ")" c.after (by decide) (by decide)
    rw [counts?, hnumbers, htemplate, show c.before = c.after by omega]
    rfl

theorem head?_messages : c.messages.head? = some c.headline := by
  unfold messages
  split_ifs <;> rfl

/-- The violations that a service has, if any, are told in a second message. -/
theorem tail_messages :
    c.messages.tail =
      if c.current = [] then []
      else ["Current violations: " ++ Text.join ", " (c.current.map label)] := by
  unfold messages
  by_cases h : c.current = []
  · rw [if_pos h, if_pos (List.isEmpty_iff.mpr h), List.tail_cons]
  · rw [if_neg h, if_neg (by rwa [List.isEmpty_iff]), List.tail_cons]

theorem impact_eq_increase : c.impact = .increase ↔ c.before < c.after := by
  unfold impact
  split_ifs with hlt hgt <;> simp [hlt]

theorem impact_eq_decrease : c.impact = .decrease ↔ c.after < c.before := by
  unfold impact
  split_ifs with hlt hgt
  · simp [Nat.lt_asymm hlt]
  · simp [hgt]
  · simp [hgt]

theorem impact_eq_neutral : c.impact = .neutral ↔ c.before = c.after := by
  unfold impact
  split_ifs with hlt hgt
  · simp [Nat.ne_of_lt hlt]
  · simp [Nat.ne_of_gt hgt]
  · simp [Nat.le_antisymm (Nat.le_of_not_lt hgt) (Nat.le_of_not_lt hlt)]

/-- That a change tells that its service had a number of violations and has these. -/
structure Tells (c : Change) (n : Nat) (vs : List Violation) : Prop where
  counts : c.messages.head?.bind counts? = some (n, vs.length)
  listing : c.messages.tail =
    if vs = [] then []
    else ["Current violations: " ++ Text.join ", " (vs.map fun v =>
      v.rule ++ " (" ++ (v.severity.name ++ (")" : Text)))]
  increase : c.impact = .increase ↔ n < vs.length
  decrease : c.impact = .decrease ↔ vs.length < n
  neutral : c.impact = .neutral ↔ vs.length = n

theorem tells (c : Change) : c.Tells c.before c.current where
  counts := by
    rw [head?_messages, Option.bind_some, counts?_headline]
    rfl
  listing := tail_messages
  increase := impact_eq_increase
  decrease := impact_eq_decrease
  neutral := impact_eq_neutral.trans eq_comm

/-- What is reported of a change tells by how much the number of violations rose. -/
theorem rise_notice (c : Change) : c.notice.rise = c.introduced := by
  have hcounts := c.tells.counts
  unfold Notice.rise
  cases himpact : c.impact with
  | increase => simp only [notice, himpact, hcounts, introduced, after]
  | decrease =>
    have hlt := impact_eq_decrease.mp himpact
    simp only [notice, himpact, introduced]
    omega
  | neutral =>
    have heq := impact_eq_neutral.mp himpact
    simp only [notice, himpact, introduced]
    omega

theorem fall_notice (c : Change) : c.notice.fall = c.resolved := by
  have hcounts := c.tells.counts
  unfold Notice.fall
  cases himpact : c.impact with
  | increase =>
    have hlt := impact_eq_increase.mp himpact
    simp only [notice, himpact, resolved]
    omega
  | decrease => simp only [notice, himpact, hcounts, resolved, after]
  | neutral =>
    have heq := impact_eq_neutral.mp himpact
    simp only [notice, himpact, resolved]
    omega

end Change

namespace Drift

open Violation (countOf)

/-- That the totals of a drift are those of its changes, taken by their impact, and those of
what is reported of them. -/
structure AddsUp (d : Drift) (before after : List Violation) : Prop where
  introduced : (d.introduced : Int) = ((d.changes.filter fun c => c.impact = .increase).map
    fun c => (countOf after c.service : Int) - countOf before c.service).sum
  resolved : (d.resolved : Int) = ((d.changes.filter fun c => c.impact = .decrease).map
    fun c => (countOf before c.service : Int) - countOf after c.service).sum
  introduced_notices : d.introduced = (d.notices.map (·.rise)).sum
  resolved_notices : d.resolved = (d.notices.map (·.fall)).sum

/-- A total is taken over the changes with an impact, if the others add nothing to it. -/
private theorem cast_sum_eq {f : Change → Nat} {g : Change → Int} {i : Impact} {cs : List Change}
    (hpos : ∀ c ∈ cs, c.impact = i → (f c : Int) = g c) (hneg : ∀ c ∈ cs, c.impact ≠ i → f c = 0) :
    ((cs.map f).sum : Int) = ((cs.filter fun c => c.impact = i).map g).sum := by
  induction cs with
  | nil => rfl
  | cons c cs ih =>
    obtain ⟨hpos, hposs⟩ := List.forall_mem_cons.mp hpos
    obtain ⟨hneg, hnegs⟩ := List.forall_mem_cons.mp hneg
    rw [List.map_cons, List.sum_cons, Nat.cast_add, ih hposs hnegs]
    by_cases hc : c.impact = i
    · rw [List.filter_cons_of_pos (by simpa using hc), List.map_cons, List.sum_cons, hpos hc]
    · rw [List.filter_cons_of_neg (by simpa using hc), hneg hc, Nat.cast_zero, zero_add]

theorem tells_of_mem {old new : Topology} {before after : List Violation} {c : Change}
    (h : c ∈ (between old new before after).changes) :
    c.Tells (countOf before c.service) (after.filter fun v => v.service = c.service) := by
  have hc := eq_changeOf_of_mem h
  have hbefore : c.before = countOf before c.service := by
    rw [hc]
    exact before_changeOf ..
  have hcurrent : c.current = after.filter fun v => v.service = c.service := by
    rw [hc]
    exact Attribution.get_ofList ..
  rw [← hbefore, ← hcurrent]
  exact c.tells

theorem addsUp_between (old new : Topology) (before after : List Violation) :
    (between old new before after).AddsUp before after := by
  have hcounts : ∀ c ∈ (between old new before after).changes,
      c.before = countOf before c.service ∧ c.after = countOf after c.service := by
    intro c hc
    rw [eq_changeOf_of_mem hc]
    exact ⟨before_changeOf .., after_changeOf ..⟩
  refine ⟨?_, ?_, ?_, ?_⟩
  · rw [introduced_eq_sum]
    refine cast_sum_eq (fun c hc himpact => ?_) (fun c _ himpact => ?_)
    · obtain ⟨hbefore, hafter⟩ := hcounts c hc
      have hlt := Change.impact_eq_increase.mp himpact
      rw [Change.introduced, ← hbefore, ← hafter]
      omega
    · rw [ne_eq, Change.impact_eq_increase] at himpact
      exact Nat.sub_eq_zero_of_le (Nat.le_of_not_lt himpact)
  · rw [resolved_eq_sum]
    refine cast_sum_eq (fun c hc himpact => ?_) (fun c _ himpact => ?_)
    · obtain ⟨hbefore, hafter⟩ := hcounts c hc
      have hlt := Change.impact_eq_decrease.mp himpact
      rw [Change.resolved, ← hbefore, ← hafter]
      omega
    · rw [ne_eq, Change.impact_eq_decrease] at himpact
      exact Nat.sub_eq_zero_of_le (Nat.le_of_not_lt himpact)
  · rw [introduced_eq_sum, notices, List.map_map]
    exact congrArg List.sum (List.map_congr_left fun c _ => (c.rise_notice).symm)
  · rw [resolved_eq_sum, notices, List.map_map]
    exact congrArg List.sum (List.map_congr_left fun c _ => (c.fall_notice).symm)

/-- **The messages, the impact and the totals tell the same story.** A first message belongs to
one pair of numbers only. Each change of a drift tells the numbers of violations of its service
and those that it has, and its impact is the one of these numbers. So the totals are those of
the changes by their impact, and they follow from what is reported of the changes alone. -/
theorem story_of_between :
    (∀ c c' : Change, c.messages.head? = c'.messages.head? →
        c.before = c'.before ∧ c.after = c'.after) ∧
      ∀ (old new : Topology) (before after : List Violation),
        (∀ c ∈ (between old new before after).changes,
            c.Tells (countOf before c.service) (after.filter fun v => v.service = c.service)) ∧
          (between old new before after).AddsUp before after := by
  refine ⟨?_, fun old new before after => ⟨fun c hc => tells_of_mem hc, addsUp_between ..⟩⟩
  intro c c' h
  have hcounts := c.tells.counts
  rw [h, c'.tells.counts] at hcounts
  obtain ⟨hbefore, hafter⟩ := Prod.mk.inj (Option.some.inj hcounts)
  exact ⟨hbefore.symm, hafter.symm⟩

/-- A service that has no limits. -/
def unlimitedService (name : Text) : Service := ⟨name, .api, false, false, [], [], none⟩

/-- A violation of that service. -/
def unlimitedViolation (name : Text) : Violation := ⟨"R4_RESOURCE_LIMITS", "", name, .medium⟩

/-- One service comes in with a violation, and another one gets rid of its one. -/
theorem story_of_exchange :
    let arrival : Change := ⟨"b", 0, [unlimitedViolation "b"]⟩
    let old : Topology := ⟨[unlimitedService "a"], ⟨.yaml, none⟩⟩
    let new : Topology := ⟨[unlimitedService "b"], ⟨.json, none⟩⟩
    let drift := between old new [unlimitedViolation "a"] [unlimitedViolation "b"]
    (∀ c ∈ drift.changes, c.service = "a" → c.messages = [("1 violation(s) resolved" : Text)]) ∧
      arrival ∈ drift.changes ∧
        arrival.Tells 0 [unlimitedViolation "b"] ∧
          arrival.messages.head? = (Change.mk "c" 0 [unlimitedViolation "a"]).messages.head? ∧
            arrival.after = (Change.mk "c" 0 [unlimitedViolation "a"]).after ∧
              drift.AddsUp [unlimitedViolation "a"] [unlimitedViolation "b"] := by
  intro arrival old new drift
  have hmem : arrival ∈ drift.changes := by decide
  have hhead : arrival.messages.head? =
      (Change.mk "c" 0 [unlimitedViolation "a"]).messages.head? := by decide
  obtain ⟨htells, hadds⟩ :=
    story_of_between.2 old new [unlimitedViolation "a"] [unlimitedViolation "b"]
  exact ⟨by decide, hmem, htells _ hmem, hhead, (story_of_between.1 _ _ hhead).2, hadds⟩

end Drift

end TopologyAudit
