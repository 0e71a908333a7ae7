import TopologyAudit.Proofs.Audit.Summary
import TopologyAudit.Proofs.CommandLine.Run
import TopologyAudit.Proofs.Drift.Accounting
import TopologyAudit.Proofs.Record.Printing

/-!
# What is printed

The reports for reading are put together from fixed words, numbers, and the names of services
that have or had violations. The words and numbers are graphic: they hold neither surrogates,
which cannot be printed, nor line feeds, which end a line. So whatever else is found in a report
comes from the name of such a service (`Analysis.mem_lines_iff`, `Comparison.mem_lines_iff`).
-/

namespace TopologyAudit

namespace Text

/-- That a text consists of the letters, digits and signs of ASCII and of spaces. -/
def IsGraphic (t : Text) : Prop := ∀ c ∈ t, c.within 0x20 0x7E = true

variable {t t' : Text} {c : CodePoint}

instance (t : Text) : Decidable t.IsGraphic := inferInstanceAs (Decidable (∀ c ∈ t, _))

theorem IsGraphic.notMem (h : t.IsGraphic) (hc : c.within 0x20 0x7E = false) : c ∉ t := by
  intro hmem
  rw [h c hmem] at hc
  cases hc

theorem isGraphic_append : IsGraphic (t ++ t') ↔ t.IsGraphic ∧ t'.IsGraphic :=
  List.forall_mem_append

theorem isGraphic_join {separator : Text} (hseparator : separator.IsGraphic) {ts : List Text}
    (h : ∀ t ∈ ts, t.IsGraphic) : (join separator ts).IsGraphic := by
  intro c hc
  rcases mem_join hc with hc | ⟨t, ht, hc⟩
  · exact hseparator c hc
  · exact h t ht c hc

theorem isGraphic_numeral {base : Nat} (hpos : 0 < base) (hbase : base ≤ 16) (n : Nat) :
    IsGraphic (numeral base n) := by
  have hdigit : ∀ d < 16, (digit d).within 0x20 0x7E = true := by decide
  intro c hc
  obtain ⟨d, hd, rfl⟩ := exists_digit_of_mem_numeral hpos hc
  exact hdigit d (Nat.lt_of_lt_of_le hd hbase)

theorem isGraphic_ofNat (n : Nat) : IsGraphic (ofNat n) :=
  isGraphic_numeral (by decide) (by decide) n

theorem isGraphic_hex (width n : Nat) : IsGraphic (hex width n) := by
  refine isGraphic_append.mpr ⟨fun c hc => ?_, isGraphic_numeral (by decide) (by decide) n⟩
  rw [List.eq_of_mem_replicate hc]
  decide

end Text

open Text (IsGraphic isGraphic_append isGraphic_ofNat)

theorem isGraphic_fingerprint (t : Text) : (fingerprint t).IsGraphic := by
  intro c hc
  obtain ⟨word, -, hword⟩ := List.mem_flatMap.mp (List.mem_of_mem_take hc)
  exact Text.isGraphic_hex _ _ c hword

theorem Topology.isGraphic_fingerprintText {order : SetOrder} {format : Value} {text : Text}
    {t : Topology} (h : Topology.parse order format text = .ok (.success t)) :
    t.fingerprintText.IsGraphic := by
  obtain ⟨f, -, -, hmetadata⟩ := Topology.exists_check_of_parse h
  rw [fingerprintText, hmetadata]
  exact isGraphic_fingerprint text

/-! ## Reports for reading -/

variable {c : CodePoint}

namespace Hazard

theorem isGraphic_id (h : Hazard) : h.id.IsGraphic := by cases h <;> decide

theorem isGraphic_description (h : Hazard) : h.rule.description.IsGraphic := by
  cases h <;> decide +kernel

end Hazard

theorem Severity.isGraphic_name (g : Severity) : g.name.IsGraphic := by cases g <;> decide

theorem Severity.isGraphic_upper_name (g : Severity) : (Text.upper g.name).IsGraphic := by
  cases g <;> decide

theorem Impact.isGraphic_name (i : Impact) : i.name.IsGraphic := by cases i <;> decide

/-- Within the line of a violation only the name of the service is free. -/
theorem Violation.mem_line_iff {t : Topology} {v : Violation} (hv : v ∈ t.audit)
    (hc : c.within 0x20 0x7E = false) : c ∈ v.line ↔ c ∈ v.service := by
  obtain ⟨s, -, h, -, rfl⟩ := Topology.mem_audit.mp hv
  have hwords : ∀ words : Text, words.IsGraphic → (c ∈ words ↔ False) :=
    fun words hwords => iff_false_intro (hwords.notMem hc)
  simp only [line, Hazard.violation, List.mem_append, hwords _ h.isGraphic_id,
    hwords _ h.isGraphic_description, hwords _ h.severity.isGraphic_upper_name,
    hwords "  [" (by decide), hwords "] " (by decide), hwords " @ " (by decide),
    hwords " -> " (by decide), false_or, or_false]

theorem Analysis.isGraphic_countLine (vs : List Violation) : (countLine vs).IsGraphic := by
  simp only [countLine, isGraphic_append, isGraphic_ofNat, and_true]
  decide

/-- The report of an analysis: three lines at the head, and what was found. -/
theorem Analysis.lines_ofTopology (t : Topology) :
    (ofTopology t).lines =
      ["Config hash: " ++ t.fingerprintText, "Services: " ++ Text.ofNat t.services.length, []] ++
        if t.audit = [] then [("No invariant violations found." : Text)]
        else countLine t.audit :: t.audit.map Violation.line := by
  rw [lines, ofTopology]
  simp only [List.isEmpty_iff]

/-- What is not graphic in the report of an analysis stands in the name of a service that has a
violation. -/
theorem Analysis.mem_lines_iff {t : Topology} (ht : t.fingerprintText.IsGraphic)
    (hc : c.within 0x20 0x7E = false) :
    (∃ l ∈ (ofTopology t).lines, c ∈ l) ↔ ∃ v ∈ t.audit, c ∈ v.service := by
  have hhash : c ∉ ("Config hash: " : Text) ++ t.fingerprintText :=
    IsGraphic.notMem (isGraphic_append.mpr ⟨by decide, ht⟩) hc
  have hservices : c ∉ ("Services: " : Text) ++ Text.ofNat t.services.length :=
    IsGraphic.notMem (isGraphic_append.mpr ⟨by decide, isGraphic_ofNat _⟩) hc
  have hclean : c ∉ ("No invariant violations found." : Text) := IsGraphic.notMem (by decide) hc
  have hcount : c ∉ countLine t.audit := (isGraphic_countLine _).notMem hc
  have hviolations : (∃ l ∈ t.audit.map Violation.line, c ∈ l) ↔ ∃ v ∈ t.audit, c ∈ v.service := by
    simp only [List.mem_map, exists_exists_and_eq_and]
    exact exists_congr fun v => and_congr_right fun hv => Violation.mem_line_iff hv hc
  simp only [lines_ofTopology, List.cons_append, List.nil_append, List.exists_mem_cons_iff,
    hhash, hservices, List.not_mem_nil, false_or]
  by_cases hempty : t.audit = []
  · simp [hempty, hclean]
  · rw [if_neg hempty, List.exists_mem_cons_iff, or_iff_right hcount]
    exact hviolations

/-! ## Comparisons for reading -/

namespace Change

variable {ch : Change}

theorem isGraphic_headline (ch : Change) : ch.headline.IsGraphic := by
  unfold headline
  repeat' split
  all_goals
    simp only [isGraphic_append, isGraphic_ofNat, true_and, and_true]
    decide

theorem isGraphic_messages (h : ∀ v ∈ ch.current, v.rule.IsGraphic) :
    ∀ m ∈ ch.messages, m.IsGraphic := by
  have hlabel : ∀ l ∈ ch.current.map label, l.IsGraphic := by
    rw [List.forall_mem_map]
    intro v hv
    simp only [label, isGraphic_append, h v hv, v.severity.isGraphic_name, true_and]
    decide
  have hcurrent : IsGraphic ("Current violations: " ++ Text.join ", " (ch.current.map label)) :=
    isGraphic_append.mpr ⟨by decide, Text.isGraphic_join (by decide) hlabel⟩
  rw [messages]
  split
  next => exact List.forall_mem_singleton.mpr ch.isGraphic_headline
  next => 
    exact List.forall_mem_cons.mpr
      ⟨ch.isGraphic_headline, List.forall_mem_singleton.mpr hcurrent⟩

theorem mem_lines_iff (h : ∀ v ∈ ch.current, v.rule.IsGraphic)
    (hc : c.within 0x20 0x7E = false) : (∃ l ∈ ch.lines, c ∈ l) ↔ c ∈ ch.service := by
  have himpact : c ∉ ch.impact.name ++ ("]" : Text) :=
    IsGraphic.notMem (isGraphic_append.mpr ⟨ch.impact.isGraphic_name, by decide⟩) hc
  have hbracket : c ∉ (" [" : Text) := IsGraphic.notMem (by decide) hc
  have hservice : c ∈ ch.service ++ (" [" : Text) ++ (ch.impact.name ++ ("]" : Text)) ↔
      c ∈ ch.service := by
    rw [List.mem_append, or_iff_left himpact, List.mem_append, or_iff_left hbracket]
  have hmessages : ¬∃ l ∈ ch.messages.map fun message : Text => ("  - " : Text) ++ message,
      c ∈ l := by
    simp only [List.mem_map, exists_exists_and_eq_and]
    rintro ⟨m, hm, hmem⟩
    exact IsGraphic.notMem (isGraphic_append.mpr ⟨by decide, isGraphic_messages h m hm⟩) hc hmem
  rw [lines, List.exists_mem_cons_iff, or_iff_right List.not_mem_nil, List.exists_mem_cons_iff,
    or_iff_left hmessages, hservice]

end Change

/-- A drift between two audits lists the services that have violations or had some. -/
theorem Drift.mem_services_audits {s t : Topology} {name : Text} :
    name ∈ (between s t s.audit t.audit).changes.map (·.service) ↔
      ∃ v ∈ s.audit ++ t.audit, v.service = name := by
  rw [services_between, List.mem_filter, mem_names, isRelevant_changeOf, countOf_ne_zero,
    countOf_ne_zero]
  have hnames : (∃ v ∈ s.audit, v.service = name) ∨ (∃ v ∈ t.audit, v.service = name) →
      name ∈ s.names ∨ name ∈ t.names := by
    rintro (⟨v, hv, rfl⟩ | ⟨v, hv, rfl⟩)
    · exact .inl (Topology.service_mem_names hv)
    · exact .inr (Topology.service_mem_names hv)
  rw [and_iff_right_iff_imp.mpr hnames]
  simp only [List.mem_append, or_and_right, exists_or]

/-- What is not graphic in the report of a comparison stands in the name of a service that has or
had a violation. -/
theorem Comparison.mem_lines_iff {s t : Topology} (hs : s.fingerprintText.IsGraphic)
    (ht : t.fingerprintText.IsGraphic) (hc : c.within 0x20 0x7E = false) :
    (∃ l ∈ (ofTopologies s t).lines, c ∈ l) ↔
      ∃ v ∈ s.audit ++ t.audit, c ∈ v.service := by
  have hhashes : c ∉ ("Old hash: " : Text) ++ s.fingerprintText ++ ("  New hash: " : Text) ++
      t.fingerprintText := by
    refine IsGraphic.notMem ?_ hc
    simp only [isGraphic_append, hs, ht, and_true]
    decide
  have htotal : ∀ (words : Text) (n : Nat), words.IsGraphic → c ∉ words ++ Text.ofNat n :=
    fun words n hwords =>
      IsGraphic.notMem (isGraphic_append.mpr ⟨hwords, isGraphic_ofNat n⟩) hc
  have hchange : ∀ ch ∈ (Drift.between s t s.audit t.audit).changes,
      (∃ l ∈ ch.lines, c ∈ l) ↔ c ∈ ch.service := by
    intro ch hch
    refine Change.mem_lines_iff ?_ hc
    rw [Drift.eq_changeOf_of_mem hch]
    intro v hv
    have hv : v ∈ (Attribution.ofList t.audit).get ch.service := hv
    rw [Attribution.get_ofList] at hv
    obtain ⟨_, -, h, -, rfl⟩ := Topology.mem_audit.mp (List.mem_of_mem_filter hv)
    exact h.isGraphic_id
  simp only [lines, ofTopologies, List.cons_append, List.nil_append,
    List.exists_mem_cons_iff, hhashes, htotal "New violations: " _ (by decide),
    htotal "Resolved violations: " _ (by decide), false_or, List.mem_flatMap]
  constructor
  · rintro ⟨l, ⟨ch, hch, hl⟩, hmem⟩
    have hservice : c ∈ ch.service := (hchange ch hch).mp ⟨l, hl, hmem⟩
    obtain ⟨v, hv, heq⟩ := Drift.mem_services_audits.mp (List.mem_map_of_mem hch)
    exact ⟨v, hv, heq ▸ hservice⟩
  · rintro ⟨v, hv, hmem⟩
    obtain ⟨ch, hch, heq⟩ := List.mem_map.mp (Drift.mem_services_audits.mpr ⟨v, hv, rfl⟩)
    obtain ⟨l, hl, hmem⟩ := (hchange ch hch).mpr (heq ▸ hmem)
    exact ⟨l, ⟨ch, hch, hl⟩, hmem⟩

/-! ## What can be printed -/

/-- That the line of a violation can be printed. -/
def Violation.IsPrintable (v : Violation) : Prop := ∀ c ∈ v.service, c.isSurrogate = false

instance (v : Violation) : Decidable v.IsPrintable := inferInstanceAs (Decidable (∀ c ∈ _, _))

namespace CommandLine

open Json (Style render)

theorem joinLines_cons (l : Text) (ls : List Text) :
    joinLines (l :: ls) = l ++ CodePoint.ofChar '\n' :: joinLines ls := by
  rw [joinLines, joinLines, List.flatMap_cons, List.append_assoc]
  rfl

/-- Lines are printed when none of them has a surrogate. -/
theorem printable_eq_ok {ls : List Text} {t : Text} :
    printable ls = .ok t ↔ (∀ l ∈ ls, ∀ c ∈ l, c.isSurrogate = false) ∧ t = joinLines ls := by
  induction ls generalizing t with
  | nil =>
    exact ⟨fun h => ⟨List.forall_mem_nil _, (Except.ok.inj h).symm⟩, fun h => by rw [h.2]; rfl⟩
  | cons l rest ih =>
    rw [printable, List.forall_mem_cons, ← utf8_refusal?_eq_none]
    cases Charset.utf8.refusal? l with
    | some e =>
      refine ⟨fun h => ?_, fun h => absurd h.1.1 (Option.some_ne_none e)⟩
      cases h
    | none =>
      simp only [Outcome.map_eq_ok, ih, true_and, joinLines_cons]
      constructor
      · rintro ⟨after, ⟨hrest, rfl⟩, rfl⟩
        exact ⟨hrest, rfl⟩
      · rintro ⟨hrest, rfl⟩
        exact ⟨_, ⟨hrest, rfl⟩, rfl⟩

/-- Texts have no surrogates when no surrogate is in one of them. -/
private theorem no_surrogates_iff {α : Type} (text : α → Text) (as : List α) :
    (∀ a ∈ as, ∀ c ∈ text a, c.isSurrogate = false) ↔
      ∀ c : CodePoint, c.isSurrogate = true → ¬∃ a ∈ as, c ∈ text a := by
  constructor
  · rintro h c hc ⟨a, ha, hmem⟩
    rw [h a ha c hmem] at hc
    cases hc
  · intro h a ha c hmem
    exact Bool.eq_false_iff.mpr fun hc => h c hc ⟨a, ha, hmem⟩

/-- Lines that have what is not graphic from the names of violations are printed when the
violations can be. -/
private theorem exists_printable_iff_of_names {ls : List Text} {vs : List Violation}
    (h : ∀ c : CodePoint, c.within 0x20 0x7E = false →
      ((∃ l ∈ ls, c ∈ l) ↔ ∃ v ∈ vs, c ∈ v.service)) :
    (∃ t, printable ls = .ok t) ↔ ∀ v ∈ vs, v.IsPrintable := by
  have hsurrogate : ∀ c : CodePoint, c.isSurrogate = true → c.within 0x20 0x7E = false := by
    intro c hc
    have hlow : 0xD800 ≤ c.val := of_decide_eq_true (Bool.and_eq_true_iff.mp hc).1
    exact Bool.and_eq_false_iff.mpr (.inr (decide_eq_false (by omega)))
  simp only [printable_eq_ok, exists_and_left, exists_eq, and_true]
  refine (no_surrogates_iff (fun l => l) ls).trans (.trans ?_ (no_surrogates_iff _ vs).symm)
  exact forall₂_congr fun c hc => not_congr (h c (hsurrogate c hc))

/-- The report of an analysis can be printed when its violations can be. -/
theorem exists_printable_analysis_iff {t : Topology} (ht : t.fingerprintText.IsGraphic) :
    (∃ x, printable (Analysis.ofTopology t).lines = .ok x) ↔ ∀ v ∈ t.audit, v.IsPrintable :=
  exists_printable_iff_of_names fun _ => Analysis.mem_lines_iff ht

/-- The report of a comparison can be printed when the violations of both sides can be. -/
theorem exists_printable_comparison_iff {s t : Topology} (hs : s.fingerprintText.IsGraphic)
    (ht : t.fingerprintText.IsGraphic) :
    (∃ x, printable (Comparison.ofTopologies s t).lines = .ok x) ↔
      ∀ v ∈ s.audit ++ t.audit, v.IsPrintable :=
  exists_printable_iff_of_names fun _ => Comparison.mem_lines_iff hs ht

/-- A report is printed in JSON when it can be written. -/
theorem jsonText_eq_ok {report : Json} {t : Text} :
    jsonText report = .ok t ↔
      report.IsWritable Style.readable ∧ t = render Style.readable report ++ "\n" := by
  by_cases h : report.IsWritable Style.readable
  · rw [jsonText_of_isWritable h, Except.ok.injEq, eq_comm]
    exact (and_iff_right h).symm
  · obtain ⟨e, he⟩ := Json.print_of_not_isWritable h
    simp [jsonText, he, h]

end CommandLine

end TopologyAudit
