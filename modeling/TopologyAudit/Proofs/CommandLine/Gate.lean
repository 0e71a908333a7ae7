import TopologyAudit.Proofs.Audit.Summary
import TopologyAudit.Proofs.CommandLine.Inspection

/-!
# The exit code is the gate

A run for an analysis fails when its file cannot be read, when the text is no config, and when
the gate trips. The gate looks for a violation from some severity on, and the summary counts
the violations by severity; both tell the same (`Analysis.trips_iff`). So the exit code hangs on
the file, the format and the gate alone, in both layouts (`gate_of_returns`). A higher gate is
harder to trip, and as no rule is of low severity, the two lower gates are one.
-/

namespace TopologyAudit

namespace Analysis

variable {a : Analysis} {g g' : Severity}

/-- The gate trips when the summary counts a violation at or above it. -/
theorem trips_iff :
    a.trips g = true ↔
      ∃ s : Severity, g.rank ≤ s.rank ∧ (Summary.ofViolations a.violations).count s ≠ 0 := by
  have hcount : ∀ s, (Summary.ofViolations a.violations).count s ≠ 0 ↔
      ∃ v ∈ a.violations, v.severity = s := by
    intro s
    rw [Summary.count_ofViolations, Nat.ne_zero_iff_zero_lt, List.countP_pos_iff]
    simp only [decide_eq_true_eq]
  rw [trips, List.any_eq_true]
  simp only [hcount, decide_eq_true_eq]
  constructor
  · rintro ⟨v, hv, hrank⟩
    exact ⟨v.severity, hrank, v, hv, rfl⟩
  · rintro ⟨s, hrank, v, hv, rfl⟩
    exact ⟨v, hv, hrank⟩

/-- A gate that trips would trip if it were lower. -/
theorem trips_of_rank_le (h : g.rank ≤ g'.rank) (ht : a.trips g' = true) : a.trips g = true := by
  obtain ⟨s, hrank, hs⟩ := trips_iff.mp ht
  exact trips_iff.mpr ⟨s, h.trans hrank, hs⟩

/-- No audit has violations between the two lower gates. -/
theorem trips_low_ofTopology (t : Topology) :
    (ofTopology t).trips .low = (ofTopology t).trips .medium := by
  rw [Bool.eq_iff_iff]
  refine ⟨fun ht => ?_, trips_of_rank_le (by decide)⟩
  obtain ⟨s, -, hs⟩ := trips_iff.mp ht
  refine trips_iff.mpr ⟨s, ?_, hs⟩
  cases s with
  | low => exact absurd (Topology.isSummedUpBy_audit t).low hs
  | medium => exact Nat.le_refl _
  | high => decide

end Analysis

namespace CommandLine

variable {w : Surroundings} {threshold : LogLevel} {format : Option Text} {file : Text}

/-- The exit code for what the parser came to: a failure, or what the gate says. -/
def exitCode (x : ParseResult) (gate : Option Severity) : Nat :=
  match x.value with
  | some t => if gate.any (Analysis.ofTopology t).trips then 1 else 0
  | none => 1

/-- What the parser came to decides the exit code, and the gate decides nothing else. -/
theorem analysisOutcome_exit {p : Path} {gate : Option Severity} {json : Bool} {o : Outcome}
    {x : ParseResult} (hx : w.Parses format file x)
    (h : analysisOutcome threshold p gate json (Analysis.ofParsed x) = .ok o)
    (gate' : Option Severity) :
    analysisOutcome threshold p gate' json (Analysis.ofParsed x) =
      .ok { o with exit := exitCode x gate' } := by
  rcases hx.cases with ⟨t, rfl⟩ | ⟨e, rfl⟩
  · obtain ⟨hstdout, hstderr, -⟩ := analysisOutcome_success.mp h
    exact analysisOutcome_success.mpr ⟨hstdout, hstderr, rfl⟩
  · obtain ⟨hstdout, hstderr, -⟩ := analysisOutcome_failure.mp h
    exact analysisOutcome_failure.mpr ⟨hstdout, hstderr, rfl⟩

/-- That exit codes, one for each gate and one without a gate, are those of the severities that
are found in a file. -/
structure Surroundings.IsGate (w : Surroundings) (format : Option Text) (file : Text)
    (exit : Option Severity → Nat) : Prop where
  binary : ∀ gate, exit gate = 0 ∨ exit gate = 1
  ungated : exit none = 0 ↔ ∃ t, w.Parses format file (.success t)
  gated : ∀ g, exit (some g) = 1 ↔
    (∃ m, w.Misses file m) ∨ (∃ e, w.Parses format file (.failure [e])) ∨
      ∃ t, w.Parses format file (.success t) ∧
        ∃ s : Severity, g.rank ≤ s.rank ∧ (Summary.ofViolations t.audit).count s ≠ 0
  mono : ∀ g g' : Severity, g.rank ≤ g'.rank → exit (some g') = 1 → exit (some g) = 1
  low_eq_medium : exit (some .low) = exit (some .medium)

/-- A file that cannot be read fails at every gate. -/
theorem isGate_of_misses {m : Text} (h : w.Misses file m) : w.IsGate format file fun _ => 1 := by
  refine ⟨fun _ => .inr rfl, iff_of_false Nat.one_ne_zero ?_, ?_, fun _ _ _ _ => rfl, rfl⟩
  · rintro ⟨t, ht⟩
    exact absurd ht h.not_parses
  · exact fun _ => ⟨fun _ => .inl ⟨m, h⟩, fun _ => rfl⟩

theorem isGate_of_parses {x : ParseResult} (h : w.Parses format file x) :
    w.IsGate format file (exitCode x) := by
  have hread : ¬∃ m, w.Misses file m := by
    rintro ⟨m, hm⟩
    exact hm.not_parses h
  rcases h.cases with ⟨t, rfl⟩ | ⟨e, rfl⟩
  · have hexit : ∀ g, exitCode (.success t) (some g) = 1 ↔
        (Analysis.ofTopology t).trips g = true := by
      intro g
      simp [exitCode, Result.success]
    refine ⟨?_, ⟨fun _ => ⟨t, h⟩, fun _ => rfl⟩, ?_, ?_, ?_⟩
    · intro gate
      unfold exitCode
      split <;> simp
    · intro g
      rw [hexit, Analysis.trips_iff]
      constructor
      · exact fun hcount => .inr (.inr ⟨t, h, hcount⟩)
      · rintro (hm | ⟨e, he⟩ | ⟨t', ht', hcount⟩)
        · exact absurd hm hread
        · exact absurd (h.eq he) (Result.success_ne_failure _ _)
        · obtain rfl := Result.success_inj.mp (h.eq ht')
          exact hcount
    · intro g g' hrank htrips
      exact (hexit g).mpr (Analysis.trips_of_rank_le hrank ((hexit g').mp htrips))
    · simp [exitCode, Result.success, Analysis.trips_low_ofTopology]
  · refine ⟨fun _ => .inr rfl, iff_of_false Nat.one_ne_zero ?_, ?_, fun _ _ _ _ => rfl, rfl⟩
    · rintro ⟨t, ht⟩
      exact absurd (ht.eq h) (Result.success_ne_failure _ _)
    · exact fun _ => ⟨fun _ => .inr (.inl ⟨e, h⟩), fun _ => rfl⟩

/-- **The exit code of an analysis.** Where a run returns in both layouts, it does so whatever
the gate is, and the exit code is one for both layouts. Without a gate it is zero exactly when
the file can be read and its text is a config; with a gate it is one exactly when that is not so
or the summary counts a violation at or above the gate. It is monotone in the gate, and the two
lower gates are one. -/
theorem gate_of_returns {gate : Option Severity}
    (h : ∀ json, ∃ o, runCommand w threshold (.analyze (some file) format gate json) = .ok o) :
    ∃ exit, w.IsGate format file exit ∧ ∀ gate json, ∃ o,
      runCommand w threshold (.analyze (some file) format gate json) = .ok o ∧
        o.exit = exit gate := by
  obtain ⟨o, ho⟩ := h true
  rcases runCommand_analyze_eq_ok.mp ho with ⟨m, hm, -⟩ | ⟨x, hx, -⟩
  · refine ⟨fun _ => 1, isGate_of_misses hm, fun gate json => ?_⟩
    exact ⟨_, runCommand_analyze_eq_ok.mpr (.inl ⟨m, hm, rfl⟩), rfl⟩
  · refine ⟨exitCode x, isGate_of_parses hx, fun gate' json => ?_⟩
    obtain ⟨o, ho⟩ := h json
    rcases runCommand_analyze_eq_ok.mp ho with ⟨m, hm, -⟩ | ⟨y, hy, houtcome⟩
    · exact absurd hx hm.not_parses
    · obtain rfl := hx.eq hy
      exact ⟨_, runCommand_analyze_eq_ok.mpr
        (.inr ⟨x, hx, analysisOutcome_exit hx houtcome gate'⟩), rfl⟩

/-- A run beside a service that has no limits, and is fine otherwise. -/
def besideUnlimited : Surroundings :=
  .beside [("a.yaml", Utf8.encode "services:\n- name: a\n  type: api\n")]

/-- The violation is of medium severity: it trips the two lower gates and no other. -/
theorem gate_of_unlimited_service :
    ∃ exit, besideUnlimited.IsGate none "a.yaml" exit ∧
      exit none = 0 ∧ exit (some .high) = 0 ∧ exit (some .medium) = 1 ∧ exit (some .low) = 1 := by
  have hcode : ∀ gate ∈ [none, some Severity.high, some .medium, some .low], ∀ json,
      (runCommand besideUnlimited .info (.analyze (some "a.yaml") none gate json)).map (·.exit) =
        .ok (if gate = some .medium ∨ gate = some .low then 1 else 0) := by
    decide +kernel
  have hreturns : ∀ json, ∃ o,
      runCommand besideUnlimited .info (.analyze (some "a.yaml") none none json) = .ok o := by
    intro json
    obtain ⟨o, ho, -⟩ := Outcome.map_eq_ok.mp (hcode none (by decide) json)
    exact ⟨o, ho⟩
  obtain ⟨exit, hgate, hexit⟩ := gate_of_returns hreturns
  have hvalue : ∀ gate ∈ [none, some Severity.high, some .medium, some .low],
      exit gate = if gate = some .medium ∨ gate = some .low then 1 else 0 := by
    intro gate hmem
    obtain ⟨o, ho, hexit⟩ := hexit gate false
    have hcode := hcode gate hmem false
    rw [ho] at hcode
    rw [← hexit]
    exact Except.ok.inj hcode
  exact ⟨exit, hgate, hvalue _ (by decide), hvalue _ (by decide), hvalue _ (by decide),
    hvalue _ (by decide)⟩

end CommandLine

end TopologyAudit
