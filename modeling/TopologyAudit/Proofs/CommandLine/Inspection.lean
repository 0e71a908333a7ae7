import TopologyAudit.CommandLine.Run
import TopologyAudit.Proofs.Report.Comparison

/-!
# What a run makes of its files

A file that a command names cannot be read, or its text is no config, or it holds a topology.
A run that does not break off comes to one of these for each of its files, and they decide what
it prints and how it ends (`runCommand_analyze_eq_ok`, `runCommand_diff_eq_ok`).
-/

namespace TopologyAudit.CommandLine

variable {w : Surroundings} {threshold : LogLevel} {format : Option Text} {file : Text}

/-- That a file cannot be read, as a message says. -/
def Surroundings.Misses (w : Surroundings) (file message : Text) : Prop :=
  readConfig w (Path.ofText file) = .ok (.error message)

/-- That the parser comes to a result on the text that a file holds. -/
def Surroundings.Parses (w : Surroundings) (format : Option Text) (file : Text)
    (result : ParseResult) : Prop :=
  ∃ t, readConfig w (Path.ofText file) = .ok (.ok t) ∧
    Topology.parse w.order (formatOf w format (Path.ofText file)) t = .ok result

theorem Surroundings.Misses.eq {m m' : Text} (h : w.Misses file m) (h' : w.Misses file m') :
    m = m' :=
  Except.error.inj (Except.ok.inj (h.symm.trans h'))

theorem Surroundings.Misses.not_parses {m : Text} {x : ParseResult}
    (h : w.Misses file m) : ¬w.Parses format file x := by
  rintro ⟨t, ht, -⟩
  exact nomatch Except.ok.inj (h.symm.trans ht)

theorem Surroundings.Parses.eq {x y : ParseResult} (hx : w.Parses format file x)
    (hy : w.Parses format file y) : x = y := by
  obtain ⟨s, hs, hx⟩ := hx
  obtain ⟨t, ht, hy⟩ := hy
  obtain rfl : s = t := Except.ok.inj (Except.ok.inj (hs.symm.trans ht))
  exact Except.ok.inj (hx.symm.trans hy)

/-- The parser comes to a topology, or to one error. -/
theorem Surroundings.Parses.cases {x : ParseResult} (h : w.Parses format file x) :
    (∃ t, x = .success t) ∨ ∃ e, x = .failure [e] := by
  obtain ⟨t, -, hx⟩ := h
  exact Topology.parse_cases hx

theorem unlessBroken_eq_ok {α : Type} {x : Except Breakdown α} {a : α} :
    unlessBroken x = .ok a ↔ x = .ok a := by
  cases x <;> simp [unlessBroken]

/-! ## Outcomes -/

section

variable {p : Path} {gate : Option Severity} {json : Bool} {o : Outcome}

/-- An outcome that is made of what is printed is there when that can be printed. -/
private theorem bind_outcome_eq_ok {x : Except Crash Text} {stderr : Text} {exit : Nat} :
    (x >>= fun stdout => .ok ⟨stdout, stderr, exit⟩) = .ok o ↔
      x = .ok o.stdout ∧ o.stderr = stderr ∧ o.exit = exit := by
  rw [Outcome.bind_eq_ok]
  constructor
  · rintro ⟨stdout, hx, h⟩
    obtain rfl := Except.ok.inj h
    exact ⟨hx, rfl, rfl⟩
  · rintro ⟨hx, rfl, rfl⟩
    exact ⟨o.stdout, hx, rfl⟩

theorem analysisOutcome_success {a : Analysis} :
    analysisOutcome threshold p gate json (.success a) = .ok o ↔
      (if json then jsonText (Analysis.toJson (.success a)) else printable a.lines) =
          .ok o.stdout ∧
        o.stderr = [] ∧ o.exit = if gate.any a.trips then 1 else 0 := by
  cases json <;> exact bind_outcome_eq_ok

theorem analysisOutcome_failure {errors : List Text} :
    analysisOutcome threshold p gate json (.failure errors) = .ok o ↔
      (if json then jsonText (Analysis.toJson (.failure errors)) else .ok []) = .ok o.stdout ∧
        o.stderr = diagnostic (joinLines ((if json then [] else Report.errorLines errors) ++
          failureLine threshold p)) ∧
        o.exit = 1 := by
  cases json <;> exact bind_outcome_eq_ok

theorem comparisonOutcome_success {c : Comparison} :
    comparisonOutcome json (.success c) = .ok o ↔
      (if json then jsonText (Comparison.toJson (.success c)) else printable c.lines) =
          .ok o.stdout ∧
        o.stderr = [] ∧ o.exit = 0 := by
  cases json <;> exact bind_outcome_eq_ok

theorem comparisonOutcome_failure {errors : List Text} :
    comparisonOutcome json (.failure errors) = .ok o ↔
      (if json then jsonText (Comparison.toJson (.failure errors)) else .ok []) = .ok o.stdout ∧
        o.stderr = (if json then [] else diagnostic (joinLines (Report.errorLines errors))) ∧
        o.exit = 1 := by
  cases json <;> exact bind_outcome_eq_ok

end

/-! ## Runs -/

/-- A run for an analysis returns when the file cannot be read, and it returns when the parser
does and what there is to print can be printed. -/
theorem runCommand_analyze_eq_ok {gate : Option Severity} {json : Bool} {o : Outcome} :
    runCommand w threshold (.analyze (some file) format gate json) = .ok o ↔
      (∃ m, w.Misses file m ∧ o = ⟨[], diagnostic (joinLines [m]), 1⟩) ∨
        ∃ x, w.Parses format file x ∧ analysisOutcome threshold (Path.ofText file) gate json
          (Analysis.ofParsed x) = .ok o := by
  simp only [runCommand, pathOf, Outcome.ok_bind, Outcome.bind_eq_ok]
  constructor
  · rintro ⟨m | t, hread, h⟩
    · exact .inl ⟨m, hread, (Except.ok.inj h).symm⟩
    · obtain ⟨report, hrun, h⟩ := Outcome.bind_eq_ok.mp h
      obtain ⟨x, hx, rfl⟩ := Analysis.run_eq_ok_iff.mp (unlessBroken_eq_ok.mp hrun)
      exact .inr ⟨x, ⟨t, hread, hx⟩, h⟩
  · rintro (⟨m, hread, rfl⟩ | ⟨x, ⟨t, hread, hx⟩, h⟩)
    · exact ⟨_, hread, rfl⟩
    · refine ⟨_, hread, ?_⟩
      show (unlessBroken _ >>= _) = _
      rw [Analysis.run_of_parsed hx]
      exact h

/-- A comparison has nothing to say against a file that could be read. -/
theorem readError_eq_nil_iff {r : Except Text Text} : readError r = [] ↔ ∃ t, r = .ok t := by
  cases r <;> simp [readError]

/-- A run for a comparison returns when one of the files cannot be read, and it returns when the
parser does on both and what there is to print can be printed. -/
theorem runCommand_diff_eq_ok {old new : Text} {json : Bool} {o : Outcome} :
    runCommand w threshold (.diff (some old) (some new) format json) = .ok o ↔
      (∃ r s, readConfig w (Path.ofText old) = .ok r ∧ readConfig w (Path.ofText new) = .ok s ∧
        readError r ++ readError s ≠ [] ∧
          o = ⟨[], diagnostic (joinLines (readError r ++ readError s)), 1⟩) ∨
        ∃ x y, w.Parses format old x ∧ w.Parses format new y ∧
          comparisonOutcome json (Comparison.ofParsed x y) = .ok o := by
  simp only [runCommand, pathOf, Outcome.ok_bind, Outcome.bind_eq_ok]
  constructor
  · rintro ⟨r, hr, s, hs, h⟩
    rcases r with m | t <;> rcases s with n | u
    · exact .inl ⟨_, _, hr, hs, List.cons_ne_nil _ _, (Except.ok.inj h).symm⟩
    · exact .inl ⟨_, _, hr, hs, List.cons_ne_nil _ _, (Except.ok.inj h).symm⟩
    · exact .inl ⟨_, _, hr, hs, List.cons_ne_nil _ _, (Except.ok.inj h).symm⟩
    · obtain ⟨report, hrun, h⟩ := Outcome.bind_eq_ok.mp h
      obtain ⟨x, y, hx, hy, rfl⟩ := Comparison.exists_of_run (unlessBroken_eq_ok.mp hrun)
      exact .inr ⟨x, y, ⟨t, hr, hx⟩, ⟨u, hs, hy⟩, h⟩
  · rintro (⟨r, s, hr, hs, hne, rfl⟩ | ⟨x, y, ⟨t, hr, hx⟩, ⟨u, hs, hy⟩, h⟩)
    · refine ⟨_, hr, _, hs, ?_⟩
      rcases r with m | t <;> rcases s with n | u
      · rfl
      · rfl
      · rfl
      · exact absurd rfl hne
    · refine ⟨_, hr, _, hs, ?_⟩
      show (unlessBroken _ >>= _) = _
      rw [Comparison.run_of_parsed hx hy]
      exact h

/-! ## Samples -/

/-- A run in a directory that holds some files and nothing else, where sets are gone through as
they are written. -/
def Surroundings.beside (files : List (Text × List UInt8)) : Surroundings where
  settings := Settings.standard
  directory := Path.ofText "/home"
  read := Directory.read ⟨files.map fun f => ([f.1], f.2), []⟩
  order := .asWritten

end TopologyAudit.CommandLine
