import TopologyAudit.Proofs.CommandLine.Inspection
import TopologyAudit.Proofs.CommandLine.Operands
import TopologyAudit.Proofs.CommandLine.Printing

/-!
# What a run gets over

A run gets over files that cannot be opened and texts that are no config: it says so and fails
with the exit code one. It does not get over everything. It breaks off at an operand that got
lost, at a name that no file can have, at bytes that are not UTF-8, and at a report that it
cannot print. As long as the parser comes to a result, there is nothing else that it breaks off
at (`run_contains_iff`).
-/

namespace TopologyAudit

open Json (Style render)

namespace CommandLine

namespace Command

/-- The operands of a command, which may have got lost. -/
def operands : Command → List (Option Text)
  | analyze file _ _ _ => [file]
  | diff old new _ _ => [old, new]

/-- The format that a command asks for. -/
def format : Command → Option Text
  | analyze _ format _ _ => format
  | diff _ _ format _ => format

/-- Whether a command asks for JSON. -/
def asksJson : Command → Bool
  | analyze _ _ _ json => json
  | diff _ _ _ json => json

end Command

variable {w : Surroundings} {threshold : LogLevel} {format : Option Text} {file : Text}
  {json : Bool}

/-! ## Reading -/

/-- A code point of a path is one of its text, or a sign that paths are written with. -/
theorem mem_of_mem_path {t : Text} {c : CodePoint} (h : c ∈ (Path.ofText t).toText) :
    c ∈ t ∨ c = CodePoint.ofChar '/' ∨ c = CodePoint.ofChar '.' := by
  have hroot : ∀ c ∈ (Path.ofText t).root, c = CodePoint.ofChar '/' := by
    intro c hc
    rw [Path.ofText] at hc
    dsimp only at hc
    split at hc
    next => cases hc
    next =>
      split at hc
      next => exact (List.mem_pair.mp hc).elim id id
      next => exact List.mem_singleton.mp hc
  rw [Path.toText] at h
  split at h
  next => exact .inr (.inr (List.mem_singleton.mp h))
  next =>
    rcases List.mem_append.mp h with h | h
    · exact .inr (.inl (hroot c h))
    · rcases Text.mem_join h with h | ⟨name, hname, h⟩
      · exact .inr (.inl (List.mem_singleton.mp h))
      · exact .inl (Text.mem_of_mem_splitOn (List.mem_of_mem_filter hname) h)

/-- That a run gets over a file: a file may have its name, and if it holds bytes, they are
UTF-8. -/
structure Surroundings.Admits (w : Surroundings) (file : Text) : Prop where
  writable : (Path.ofText file).refusal? = none
  decodable : ∀ bytes, w.read (Path.ofText file) = .ok bytes → ∃ t, Utf8.decode bytes = .ok t

theorem admits_iff (hzero : CodePoint.ofNat 0 ∉ file) :
    w.Admits file ↔ ∃ r, readConfig w (Path.ofText file) = .ok r := by
  have hnul : (Path.ofText file).toText.contains (CodePoint.ofNat 0) = false := by
    rw [← Bool.not_eq_true, List.contains_iff_mem]
    intro hmem
    rcases mem_of_mem_path hmem with hmem | hslash | hpoint
    · exact hzero hmem
    · exact absurd hslash (by decide)
    · exact absurd hpoint (by decide)
  constructor
  · intro h
    rw [readConfig, h.writable, hnul]
    dsimp only
    rw [if_neg Bool.false_ne_true]
    cases hread : w.read (Path.ofText file) with
    | error e => exact ⟨_, rfl⟩
    | ok bytes =>
      obtain ⟨t, ht⟩ := h.decodable bytes hread
      exact ⟨.ok (unifyLineEnds t), by simp only [ht]⟩
  · rintro ⟨r, hr⟩
    rw [readConfig, hnul] at hr
    split at hr
    next => cases hr
    next hwritable =>
      rw [if_neg Bool.false_ne_true] at hr
      refine ⟨hwritable, fun bytes hread => ?_⟩
      rw [hread] at hr
      dsimp only at hr
      split at hr
      next => cases hr
      next t ht => exact ⟨t, ht⟩

/-! ## Showing -/

/-- That the report of an analysis can be printed. -/
def CanShowAnalysis (json : Bool) (t : Topology) : Prop :=
  if json then t.IsPrintable Style.readable else ∀ v ∈ t.audit, v.IsPrintable

/-- That the report of a comparison can be printed. -/
def CanShowComparison (json : Bool) (s t : Topology) : Prop :=
  if json then (Comparison.ofTopologies s t).IsPrintable Style.readable
  else ∀ v ∈ s.audit ++ t.audit, v.IsPrintable

theorem canShowAnalysis_iff {order : SetOrder} {f : Value} {text : Text} {t : Topology}
    (h : Topology.parse order f text = .ok (.success t)) :
    CanShowAnalysis json t ↔
      ∃ x, (if json then jsonText (Analysis.toJson (.success (.ofTopology t)))
        else printable (Analysis.ofTopology t).lines) = .ok x := by
  cases json with
  | true =>
    simp only [CanShowAnalysis, if_true, jsonText_eq_ok, exists_and_left, exists_eq, and_true]
    exact (Analysis.isWritable_toJson (Topology.isExpressible_of_parse h)).symm
  | false => exact (exists_printable_analysis_iff (t.isGraphic_fingerprintText h)).symm

theorem canShowComparison_iff {order : SetOrder} {f f' : Value} {text text' : Text}
    {s t : Topology} (hs : Topology.parse order f text = .ok (.success s))
    (ht : Topology.parse order f' text' = .ok (.success t)) :
    CanShowComparison json s t ↔
      ∃ x, (if json then jsonText (Comparison.toJson (.success (.ofTopologies s t)))
        else printable (Comparison.ofTopologies s t).lines) = .ok x := by
  cases json with
  | true =>
    simp only [CanShowComparison, if_true, jsonText_eq_ok, exists_and_left, exists_eq, and_true]
    exact (Comparison.isWritable_toJson (Topology.isExpressible_of_parse hs)
      (Topology.isExpressible_of_parse ht)).symm
  | false =>
    exact (exists_printable_comparison_iff (s.isGraphic_fingerprintText hs)
      (t.isGraphic_fingerprintText ht)).symm

/-- Errors can always be printed. -/
theorem exists_failure (json : Bool) {α : Type} (fields : α → List (Text × Json))
    (errors : List Text) :
    ∃ x, (if json then jsonText (Report.toJson fields (.failure errors)) else .ok []) = .ok x := by
  cases json with
  | true => exact ⟨_, jsonText_eq_ok.mpr ⟨Report.isWritable_toJson.mpr nofun, rfl⟩⟩
  | false => exact ⟨_, rfl⟩

/-- An analysis comes to an outcome when its report can be printed. -/
theorem exists_analysisOutcome {p : Path} {gate : Option Severity} {r : Report Analysis}
    (hr : r.IsUnmixed)
    (h : ∀ a, r = .success a →
      ∃ x, (if json then jsonText (Analysis.toJson (.success a)) else printable a.lines) = .ok x) :
    ∃ o, analysisOutcome threshold p gate json r = .ok o := by
  cases hr with
  | failure hne =>
    obtain ⟨stdout, hstdout⟩ := exists_failure json Analysis.fields _
    exact ⟨⟨stdout, _, _⟩, analysisOutcome_failure.mpr ⟨hstdout, rfl, rfl⟩⟩
  | success a =>
    obtain ⟨stdout, hstdout⟩ := h a rfl
    exact ⟨⟨stdout, _, _⟩, analysisOutcome_success.mpr ⟨hstdout, rfl, rfl⟩⟩

/-- A comparison comes to an outcome when its report can be printed. -/
theorem exists_comparisonOutcome {r : Report Comparison} (hr : r.IsUnmixed)
    (h : ∀ c, r = .success c →
      ∃ x, (if json then jsonText (Comparison.toJson (.success c)) else printable c.lines) =
        .ok x) :
    ∃ o, comparisonOutcome json r = .ok o := by
  cases hr with
  | failure hne =>
    obtain ⟨stdout, hstdout⟩ := exists_failure json Comparison.fields _
    exact ⟨⟨stdout, _, _⟩, comparisonOutcome_failure.mpr ⟨hstdout, rfl, rfl⟩⟩
  | success c =>
    obtain ⟨stdout, hstdout⟩ := h c rfl
    exact ⟨⟨stdout, _, _⟩, comparisonOutcome_success.mpr ⟨hstdout, rfl, rfl⟩⟩

/-! ## Telling -/

theorem diagnostic_infix {s t : Text} (h : s <:+: t) : diagnostic s <:+: diagnostic t := by
  obtain ⟨before, behind, rfl⟩ := h
  refine ⟨diagnostic before, diagnostic behind, ?_⟩
  simp only [diagnostic, List.flatMap_append]

theorem infix_joinLines {l : Text} {ls : List Text} (h : l ∈ ls) : l <:+: joinLines ls := by
  obtain ⟨before, behind, rfl⟩ := List.append_of_mem h
  refine ⟨joinLines before, CodePoint.ofChar '\n' :: joinLines behind, ?_⟩
  rw [List.append_assoc, ← joinLines_cons, joinLines, joinLines, joinLines, List.flatMap_append]

/-- That an outcome tells of an error: in the report in JSON, or in a diagnostic. -/
def Outcome.Tells (o : Outcome) (json : Bool) (e : ParseError) : Prop :=
  if json then
    ∃ errors : List Text, e.message ∈ errors ∧
      o.stdout = render Style.readable (Report.ofErrors (errors.map .text)) ++ "\n"
  else diagnostic e.message <:+: o.stderr

theorem Outcome.tells_of_errors {o : Outcome} {errors : List Text} {e : ParseError}
    {α : Type} {fields : α → List (Text × Json)} (more : List Text) (he : e.message ∈ errors)
    (hstdout : (if json then jsonText (Report.toJson fields (.failure errors)) else .ok []) =
      .ok o.stdout)
    (hstderr : json = false →
      o.stderr = diagnostic (joinLines (Report.errorLines errors ++ more))) :
    o.Tells json e := by
  cases json with
  | true => exact ⟨errors, he, (jsonText_eq_ok.mp hstdout).2⟩
  | false =>
    have hline : ("  - " : Text) ++ e.message ∈ Report.errorLines errors ++ more :=
      List.mem_append_left _ (List.mem_cons_of_mem _ (List.mem_map_of_mem he))
    have hmessage : e.message <:+: ("  - " : Text) ++ e.message :=
      (List.suffix_append ..).isInfix
    rw [Tells, if_neg Bool.false_ne_true, hstderr rfl]
    exact diagnostic_infix (hmessage.trans (infix_joinLines hline))

/-! ## Commands -/

namespace Surroundings

/-- That what a command comes to can be printed, if all of its files parse. -/
def CanShow (w : Surroundings) : Command → Prop
  | .analyze (some file) format _ json =>
    ∀ t, w.Parses format file (.success t) → CanShowAnalysis json t
  | .diff (some old) (some new) format json =>
    ∀ s t, w.Parses format old (.success s) → w.Parses format new (.success t) →
      CanShowComparison json s t
  | _ => True

/-- That nothing breaks a command off. -/
structure Completes (w : Surroundings) (c : Command) : Prop where
  named : none ∉ c.operands
  admitted : ∀ file ∈ c.files, w.Admits file
  shown : w.CanShow c

/-- That an outcome is what a command should come to when its files are bad: files that cannot be
read and files that do not parse make it fail, and it tells of them, but of the latter only if all
files can be read. -/
structure Contains (w : Surroundings) (c : Command) (o : Outcome) : Prop where
  exit : o.exit = 0 ∨ o.exit = 1
  missed : ∀ file ∈ c.files, ∀ m, w.Misses file m → o.exit = 1 ∧ diagnostic m <:+: o.stderr
  refused : ∀ file ∈ c.files, ∀ e, w.Parses c.format file (.failure [e]) → o.exit = 1
  told : (∀ file ∈ c.files, ∀ m, ¬w.Misses file m) →
    ∀ file ∈ c.files, ∀ e, w.Parses c.format file (.failure [e]) → o.Tells c.asksJson e

end Surroundings

section

variable {gate : Option Severity} {o : Outcome}

theorem analyze_returns_iff (hzero : CodePoint.ofNat 0 ∉ file)
    (hparse : ∀ t, readConfig w (Path.ofText file) = .ok (.ok t) →
      ∃ x, Topology.parse w.order (formatOf w format (Path.ofText file)) t = .ok x) :
    (∃ o, runCommand w threshold (.analyze (some file) format gate json) = .ok o) ↔
      w.Admits file ∧ ∀ t, w.Parses format file (.success t) → CanShowAnalysis json t := by
  constructor
  · rintro ⟨o, ho⟩
    rcases runCommand_analyze_eq_ok.mp ho with ⟨m, hm, -⟩ | ⟨x, hx, houtcome⟩
    · exact ⟨(admits_iff hzero).mpr ⟨_, hm⟩, fun t ht => absurd ht hm.not_parses⟩
    · obtain ⟨_, htext, -⟩ := id hx
      refine ⟨(admits_iff hzero).mpr ⟨_, htext⟩, fun t ht => ?_⟩
      obtain rfl := hx.eq ht
      obtain ⟨_, -, hparsed⟩ := ht
      exact (canShowAnalysis_iff hparsed).mpr ⟨_, (analysisOutcome_success.mp houtcome).1⟩
  · rintro ⟨hadmits, hshow⟩
    obtain ⟨m | text, hr⟩ := (admits_iff hzero).mp hadmits
    · exact ⟨_, runCommand_analyze_eq_ok.mpr (.inl ⟨m, hr, rfl⟩)⟩
    · obtain ⟨x, hparsed⟩ := hparse text hr
      have hx : w.Parses format file x := ⟨text, hr, hparsed⟩
      refine Exists.imp (fun o ho => runCommand_analyze_eq_ok.mpr (.inr ⟨x, hx, ho⟩))
        (exists_analysisOutcome
          (Analysis.isUnmixed_ofParsed (Topology.isUnmixed_of_parse hparsed)) fun a ha => ?_)
      rcases hx.cases with ⟨t, rfl⟩ | ⟨e, rfl⟩
      · obtain rfl := Result.success_inj.mp ha
        exact (canShowAnalysis_iff hparsed).mp (hshow t hx)
      · exact absurd ha.symm (Result.success_ne_failure _ _)

/-- What a run for an analysis comes to when its file is bad. -/
theorem analyze_contains
    (h : runCommand w threshold (.analyze (some file) format gate json) = .ok o) :
    w.Contains (.analyze (some file) format gate json) o := by
  have hmem : file ∈ (Command.analyze (some file) format gate json).files :=
    List.mem_singleton_self _
  rcases runCommand_analyze_eq_ok.mp h with ⟨m, hm, rfl⟩ | ⟨x, hx, houtcome⟩
  · refine ⟨.inr rfl, List.forall_mem_singleton.mpr fun m' hm' => ⟨rfl, ?_⟩,
      fun _ _ _ _ => rfl, fun hread => absurd hm (hread file hmem m)⟩
    rw [hm.eq hm']
    exact diagnostic_infix (infix_joinLines (List.mem_singleton_self _))
  · have hread : ∀ m, ¬w.Misses file m := fun m hm => hm.not_parses hx
    rcases hx.cases with ⟨t, rfl⟩ | ⟨e, rfl⟩
    · have hparses : ∀ e, ¬w.Parses format file (.failure [e]) :=
        fun e he => Result.success_ne_failure _ _ (hx.eq he)
      obtain ⟨-, -, hexit⟩ := analysisOutcome_success.mp houtcome
      refine ⟨?_, List.forall_mem_singleton.mpr fun m hm => absurd hm (hread m),
        List.forall_mem_singleton.mpr fun e he => absurd he (hparses e),
        fun _ => List.forall_mem_singleton.mpr fun e he => absurd he (hparses e)⟩
      rw [hexit]
      split
      next => exact .inr rfl
      next => exact .inl rfl
    · obtain ⟨hstdout, hstderr, hexit⟩ := analysisOutcome_failure.mp houtcome
      refine ⟨.inr hexit, List.forall_mem_singleton.mpr fun m hm => absurd hm (hread m),
        fun _ _ _ _ => hexit, fun _ => List.forall_mem_singleton.mpr fun e' he' => ?_⟩
      obtain rfl : e = e' := List.singleton_inj.mp (Result.failure_inj.mp (hx.eq he'))
      refine Outcome.tells_of_errors (failureLine threshold (Path.ofText file))
        (List.mem_singleton_self e.message) hstdout fun hjson => ?_
      obtain rfl : json = false := hjson
      exact hstderr

/-! ## Comparisons -/

variable {old new : Text}

/-- The errors of a comparison are those of its sides. -/
theorem ofParsed_of_failure {x y : ParseResult} {e : ParseError}
    (h : x = .failure [e] ∨ y = .failure [e]) :
    ∃ errors, Comparison.ofParsed x y = .failure errors ∧ e.message ∈ errors := by
  rcases h with rfl | rfl
  · exact ⟨_, Comparison.ofParsed_failure (.inl rfl),
      List.mem_append_left _ (List.mem_singleton_self _)⟩
  · exact ⟨_, Comparison.ofParsed_failure (.inr rfl),
      List.mem_append_right _ (List.mem_singleton_self _)⟩

theorem diff_returns_iff (hold : CodePoint.ofNat 0 ∉ old) (hnew : CodePoint.ofNat 0 ∉ new)
    (hparse : ∀ file ∈ [old, new], ∀ t, readConfig w (Path.ofText file) = .ok (.ok t) →
      ∃ x, Topology.parse w.order (formatOf w format (Path.ofText file)) t = .ok x) :
    (∃ o, runCommand w threshold (.diff (some old) (some new) format json) = .ok o) ↔
      (w.Admits old ∧ w.Admits new) ∧
        ∀ s t, w.Parses format old (.success s) → w.Parses format new (.success t) →
          CanShowComparison json s t := by
  constructor
  · rintro ⟨o, ho⟩
    rcases runCommand_diff_eq_ok.mp ho with ⟨r, s, hr, hs, hne, -⟩ | ⟨x, y, hx, hy, houtcome⟩
    · refine ⟨⟨(admits_iff hold).mpr ⟨r, hr⟩, (admits_iff hnew).mpr ⟨s, hs⟩⟩, ?_⟩
      rintro s' t' ⟨_, hr', -⟩ ⟨_, hs', -⟩
      obtain rfl := Except.ok.inj (hr.symm.trans hr')
      obtain rfl := Except.ok.inj (hs.symm.trans hs')
      exact absurd rfl hne
    · obtain ⟨_, hr, -⟩ := id hx
      obtain ⟨_, hs, -⟩ := id hy
      refine ⟨⟨(admits_iff hold).mpr ⟨_, hr⟩, (admits_iff hnew).mpr ⟨_, hs⟩⟩, fun s t hs ht => ?_⟩
      obtain rfl := hx.eq hs
      obtain rfl := hy.eq ht
      obtain ⟨_, -, hs⟩ := hs
      obtain ⟨_, -, ht⟩ := ht
      exact (canShowComparison_iff hs ht).mpr ⟨_, (comparisonOutcome_success.mp houtcome).1⟩
  · rintro ⟨⟨hadmitsOld, hadmitsNew⟩, hshow⟩
    obtain ⟨r, hr⟩ := (admits_iff hold).mp hadmitsOld
    obtain ⟨s, hs⟩ := (admits_iff hnew).mp hadmitsNew
    by_cases hmissed : readError r ++ readError s = []
    · obtain ⟨hr', hs'⟩ := List.append_eq_nil_iff.mp hmissed
      obtain ⟨rtext, rfl⟩ := readError_eq_nil_iff.mp hr'
      obtain ⟨stext, rfl⟩ := readError_eq_nil_iff.mp hs'
      obtain ⟨x, hx⟩ := hparse old (List.mem_cons_self ..) rtext hr
      obtain ⟨y, hy⟩ := hparse new (List.mem_cons_of_mem _ (List.mem_singleton_self _)) stext hs
      have hrun := Comparison.run_of_parsed hx hy
      refine Exists.imp (fun o ho => runCommand_diff_eq_ok.mpr
          (.inr ⟨x, y, ⟨_, hr, hx⟩, ⟨_, hs, hy⟩, ho⟩))
        (exists_comparisonOutcome (Comparison.isUnmixed_of_run hrun) fun c hc => ?_)
      rw [hc] at hrun
      obtain ⟨s, t, hs', ht', rfl⟩ := Comparison.run_eq_ok_iff.mp hrun
      exact (canShowComparison_iff hs' ht').mp (hshow s t ⟨_, hr, hs'⟩ ⟨_, hs, ht'⟩)
    · exact ⟨_, runCommand_diff_eq_ok.mpr (.inl ⟨r, s, hr, hs, hmissed, rfl⟩)⟩

/-- What a run for a comparison comes to when its files are bad. -/
theorem diff_contains
    (h : runCommand w threshold (.diff (some old) (some new) format json) = .ok o) :
    w.Contains (.diff (some old) (some new) format json) o := by
  have hmemOld : old ∈ (Command.diff (some old) (some new) format json).files :=
    List.mem_cons_self ..
  have hmemNew : new ∈ (Command.diff (some old) (some new) format json).files :=
    List.mem_cons_of_mem _ (List.mem_singleton_self _)
  rcases runCommand_diff_eq_ok.mp h with ⟨r, s, hr, hs, hne, rfl⟩ | ⟨x, y, hx, hy, houtcome⟩
  · have htold : ∀ {file m : Text} {q : Except Text Text}, readConfig w (Path.ofText file) = .ok q →
        w.Misses file m → m ∈ readError q := by
      intro file m q hq hm
      obtain rfl := Except.ok.inj (hq.symm.trans hm)
      exact List.mem_singleton_self m
    refine ⟨.inr rfl, List.forall_mem_cons.mpr ⟨fun m hm => ⟨rfl, ?_⟩,
      List.forall_mem_singleton.mpr fun m hm => ⟨rfl, ?_⟩⟩, fun _ _ _ _ => rfl, fun hread => ?_⟩
    · exact diagnostic_infix (infix_joinLines (List.mem_append_left _ (htold hr hm)))
    · exact diagnostic_infix (infix_joinLines (List.mem_append_right _ (htold hs hm)))
    · refine absurd ?_ hne
      rcases r with m | rtext
      · exact absurd hr (hread old hmemOld m)
      · rcases s with m | stext
        · exact absurd hs (hread new hmemNew m)
        · rfl
  · have hmissed : ∀ file ∈ (Command.diff (some old) (some new) format json).files, ∀ m,
        ¬w.Misses file m :=
      List.forall_mem_cons.mpr ⟨fun m hm => hm.not_parses hx,
        List.forall_mem_singleton.mpr fun m hm => hm.not_parses hy⟩
    -- an error of either side is one of the comparison
    have hfails : ∀ e, x = .failure [e] ∨ y = .failure [e] → o.exit = 1 ∧ o.Tells json e := by
      intro e he
      obtain ⟨errors, hparsed, hmem⟩ := ofParsed_of_failure he
      rw [hparsed] at houtcome
      obtain ⟨hstdout, hstderr, hexit⟩ := comparisonOutcome_failure.mp houtcome
      refine ⟨hexit, Outcome.tells_of_errors [] hmem hstdout fun hjson => ?_⟩
      rw [hstderr, if_neg (Bool.eq_false_iff.mp hjson), List.append_nil]
    have hrefused : ∀ file ∈ (Command.diff (some old) (some new) format json).files, ∀ e,
        w.Parses format file (.failure [e]) → o.exit = 1 ∧ o.Tells json e :=
      List.forall_mem_cons.mpr ⟨fun e he => hfails e (.inl (hx.eq he)),
        List.forall_mem_singleton.mpr fun e he => hfails e (.inr (hy.eq he))⟩
    refine ⟨?_, fun file hfile m hm => absurd hm (hmissed file hfile m),
      fun file hfile e he => (hrefused file hfile e he).1,
      fun _ file hfile e he => (hrefused file hfile e he).2⟩
    rcases hx.cases with ⟨s, rfl⟩ | ⟨e, rfl⟩
    · rcases hy.cases with ⟨t, rfl⟩ | ⟨e, rfl⟩
      · exact .inl (comparisonOutcome_success.mp houtcome).2.2
      · exact .inr (hfails e (.inr rfl)).1
    · exact .inr (hfails e (.inl rfl)).1

end

/-! ## Runs -/

/-- A command that lost an operand breaks off. -/
theorem runCommand_of_lost {c : Command} (h : none ∈ c.operands) :
    runCommand w threshold c = .error .noPath := by
  cases c with
  | analyze file format gate json =>
    obtain rfl := List.mem_singleton.mp h
    rfl
  | diff old new format json =>
    rcases List.mem_pair.mp h with rfl | rfl
    · rfl
    · cases old <;> rfl

/-- A command that lost no operand is an analysis of a file or a comparison of two. -/
theorem eq_of_named {c : Command} (h : none ∉ c.operands) :
    (∃ file format gate json, c = .analyze (some file) format gate json) ∨
      ∃ old new format json, c = .diff (some old) (some new) format json := by
  cases c with
  | analyze file format gate json =>
    obtain ⟨file, rfl⟩ := Option.ne_none_iff_exists'.mp (Ne.symm (List.ne_of_not_mem_cons h))
    exact .inl ⟨file, format, gate, json, rfl⟩
  | diff old new format json =>
    obtain ⟨hold, hrest⟩ := List.ne_and_not_mem_of_not_mem_cons h
    obtain ⟨old, rfl⟩ := Option.ne_none_iff_exists'.mp (Ne.symm hold)
    obtain ⟨new, rfl⟩ := Option.ne_none_iff_exists'.mp (Ne.symm (List.ne_of_not_mem_cons hrest))
    exact .inr ⟨old, new, format, json, rfl⟩

theorem runCommand_returns_iff {c : Command} (hzero : ∀ file ∈ c.files, CodePoint.ofNat 0 ∉ file)
    (hparse : ∀ file ∈ c.files, ∀ t, readConfig w (Path.ofText file) = .ok (.ok t) →
      ∃ x, Topology.parse w.order (formatOf w c.format (Path.ofText file)) t = .ok x) :
    (∃ o, runCommand w threshold c = .ok o) ↔ w.Completes c := by
  by_cases hlost : none ∈ c.operands
  · rw [runCommand_of_lost hlost]
    exact ⟨nofun, fun h => absurd hlost h.named⟩
  · rcases eq_of_named hlost with ⟨file, format, gate, json, rfl⟩ | ⟨old, new, format, json, rfl⟩
    · have hmem : file ∈ [file] := List.mem_singleton_self _
      refine (analyze_returns_iff (hzero file hmem) (hparse file hmem)).trans ⟨?_, ?_⟩
      · exact fun h => ⟨hlost, List.forall_mem_singleton.mpr h.1, h.2⟩
      · exact fun h => ⟨h.admitted file hmem, h.shown⟩
    · have hold : old ∈ [old, new] := List.mem_cons_self ..
      have hnew : new ∈ [old, new] := List.mem_cons_of_mem _ (List.mem_singleton_self _)
      refine (diff_returns_iff (hzero old hold) (hzero new hnew) hparse).trans ⟨?_, ?_⟩
      · rintro ⟨⟨hadmitsOld, hadmitsNew⟩, hshow⟩
        exact ⟨hlost, List.forall_mem_cons.mpr
          ⟨hadmitsOld, List.forall_mem_singleton.mpr hadmitsNew⟩, hshow⟩
      · exact fun h => ⟨⟨h.admitted old hold, h.admitted new hnew⟩, h.shown⟩

theorem runCommand_contains {c : Command} {o : Outcome} (h : runCommand w threshold c = .ok o) :
    w.Contains c o := by
  have hnamed : none ∉ c.operands := fun hlost => nomatch (runCommand_of_lost hlost).symm.trans h
  rcases eq_of_named hnamed with ⟨file, format, gate, json, rfl⟩ | ⟨old, new, format, json, rfl⟩
  · exact analyze_contains h
  · exact diff_contains h

/-- **What a run gets over.** A run whose arguments are a command comes to its end exactly when no
operand got lost, its files can be opened or not, but are UTF-8 in the first case, and what it
comes to can be printed. It then ends with zero or one, and tells of bad files. All this is so
where the arguments hold no zeros, the threshold of the log is one, and the parser comes to a
result on what is in the files. -/
theorem run_contains_iff {args : List Text} {c : Command}
    (hlevel : LogLevel.ofName? w.settings.logLevel = some threshold)
    (hcommand : Command.read args = .ok c) (hzero : ∀ arg ∈ args, CodePoint.ofNat 0 ∉ arg)
    (hparse : ∀ file ∈ c.files, ∀ t, readConfig w (Path.ofText file) = .ok (.ok t) →
      ∃ x, Topology.parse w.order (formatOf w c.format (Path.ofText file)) t = .ok x) :
    ((∃ o, run w args = .ok o) ↔ w.Completes c) ∧ ∀ o, run w args = .ok o → w.Contains c o := by
  have hrun : run w args = runCommand w threshold c := by
    rw [run, hlevel, hcommand]
  have hfiles : ∀ file ∈ c.files, CodePoint.ofNat 0 ∉ file :=
    fun file hfile => hzero file (Command.files_subset_of_read hcommand hfile)
  rw [hrun]
  exact ⟨runCommand_returns_iff hfiles hparse, fun o => runCommand_contains⟩

/-- A run beside a file that is no config. -/
def besideList : Surroundings := .beside [("a.yaml", Utf8.encode "[]")]

/-- One file is no config and the other one is missing: the run fails and tells of the latter. -/
theorem run_contains_missing_file :
    ∃ o, run besideList ["diff", "a.yaml", "b.yaml"] = .ok o ∧ o.exit = 1 ∧
      diagnostic "Cannot read /home/b.yaml: No such file or directory" <:+: o.stderr := by
  have hread : readConfig besideList (Path.ofText "a.yaml") = .ok (.ok "[]") := by decide +kernel
  have hmissing : readConfig besideList (Path.ofText "b.yaml") =
      .ok (.error "Cannot read /home/b.yaml: No such file or directory") := by decide +kernel
  have hcommand : Command.read ["diff", "a.yaml", "b.yaml"] =
      .ok (.diff (some "a.yaml") (some "b.yaml") none false) := rfl
  have hzero : ∀ arg ∈ [("diff" : Text), "a.yaml", "b.yaml"], CodePoint.ofNat 0 ∉ arg := by decide
  have hparse : ∀ file ∈ [("a.yaml" : Text), "b.yaml"], ∀ t,
      readConfig besideList (Path.ofText file) = .ok (.ok t) →
        ∃ x, Topology.parse .asWritten (formatOf besideList none (Path.ofText file)) t =
          .ok x := by
    refine List.forall_mem_cons.mpr ⟨fun t ht => ?_, List.forall_mem_singleton.mpr fun t ht => ?_⟩
    · obtain rfl := Except.ok.inj (Except.ok.inj (hread.symm.trans ht))
      exact ⟨_, rfl⟩
    · exact nomatch Except.ok.inj (hmissing.symm.trans ht)
  have hcompletes : besideList.Completes (.diff (some "a.yaml") (some "b.yaml") none false) := by
    refine ⟨by decide, List.forall_mem_cons.mpr ⟨?_, List.forall_mem_singleton.mpr ?_⟩, ?_⟩
    · exact (admits_iff (by decide)).mpr ⟨_, hread⟩
    · exact (admits_iff (by decide)).mpr ⟨_, hmissing⟩
    · rintro s t - ⟨text, ht, -⟩
      exact nomatch Except.ok.inj (hmissing.symm.trans ht)
  obtain ⟨hreturns, hcontains⟩ := run_contains_iff (w := besideList) rfl hcommand hzero hparse
  obtain ⟨o, ho⟩ := hreturns.mpr hcompletes
  exact ⟨o, ho, (hcontains o ho).missed "b.yaml"
    (List.mem_cons_of_mem _ (List.mem_singleton_self _)) _ hmissing⟩

/-- A run beside a file that holds a byte which begins no code point in UTF-8. -/
def besideByte : Surroundings := .beside [("a.yaml", [0xFF])]

/-- The byte breaks the run off, though there is nothing for the parser to fail at. -/
theorem breaks_off_at_byte :
    LogLevel.ofName? besideByte.settings.logLevel = some .info ∧
      Command.read ["analyze", "a.yaml"] = .ok (.analyze (some "a.yaml") none none false) ∧
      (∀ t, readConfig besideByte (Path.ofText "a.yaml") ≠ .ok (.ok t)) ∧
      run besideByte ["analyze", "a.yaml"] =
        .error (.undecodable ⟨.invalidStart, 0, [0xFF]⟩) := by
  have hread : readConfig besideByte (Path.ofText "a.yaml") =
      .error (.undecodable ⟨.invalidStart, 0, [0xFF]⟩) := by decide +kernel
  refine ⟨rfl, rfl, fun t ht => ?_, by decide +kernel⟩
  exact nomatch hread.symm.trans ht

end CommandLine

end TopologyAudit
