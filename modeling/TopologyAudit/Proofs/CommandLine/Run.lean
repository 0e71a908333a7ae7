import TopologyAudit.CommandLine.Run
import TopologyAudit.Proofs.CommandLine.Arguments
import TopologyAudit.Proofs.Json.Ascii
import TopologyAudit.Proofs.Json.Printer
import TopologyAudit.Proofs.Text.Utf8

/-!
# Runs that print JSON

A file gives back the text that it holds, unless the text has surrogates, which UTF-8 does
not write, or carriage returns, which are read as line feeds. A run that is asked for JSON
analyses just that text and prints the report, indented and in ASCII, if the report can be
written (`run_analyze`, `run_diff`).
-/

namespace TopologyAudit

/-- That a text comes back from a file that holds it. -/
structure Text.IsStorable (t : Text) : Prop where
  no_surrogate : ∀ c ∈ t, c.isSurrogate = false
  no_return : CodePoint.ofChar '\r' ∉ t

instance (t : Text) : Decidable t.IsStorable :=
  decidable_of_iff ((∀ c ∈ t, c.isSurrogate = false) ∧ CodePoint.ofChar '\r' ∉ t)
    ⟨fun h => ⟨h.1, h.2⟩, fun h => ⟨h.no_surrogate, h.no_return⟩⟩

namespace CommandLine

open Json (Style render IsWritable)

variable {w : Surroundings} {g : Grammar} {threshold : LogLevel} {f : SourceFormat}

/-! ## Files -/

/-- That a command finds a text in a file: its grammar takes the path for an operand, the path
can be opened, and the file holds the text in UTF-8. -/
structure Surroundings.Holds (w : Surroundings) (g : Grammar) (path t : Text) : Prop where
  root : Command.grammar.IsOperand path
  operand : g.IsOperand path
  writable : (Path.ofText path).refusal? = none
  no_zero : CodePoint.ofNat 0 ∉ (Path.ofText path).toText
  bytes : w.read (Path.ofText path) = .ok (Utf8.encode t)

instance (w : Surroundings) (g : Grammar) (path t : Text) : Decidable (w.Holds g path t) :=
  decidable_of_iff (Command.grammar.IsOperand path ∧ g.IsOperand path ∧
      (Path.ofText path).refusal? = none ∧ CodePoint.ofNat 0 ∉ (Path.ofText path).toText ∧
        w.read (Path.ofText path) = .ok (Utf8.encode t))
    ⟨fun ⟨hroot, hoperand, hwritable, hzero, hbytes⟩ =>
        ⟨hroot, hoperand, hwritable, hzero, hbytes⟩,
      fun h => ⟨h.root, h.operand, h.writable, h.no_zero, h.bytes⟩⟩

theorem unifyLineEnds_of_no_return {t : Text} (h : CodePoint.ofChar '\r' ∉ t) :
    unifyLineEnds t = t := by
  -- for any code point in front that is no carriage return
  have hafter : ∀ before : CodePoint, before ≠ CodePoint.ofChar '\r' →
      (((before :: t).zip t).filterMap fun p : CodePoint × CodePoint =>
        if p.2 == CodePoint.ofChar '\r' then some (CodePoint.ofChar '\n')
        else if p.1 == CodePoint.ofChar '\r' && p.2 == CodePoint.ofChar '\n' then none
        else some p.2) = t := by
    induction t with
    | nil => intro before _; rfl
    | cons c t ih =>
      intro before hbefore
      obtain ⟨hc, ht⟩ := List.ne_and_not_mem_of_not_mem_cons h
      have hc' : (c == CodePoint.ofChar '\r') = false := beq_false_of_ne (Ne.symm hc)
      have hbefore' : (before == CodePoint.ofChar '\r') = false := beq_false_of_ne hbefore
      rw [List.zip_cons_cons, List.filterMap_cons]
      simp only [hc', hbefore', Bool.false_and, Bool.false_eq_true, if_false]
      rw [ih ht c (Ne.symm hc)]
  exact hafter _ (by decide)

/-- A text that a file gives back is the config that is read. -/
theorem readConfig_of_holds {path t : Text} (h : w.Holds g path t) (ht : t.IsStorable) :
    readConfig w (Path.ofText path) = .ok (.ok t) := by
  have hzero : (Path.ofText path).toText.contains (CodePoint.ofNat 0) = false := by
    rw [← Bool.not_eq_true, List.contains_iff_mem]
    exact h.no_zero
  rw [readConfig, h.writable]
  simp only [hzero, Bool.false_eq_true, if_false, h.bytes, Utf8.decode_encode ht.no_surrogate,
    unifyLineEnds_of_no_return ht.no_return]

theorem formatOf_name (w : Surroundings) (f : SourceFormat) (p : Path) :
    formatOf w (some f.name) p = .text f.name := by
  cases f <;> rfl

/-! ## Output -/

/-- A text can be printed when it has no surrogates. -/
theorem utf8_refusal?_eq_none {t : Text} :
    Charset.utf8.refusal? t = none ↔ ∀ c ∈ t, c.isSurrogate = false := by
  have hwritten : t.takeWhile Charset.utf8.writes = t ↔ ∀ c ∈ t, c.isSurrogate = false := by
    rw [List.takeWhile_eq_self_iff]
    exact forall₂_congr fun c _ => by rw [Charset.writes, Bool.not_eq_true']
  rw [← hwritten, Charset.refusal?]
  constructor
  · intro h
    split at h
    next hdrop =>
      exact (List.takeWhile_prefix _).eq_of_length_le (List.drop_eq_nil_iff.mp hdrop)
    next => cases h
  · intro h
    rw [h]
    simp only [List.drop_length]

theorem refusal?_of_isAscii {t : Text} (h : t.IsAscii) : Charset.utf8.refusal? t = none := by
  refine utf8_refusal?_eq_none.mpr fun c hc => ?_
  have hascii := of_decide_eq_true (h c hc)
  rw [CodePoint.isSurrogate, CodePoint.within, Bool.and_eq_false_iff]
  exact .inl (decide_eq_false (by omega))

/-- A report that can be written is printed, as it is in ASCII. -/
theorem jsonText_of_isWritable {report : Json} (h : report.IsWritable Style.readable) :
    jsonText report = .ok (render Style.readable report ++ "\n") := by
  have hascii : (render Style.readable report).IsAscii := Json.isAscii_render (by decide) report
  rw [jsonText, Json.print_of_isWritable h]
  simp only [printable, refusal?_of_isAscii hascii]
  rfl

theorem analysisOutcome_json {report : Report Analysis} (p : Path)
    (h : (Analysis.toJson report).IsWritable Style.readable) :
    ∃ stderr, analysisOutcome threshold p none true report =
      .ok ⟨render Style.readable (Analysis.toJson report) ++ "\n", stderr,
        if report.isOk then 0 else 1⟩ := by
  have htext := jsonText_of_isWritable h
  cases hvalue : report.value with
  | none =>
    refine ⟨diagnostic (joinLines (failureLine threshold p)), ?_⟩
    rw [analysisOutcome, hvalue, Result.isOk, hvalue, if_pos rfl, htext]
    rfl
  | some a =>
    refine ⟨[], ?_⟩
    rw [analysisOutcome, hvalue, Result.isOk, hvalue, if_pos rfl, htext]
    rfl

theorem comparisonOutcome_json {report : Report Comparison}
    (h : (Comparison.toJson report).IsWritable Style.readable) :
    comparisonOutcome true report =
      .ok ⟨render Style.readable (Comparison.toJson report) ++ "\n", [],
        if report.isOk then 0 else 1⟩ := by
  have htext := jsonText_of_isWritable h
  cases hvalue : report.value <;>
    rw [comparisonOutcome, hvalue, Result.isOk, hvalue, if_pos rfl, htext] <;> rfl

/-! ## Runs -/

open Command

/-- A run that is asked for an analysis in JSON prints the report. -/
theorem run_analyze {path t : Text} {report : Report Analysis}
    (hlevel : LogLevel.ofName? w.settings.logLevel = some threshold)
    (hholds : w.Holds analyzeGrammar path t) (ht : t.IsStorable)
    (hrun : Analysis.run w.order (.text f.name) t = .ok report)
    (hwritable : (Analysis.toJson report).IsWritable Style.readable) :
    ∃ stderr, run w (arguments analyzeName [path] f) =
      .ok ⟨render Style.readable (Analysis.toJson report) ++ "\n", stderr,
        if report.isOk then 0 else 1⟩ := by
  obtain ⟨stderr, houtcome⟩ :=
    @analysisOutcome_json threshold report (Path.ofText path) hwritable
  refine ⟨stderr, ?_⟩
  rw [run, hlevel, read_analyze hholds.root hholds.operand]
  simp only [runCommand, pathOf, bind, Except.bind, readConfig_of_holds hholds ht, formatOf_name,
    hrun, unlessBroken, houtcome]

/-- A run that is asked for a comparison in JSON prints the report. -/
theorem run_diff {old new s t : Text} {report : Report Comparison}
    (hlevel : LogLevel.ofName? w.settings.logLevel = some threshold)
    (hold : w.Holds diffGrammar old s) (hs : s.IsStorable)
    (hnew : w.Holds diffGrammar new t) (ht : t.IsStorable)
    (hrun : Comparison.run w.order (.text f.name) (.text f.name) s t = .ok report)
    (hwritable : (Comparison.toJson report).IsWritable Style.readable) :
    run w (arguments diffName [old, new] f) =
      .ok ⟨render Style.readable (Comparison.toJson report) ++ "\n", [],
        if report.isOk then 0 else 1⟩ := by
  have hroot : ∀ x ∈ [old, new], grammar.IsOperand x :=
    List.forall_mem_cons.mpr ⟨hold.root, List.forall_mem_singleton.mpr hnew.root⟩
  have hoperand : ∀ x ∈ [old, new], diffGrammar.IsOperand x :=
    List.forall_mem_cons.mpr ⟨hold.operand, List.forall_mem_singleton.mpr hnew.operand⟩
  rw [run, hlevel, read_diff hroot hoperand]
  simp only [runCommand, pathOf, bind, Except.bind, readConfig_of_holds hold hs,
    readConfig_of_holds hnew ht, formatOf_name, hrun, unlessBroken,
    comparisonOutcome_json hwritable]

end CommandLine

end TopologyAudit
