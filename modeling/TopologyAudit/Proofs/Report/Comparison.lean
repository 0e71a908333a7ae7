import TopologyAudit.Proofs.Outcome
import TopologyAudit.Proofs.Source.Parse
import TopologyAudit.Report.Comparison

/-!
# What analyses and comparisons come to

The parsers decide. An analysis comes to the audit of the topology or to the parser's errors
(`Analysis.run_of_parsed`); a comparison succeeds exactly when both configs parse
(`Comparison.run_eq_ok_iff`), and else it comes to the errors of both. As parsers never mix a
topology with errors, neither do the reports (`Analysis.isUnmixed_of_run`,
`Comparison.isUnmixed_of_run`).
-/

namespace TopologyAudit

variable {order : SetOrder}

namespace ParseResult

@[simp] theorem messages_success (t : Topology) : messages (.success t) = [] := rfl

@[simp] theorem messages_failure (errors : List ParseError) :
    messages (.failure errors) = errors.map ParseError.message := rfl

end ParseResult

namespace Report

/-- The report that shows errors and nothing else. -/
def ofErrors (errors : List Json) : Json := .object [("errors", .array errors)]

end Report

namespace Analysis

variable {format : Value} {t : Text}

theorem run_of_parsed {x : ParseResult} (hx : Topology.parse order format t = .ok x) :
    run order format t = .ok (ofParsed x) := by
  rw [run, hx]
  rfl

/-- Analyses return where parsers do. -/
theorem run_eq_ok_iff {report : Report Analysis} :
    run order format t = .ok report ↔
      ∃ x, Topology.parse order format t = .ok x ∧ report = ofParsed x := by
  constructor
  · intro h
    obtain ⟨x, hx, hreport⟩ := Outcome.bind_eq_ok.mp h
    exact ⟨x, hx, (Except.ok.inj hreport).symm⟩
  · rintro ⟨x, hx, rfl⟩
    exact run_of_parsed hx

theorem isUnmixed_ofParsed {x : ParseResult} (hx : x.IsUnmixed) : (ofParsed x).IsUnmixed := by
  cases hx with
  | success s => exact .success _
  | failure h => exact .failure (mt List.map_eq_nil_iff.mp h)

/-- The report of an analysis never mixes findings with errors. -/
theorem isUnmixed_of_run {report : Report Analysis} (h : run order format t = .ok report) :
    report.IsUnmixed := by
  obtain ⟨x, hx, rfl⟩ := run_eq_ok_iff.mp h
  exact isUnmixed_ofParsed (Topology.isUnmixed_of_parse hx)

end Analysis

namespace Comparison

variable {f g : Value} {old new : Text} {x y : ParseResult}

/-- Where both parsers return, a comparison returns as well. -/
theorem run_of_parsed (hx : Topology.parse order f old = .ok x)
    (hy : Topology.parse order g new = .ok y) : run order f g old new = .ok (ofParsed x y) := by
  rw [run, hx, hy]
  rfl

/-- Comparisons return only where both parsers do. -/
theorem exists_of_run {report : Report Comparison} (h : run order f g old new = .ok report) :
    ∃ x y, Topology.parse order f old = .ok x ∧ Topology.parse order g new = .ok y ∧
      report = ofParsed x y := by
  obtain ⟨x, hx, h⟩ := Outcome.bind_eq_ok.mp h
  obtain ⟨y, hy, h⟩ := Outcome.bind_eq_ok.mp h
  exact ⟨x, y, hx, hy, (Except.ok.inj h).symm⟩

/-- One failed side is enough to leave nothing but the errors of both sides. -/
theorem ofParsed_failure (h : x.isOk = false ∨ y.isOk = false) :
    ofParsed x y = .failure (x.messages ++ y.messages) := by
  rcases x with ⟨_ | s, errors⟩ <;> rcases y with ⟨_ | t, errors'⟩
  · rfl
  · rfl
  · rfl
  · rcases h with h | h <;> cases h

theorem isUnmixed_ofParsed (hx : x.IsUnmixed) (hy : y.IsUnmixed) : (ofParsed x y).IsUnmixed := by
  cases hx with
  | success s =>
    cases hy with
    | success t => exact .success _
    | failure h => exact .failure (mt List.map_eq_nil_iff.mp h)
  | failure h =>
    rw [ofParsed_failure (.inl rfl)]
    refine .failure (mt List.append_eq_nil_iff.mp ?_)
    rintro ⟨hnil, -⟩
    exact h (List.map_eq_nil_iff.mp hnil)

/-- The report of a comparison never mixes findings with errors. -/
theorem isUnmixed_of_run {report : Report Comparison} (h : run order f g old new = .ok report) :
    report.IsUnmixed := by
  obtain ⟨x, y, hx, hy, rfl⟩ := exists_of_run h
  exact isUnmixed_ofParsed (Topology.isUnmixed_of_parse hx) (Topology.isUnmixed_of_parse hy)

theorem run_eq_ok_iff {c : Comparison} :
    run order f g old new = .ok (.success c) ↔
      ∃ s t, Topology.parse order f old = .ok (.success s) ∧
        Topology.parse order g new = .ok (.success t) ∧ c = ofTopologies s t := by
  constructor
  · intro h
    obtain ⟨x, y, hx, hy, hc⟩ := exists_of_run h
    -- neither side can have failed
    rcases Topology.parse_cases hx with ⟨s, rfl⟩ | ⟨e, rfl⟩
    · rcases Topology.parse_cases hy with ⟨t, rfl⟩ | ⟨e, rfl⟩
      · exact ⟨s, t, hx, hy, Result.success_inj.mp hc⟩
      · rw [ofParsed_failure (.inr rfl)] at hc
        exact absurd hc (Result.success_ne_failure _ _)
    · rw [ofParsed_failure (.inl rfl)] at hc
      exact absurd hc (Result.success_ne_failure _ _)
  · rintro ⟨s, t, hs, ht, rfl⟩
    exact run_of_parsed hs ht

end Comparison

end TopologyAudit
