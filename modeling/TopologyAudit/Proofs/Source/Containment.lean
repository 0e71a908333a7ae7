import TopologyAudit.Proofs.Outcome
import TopologyAudit.Proofs.Source.Parse
import TopologyAudit.Proofs.Yaml.Document

/-!
# What leaves the parser

Callers of the parser are promised an answer whatever the format and the text: a topology,
or one error whose kind tells the step that failed (`Topology.Contains`). The promise is
kept exactly when the format can be shown and the text, if it is to be read as YAML, breaks
no conversion; JSON breaks none, and YAML only for a cause that can be seen in the text
(`Topology.contains_iff`).
-/

namespace TopologyAudit

namespace Topology

variable {order : SetOrder} {format : Value} {t : Text} {f : SourceFormat}

open Result (success_inj failure_inj success_ne_failure)

/-! ## The promise -/

/-- What callers are promised of a format and a text. There is a result, a
topology without errors or one error without a topology. The kind of the error tells which step
failed: the format is rejected, the text does not load, or the tree has not the shape of a
config. -/
structure Contains (order : SetOrder) (format : Value) (t : Text) : Prop where
  returns : ∃ result, parse order format t = .ok result ∧
    ((∃ topology, result = .success topology) ∨ ∃ e, result = .failure [e])
  ofFormat : (∃ e, parse order format t = .ok (.failure [e]) ∧ e.kind = "format") ↔
    ∃ e, SourceFormat.ofValue format = .error e
  ofSyntax : (∃ e, parse order format t = .ok (.failure [e]) ∧ e.kind = "syntax") ↔
    ∃ f, SourceFormat.ofValue format = .ok f ∧ ∀ tree, f.load order t ≠ .ok (.ok tree)
  ofSchema : (∃ e, parse order format t = .ok (.failure [e]) ∧ e.kind = "schema") ↔
    ∃ f tree issues, SourceFormat.ofValue format = .ok f ∧ f.load order t = .ok (.ok tree) ∧
      Schema.check tree = .failed issues
  ofTopology : (∃ topology, parse order format t = .ok (.success topology)) ↔
    ∃ f tree services, SourceFormat.ofValue format = .ok f ∧ f.load order t = .ok (.ok tree) ∧
      Schema.check tree = .ok services

/-- The names of the steps are different. -/
theorem kinds_ne : ("format" : Text) ≠ "syntax" ∧ ("format" : Text) ≠ "schema" ∧
    ("syntax" : Text) ≠ "schema" := by
  decide

/-- An answer keeps the promise: its kind is that of the step that failed. -/
theorem contains_of_answer {answer : ParseResult} (h : parse order format t = .ok answer) :
    Contains order format t := by
  obtain ⟨hfs, hfc, hsc⟩ := kinds_ne
  have hreturns : ∃ result, parse order format t = .ok result ∧
      ((∃ topology, result = .success topology) ∨ ∃ e, result = .failure [e]) :=
    ⟨answer, h, parse_cases h⟩
  cases hf : SourceFormat.ofValue format with
  | error e =>
    cases e with
    | unknown shown =>
      have hparse : parse order format t = .ok (.failure [.format shown]) := parse_of_unknown hf
      refine ⟨hreturns, ?_, ?_, ?_, ?_⟩ <;>
        simp [hparse, hf, ParseError.kind, hfs, hfc, failure_inj, (success_ne_failure _ _).symm]
    -- an answer rules this out
    | tooLong =>
      rw [parse_of_tooLong hf] at h
      cases h
  | ok f =>
    cases hload : f.load order t with
    | error e =>
      rw [parse_of_broken hf hload] at h
      cases h
    | ok loaded =>
      cases loaded with
      | error e =>
        have hparse := parse_of_refused hf hload
        refine ⟨hreturns, ?_, ?_, ?_, ?_⟩ <;>
          simp [hparse, hf, hload, ParseError.kind, hfs.symm, hsc, failure_inj,
            (success_ne_failure _ _).symm]
      | ok tree =>
        have hparse := parse_of_loaded hf hload
        cases hcheck : Schema.check tree with
        | failed issues =>
          refine ⟨hreturns, ?_, ?_, ?_, ?_⟩ <;>
            simp [hparse, hf, hload, hcheck, ofTree, ParseError.kind, hfc.symm, hsc.symm,
              failure_inj, (success_ne_failure _ _).symm]
        | ok services =>
          refine ⟨hreturns, ?_, ?_, ?_, ?_⟩ <;>
            simp [hparse, hf, hload, hcheck, ofTree, success_inj, success_ne_failure]

/-- **The parser keeps its promise** exactly when the format can be shown and YAML breaks no
conversion; and what breaks one has a cause in the text. -/
theorem contains_iff (order : SetOrder) (format : Value) (t : Text) :
    (Contains order format t ↔
      ¬format.IsOversized ∧
        (SourceFormat.ofValue format = .ok .yaml →
          ∀ b, Yaml.Document.read order Schema.depth t ≠ .error (.broken b))) ∧
      ∀ b, Yaml.Document.read order Schema.depth t = .error (.broken b) →
        Yaml.Document.Cause t b := by
  refine ⟨⟨?_, ?_⟩, fun b h => Yaml.Document.cause_of_broken h⟩
  · intro h
    obtain ⟨answer, h, -⟩ := h.returns
    have hnot : ∀ e, parse order format t ≠ .error e := by
      intro e he
      rw [h] at he
      cases he
    constructor
    -- a format that cannot be shown is neither known nor rejected
    · intro hlong
      exact hnot _ (parse_eq_error.mpr (Or.inl ⟨hlong, rfl⟩))
    · intro hyaml b hread
      have hload := SourceFormat.load_eq_error.mpr ⟨rfl, b, hread, rfl⟩
      exact hnot _ (parse_eq_error.mpr (Or.inr ⟨.yaml, hyaml, hload⟩))
  · intro hr
    obtain ⟨hshown, hread⟩ := hr
    cases hparse : parse order format t with
    | ok answer => exact contains_of_answer hparse
    | error e =>
      exfalso
      rcases parse_eq_error.mp hparse with ⟨hlong, -⟩ | ⟨f, hf, hload⟩
      · exact hshown hlong
      · obtain ⟨rfl, b, hbroken, -⟩ := SourceFormat.load_eq_error.mp hload
        exact hread hf b hbroken

/-- A number of no digits breaks the promise. -/
theorem not_contains_of_empty_number :
    parse .asWritten (.text "yaml") "!!int ''" = .error (.conversion .emptyNumber) ∧
      ¬Contains .asWritten (.text "yaml") "!!int ''" := by
  have hparse : parse .asWritten (.text "yaml") "!!int ''" =
      .error (.conversion .emptyNumber) := by
    decide +kernel
  refine ⟨hparse, ?_⟩
  intro h
  obtain ⟨answer, h, -⟩ := h.returns
  rw [hparse] at h
  cases h

/-! Texts without tags break it as well: by an escape, and by a double in base sixty. A quoted
mark that has a tag by its content is refused, which keeps the promise. -/

example : parse .asWritten (.text "yaml") "\"\\UFFFFFFFF\"" =
    .error (.conversion .hugeEscape) := by
  decide +kernel

example : parse .asWritten (.text "yaml") (Text.join ":" (List.replicate 175 "1") ++ ".0") =
    .error (.conversion .hugePlaceValue) := by
  decide +kernel

example : (parse .asWritten (.text "yaml") "- ! \"!\"\n- !!int ''").map (·.errors.map (·.kind)) =
    .ok ["syntax"] := by
  decide +kernel

end Topology

end TopologyAudit
