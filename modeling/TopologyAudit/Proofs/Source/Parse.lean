import TopologyAudit.Proofs.Record.Display
import TopologyAudit.Proofs.Result
import TopologyAudit.Source.Parse

/-!
# What the parser comes to

The parser goes through its steps until one of them fails, and each step says what it comes to
(`Topology.parse_of_unknown`, `Topology.parse_of_refused`, `Topology.parse_of_loaded`). So what it
comes to is told by the last step (`Topology.exists_step_of_parse`), and it is a topology alone or
one error alone (`Topology.parse_cases`).
-/

namespace TopologyAudit

/-- Only a broken YAML text leaves the loader without an answer. -/
theorem SourceFormat.load_eq_error {order : SetOrder} {f : SourceFormat} {t : Text}
    {e : Breakdown} :
    f.load order t = .error e ↔
      f = .yaml ∧ ∃ b, Yaml.Document.read order Schema.depth t = .error (.broken b) ∧
        e = .conversion b := by
  cases f with
  | json =>
    rw [SourceFormat.load]
    cases Json.read t <;> simp
  | yaml =>
    rw [SourceFormat.load]
    cases h : Yaml.Document.read order Schema.depth t with
    | ok tree => simp
    | error stop => cases stop <;> simp [eq_comm]

theorem SourceFormat.ofValue_eq_tooLong {format : Value} :
    SourceFormat.ofValue format = .error .tooLong ↔ format.IsOversized := by
  unfold SourceFormat.ofValue
  split
  next => exact ⟨nofun, nofun⟩
  next =>
    rw [← Value.shown?_eq_none]
    split
    next h => simp [h]
    next shown h =>
      rw [h]
      split
      next => simp
      next => simp

/-- The name of a format names it. -/
theorem SourceFormat.ofValue_name (f : SourceFormat) : ofValue (.text f.name) = .ok f := by
  cases f <;> decide

namespace Topology

variable {order : SetOrder} {format : Value} {t : Text} {f : SourceFormat}

/-! ## The steps -/

theorem parse_of_unknown {shown : Text} (h : SourceFormat.ofValue format = .error (.unknown shown)) :
    parse order format t = .ok (.failure [.format shown]) := by
  rw [parse, h]

theorem parse_of_tooLong (h : SourceFormat.ofValue format = .error .tooLong) :
    parse order format t = .error .format := by
  rw [parse, h]

theorem parse_of_known (hf : SourceFormat.ofValue format = .ok f) :
    parse order format t = parseAs order f t := by
  rw [parse, hf]

theorem parse_of_broken {e : Breakdown} (hf : SourceFormat.ofValue format = .ok f)
    (h : f.load order t = .error e) : parse order format t = .error e := by
  rw [parse_of_known hf, parseAs, h]
  rfl

theorem parse_of_refused {e : LoadError} (hf : SourceFormat.ofValue format = .ok f)
    (h : f.load order t = .ok (.error e)) : parse order format t = .ok (.failure [.load e]) := by
  rw [parse_of_known hf, parseAs, h]
  rfl

theorem parse_of_loaded {tree : Tree} (hf : SourceFormat.ofValue format = .ok f)
    (h : f.load order t = .ok (.ok tree)) :
    parse order format t = .ok (ofTree ⟨f, some (fingerprint t)⟩ tree) := by
  rw [parse_of_known hf, parseAs, h]
  rfl

/-- The parser breaks down when the format cannot be shown or the loader breaks down. -/
theorem parse_eq_error {e : Breakdown} :
    parse order format t = .error e ↔
      format.IsOversized ∧ e = .format ∨
        ∃ f, SourceFormat.ofValue format = .ok f ∧ f.load order t = .error e := by
  rw [← SourceFormat.ofValue_eq_tooLong]
  cases hf : SourceFormat.ofValue format with
  | error reason =>
    cases reason with
    | unknown shown => simp [parse_of_unknown hf]
    | tooLong => simp [parse_of_tooLong hf, eq_comm]
  | ok f =>
    cases hload : f.load order t with
    | error e => simp [parse_of_broken hf hload, hload]
    | ok loaded =>
      cases loaded with
      | error e => simp [parse_of_refused hf hload, hload]
      | ok tree => simp [parse_of_loaded hf hload, hload]

/-- A result comes from the step that was the last one. -/
theorem exists_step_of_parse {result : ParseResult} (h : parse order format t = .ok result) :
    (∃ shown, result = .failure [.format shown]) ∨
      ∃ f, SourceFormat.ofValue format = .ok f ∧
        ((∃ e, f.load order t = .ok (.error e) ∧ result = .failure [.load e]) ∨
          ∃ tree, f.load order t = .ok (.ok tree) ∧
            result = ofTree ⟨f, some (fingerprint t)⟩ tree) := by
  cases hf : SourceFormat.ofValue format with
  | error e =>
    cases e with
    | unknown shown => exact Or.inl ⟨shown, Except.ok.inj (h.symm.trans (parse_of_unknown hf))⟩
    | tooLong => exact nomatch h.symm.trans (parse_of_tooLong hf)
  | ok f =>
    refine Or.inr ⟨f, rfl, ?_⟩
    cases hload : f.load order t with
    | error e => exact nomatch h.symm.trans (parse_of_broken hf hload)
    | ok loaded =>
      cases loaded with
      | error e =>
        exact Or.inl ⟨e, rfl, Except.ok.inj (h.symm.trans (parse_of_refused hf hload))⟩
      | ok tree =>
        exact Or.inr ⟨tree, rfl, Except.ok.inj (h.symm.trans (parse_of_loaded hf hload))⟩

/-! ## Results -/

section

variable {metadata : Metadata} {tree : Tree} {topology : Topology} {result : ParseResult}

theorem ofTree_eq_success_iff :
    ofTree metadata tree = .success topology ↔
      Schema.check tree = .ok topology.services ∧ topology.metadata = metadata := by
  obtain ⟨services, metadata'⟩ := topology
  unfold ofTree
  cases Schema.check tree with
  | ok services' => simp [Result.success, eq_comm]
  | failed issues => simp [Result.success, Result.failure]

theorem exists_ofTree (metadata : Metadata) (tree : Tree) :
    (∃ topology, ofTree metadata tree = .success topology) ∨
      ∃ e, ofTree metadata tree = .failure [e] := by
  unfold ofTree
  split
  next => exact Or.inl ⟨_, rfl⟩
  next => exact Or.inr ⟨_, rfl⟩

/-- **What the parser comes to** is a topology without errors, or one error without a topology. -/
theorem parse_cases (h : parse order format t = .ok result) :
    (∃ topology, result = .success topology) ∨ ∃ e, result = .failure [e] := by
  rcases exists_step_of_parse h with ⟨shown, rfl⟩ | ⟨f, -, ⟨e, -, rfl⟩ | ⟨tree, -, rfl⟩⟩
  · exact Or.inr ⟨_, rfl⟩
  · exact Or.inr ⟨_, rfl⟩
  · exact exists_ofTree ..

/-- What parses comes from a tree that the schema accepts, and it carries the fingerprint of its
text. -/
theorem exists_check_of_parse (h : parse order format t = .ok (.success topology)) :
    ∃ f tree, Schema.check tree = .ok topology.services ∧
      topology.metadata = ⟨f, some (fingerprint t)⟩ := by
  rcases exists_step_of_parse h with ⟨shown, hfail⟩ | ⟨f, -, ⟨e, -, hfail⟩ | ⟨tree, -, htree⟩⟩
  · exact absurd hfail (Result.success_ne_failure _ _)
  · exact absurd hfail (Result.success_ne_failure _ _)
  · obtain ⟨hcheck, hmetadata⟩ := ofTree_eq_success_iff.mp htree.symm
    exact ⟨f, tree, hcheck, hmetadata⟩

/-- There is one error, unless there is a topology. -/
theorem length_messages_of_parse (h : parse order format t = .ok result) :
    result.messages.length = if result.isOk then 0 else 1 := by
  rcases parse_cases h with ⟨topology, rfl⟩ | ⟨e, rfl⟩ <;> rfl

/-- A result never mixes a topology with errors. -/
theorem isUnmixed_of_parse (h : parse order format t = .ok result) : result.IsUnmixed := by
  rcases parse_cases h with ⟨topology, rfl⟩ | ⟨e, rfl⟩
  · exact .success topology
  · exact .failure (List.cons_ne_nil e [])

end

end Topology

end TopologyAudit
