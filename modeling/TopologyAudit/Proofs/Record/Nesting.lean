import TopologyAudit.Proofs.Json.Reading
import TopologyAudit.Proofs.Record.Wire
import TopologyAudit.Report.Comparison

/-!
# How deep reports are nested

A report is nested as deep as the levels of the model go, however many services, bindings and
changes it lists: six brackets at most, far from what the reader gives up at.
-/

namespace TopologyAudit

namespace Json

variable {n : Nat}

theorem nestingItems_le {items : List Json} (h : ∀ item ∈ items, item.nesting ≤ n) :
    nestingItems items ≤ n := by
  induction items with
  | nil => exact Nat.zero_le n
  | cons item rest ih =>
    obtain ⟨hitem, hrest⟩ := List.forall_mem_cons.mp h
    exact Nat.max_le.mpr ⟨hitem, ih hrest⟩

theorem nestingFields_le {fields : List (Text × Json)} (h : ∀ f ∈ fields, f.2.nesting ≤ n) :
    nestingFields fields ≤ n := by
  induction fields with
  | nil => exact Nat.zero_le n
  | cons f rest ih =>
    obtain ⟨name, value⟩ := f
    obtain ⟨hvalue, hrest⟩ := List.forall_mem_cons.mp h
    exact Nat.max_le.mpr ⟨hvalue, ih hrest⟩

theorem nesting_array_le {items : List Json} (h : ∀ item ∈ items, item.nesting ≤ n) :
    (array items).nesting ≤ n + 1 :=
  Nat.succ_le_succ (nestingItems_le h)

theorem nesting_object_le {fields : List (Text × Json)} (h : ∀ f ∈ fields, f.2.nesting ≤ n) :
    (object fields).nesting ≤ n + 1 :=
  Nat.succ_le_succ (nestingFields_le h)

end Json

namespace Value

variable {n : Nat}

theorem nesting_wireAttributes_le {attributes : List (Text × Value)}
    (h : ∀ a ∈ attributes, a.2.wire.nesting ≤ n) :
    ∀ f ∈ wireAttributes attributes, f.2.nesting ≤ n := by
  induction attributes with
  | nil => exact nofun
  | cons a rest ih =>
    obtain ⟨name, value⟩ := a
    obtain ⟨hvalue, hrest⟩ := List.forall_mem_cons.mp h
    rw [wireAttributes]
    split
    next => exact List.forall_mem_cons.mpr ⟨hvalue, ih hrest⟩
    next => exact ih hrest

/-- A record is nested one level deeper than its attributes. -/
theorem nesting_wire_record_le (names : List Text) {attributes : List (Text × Value)}
    (hnames : attributes.map (·.1) = names) (hnodup : (names.map FieldName.wire).Nodup)
    (h : ∀ a ∈ attributes, a.2.wire.nesting ≤ n) : (record attributes).wire.nesting ≤ n + 1 := by
  subst hnames
  rw [wire_record hnodup]
  exact Json.nesting_object_le (nesting_wireAttributes_le h)

theorem nesting_wire_list_le {α : Type} {toValue : α → Value} {list : List α}
    (h : ∀ a ∈ list, (toValue a).wire.nesting ≤ n) :
    (Value.list (list.map toValue)).wire.nesting ≤ n + 1 := by
  rw [wire_list, List.map_map]
  exact Json.nesting_array_le (List.forall_mem_map.mpr h)

theorem nesting_wire_tuple_le {α : Type} {toValue : α → Value} {list : List α}
    (h : ∀ a ∈ list, (toValue a).wire.nesting ≤ n) :
    (tuple (list.map toValue)).wire.nesting ≤ n + 1 :=
  nesting_wire_list_le h

theorem nesting_wire_ofOption_le {α : Type} {toValue : α → Value}
    (h : ∀ a, (toValue a).wire.nesting ≤ n) (o : Option α) :
    (ofOption toValue o).wire.nesting ≤ n := by
  cases o with
  | none => exact Nat.zero_le n
  | some a => exact h a

end Value

/-! ## The levels of the model -/

theorem Amount.nesting_wire (a : Amount) : a.toValue.wire.nesting = 0 := by
  cases a <;> rfl

theorem Binding.nesting_wire_le (b : Binding) : b.toValue.wire.nesting ≤ 1 := by
  refine Value.nesting_wire_record_le ["host", "port", "protocol"] rfl (by decide) ?_
  simp [Json.nesting]

theorem Limits.nesting_wire_le (l : Limits) : l.toValue.wire.nesting ≤ 1 := by
  refine Value.nesting_wire_record_le ["cpu", "memory_mb"] rfl (by decide) ?_
  simp only [List.forall_mem_cons]
  exact ⟨Value.nesting_wire_ofOption_le (fun a => a.nesting_wire.le) _,
    Value.nesting_wire_ofOption_le (fun a => a.nesting_wire.le) _, nofun⟩

theorem Service.nesting_wire_le (s : Service) : s.toValue.wire.nesting ≤ 3 := by
  refine Value.nesting_wire_record_le ["name", "type", "public", "handles_pii", "network",
    "depends_on", "resource_limits"] rfl (by decide) ?_
  simp only [List.forall_mem_cons]
  have hlimits : ∀ l : Limits, l.toValue.wire.nesting ≤ 2 := fun l =>
    Nat.le_succ_of_le l.nesting_wire_le
  exact ⟨Nat.zero_le _, Nat.zero_le _, Nat.zero_le _, Nat.zero_le _,
    Value.nesting_wire_tuple_le fun b _ => b.nesting_wire_le,
    Value.nesting_wire_tuple_le fun _ _ => Nat.zero_le _,
    Value.nesting_wire_ofOption_le hlimits _, nofun⟩

theorem Metadata.nesting_wire_le (m : Metadata) : m.toValue.wire.nesting ≤ 1 := by
  refine Value.nesting_wire_record_le ["source_format", "raw_hash"] rfl (by decide) ?_
  simp only [List.forall_mem_cons]
  exact ⟨Nat.zero_le _, Value.nesting_wire_ofOption_le (fun _ => Nat.zero_le _) _, nofun⟩

theorem Topology.nesting_wire_le (t : Topology) : t.wire.nesting ≤ 5 := by
  refine Value.nesting_wire_record_le ["services", "metadata"] rfl (by decide) ?_
  simp only [List.forall_mem_cons]
  exact ⟨Value.nesting_wire_tuple_le fun s _ => s.nesting_wire_le,
    Nat.le_trans t.metadata.nesting_wire_le (by decide), nofun⟩

theorem Violation.nesting_wire_le (v : Violation) : v.toValue.wire.nesting ≤ 1 := by
  refine Value.nesting_wire_record_le ["id", "description", "service_name", "severity"] rfl
    (by decide) ?_
  simp [Json.nesting]

theorem Violation.nesting_wireList_le (vs : List Violation) : (Violation.wireList vs).nesting ≤ 2 :=
  Value.nesting_wire_list_le fun v _ => v.nesting_wire_le

theorem Change.nesting_wire_le (c : Change) : c.toValue.wire.nesting ≤ 2 := by
  refine Value.nesting_wire_record_le ["service_name", "messages", "risk_impact"] rfl (by decide) ?_
  simp only [List.forall_mem_cons]
  exact ⟨Nat.zero_le _, Value.nesting_wire_tuple_le fun _ _ => Nat.zero_le _, Nat.zero_le _, nofun⟩

theorem Drift.nesting_wire_le (d : Drift) : d.wire.nesting ≤ 4 := by
  have hsummary : (Value.record [("total_new_violations", .int d.introduced),
      ("total_resolved_violations", .int d.resolved)]).wire.nesting ≤ 1 := by
    refine Value.nesting_wire_record_le ["total_new_violations", "total_resolved_violations"] rfl
      (by decide) ?_
    simp [Json.nesting]
  refine Value.nesting_wire_record_le ["summary", "changes"] rfl (by decide) ?_
  simp only [List.forall_mem_cons]
  exact ⟨Nat.le_trans hsummary (by decide),
    Value.nesting_wire_tuple_le fun c _ => c.nesting_wire_le, List.forall_mem_nil _⟩

/-! ## Reports -/

theorem Report.nesting_toJson_le {α : Type} {fields : α → List (Text × Json)}
    (h : ∀ a, ∀ f ∈ fields a, f.2.nesting ≤ 5) (r : Report α) :
    (Report.toJson fields r).nesting ≤ 6 := by
  have herrors : ∀ f ∈ [(("errors" : Text), Json.array (r.errors.map .text))],
      f.2.nesting ≤ 5 := by
    refine List.forall_mem_singleton.mpr (Nat.le_trans (Json.nesting_array_le ?_) (by decide : 1 ≤ 5))
    exact List.forall_mem_map.mpr fun _ _ => Nat.le_refl 0
  unfold toJson
  split
  next => exact Json.nesting_object_le herrors
  next a _ => exact Json.nesting_object_le (List.forall_mem_append.mpr ⟨h a, herrors⟩)

theorem Analysis.nesting_toJson_le (r : Report Analysis) : (toJson r).nesting ≤ 6 := by
  refine Report.nesting_toJson_le (fun a => ?_) r
  simp only [fields, List.forall_mem_cons]
  exact ⟨a.topology.nesting_wire_le,
    Nat.le_trans (Violation.nesting_wireList_le a.violations) (by decide), nofun⟩

theorem Comparison.nesting_toJson_le (r : Report Comparison) : (toJson r).nesting ≤ 6 := by
  refine Report.nesting_toJson_le (fun c => ?_) r
  simp only [fields, List.forall_mem_cons]
  exact ⟨Nat.le_trans c.drift.nesting_wire_le (by decide), c.oldTopology.nesting_wire_le,
    c.newTopology.nesting_wire_le,
    Nat.le_trans (Violation.nesting_wireList_le c.oldViolations) (by decide),
    Nat.le_trans (Violation.nesting_wireList_le c.newViolations) (by decide), nofun⟩

end TopologyAudit
