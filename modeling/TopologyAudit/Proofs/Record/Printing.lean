import Mathlib.Tactic.MkIffOfInductiveProp
import TopologyAudit.Proofs.Json.Printer
import TopologyAudit.Proofs.Record.RoundTrip
import TopologyAudit.Report.Comparison

/-!
# Which reports are written

Of what the schema accepts, two things have no form in a style: a port of too many digits
and, unless the style names them, a limit that is a double but not finite. A limit that is
an integer rounds to a finite double, which is far below the bound on digits. So a
topology is written exactly when its ports and limits are (`Topology.isWritable_wire`).
Violations and changes hold texts, and of a drift only the totals may be too long.
-/

namespace TopologyAudit

open Json (Style IsWritable)

variable {style : Style}

/-! ## Records on the wire -/

/-- That attributes of these names go on the wire, each under a name of its own. -/
def FieldName.AreKept (names : List Text) : Prop :=
  (names.map FieldName.wire).Nodup ∧ ∀ name ∈ names, FieldName.isHidden name = false

instance (names : List Text) : Decidable (FieldName.AreKept names) :=
  inferInstanceAs (Decidable (_ ∧ _))

namespace Value

theorem isWritable_wireAttributes {attributes : List (Text × Value)}
    (hhidden : ∀ name ∈ attributes.map (·.1), FieldName.isHidden name = false) :
    (∀ f ∈ wireAttributes attributes, f.2.IsWritable style) ↔
      ∀ a ∈ attributes, a.2.wire.IsWritable style := by
  induction attributes with
  | nil => exact ⟨nofun, nofun⟩
  | cons a rest ih =>
    obtain ⟨name, value⟩ := a
    obtain ⟨hname, hrest⟩ := List.forall_mem_cons.mp hhidden
    rw [wireAttributes, List.forall_mem_cons, ← ih hrest]
    split
    next => exact List.forall_mem_cons
    next hshown =>
      -- only null is left out, and null is always written
      have hnull : value.wire.IsWritable style := by
        cases value with
        | null => exact Json.isWritable_null
        | _ => exact absurd (by rw [isShown, hname]; rfl) hshown
      exact (and_iff_right hnull).symm

/-- A record that loses no attribute on the wire is written when its attributes are. -/
theorem isWritable_wire_record (names : List Text) {attributes : List (Text × Value)}
    (hnames : attributes.map (·.1) = names) (hkept : FieldName.AreKept names) :
    (record attributes).wire.IsWritable style ↔
      ∀ a ∈ attributes, a.2.wire.IsWritable style := by
  subst hnames
  rw [wire_record hkept.1, Json.isWritable_object, isWritable_wireAttributes hkept.2]

@[simp]
theorem isWritable_wire_bool (b : Bool) : (bool b).wire.IsWritable style :=
  Json.isWritable_bool b

@[simp]
theorem isWritable_wire_text (t : Text) : (text t).wire.IsWritable style :=
  Json.isWritable_text t

@[simp]
theorem isWritable_wire_word (w : Word) : (word w).wire.IsWritable style :=
  Json.isWritable_text w.name

@[simp]
theorem isWritable_wire_int {n : Int} :
    (int n).wire.IsWritable style ↔ n.natAbs < 10 ^ Integer.digitLimit := by
  rw [wire_int, Json.isWritable_int]

@[simp]
theorem isWritable_wire_list {α : Type} {toValue : α → Value} {list : List α} :
    (Value.list (list.map toValue)).wire.IsWritable style ↔
      ∀ a ∈ list, (toValue a).wire.IsWritable style := by
  rw [wire_list, Json.isWritable_array, List.map_map, List.forall_mem_map]
  rfl

@[simp]
theorem isWritable_wire_tuple {α : Type} {toValue : α → Value} {list : List α} :
    (tuple (list.map toValue)).wire.IsWritable style ↔
      ∀ a ∈ list, (toValue a).wire.IsWritable style :=
  isWritable_wire_list

@[simp]
theorem isWritable_wire_ofOption {α : Type} {toValue : α → Value} {o : Option α} :
    (ofOption toValue o).wire.IsWritable style ↔ ∀ a ∈ o, (toValue a).wire.IsWritable style := by
  cases o with
  | none => exact ⟨fun _ => nofun, fun _ => rfl⟩
  | some a => exact ⟨fun h b hb => Option.mem_some.mp hb ▸ h, fun h => h a rfl⟩

end Value

/-! ## Topologies -/

/-- That a style has a form for an amount that configs can express. -/
def Amount.IsPrintable (style : Style) : Amount → Prop
  | .int _ => True
  | .float x => style.allowNonFinite = true ∨ x.isFinite = true

/-- That a style has a form for limits. -/
@[mk_iff]
structure Limits.IsPrintable (style : Style) (l : Limits) : Prop where
  cpu : ∀ a ∈ l.cpu, a.IsPrintable style
  memoryMb : ∀ a ∈ l.memoryMb, a.IsPrintable style

/-- That a style has a form for a service. -/
@[mk_iff]
structure Service.IsPrintable (style : Style) (s : Service) : Prop where
  port : ∀ b ∈ s.network, b.port.natAbs < 10 ^ Integer.digitLimit
  limits : ∀ l ∈ s.limits, l.IsPrintable style

/-- That a style has a form for a topology. -/
def Topology.IsPrintable (style : Style) (t : Topology) : Prop :=
  ∀ s ∈ t.services, s.IsPrintable style

instance : (a : Amount) → Decidable (a.IsPrintable style)
  | .int _ => inferInstanceAs (Decidable True)
  | .float _ => inferInstanceAs (Decidable (_ ∨ _))

instance (l : Limits) : Decidable (l.IsPrintable style) :=
  decidable_of_iff _ (l.isPrintable_iff style).symm

instance (s : Service) : Decidable (s.IsPrintable style) :=
  decidable_of_iff _ (s.isPrintable_iff style).symm

instance (t : Topology) : Decidable (t.IsPrintable style) :=
  inferInstanceAs (Decidable (∀ s ∈ t.services, s.IsPrintable style))

theorem Amount.isWritable_wire {a : Amount} (h : a.IsExpressible) :
    a.toValue.wire.IsWritable style ↔ a.IsPrintable style := by
  cases a with
  | int n =>
    rw [toValue, Value.wire_int, Json.isWritable_int, ← Json.refusesInt_eq_false_iff]
    exact iff_of_true (Json.refusesInt_of_isFinite h) trivial
  | float x => rw [toValue, Value.wire_float, Json.isWritable_float, IsPrintable]

theorem Binding.isWritable_wire (b : Binding) :
    b.toValue.wire.IsWritable style ↔ b.port.natAbs < 10 ^ Integer.digitLimit := by
  rw [toValue, Value.isWritable_wire_record ["host", "port", "protocol"] rfl (by decide)]
  simp

theorem Limits.isWritable_wire {l : Limits} (h : l.IsExpressible) :
    l.toValue.wire.IsWritable style ↔ l.IsPrintable style := by
  rw [toValue, Value.isWritable_wire_record ["cpu", "memory_mb"] rfl (by decide), isPrintable_iff,
    List.forall_mem_cons, List.forall_mem_singleton, Value.isWritable_wire_ofOption,
    Value.isWritable_wire_ofOption]
  exact and_congr (forall₂_congr fun a ha => Amount.isWritable_wire (h.cpu a ha))
    (forall₂_congr fun a ha => Amount.isWritable_wire (h.memoryMb a ha))

theorem Service.isWritable_wire {s : Service} (h : s.IsExpressible) :
    s.toValue.wire.IsWritable style ↔ s.IsPrintable style := by
  have hlimits : (∀ l ∈ s.limits, l.toValue.wire.IsWritable style) ↔
      ∀ l ∈ s.limits, l.IsPrintable style :=
    forall₂_congr fun l hl => Limits.isWritable_wire (h.limits l hl)
  rw [toValue, Value.isWritable_wire_record ["name", "type", "public", "handles_pii", "network",
    "depends_on", "resource_limits"] rfl (by decide), isPrintable_iff, ← hlimits]
  -- only the bindings and the limits hold numbers
  simp [Binding.isWritable_wire]

/-- The metadata of a topology is texts. -/
theorem Metadata.isWritable_wire (m : Metadata) : m.toValue.wire.IsWritable style := by
  rw [toValue, Value.isWritable_wire_record ["source_format", "raw_hash"] rfl (by decide)]
  simp

/-- **Which topologies are written.** -/
theorem Topology.isWritable_wire {t : Topology} (h : t.IsExpressible) :
    t.wire.IsWritable style ↔ t.IsPrintable style := by
  have hservices : (∀ s ∈ t.services, s.toValue.wire.IsWritable style) ↔ t.IsPrintable style :=
    forall₂_congr fun s hs => Service.isWritable_wire (h s hs)
  rw [wire, toValue, Value.isWritable_wire_record ["services", "metadata"] rfl (by decide),
    ← hservices]
  simp [Metadata.isWritable_wire]

/-! ## Violations and drifts -/

/-- A violation is texts. -/
theorem Violation.isWritable_wire (v : Violation) : v.toValue.wire.IsWritable style := by
  rw [toValue, Value.isWritable_wire_record ["id", "description", "service_name", "severity"] rfl
    (by decide)]
  simp

theorem Violation.isWritable_wireList (vs : List Violation) :
    (Violation.wireList vs).IsWritable style := by
  rw [wireList, Value.isWritable_wire_list]
  exact fun v _ => v.isWritable_wire

/-- A change is texts. -/
theorem Change.isWritable_wire (c : Change) : c.toValue.wire.IsWritable style := by
  rw [toValue, Value.isWritable_wire_record ["service_name", "messages", "risk_impact"] rfl
    (by decide)]
  simp

/-- That the totals of a drift can be written. -/
@[mk_iff]
structure Drift.IsPrintable (d : Drift) : Prop where
  introduced : d.introduced < 10 ^ Integer.digitLimit
  resolved : d.resolved < 10 ^ Integer.digitLimit

/-- **Which drifts are written.** -/
theorem Drift.isWritable_wire (d : Drift) : d.wire.IsWritable style ↔ d.IsPrintable := by
  rw [wire, toValue, Value.isWritable_wire_record ["summary", "changes"] rfl (by decide),
    isPrintable_iff, List.forall_mem_cons, Value.isWritable_wire_record
      ["total_new_violations", "total_resolved_violations"] rfl (by decide)]
  simp [Change.isWritable_wire]

/-! ## Reports -/

/-- Errors are texts, so a report is written when its fields are. -/
theorem Report.isWritable_toJson {α : Type} {fields : α → List (Text × Json)} {r : Report α} :
    (Report.toJson fields r).IsWritable style ↔
      ∀ a ∈ r.value, ∀ f ∈ fields a, f.2.IsWritable style := by
  have herrors : (Json.array (r.errors.map .text)).IsWritable style := by simp
  unfold toJson
  cases r.value with
  | none => simp [herrors]
  | some a => simp [herrors, or_imp, forall_and]

theorem Analysis.isWritable_toJson {t : Topology} (h : t.IsExpressible) :
    (toJson (.success (ofTopology t))).IsWritable style ↔ t.IsPrintable style := by
  rw [toJson, Report.isWritable_toJson]
  simp [Result.success, fields, ofTopology, Topology.isWritable_wire h,
    Violation.isWritable_wireList]

/-- That a style has a form for a comparison. -/
@[mk_iff]
structure Comparison.IsPrintable (style : Style) (c : Comparison) : Prop where
  drift : c.drift.IsPrintable
  old : c.oldTopology.IsPrintable style
  new : c.newTopology.IsPrintable style

theorem Comparison.isWritable_toJson {c : Comparison} (hold : c.oldTopology.IsExpressible)
    (hnew : c.newTopology.IsExpressible) :
    (toJson (.success c)).IsWritable style ↔ c.IsPrintable style := by
  rw [toJson, Report.isWritable_toJson]
  simp [Result.success, fields, isPrintable_iff, Drift.isWritable_wire,
    Topology.isWritable_wire hold, Topology.isWritable_wire hnew, Violation.isWritable_wireList]

end TopologyAudit
