import TopologyAudit.Proofs.Record.Wire
import TopologyAudit.Proofs.Source.Parse
import TopologyAudit.Proofs.Topology.Schema
import TopologyAudit.Record.Topology

/-!
# The wire form of a topology is a config

The schema reads the wire form of an expressible topology back as that topology. The
proof goes up the levels of the model: amounts, bindings, limits, services. On each
level the attributes of the record and the fields of the schema agree on their names
(`wire_fieldName`), so every field finds what its attribute wrote, and a field that finds
nothing has its default just when the attribute holds null.
-/

namespace TopologyAudit

open Schema

/-- The fields that the schema looks up. -/
def Schema.fields : List Schema.FieldName :=
  [.host, .port, .protocol, .cpu, .memoryMb, .serviceName, .kind, .isPublic, .handlesPii,
    .network, .dependsOn, .limits, .services]

/-- **The names agree.** A field is named as the attribute goes on the wire that has its
other name, or its only one. -/
theorem wire_fieldName :
    ∀ f ∈ Schema.fields, FieldName.wire (f.alternative.getD f.name) = f.name := by
  decide

section

variable {attributes : List (Text × Value)}

/-! ## Amounts -/

theorem Amount.read_wire {a : Amount} (h : a.IsExpressible) :
    amount (Tree.ofJson a.toValue.wire) = .ok a := by
  cases a with
  | int n => exact if_pos h
  | float x => rfl

/-- An amount that is there is read back, whatever null would have stood for. -/
theorem Amount.readNullable_wire {a : Amount} (h : a.IsExpressible) :
    nullable amount (Tree.ofJson a.toValue.wire) = .ok (some a) := by
  have hread := Amount.read_wire h
  cases a with
  | int n =>
    show (amount (Tree.ofJson (Amount.int n).toValue.wire)).map some = _
    rw [hread]
    rfl
  | float x => rfl

theorem Amount.isShown_toValue {name : Text} (hname : FieldName.isHidden name = false) (a : Amount) :
    Value.isShown name a.toValue = true := by
  rw [Value.isShown, hname]
  cases a <;> rfl

/-! ## Words -/

/-- A word of a vocabulary is read back if no two words of it are written alike. -/
theorem oneOf_wire {α : Type} {all : List α} {name : α → Text} {a : α}
    (hname : (name a).any CodePoint.isSurrogate = false)
    (hfind : (all.find? fun b => name b == name a) = some a) :
    oneOf all name (.scalar (.text (name a))) = .ok a := by
  -- names are in ASCII: no surrogate spoils them
  unfold oneOf
  simp only [hname, hfind, Bool.false_eq_true, if_false]

theorem Protocol.read_wire (p : Protocol) :
    oneOf Protocol.all Protocol.name (.scalar (.text p.name)) = .ok p := by
  cases p <;> exact oneOf_wire (by decide) (by decide)

theorem ServiceKind.read_wire (k : ServiceKind) :
    oneOf ServiceKind.all ServiceKind.name (.scalar (.text k.name)) = .ok k := by
  cases k <;> exact oneOf_wire (by decide) (by decide)

/-! ## Bindings -/

/-- What a record is read from, if the check is one of mappings. -/
theorem mappingOf_wire {α : Type} {part : Text} {check : List (Scalar × Tree) → Checked α}
    (hn : ((attributes.map (·.1)).map TopologyAudit.FieldName.wire).Nodup) :
    mappingOf part check (Tree.ofJson (Value.record attributes).wire) =
      check (Tree.ofFields (Value.wireAttributes attributes)) := by
  rw [Value.wire_record hn, Tree.ofJson, mappingOf]

/-- A list of records is read back if its items are. -/
theorem listOf_wire {α : Type} (check : Tree → Checked α) (toValue : α → Value) {list : List α}
    (h : ∀ a ∈ list, check (Tree.ofJson (toValue a).wire) = .ok a) :
    listOf check (Tree.ofJson (Value.tuple (list.map toValue)).wire) = .ok list := by
  rw [Value.wire_tuple, Tree.ofJson, Tree.ofItems_eq_map, List.map_map, List.map_map]
  exact Checked.items_map check (fun a => Tree.ofJson (toValue a).wire) 0 h

/-- An attribute that is never null is read back whatever the default. -/
theorem optional_of_shown {α : Type} (f : Schema.FieldName) (default : α)
    (check : Tree → Checked α) (name : Text) (value : Value) {a : α}
    (hn : ((attributes.map (·.1)).map TopologyAudit.FieldName.wire).Nodup)
    (hmem : (name, value) ∈ attributes) (hname : TopologyAudit.FieldName.wire name = f.name)
    (halt : ∀ other ∈ f.alternative,
      other ∉ (attributes.map (·.1)).map TopologyAudit.FieldName.wire)
    (hs : Value.isShown name value = true) (hcheck : check (Tree.ofJson value.wire) = .ok a) :
    optional f default check (Tree.ofFields (Value.wireAttributes attributes)) = .ok a := by
  refine optional_of_attribute f default check name value hn hmem hname halt (fun _ => hcheck) ?_
  intro hhidden
  rw [hs] at hhidden
  exact absurd hhidden (by decide)

theorem isShown_null (name : Text) : Value.isShown name .null = false := by
  rw [Value.isShown, Value.isNull, Bool.not_true, Bool.and_false]

/-- An attribute that may be absent is read back: dropping null loses nothing, because the
field has null for its default. -/
theorem optional_of_option {α : Type} (f : Schema.FieldName) (check : Tree → Checked α)
    (name : Text) (toValue : α → Value) (o : Option α)
    (hn : ((attributes.map (·.1)).map TopologyAudit.FieldName.wire).Nodup)
    (hmem : (name, Value.ofOption toValue o) ∈ attributes)
    (hname : TopologyAudit.FieldName.wire name = f.name)
    (halt : ∀ other ∈ f.alternative,
      other ∉ (attributes.map (·.1)).map TopologyAudit.FieldName.wire)
    (hshown : ∀ a ∈ o, Value.isShown name (toValue a) = true)
    (hcheck : ∀ a ∈ o, nullable check (Tree.ofJson (toValue a).wire) = .ok (some a)) :
    optional f none (nullable check) (Tree.ofFields (Value.wireAttributes attributes)) =
      .ok o := by
  refine optional_of_attribute f none (nullable check) name (Value.ofOption toValue o) hn hmem
    hname halt ?_ ?_
  · intro hs
    cases o with
    -- null is never shown
    | none => exact absurd hs (by rw [Value.ofOption, isShown_null]; decide)
    | some a => exact hcheck a rfl
  · intro hs
    cases o with
    | none => rfl
    | some a => exact absurd (hshown a rfl) (by rw [Value.ofOption] at hs; rw [hs]; decide)

end

def Binding.attributes (b : Binding) : List (Text × Value) :=
  [("host", .text b.host), ("port", .int b.port), ("protocol", .word (.protocol b.protocol))]

theorem Binding.attributes_nodup (b : Binding) :
    ((b.attributes.map (·.1)).map FieldName.wire).Nodup := by
  show ((["host", "port", "protocol"] : List Text).map FieldName.wire).Nodup
  decide

theorem Binding.read_wire {b : Binding} (h : 0 ≤ b.port) :
    Schema.binding (Tree.ofJson b.toValue.wire) = .ok b := by
  have hn := b.attributes_nodup
  have hhost := required_of_attribute .host Schema.text "host" (.text b.host) hn
    (by simp [attributes]) (by decide) rfl rfl rfl
  have hport := required_of_attribute .port natural "port" (.int b.port) hn
    (by simp [attributes]) (by decide) rfl rfl (if_pos h)
  have hprotocol := required_of_attribute .protocol (oneOf Protocol.all Protocol.name)
    "protocol" (.word (.protocol b.protocol)) hn
    (by simp [attributes]) (by decide) rfl rfl (Protocol.read_wire b.protocol)
  show Schema.binding (Tree.ofJson (Value.record b.attributes).wire) = _
  rw [binding, mappingOf_wire hn]
  simp only
  rw [hhost, hport, hprotocol]
  rfl

/-! ## Limits -/

def Limits.attributes (l : Limits) : List (Text × Value) :=
  [("cpu", Value.ofOption Amount.toValue l.cpu),
    ("memory_mb", Value.ofOption Amount.toValue l.memoryMb)]

theorem Limits.attributes_names (l : Limits) :
    (l.attributes.map (·.1)).map FieldName.wire = ["cpu", "memoryMb"] := by
  show (["cpu", "memory_mb"] : List Text).map FieldName.wire = _
  decide

theorem Limits.attributes_nodup (l : Limits) :
    ((l.attributes.map (·.1)).map FieldName.wire).Nodup := by
  rw [l.attributes_names]
  decide

/-- Limits are read back, and limits that leave both open are still limits. -/
theorem Limits.read_wire {l : Limits} (h : l.IsExpressible) :
    Schema.limits (Tree.ofJson l.toValue.wire) = .ok l := by
  have hn := l.attributes_nodup
  have hcpu := optional_of_option .cpu amount "cpu" Amount.toValue l.cpu hn
    (by simp [attributes]) (by decide) (by simp [FieldName.cpu])
    (fun a _ => Amount.isShown_toValue (by decide) a) fun a ha => Amount.readNullable_wire (h.cpu a ha)
  have hmemory := optional_of_option .memoryMb amount "memory_mb" Amount.toValue l.memoryMb hn
    (by simp [attributes]) (by decide) (by rw [l.attributes_names]; decide)
    (fun a _ => Amount.isShown_toValue (by decide) a)
    fun a ha => Amount.readNullable_wire (h.memoryMb a ha)
  show Schema.limits (Tree.ofJson (Value.record l.attributes).wire) = _
  rw [limits, mappingOf_wire hn]
  simp only
  rw [hcpu, hmemory]
  rfl

/-- Limits that leave both open are written as an object without fields, which is not null. -/
theorem Limits.readNullable_wire {l : Limits} (h : l.IsExpressible) :
    nullable Schema.limits (Tree.ofJson l.toValue.wire) = .ok (some l) := by
  have hread := Limits.read_wire h
  rw [Limits.toValue, Value.wire_record_ofList, Tree.ofJson] at hread ⊢
  rw [nullable, hread]
  · rfl
  -- an object is not null
  · intro hnull
    cases hnull

/-! ## Services -/

def Service.attributes (s : Service) : List (Text × Value) :=
  [("name", .text s.name), ("type", .word (.kind s.kind)), ("public", .bool s.isPublic),
    ("handles_pii", .bool s.handlesPii), ("network", .tuple (s.network.map Binding.toValue)),
    ("depends_on", .tuple (s.dependsOn.map .text)),
    ("resource_limits", Value.ofOption Limits.toValue s.limits)]

theorem Service.attributes_names (s : Service) :
    (s.attributes.map (·.1)).map TopologyAudit.FieldName.wire =
      ["name", "type", "public", "handlesPII", "network", "dependsOn", "resourceLimits"] := by
  show (["name", "type", "public", "handles_pii", "network", "depends_on",
    "resource_limits"] : List Text).map TopologyAudit.FieldName.wire = _
  decide

theorem Service.attributes_nodup (s : Service) :
    ((s.attributes.map (·.1)).map TopologyAudit.FieldName.wire).Nodup := by
  rw [s.attributes_names]
  decide

/-- No name that a service has on the wire is the other name of a field. -/
theorem Service.alternative_notMem (s : Service) {f : Schema.FieldName} (hf : f ∈ Schema.fields) :
    ∀ other ∈ f.alternative,
      other ∉ (s.attributes.map (·.1)).map TopologyAudit.FieldName.wire := by
  rw [s.attributes_names]
  revert f
  decide

theorem Service.read_wire {s : Service} (h : s.IsExpressible) :
    Schema.service (Tree.ofJson s.toValue.wire) = .ok s := by
  have hn := s.attributes_nodup
  have hname := required_of_attribute .serviceName Schema.text "name" (.text s.name) hn
    (by simp [attributes]) (by decide) rfl rfl rfl
  have hkind := required_of_attribute .kind (oneOf ServiceKind.all ServiceKind.name)
    "type" (.word (.kind s.kind)) hn (by simp [attributes]) (by decide) rfl rfl
    (ServiceKind.read_wire s.kind)
  have hpublic := optional_of_shown .isPublic false Schema.bool "public" (.bool s.isPublic) hn
    (by simp [attributes]) (by decide) (s.alternative_notMem (by simp [Schema.fields])) rfl rfl
  have hpii := optional_of_shown .handlesPii false Schema.bool "handles_pii" (.bool s.handlesPii) hn
    (by simp [attributes]) (by decide) (s.alternative_notMem (by simp [Schema.fields])) rfl rfl
  have hnetwork := optional_of_shown .network [] (listOf Schema.binding)
    "network" (.tuple (s.network.map Binding.toValue)) hn (by simp [attributes]) (by decide)
    (s.alternative_notMem (by simp [Schema.fields])) rfl
    (listOf_wire Schema.binding Binding.toValue fun b hb => Binding.read_wire (h.port b hb))
  have hdepends := optional_of_shown .dependsOn [] (listOf Schema.text)
    "depends_on" (.tuple (s.dependsOn.map .text)) hn (by simp [attributes]) (by decide)
    (s.alternative_notMem (by simp [Schema.fields])) rfl
    (listOf_wire Schema.text Value.text fun _ _ => rfl)
  have hlimits := optional_of_option .limits Schema.limits "resource_limits" Limits.toValue
    s.limits hn (by simp [attributes]) (by decide)
    (s.alternative_notMem (by simp [Schema.fields]))
    (fun _ _ => rfl) fun l hl => Limits.readNullable_wire (h.limits l hl)
  show Schema.service (Tree.ofJson (Value.record s.attributes).wire) = _
  rw [service, mappingOf_wire hn]
  simp only
  rw [hname, hkind, hpublic, hpii, hnetwork, hdepends, hlimits]
  rfl

/-! ## Topologies -/

theorem Amount.foreign?_toValue (a : Amount) : a.toValue.foreign? = none := by
  cases a <;> rfl

theorem Value.foreign?_ofOption {α : Type} (toValue : α → Value) {o : Option α}
    (h : ∀ a, (toValue a).foreign? = none) : (ofOption toValue o).foreign? = none := by
  cases o with
  | none => rfl
  | some a => exact h a

theorem Value.foreignInList?_map {α : Type} (toValue : α → Value) {list : List α}
    (h : ∀ a, (toValue a).foreign? = none) : foreignInList? (list.map toValue) = none := by
  refine Value.foreignInList?_eq_none ?_
  intro v hv
  obtain ⟨a, -, rfl⟩ := List.mem_map.mp hv
  exact h a

theorem Binding.foreign?_toValue (b : Binding) : b.toValue.foreign? = none := by
  refine Value.foreignInRecord?_eq_none ?_
  simp [Value.foreign?]

theorem Limits.foreign?_toValue (l : Limits) : l.toValue.foreign? = none := by
  refine Value.foreignInRecord?_eq_none ?_
  simp [Value.foreign?_ofOption Amount.toValue Amount.foreign?_toValue]

theorem Service.foreign?_toValue (s : Service) : s.toValue.foreign? = none := by
  refine Value.foreignInRecord?_eq_none ?_
  simp [Value.foreign?, Value.foreign?_ofOption Limits.toValue Limits.foreign?_toValue,
    Value.foreignInList?_map Binding.toValue Binding.foreign?_toValue,
    Value.foreignInList?_map Value.text fun _ => rfl]

/-- Nothing in a topology is without a wire form. -/
theorem Topology.toWire_toValue (t : Topology) :
    t.toValue.toWire.map Value.json = .ok t.wire := by
  have hmetadata : t.metadata.toValue.foreign? = none := by
    refine Value.foreignInRecord?_eq_none ?_
    simp [Value.foreign?, Value.foreign?_ofOption Value.text fun _ => rfl]
  have hforeign : t.toValue.foreign? = none := by
    refine Value.foreignInRecord?_eq_none ?_
    simp [hmetadata, Value.foreign?, Value.foreignInList?_map Service.toValue Service.foreign?_toValue]
  rw [Value.toWire, hforeign]
  rfl

def Topology.attributes (t : Topology) : List (Text × Value) :=
  [("services", .tuple (t.services.map Service.toValue)), ("metadata", t.metadata.toValue)]

theorem Topology.attributes_nodup (t : Topology) :
    ((t.attributes.map (·.1)).map FieldName.wire).Nodup := by
  show ((["services", "metadata"] : List Text).map FieldName.wire).Nodup
  decide

theorem Topology.check_wire {t : Topology} (h : t.IsExpressible) :
    Schema.check (Tree.ofJson t.wire) = .ok t.services := by
  have hservices := required_of_attribute .services (listOf Schema.service) "services"
    (.tuple (t.services.map Service.toValue)) t.attributes_nodup (by simp [attributes]) (by decide) rfl rfl
    (listOf_wire Schema.service Service.toValue fun s hs => Service.read_wire (h s hs))
  show Schema.check (Tree.ofJson (Value.record t.attributes).wire) = _
  rw [Schema.check, mappingOf_wire t.attributes_nodup, hservices]

/-- What parses is expressible. -/
theorem Topology.isExpressible_of_parse {order : SetOrder} {format : Value} {text : Text}
    {t : Topology} (h : Topology.parse order format text = .ok (.success t)) :
    t.IsExpressible := by
  obtain ⟨-, tree, hcheck, -⟩ := Topology.exists_check_of_parse h
  exact isExpressible_of_check_eq_ok hcheck

/-- **The wire form of a topology is a config of that topology.** An expressible topology
goes on the wire, and with its metadata the wire form is the same topology again: field
by field and in order, with every amount of the kind it was. All topologies that configs
parse to are expressible, and the two sides agree on every name. -/
theorem Topology.wire_roundtrip :
    (∀ t : Topology, t.IsExpressible →
      t.toValue.toWire.map Value.json = .ok t.wire ∧
        Topology.ofTree t.metadata (Tree.ofJson t.wire) = .success t) ∧
    (∀ (order : SetOrder) (format : Value) (text : Text) (t : Topology),
      Topology.parse order format text = .ok (.success t) → t.IsExpressible) ∧
    ∀ f ∈ Schema.fields, FieldName.wire (f.alternative.getD f.name) = f.name := by
  refine ⟨?_, ?_, wire_fieldName⟩
  · intro t h
    refine ⟨t.toWire_toValue, ?_⟩
    rw [Topology.ofTree, Topology.check_wire h]
  · intro order format text t h
    exact isExpressible_of_parse h

/-- A topology with limits that are absent, empty and halfway set, with amounts of both
kinds, one of them no number, and without as with bindings and dependencies. -/
def unevenTopology : Topology :=
  { services :=
      [⟨"a", .api, true, false, [⟨"0.0.0.0", 8080, .http⟩, ⟨"", 0, .tcp⟩], ["b", "a"],
          some ⟨some (.int 1000000000000000000000), some (.float Binary64.nan)⟩⟩,
        ⟨"b", .db, false, true, [], [], some ⟨none, none⟩⟩,
        ⟨"b", .queue, false, false, [], ["c"], none⟩]
    metadata := ⟨.yaml, none⟩ }

/-- The uneven topology goes on the wire and comes back. -/
theorem Topology.wire_roundtrip_of_uneven :
    unevenTopology.IsExpressible ∧
      Topology.ofTree unevenTopology.metadata (Tree.ofJson unevenTopology.wire) =
        .success unevenTopology := by
  have h : unevenTopology.IsExpressible := by
    intro s hs
    simp only [unevenTopology, List.mem_cons, List.not_mem_nil, or_false] at hs
    rcases hs with rfl | rfl | rfl
    · refine ⟨by decide, ?_⟩
      intro l hr
      cases hr
      refine ⟨?_, ?_⟩
      · intro a hr
        cases hr
        exact (by decide +kernel : (Binary64.ofInt 1000000000000000000000).isFinite = true)
      · intro a hr
        cases hr
        exact trivial
    · refine ⟨by decide, ?_⟩
      intro l hr
      cases hr
      refine ⟨?_, ?_⟩
      · intro a hr
        cases hr
      · intro a hr
        cases hr
    · refine ⟨by decide, ?_⟩
      intro l hr
      cases hr
  exact ⟨h, (Topology.wire_roundtrip.1 unevenTopology h).2⟩

end TopologyAudit
