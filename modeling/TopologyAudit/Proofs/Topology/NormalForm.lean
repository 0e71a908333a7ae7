import TopologyAudit.Proofs.Record.RoundTrip
import TopologyAudit.Proofs.Topology.Conformance

/-!
# The normal form of a config

What a config comes to, read off the tree and not off the checks: of each part its known fields
in the order of their declaration, under their preferred names. A field holds what the tree says
of it (`said?`), scalars just as they stand, or else its default; one that holds null is left
out. Whatever else the tree has is not looked at.

The services of an accepted config go on the wire in the normal form of its tree
(`normalConfig_of_check`). The proof goes through the declaration: a kind *has* a normal form
when its values are written in it (`HasNormal`), one lemma a kind.
-/

namespace TopologyAudit

namespace Schema

/-- What entries say of a field: the value under its preferred name or, where there is none
under that, the value under its other name. -/
def said? (f : FieldName) (entries : List (Scalar × Tree)) : Option Tree :=
  (Tree.valueOf? entries f.name).or (f.alternative.bind fun other => Tree.valueOf? entries other)

/-! ## Normal forms -/

/-- A scalar as it stands. -/
def asWritten : Tree → Json
  | .scalar (.bool b) => .bool b
  | .scalar (.int n) => .int n
  | .scalar (.float x) => .float x
  | .scalar (.text t) => .text t
  | _ => .null

/-- A field of a normal form: how its value is written, and what stands for it where a tree says
nothing of it. -/
structure NormalField where
  names : FieldName
  normal : Tree → Json
  default : Json

/-- The entry for a field; none if it holds null. -/
def NormalField.written? (f : NormalField) (entries : List (Scalar × Tree)) : Option (Text × Json) :=
  match ((said? f.names entries).map f.normal).getD f.default with
  | .null => none
  | value => some (f.names.name, value)

/-- The normal form of a part with some fields. -/
def normalPart (fields : List NormalField) : Tree → Json
  | .mapping entries => .object (fields.filterMap (·.written? entries))
  | _ => .null

/-- The normal form of a list, item by item. -/
def normalList (normal : Tree → Json) (t : Tree) : Json := .array (((items? t).getD []).map normal)

def normalBinding : Tree → Json :=
  normalPart [⟨.host, asWritten, .null⟩, ⟨.port, asWritten, .null⟩, ⟨.protocol, asWritten, .null⟩]

def normalLimits : Tree → Json :=
  normalPart [⟨.cpu, asWritten, .null⟩, ⟨.memoryMb, asWritten, .null⟩]

def normalService : Tree → Json :=
  normalPart [⟨.serviceName, asWritten, .null⟩, ⟨.kind, asWritten, .null⟩,
    ⟨.isPublic, asWritten, .bool false⟩, ⟨.handlesPii, asWritten, .bool false⟩,
    ⟨.network, normalList normalBinding, .array []⟩,
    ⟨.dependsOn, normalList asWritten, .array []⟩, ⟨.limits, normalLimits, .null⟩]

/-- The normal form of a config. -/
def normalConfig : Tree → Json := normalPart [⟨.services, normalList normalService, .null⟩]

/-! ## Fields that are read -/

section Fields

variable {f : Field} {entries : List (Scalar × Tree)} {v : Value}

theorem said?_eq_find? (f : FieldName) (entries : List (Scalar × Tree)) :
    said? f entries = (f.find? entries).map (·.2) := by
  unfold said? FieldName.find?
  cases Tree.valueOf? entries f.name with
  | some t => rfl
  | none =>
    cases f.alternative with
    | none => rfl
    | some other => cases h : Tree.valueOf? entries other <;> simp [h]

/-- A field is read for what is said of it, and else for its default. -/
theorem fieldReads_iff :
    FieldReads entries f v ↔
      (∃ t, said? f.names entries = some t ∧ Reads f.kind t v) ∨
        said? f.names entries = none ∧ f.default = some v := by
  rw [said?_eq_find?]
  cases hfind : f.names.find? entries with
  | none =>
    have habsent := find?_eq_none_iff.mp hfind
    constructor
    · intro h
      exact Or.inr ⟨rfl, h.absent habsent⟩
    · intro hr
      rcases hr with ⟨t, ht, -⟩ | ⟨-, hdefault⟩
      · cases ht
      · exact ⟨fun _ _ hfound => absurd habsent hfound.not_absent, fun _ => hdefault⟩
  | some named =>
    obtain ⟨name, t⟩ := named
    have hfound := find?_eq_some_iff.mp hfind
    constructor
    · intro h
      exact Or.inl ⟨t, rfl, h.found name t hfound⟩
    · intro hr
      rcases hr with ⟨u, hu, hreads⟩ | ⟨hnone, -⟩
      · cases hu
        refine ⟨fun name' t' hfound' => ?_, fun habsent => absurd habsent hfound.not_absent⟩
        obtain ⟨-, rfl⟩ := hfound.unique hfound'
        exact hreads
      · cases hnone

/-- A part is read field by field. -/
theorem reads_part_iff {p : Part} :
    Reads (.part p) (.mapping entries) v ↔
      ∃ vs, v = .record (p.attributes.zip vs) ∧ List.Forall₂ (FieldReads entries) p.fields vs := by
  constructor
  · intro h
    cases h with
    | @part _ _ vs hlength hfound habsent =>
      exact ⟨vs, rfl, List.forall₂_iff_zip.mpr
        ⟨hlength, fun hfv => ⟨hfound _ _ hfv, habsent _ _ hfv⟩⟩⟩
  · intro hr
    obtain ⟨vs, rfl, hall⟩ := hr
    obtain ⟨hlength, hreads⟩ := List.forall₂_iff_zip.mp hall
    exact .part hlength (fun _ _ hfv => (hreads hfv).found) fun _ _ hfv => (hreads hfv).absent

end Fields

/-! ## Kinds and their normal forms -/

/-- That a value counts as null exactly when null is what is written for it. -/
def ShowsNull (v : Value) : Prop := v.isNull = true ↔ v.wire = .null

theorem showsNull_null : ShowsNull .null := ⟨fun _ => rfl, fun _ => rfl⟩

theorem showsNull_bool (b : Bool) : ShowsNull (.bool b) := ⟨nofun, nofun⟩

theorem showsNull_tuple (items : List Value) : ShowsNull (.tuple items) :=
  ⟨nofun, fun h => by cases h⟩

/-- What is read shows whether it is null: it is of no foreign type. -/
theorem Reads.showsNull {k : Kind} {t : Tree} {v : Value} (h : Reads k t v) : ShowsNull v := by
  induction h with
  | value _ _ ih => exact ih
  | _ => simp [ShowsNull, Value.isNull, Value.wire_tuple, Value.wire_record_ofList]

/-- That the values of a kind are written in a normal form. -/
def HasNormal (k : Kind) (normal : Tree → Json) : Prop := ∀ t v, Reads k t v → v.wire = normal t

theorem hasNormal_plain {k : Kind} (hk : k.IsPlain) : HasNormal k asWritten := by
  intro t v h
  cases h with
  | null | value | listOf | part => exact hk.elim
  | _ => rfl

/-- Null is written for a value that may be null. -/
theorem HasNormal.nullable {k : Kind} {normal : Tree → Json} (h : HasNormal k normal)
    (hnull : normal (.scalar .null) = .null) : HasNormal (.nullable k) normal := by
  intro t v hreads
  cases hreads with
  | null => exact hnull.symm
  | value _ hreads => exact h t v hreads

theorem HasNormal.listOf {k : Kind} {normal : Tree → Json} (h : HasNormal k normal) :
    HasNormal (.listOf k) (normalList normal) := by
  intro t v hreads
  cases hreads with
  | @listOf _ _ ts vs hitems hlength hreads =>
    have hall : List.Forall₂ (Reads k) ts vs :=
      List.forall₂_iff_zip.mpr ⟨hlength, fun huv => hreads _ _ huv⟩
    have hmap : vs.map Value.wire = ts.map normal := by
      rw [← List.forall₂_eq_eq_eq, List.forall₂_map_left_iff, List.forall₂_map_right_iff]
      exact hall.flip.imp fun v u huv => h u v huv
    rw [Value.wire_tuple, hmap, normalList, hitems, Option.getD_some]

/-- That a declared field has a field of a normal form. -/
structure HasNormalField (f : Field) (n : NormalField) : Prop where
  names : f.names = n.names
  value : HasNormal f.kind n.normal
  default : ∀ v ∈ f.default, v.wire = n.default ∧ ShowsNull v

/-- The attribute of a field goes on the wire as the entry of its normal form. -/
theorem HasNormalField.written?_eq {f : Field} {n : NormalField} {entries : List (Scalar × Tree)}
    {v : Value} (h : HasNormalField f n) (hreads : FieldReads entries f v) :
    n.written? entries = if v.isNull then none else some (f.names.name, v.wire) := by
  have hwire : ((said? f.names entries).map n.normal).getD n.default = v.wire ∧ ShowsNull v := by
    rcases fieldReads_iff.mp hreads with ⟨t, ht, hreads⟩ | ⟨hnone, hdefault⟩
    · rw [ht]
      exact ⟨(h.value t v hreads).symm, hreads.showsNull⟩
    · rw [hnone]
      exact ⟨(h.default v hdefault).1.symm, (h.default v hdefault).2⟩
  obtain ⟨hwire, hnull⟩ := hwire
  unfold NormalField.written?
  rw [← h.names, hwire]
  split
  next heq => rw [if_pos (hnull.mpr heq)]
  next hne => rw [if_neg fun hn => hne (hnull.mp hn)]

/-- A field is kept in an attribute that goes on the wire under the name of the field. -/
theorem wire_attributeName (p : Part) :
    ∀ f ∈ p.fields, TopologyAudit.FieldName.wire f.names.attributeName = f.names.name ∧
      TopologyAudit.FieldName.isHidden f.names.attributeName = false := by
  cases p <;> decide

theorem nodup_wire_attributes (p : Part) :
    (p.attributes.map TopologyAudit.FieldName.wire).Nodup := by
  cases p <;> decide

/-- Attributes go on the wire as the entries of a normal form. -/
theorem wireAttributes_zip {entries : List (Scalar × Tree)} :
    ∀ {fs : List Field} {ns : List NormalField} {vs : List Value},
      (∀ f ∈ fs, TopologyAudit.FieldName.wire f.names.attributeName = f.names.name ∧
        TopologyAudit.FieldName.isHidden f.names.attributeName = false) →
      List.Forall₂ HasNormalField fs ns → List.Forall₂ (FieldReads entries) fs vs →
        Value.wireAttributes ((fs.map (·.names.attributeName)).zip vs) =
          ns.filterMap (·.written? entries) := by
  intro fs ns vs hnames hfields
  induction hfields generalizing vs with
  | nil => exact fun hreads => by cases hreads; rfl
  | @cons f n fs ns hfield _ ih =>
    intro hreads
    cases hreads with
    | @cons _ v _ vs hread hreads =>
      obtain ⟨⟨hwire, hhidden⟩, hnames⟩ := List.forall_mem_cons.mp hnames
      rw [List.map_cons, List.zip_cons_cons, Value.wireAttributes, Value.isShown, hhidden, hwire,
        List.filterMap_cons, hfield.written?_eq hread, ih hnames hreads]
      cases v.isNull <;> rfl

/-- A part has the normal form that its fields have. -/
theorem HasNormal.part {p : Part} {ns : List NormalField}
    (h : List.Forall₂ HasNormalField p.fields ns) : HasNormal (.part p) (normalPart ns) := by
  intro t v hreads
  cases t with
  | mapping entries =>
    obtain ⟨vs, rfl, hvs⟩ := reads_part_iff.mp hreads
    have hkeys : (p.attributes.zip vs).map (·.1) = p.attributes := by
      refine List.map_fst_zip (Nat.le_of_eq ?_)
      rw [Part.attributes, List.length_map, hvs.length_eq]
    rw [Value.wire_record (by rw [hkeys]; exact nodup_wire_attributes p), normalPart]
    exact congrArg Json.object (wireAttributes_zip (wire_attributeName p) h hvs)
  | _ => cases hreads

/-! ## The parts of a config -/

/-- A field that is required has no default to be written. -/
theorem hasNormalField_required {names : FieldName} {k : Kind} {normal : Tree → Json}
    (h : HasNormal k normal) : HasNormalField ⟨names, k, none⟩ ⟨names, normal, .null⟩ :=
  ⟨rfl, h, fun _ hv => nomatch hv⟩

/-- The default of a field is written as any other value. -/
theorem hasNormalField_optional (names : FieldName) {k : Kind} {normal : Tree → Json}
    {default : Value} (h : HasNormal k normal) (hnull : ShowsNull default) :
    HasNormalField ⟨names, k, some default⟩ ⟨names, normal, default.wire⟩ := by
  refine ⟨rfl, h, fun v hv => ?_⟩
  cases hv
  exact ⟨rfl, hnull⟩

theorem hasNormal_binding : HasNormal (.part .binding) normalBinding := by
  have text : HasNormal .text asWritten := hasNormal_plain trivial
  have natural : HasNormal .natural asWritten := hasNormal_plain trivial
  have word (words : List Word) : HasNormal (.word words) asWritten := hasNormal_plain trivial
  exact .part (.cons (hasNormalField_required text) (.cons (hasNormalField_required natural)
    (.cons (hasNormalField_required (word _)) .nil)))

theorem hasNormal_limits : HasNormal (.part .limits) normalLimits := by
  have amount : HasNormal (.nullable .amount) asWritten :=
    HasNormal.nullable (hasNormal_plain trivial) rfl
  have optional (names : FieldName) := hasNormalField_optional names amount showsNull_null
  exact .part (.cons (optional _) (.cons (optional _) .nil))

theorem hasNormal_service : HasNormal (.part .service) normalService := by
  have text : HasNormal .text asWritten := hasNormal_plain trivial
  have word (words : List Word) : HasNormal (.word words) asWritten := hasNormal_plain trivial
  have truth : HasNormal .truth asWritten := hasNormal_plain trivial
  have mark (names : FieldName) := hasNormalField_optional names truth (showsNull_bool false)
  have network := hasNormalField_optional .network hasNormal_binding.listOf (showsNull_tuple [])
  have dependsOn := hasNormalField_optional .dependsOn text.listOf (showsNull_tuple [])
  have limits := hasNormalField_optional .limits (hasNormal_limits.nullable rfl) showsNull_null
  exact .part (.cons (hasNormalField_required text) (.cons (hasNormalField_required (word _))
    (.cons (mark _) (.cons (mark _) (.cons network (.cons dependsOn (.cons limits .nil)))))))

theorem hasNormal_config : HasNormal (.part .config) normalConfig :=
  .part (.cons (hasNormalField_required hasNormal_service.listOf) .nil)

/-! ## Accepted configs -/

/-- The services of an accepted config go on the wire in the normal form of its tree. -/
theorem normalConfig_of_check {t : Tree} {services : List Service}
    (h : check t = .ok services) : normalConfig t = (configValue services).wire :=
  (hasNormal_config t _ ((meets_check t).reads h)).symm

theorem nodup_wire_services (value : Value) :
    (([("services", value)] : List (Text × Value)).map (·.1) |>.map
      TopologyAudit.FieldName.wire).Nodup :=
  nodup_wire_attributes .config

/-- What goes on the wire is a config of the same services. -/
theorem check_wire_configValue {services : List Service} (h : ∀ s ∈ services, s.IsExpressible) :
    check (Tree.ofJson (configValue services).wire) = .ok services := by
  have hnodup := nodup_wire_services (.tuple (services.map Service.toValue))
  have hservices := required_of_attribute .services (listOf Schema.service) "services"
    (.tuple (services.map Service.toValue)) hnodup (List.mem_singleton_self _) (by decide) rfl rfl
    (listOf_wire Schema.service Service.toValue fun s hs => Service.read_wire (h s hs))
  rw [configValue, Schema.check, mappingOf_wire hnodup, hservices]

/-- The normal form of an accepted config is accepted, with the same services. -/
theorem check_normalConfig {t : Tree} {services : List Service} (h : check t = .ok services) :
    check (Tree.ofJson (normalConfig t)) = .ok services := by
  rw [normalConfig_of_check h]
  exact check_wire_configValue (isExpressible_of_check_eq_ok h)

/-- Accepted configs of one normal form have the same services. -/
theorem services_eq_of_normalConfig_eq {t t' : Tree} {services services' : List Service}
    (h : check t = .ok services) (h' : check t' = .ok services')
    (heq : normalConfig t = normalConfig t') : services = services' := by
  have hback := check_normalConfig h
  rw [heq, check_normalConfig h'] at hback
  cases hback
  rfl

/-- To take the normal form again changes nothing. -/
theorem normalConfig_idem {t : Tree} {services : List Service} (h : check t = .ok services) :
    normalConfig (Tree.ofJson (normalConfig t)) = normalConfig t := by
  rw [normalConfig_of_check (check_normalConfig h), normalConfig_of_check h]

end Schema

/-- The services that a topology shows are those of the normal form. -/
theorem Topology.normalConfig_eq_object {t : Tree} {topology : Topology}
    (h : Schema.check t = .ok topology.services) :
    ∃ services, Schema.normalConfig t = .object [("services", services)] ∧
      topology.wire.field? "services" = some services := by
  refine ⟨(Value.tuple (topology.services.map Service.toValue)).wire, ?_, ?_⟩
  · rw [Schema.normalConfig_of_check h, Schema.configValue,
      Value.wire_record (Schema.nodup_wire_services _)]
    rfl
  · show (Value.record topology.attributes).wire.field? "services" = _
    rw [Value.wire_record topology.attributes_nodup]
    rfl

end TopologyAudit
