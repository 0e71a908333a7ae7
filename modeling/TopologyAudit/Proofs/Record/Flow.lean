import TopologyAudit.Proofs.Record.Nesting
import TopologyAudit.Proofs.Record.Printing
import TopologyAudit.Proofs.Yaml.Flow.Value

/-!
# Records that YAML reads

On one line the wire form of a topology is a flow collection of YAML, if its texts stay within
the basic plane and its limits are integers (`Topology.isFlow_wire`). The fingerprint need not
be such a text: what stands for a code point beyond the plane is what stands for two surrogates,
so the topology is written like the one with that fingerprint (`Topology.compact_wire_parted`).
-/

namespace TopologyAudit

open Json (Style)

/-! ## Records -/

/-- That attributes of these names can be told apart by their keys on the wire. -/
def FieldName.AreKeys (names : List Text) : Prop :=
  (names.map FieldName.wire).Nodup ∧
    ∀ name ∈ names, (FieldName.wire name).IsBasic ∧
      (Json.renderText (FieldName.wire name)).length ≤ Yaml.Lexer.keyReach

instance (names : List Text) : Decidable (FieldName.AreKeys names) :=
  inferInstanceAs (Decidable (_ ∧ _))

namespace Value

/-- What goes on the wire is an attribute under its wire name. -/
theorem exists_of_mem_wireAttributes {attributes : List (Text × Value)} {f : Text × Json}
    (h : f ∈ wireAttributes attributes) : ∃ a ∈ attributes, f = (FieldName.wire a.1, a.2.wire) := by
  induction attributes with
  | nil => cases h
  | cons a rest ih =>
    obtain ⟨name, value⟩ := a
    have hrest : f ∈ wireAttributes rest →
        ∃ a ∈ (name, value) :: rest, f = (FieldName.wire a.1, a.2.wire) := by
      intro h
      obtain ⟨a, ha, heq⟩ := ih h
      exact ⟨a, List.mem_cons_of_mem _ ha, heq⟩
    rw [wireAttributes] at h
    split at h
    next =>
      rcases List.mem_cons.mp h with rfl | h
      · exact ⟨_, List.mem_cons_self .., rfl⟩
      · exact hrest h
    next => exact hrest h

theorem isFlow_wire_text {t : Text} (h : t.IsBasic) : (text t).wire.IsFlow := .atom (.text h)

theorem isFlow_wire_bool (b : Bool) : (bool b).wire.IsFlow := by
  cases b with
  | true => exact .atom .isTrue
  | false => exact .atom .isFalse

theorem isFlow_wire_int {n : Int} (h : n.natAbs < 10 ^ Integer.digitLimit) : (int n).wire.IsFlow :=
  .atom (.int h)

theorem isFlow_wire_word (w : Word) : (word w).wire.IsFlow := by
  refine .atom (.text ?_)
  rcases w with k | p | f | s | i
  · cases k <;> decide
  · cases p <;> decide
  · cases f <;> decide
  · cases s <;> decide
  · cases i <;> decide

theorem isFlow_wire_ofOption {α : Type} {toValue : α → Value} {o : Option α}
    (h : ∀ a ∈ o, (toValue a).wire.IsFlow) : (ofOption toValue o).wire.IsFlow := by
  cases o with
  | none => exact .atom .null
  | some a => exact h a rfl

theorem isFlow_wire_tuple {α : Type} {toValue : α → Value} {list : List α}
    (h : ∀ a ∈ list, (toValue a).wire.IsFlow) : (tuple (list.map toValue)).wire.IsFlow := by
  rw [wire_tuple, List.map_map]
  exact .array (List.forall_mem_map.mpr h)

theorem isFlow_wire_record (names : List Text) {attributes : List (Text × Value)}
    (hnames : attributes.map (·.1) = names) (hkeys : FieldName.AreKeys names)
    (h : ∀ a ∈ attributes, a.2.wire.IsFlow) : (record attributes).wire.IsFlow := by
  subst hnames
  obtain ⟨hnodup, hkeys⟩ := hkeys
  rw [wire_record hnodup]
  refine .object ((wireAttributes_names_sublist attributes).nodup hnodup) ?_ ?_
  · intro f hf
    obtain ⟨a, ha, rfl⟩ := exists_of_mem_wireAttributes hf
    obtain ⟨hbasic, hlength⟩ := hkeys a.1 (List.mem_map_of_mem ha)
    exact ⟨hbasic, hlength⟩
  · intro f hf
    obtain ⟨a, ha, rfl⟩ := exists_of_mem_wireAttributes hf
    exact h a ha

end Value

/-! ## The levels of the model -/

/-- That the texts of a service stay within the basic plane. -/
@[mk_iff]
structure Service.IsBasic (s : Service) : Prop where
  name : s.name.IsBasic
  host : ∀ b ∈ s.network, b.host.IsBasic
  dependsOn : ∀ d ∈ s.dependsOn, d.IsBasic

/-- That the texts of all services stay within the basic plane. -/
def Topology.IsBasic (t : Topology) : Prop := ∀ s ∈ t.services, s.IsBasic

/-- That an amount is an integer. -/
def Amount.IsInt : Amount → Prop
  | .int _ => True
  | .float _ => False

/-- That no limit is a double. -/
@[mk_iff]
structure Limits.AreInts (l : Limits) : Prop where
  cpu : ∀ a ∈ l.cpu, a.IsInt
  memoryMb : ∀ a ∈ l.memoryMb, a.IsInt

/-- That no limit of any service is a double. -/
def Topology.HasIntLimits (t : Topology) : Prop := ∀ s ∈ t.services, ∀ l ∈ s.limits, l.AreInts

instance (s : Service) : Decidable s.IsBasic := decidable_of_iff _ s.isBasic_iff.symm

instance (t : Topology) : Decidable t.IsBasic :=
  inferInstanceAs (Decidable (∀ s ∈ t.services, s.IsBasic))

instance : (a : Amount) → Decidable a.IsInt
  | .int _ => inferInstanceAs (Decidable True)
  | .float _ => inferInstanceAs (Decidable False)

instance (l : Limits) : Decidable l.AreInts := decidable_of_iff _ l.areInts_iff.symm

instance (t : Topology) : Decidable t.HasIntLimits :=
  inferInstanceAs (Decidable (∀ s ∈ t.services, ∀ l ∈ s.limits, l.AreInts))

theorem Amount.isFlow_wire {a : Amount} (hexpress : a.IsExpressible) (hint : a.IsInt) :
    a.toValue.wire.IsFlow := by
  cases a with
  | int n =>
    have hwritten := Json.refusesInt_of_isFinite hexpress
    exact Value.isFlow_wire_int (Json.refusesInt_eq_false_iff.mp hwritten)
  | float x => exact absurd hint not_false

theorem Binding.isFlow_wire {b : Binding} (hbasic : b.host.IsBasic)
    (hport : b.port.natAbs < 10 ^ Integer.digitLimit) : b.toValue.wire.IsFlow := by
  refine Value.isFlow_wire_record ["host", "port", "protocol"] rfl (by decide) ?_
  simp only [List.forall_mem_cons]
  exact ⟨Value.isFlow_wire_text hbasic, Value.isFlow_wire_int hport, Value.isFlow_wire_word _,
    nofun⟩

theorem Limits.isFlow_wire {l : Limits} (hexpress : l.IsExpressible) (hints : l.AreInts) :
    l.toValue.wire.IsFlow := by
  refine Value.isFlow_wire_record ["cpu", "memory_mb"] rfl (by decide) ?_
  simp only [List.forall_mem_cons]
  exact ⟨Value.isFlow_wire_ofOption fun a ha =>
      Amount.isFlow_wire (hexpress.cpu a ha) (hints.cpu a ha),
    Value.isFlow_wire_ofOption fun a ha =>
      Amount.isFlow_wire (hexpress.memoryMb a ha) (hints.memoryMb a ha), nofun⟩

theorem Service.isFlow_wire {s : Service} (hexpress : s.IsExpressible)
    (hprint : s.IsPrintable Style.compact) (hbasic : s.IsBasic)
    (hints : ∀ l ∈ s.limits, l.AreInts) : s.toValue.wire.IsFlow := by
  refine Value.isFlow_wire_record ["name", "type", "public", "handles_pii", "network",
    "depends_on", "resource_limits"] rfl (by decide) ?_
  simp only [List.forall_mem_cons]
  exact ⟨Value.isFlow_wire_text hbasic.name, Value.isFlow_wire_word _, Value.isFlow_wire_bool _,
    Value.isFlow_wire_bool _,
    Value.isFlow_wire_tuple fun b hb => Binding.isFlow_wire (hbasic.host b hb) (hprint.port b hb),
    Value.isFlow_wire_tuple fun d hd => Value.isFlow_wire_text (hbasic.dependsOn d hd),
    Value.isFlow_wire_ofOption fun l hl => Limits.isFlow_wire (hexpress.limits l hl) (hints l hl),
    nofun⟩

theorem Metadata.isFlow_wire {m : Metadata} (h : ∀ t ∈ m.fingerprint, t.IsBasic) :
    m.toValue.wire.IsFlow := by
  refine Value.isFlow_wire_record ["source_format", "raw_hash"] rfl (by decide) ?_
  simp only [List.forall_mem_cons]
  exact ⟨Value.isFlow_wire_word _,
    Value.isFlow_wire_ofOption fun t ht => Value.isFlow_wire_text (h t ht), nofun⟩

/-- **Which topologies YAML reads.** -/
theorem Topology.isFlow_wire {t : Topology} (hexpress : t.IsExpressible)
    (hprint : t.IsPrintable Style.compact) (hbasic : t.IsBasic) (hints : t.HasIntLimits)
    (hfingerprint : ∀ f ∈ t.metadata.fingerprint, f.IsBasic) : t.wire.IsFlow := by
  refine Value.isFlow_wire_record ["services", "metadata"] rfl (by decide) ?_
  simp only [List.forall_mem_cons]
  exact ⟨Value.isFlow_wire_tuple fun s hs =>
      Service.isFlow_wire (hexpress s hs) (hprint s hs) (hbasic s hs) (hints s hs),
    Metadata.isFlow_wire hfingerprint, nofun⟩

/-! ## Fingerprints beyond the basic plane -/

/-- A code point, or the two surrogates that it is written by. -/
def CodePoint.parted (c : CodePoint) : Text :=
  if c.val ≤ 0xFFFF then [c]
  else
    let offset := c.val - 0x10000
    [ofNat (0xD800 + offset / 0x400), ofNat (0xDC00 + offset % 0x400)]

namespace Text

/-- The text with surrogates in the place of code points beyond the basic plane. -/
def parted (t : Text) : Text := t.flatMap CodePoint.parted

theorem isBasic_parted (t : Text) : t.parted.IsBasic := by
  refine List.forall_mem_flatMap.mpr fun c _ => ?_
  have hlt := c.val_lt
  rw [CodePoint.parted]
  split_ifs with hc
  · exact List.forall_mem_singleton.mpr hc
  · refine List.forall_mem_cons.mpr ⟨?_, List.forall_mem_singleton.mpr ?_⟩
    · rw [CodePoint.val_ofNat (by omega)]
      omega
    · rw [CodePoint.val_ofNat (by omega)]
      omega

/-- A code point is written like its halves. -/
theorem escapes_parted (c : CodePoint) :
    c.parted.flatMap Json.escapeCodePoint = Json.escapeCodePoint c := by
  have hhalf : ∀ n, 0xD800 ≤ n → n ≤ 0xDFFF →
      Json.escapeCodePoint (CodePoint.ofNat n) = Json.unicodeEscape n := by
    intro n hlow hhigh
    have hval := @CodePoint.val_ofNat n (by omega)
    have hsurrogate : (CodePoint.ofNat n).isSurrogate = true := by
      rw [CodePoint.isSurrogate, CodePoint.within, hval, decide_eq_true hlow, decide_eq_true hhigh]
      rfl
    rw [(Json.escaped_escapeCodePoint _).eq_unicodeEscape hsurrogate, hval]
  rw [CodePoint.parted]
  split_ifs with hc
  · rw [List.flatMap_singleton]
  · have hlt := c.val_lt
    have hne : ∀ d : CodePoint, d.val ≤ 0xFFFF → ¬(c == d) = true := fun d hd heq =>
      hc (eq_of_beq heq ▸ hd)
    have hrange : ¬c.within 0x20 0x7E = true := by
      intro hwithin
      have hval := CodePoint.within_iff.mp hwithin
      omega
    rw [List.flatMap_cons, List.flatMap_singleton, hhalf _ (by omega) (by omega),
      hhalf _ (by omega) (by omega), Json.escapeCodePoint, if_neg (hne _ (by decide)),
      if_neg (hne _ (by decide)), if_neg hrange, if_neg (hne _ (by decide)),
      if_neg (hne _ (by decide)), if_neg (hne _ (by decide)), if_neg (by omega), if_neg (by omega),
      if_neg hc]

/-- What is written does not tell a text from its parted one. -/
theorem renderText_parted (t : Text) : Json.renderText t.parted = Json.renderText t := by
  rw [Json.renderText, Json.renderText, parted, List.flatMap_assoc]
  simp only [escapes_parted]

end Text

/-- The metadata with a fingerprint within the basic plane. -/
def Metadata.parted (m : Metadata) : Metadata := ⟨m.format, m.fingerprint.map Text.parted⟩

/-- That two values are written alike on one line. -/
structure Value.IsWrittenAs (v v' : Value) : Prop where
  isNull : v.isNull = v'.isNull
  compact : Json.compact v.wire = Json.compact v'.wire

namespace Value

theorem IsWrittenAs.refl (v : Value) : v.IsWrittenAs v := ⟨rfl, rfl⟩

theorem map_compactField_wireAttributes {attributes attributes' : List (Text × Value)}
    (h : List.Forall₂ (fun a a' => a.1 = a'.1 ∧ IsWrittenAs a.2 a'.2) attributes attributes') :
    (wireAttributes attributes).map Json.compactField =
      (wireAttributes attributes').map Json.compactField := by
  induction h with
  | nil => rfl
  | @cons a a' rest rest' hfirst _ ih =>
    obtain ⟨name, value⟩ := a
    obtain ⟨name', value'⟩ := a'
    obtain ⟨rfl, hwritten⟩ := hfirst
    have hshown : isShown name value = isShown name value' := by
      rw [isShown, isShown, hwritten.isNull]
    rw [wireAttributes, wireAttributes, hshown]
    split
    next =>
      rw [List.map_cons, List.map_cons, ih, Json.compactField, Json.compactField, hwritten.compact]
    next => exact ih

/-- Records are written alike when their attributes are. -/
theorem isWrittenAs_record (names : List Text) {attributes attributes' : List (Text × Value)}
    (hnames : attributes.map (·.1) = names) (hnodup : (names.map FieldName.wire).Nodup)
    (h : List.Forall₂ (fun a a' => a.1 = a'.1 ∧ IsWrittenAs a.2 a'.2) attributes attributes') :
    (record attributes).IsWrittenAs (record attributes') := by
  have hsame : attributes'.map (·.1) = names := by
    rw [← hnames]
    clear hnames
    induction h with
    | nil => rfl
    | cons hfirst _ ih => rw [List.map_cons, List.map_cons, hfirst.1, ih]
  refine ⟨rfl, ?_⟩
  rw [wire_record (hnames ▸ hnodup), wire_record (hsame ▸ hnodup), Json.compact_object,
    Json.compact_object, map_compactField_wireAttributes h]

end Value

theorem Metadata.isWrittenAs_parted (m : Metadata) :
    m.parted.toValue.IsWrittenAs m.toValue := by
  have hhash : (Value.ofOption Value.text m.parted.fingerprint).IsWrittenAs
      (Value.ofOption Value.text m.fingerprint) := by
    rw [parted]
    cases m.fingerprint with
    | none => exact .refl _
    | some t => exact ⟨rfl, Text.renderText_parted t⟩
  exact Value.isWrittenAs_record ["source_format", "raw_hash"] rfl (by decide)
    (.cons ⟨rfl, .refl _⟩ (.cons ⟨rfl, hhash⟩ .nil))

/-- A topology is written like the one with a fingerprint within the basic plane. -/
theorem Topology.compact_wire_parted (t : Topology) :
    Json.compact (Topology.wire ⟨t.services, t.metadata.parted⟩) = Json.compact t.wire := by
  have hwritten : (Topology.toValue ⟨t.services, t.metadata.parted⟩).IsWrittenAs t.toValue :=
    Value.isWrittenAs_record ["services", "metadata"] rfl (by decide)
      (.cons ⟨rfl, .refl _⟩ (.cons ⟨rfl, t.metadata.isWrittenAs_parted⟩ .nil))
  exact hwritten.compact

end TopologyAudit
