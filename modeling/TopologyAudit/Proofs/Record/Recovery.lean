import TopologyAudit.Proofs.Record.Nesting
import TopologyAudit.Proofs.Record.Printing
import TopologyAudit.Proofs.Source.Parse

/-!
# A written topology is a config of it

The text that is written for a topology, on one line or on many, is a config that parses to
the same services. Two round trips make this up: the text is read as the wire form, and the
schema reads the wire form as the services. They fit together because a record comes back as
itself when its attributes do (`ComesBackAs`). The fingerprint need not, but the schema does
not look at it.
-/

namespace TopologyAudit

open Json (Style)

/-! ## Writing in both styles -/

namespace Json

variable {style : Style}

mutual

/-- What is written on one line is written in every style. -/
theorem IsWritable.of_compact : ∀ {j : Json}, j.IsWritable Style.compact → j.IsWritable style
  | .null, _ => isWritable_null
  | .bool b, _ => isWritable_bool b
  | .text t, _ => isWritable_text t
  | .int _, h => isWritable_int.mpr (isWritable_int.mp h)
  | .float _, h => isWritable_float.mpr ((isWritable_float.mp h).imp_left nofun)
  | .array _, h => isWritable_array.mpr (isWritableItems_of_compact (isWritable_array.mp h))
  | .object _, h => isWritable_object.mpr (isWritableFields_of_compact (isWritable_object.mp h))

theorem isWritableItems_of_compact : ∀ {items : List Json},
    (∀ item ∈ items, item.IsWritable Style.compact) → ∀ item ∈ items, item.IsWritable style
  | [], _ => nofun
  | _ :: _, h =>
    List.forall_mem_cons.mpr ⟨(List.forall_mem_cons.mp h).1.of_compact,
      isWritableItems_of_compact (List.forall_mem_cons.mp h).2⟩

theorem isWritableFields_of_compact : ∀ {fields : List (Text × Json)},
    (∀ f ∈ fields, f.2.IsWritable Style.compact) → ∀ f ∈ fields, f.2.IsWritable style
  | [], _ => nofun
  | (_, _) :: _, h =>
    List.forall_mem_cons.mpr ⟨(List.forall_mem_cons.mp h).1.of_compact,
      isWritableFields_of_compact (List.forall_mem_cons.mp h).2⟩

end

theorem rereadItems_eq_map (items : List Json) : rereadItems items = items.map reread := by
  induction items with
  | nil => rfl
  | cons item rest ih => rw [rereadItems, ih, List.map_cons]

end Json

/-! ## What comes back -/

instance (t : Text) : Decidable t.IsUnpaired := inferInstanceAs (Decidable (List.IsChain _ _))

/-- That the wire form of a value is read, once it is written, as that of another value. -/
structure Value.ComesBackAs (v v' : Value) : Prop where
  isNull : v.isNull = v'.isNull
  reread : v.wire.reread = v'.wire

/-- That the wire form of a value is read back. -/
abbrev Value.ComesBack (v : Value) : Prop := v.ComesBackAs v

namespace Value

theorem comesBack_null : ComesBack .null := ⟨rfl, rfl⟩

theorem comesBack_bool (b : Bool) : ComesBack (.bool b) := ⟨rfl, rfl⟩

theorem comesBack_int (n : Int) : ComesBack (.int n) := ⟨rfl, rfl⟩

theorem comesBackAs_text (t : Text) : ComesBackAs (.text t) (.text t.joined) := ⟨rfl, rfl⟩

theorem comesBack_text {t : Text} (h : t.IsUnpaired) : ComesBack (.text t) := by
  have hback := comesBackAs_text t
  rwa [Text.joined_of_isUnpaired h] at hback

theorem comesBack_word (w : Word) : ComesBack (.word w) := by
  refine ⟨rfl, ?_⟩
  have hunpaired : w.name.IsUnpaired := by
    rcases w with k | p | f | s | i
    · cases k <;> decide
    · cases p <;> decide
    · cases f <;> decide
    · cases s <;> decide
    · cases i <;> decide
  rw [wire_word, Json.reread, Text.joined_of_isUnpaired hunpaired]

theorem comesBack_ofOption {α : Type} {toValue : α → Value} {o : Option α}
    (h : ∀ a ∈ o, (toValue a).ComesBack) : (ofOption toValue o).ComesBack := by
  cases o with
  | none => exact comesBack_null
  | some a => exact h a rfl

theorem comesBack_tuple {α : Type} {toValue : α → Value} {list : List α}
    (h : ∀ a ∈ list, (toValue a).ComesBack) : (tuple (list.map toValue)).ComesBack := by
  refine ⟨rfl, ?_⟩
  rw [wire_tuple, Json.reread, Json.rereadItems_eq_map, List.map_map, List.map_map, List.map_map]
  congr 1
  exact List.map_congr_left fun a ha => (h a ha).reread

/-- What is read of attributes is what stands in their place. -/
theorem rereadFields_wireAttributes {attributes attributes' : List (Text × Value)}
    (hnames : ∀ name ∈ attributes.map (·.1), (FieldName.wire name).IsUnpaired)
    (h : List.Forall₂ (fun a a' => a.1 = a'.1 ∧ ComesBackAs a.2 a'.2) attributes attributes') :
    Json.rereadFields (wireAttributes attributes) = wireAttributes attributes' := by
  induction h with
  | nil => rfl
  | @cons a a' rest rest' hfirst _ ih =>
    obtain ⟨name, value⟩ := a
    obtain ⟨name', value'⟩ := a'
    obtain ⟨rfl, hback⟩ := hfirst
    rw [List.map_cons, List.forall_mem_cons] at hnames
    have hshown : isShown name value = isShown name value' := by
      rw [isShown, isShown, hback.isNull]
    rw [wireAttributes, wireAttributes, hshown]
    split
    next =>
      rw [Json.rereadFields, Text.joined_of_isUnpaired hnames.1, hback.reread, ih hnames.2]
    next => exact ih hnames.2

end Value

/-- That attributes of these names are told apart on the wire, by names that are read back. -/
def FieldName.AreReadBack (names : List Text) : Prop :=
  (names.map FieldName.wire).Nodup ∧ ∀ name ∈ names, (FieldName.wire name).IsUnpaired

instance (names : List Text) : Decidable (FieldName.AreReadBack names) :=
  inferInstanceAs (Decidable (_ ∧ _))

/-- A record is read as a record of what its attributes are read as. -/
theorem Value.comesBackAs_record (names : List Text) {attributes attributes' : List (Text × Value)}
    (hnames : attributes.map (·.1) = names) (hback : FieldName.AreReadBack names)
    (h : List.Forall₂ (fun a a' => a.1 = a'.1 ∧ ComesBackAs a.2 a'.2) attributes attributes') :
    (record attributes).ComesBackAs (record attributes') := by
  subst hnames
  refine ⟨rfl, ?_⟩
  rw [wire_record hback.1, Json.reread, rereadFields_wireAttributes hback.2 h,
    wire_record_ofList]

theorem Value.comesBack_record (names : List Text) {attributes : List (Text × Value)}
    (hnames : attributes.map (·.1) = names) (hback : FieldName.AreReadBack names)
    (h : ∀ a ∈ attributes, a.2.ComesBack) : (record attributes).ComesBack :=
  comesBackAs_record names hnames hback
    (List.forall₂_same.mpr fun a ha => ⟨rfl, h a ha⟩)

/-! ## The levels of the model -/

/-- That the texts of a service are read back: none of them holds the two halves of a
surrogate pair side by side. -/
@[mk_iff]
structure Service.IsUnpaired (s : Service) : Prop where
  name : s.name.IsUnpaired
  host : ∀ b ∈ s.network, b.host.IsUnpaired
  dependsOn : ∀ d ∈ s.dependsOn, d.IsUnpaired

/-- That the texts of all services are read back. -/
def Topology.IsUnpaired (t : Topology) : Prop := ∀ s ∈ t.services, s.IsUnpaired

instance (s : Service) : Decidable s.IsUnpaired := decidable_of_iff _ s.isUnpaired_iff.symm

instance (t : Topology) : Decidable t.IsUnpaired :=
  inferInstanceAs (Decidable (∀ s ∈ t.services, s.IsUnpaired))

theorem Amount.comesBack {a : Amount} (h : a.IsPrintable Style.compact) : a.toValue.ComesBack := by
  cases a with
  | int n => exact Value.comesBack_int n
  | float x =>
    have hfinite : x.isFinite = true := h.resolve_left nofun
    have hnan : x.isNaN = false := by
      simp only [Binary64.isFinite, Binary64.isNaN, decide_eq_true_eq, decide_eq_false_iff_not] at *
      omega
    refine ⟨rfl, ?_⟩
    rw [toValue, Value.wire_float, Json.reread, hnan, if_neg Bool.false_ne_true]

theorem Binding.comesBack {b : Binding} (h : b.host.IsUnpaired) : b.toValue.ComesBack := by
  refine Value.comesBack_record ["host", "port", "protocol"] rfl (by decide) ?_
  simp only [List.forall_mem_cons]
  exact ⟨Value.comesBack_text h, Value.comesBack_int b.port, Value.comesBack_word _, nofun⟩

theorem Limits.comesBack {l : Limits} (h : l.IsPrintable Style.compact) : l.toValue.ComesBack := by
  refine Value.comesBack_record ["cpu", "memory_mb"] rfl (by decide) ?_
  simp only [List.forall_mem_cons]
  exact ⟨Value.comesBack_ofOption fun a ha => Amount.comesBack (h.cpu a ha),
    Value.comesBack_ofOption fun a ha => Amount.comesBack (h.memoryMb a ha), nofun⟩

theorem Service.comesBack {s : Service} (h : s.IsUnpaired) (hprint : s.IsPrintable Style.compact) :
    s.toValue.ComesBack := by
  refine Value.comesBack_record ["name", "type", "public", "handles_pii", "network",
    "depends_on", "resource_limits"] rfl (by decide) ?_
  simp only [List.forall_mem_cons]
  exact ⟨Value.comesBack_text h.name, Value.comesBack_word _, Value.comesBack_bool _,
    Value.comesBack_bool _, Value.comesBack_tuple fun b hb => Binding.comesBack (h.host b hb),
    Value.comesBack_tuple fun d hd => Value.comesBack_text (h.dependsOn d hd),
    Value.comesBack_ofOption fun l hl => Limits.comesBack (hprint.limits l hl), nofun⟩

/-- The metadata that is read: the fingerprint has its surrogate pairs joined. -/
def Metadata.reread (m : Metadata) : Metadata := ⟨m.format, m.fingerprint.map Text.joined⟩

theorem Metadata.comesBackAs (m : Metadata) : m.toValue.ComesBackAs m.reread.toValue := by
  have hhash : (Value.ofOption Value.text m.fingerprint).ComesBackAs
      (Value.ofOption Value.text m.reread.fingerprint) := by
    rw [reread]
    cases m.fingerprint with
    | none => exact Value.comesBack_null
    | some t => exact Value.comesBackAs_text t
  exact Value.comesBackAs_record ["source_format", "raw_hash"] rfl (by decide)
    (.cons ⟨rfl, Value.comesBack_word _⟩ (.cons ⟨rfl, hhash⟩ .nil))

/-- The wire form of a topology is read as that of one with the same services. -/
theorem Topology.reread_wire {t : Topology} (h : t.IsUnpaired)
    (hprint : t.IsPrintable Style.compact) :
    t.wire.reread = Topology.wire ⟨t.services, t.metadata.reread⟩ := by
  have hservices : (Value.tuple (t.services.map Service.toValue)).ComesBack :=
    Value.comesBack_tuple fun s hs => Service.comesBack (h s hs) (hprint s hs)
  have hrecord : t.toValue.ComesBackAs (Topology.toValue ⟨t.services, t.metadata.reread⟩) :=
    Value.comesBackAs_record ["services", "metadata"] rfl (by decide)
      (.cons ⟨rfl, hservices⟩ (.cons ⟨rfl, t.metadata.comesBackAs⟩ .nil))
  exact hrecord.reread

/-- What a config in JSON parses to. -/
theorem Topology.parse_json {order : SetOrder} {text : Text} {value : Json} {services : List Service}
    (hread : Json.read text = .ok value)
    (hcheck : Schema.check (Tree.ofJson value) = .ok services) :
    Topology.parse order (.text SourceFormat.json.name) text =
      .ok (.success ⟨services, ⟨.json, some (fingerprint text)⟩⟩) := by
  have hload : SourceFormat.json.load order text = .ok (.ok (Tree.ofJson value)) := by
    rw [SourceFormat.load, hread]
  rw [Topology.parse_of_loaded (SourceFormat.ofValue_name .json) hload, Topology.ofTree, hcheck]

/-- **A written topology is a config of it.** Take a topology that configs can express, with
ports and limits that can be written and texts that are read back. In either style its wire
form is written, in ASCII; and as a config in JSON the text parses to the same services, so
that its audit is the same. -/
theorem Topology.recovered_of_written (order : SetOrder) (t : Topology) (style : Style)
    (hstyle : style = Style.compact ∨ style = Style.readable) (hexpress : t.IsExpressible)
    (hprint : t.IsPrintable Style.compact) (hunpaired : t.IsUnpaired) :
    t.toValue.toWire.map Value.json = .ok t.wire ∧
      ∃ text, Json.print style t.wire = .ok text ∧ text.IsAscii ∧
        ∃ t', Topology.parse order (.text SourceFormat.json.name) text = .ok (.success t') ∧
          t'.services = t.services ∧ t'.audit = t.audit := by
  have hcolon : style.HasColon := by
    rcases hstyle with rfl | rfl
    · exact Json.hasColon_compact
    · exact Json.hasColon_readable
  have hwritable : t.wire.IsWritable style := ((isWritable_wire hexpress).mpr hprint).of_compact
  -- what is read of the text, and what the schema reads of that
  have hread : Json.read (Json.render style t.wire) = .ok t.wire.reread := by
    have hread := @Json.read_render style t.wire [] hcolon hwritable
      (Nat.le_trans t.nesting_wire_le (by decide)) nofun
    rwa [List.append_nil] at hread
  have hcheck : Schema.check (Tree.ofJson t.wire.reread) = .ok t.services := by
    rw [reread_wire hunpaired hprint]
    exact check_wire (t := ⟨t.services, t.metadata.reread⟩) hexpress
  refine ⟨t.toWire_toValue, _, Json.print_of_isWritable hwritable,
    Json.isAscii_render hcolon.isAscii t.wire, _, parse_json hread hcheck, rfl, rfl⟩

/-- A topology whose texts need every form of escape: quotes, backslashes, control characters,
a code point beyond the surrogates, and halves of pairs that stand alone. Its fingerprint holds
a pair. -/
def escapedTopology : Topology :=
  { services :=
      [⟨[CodePoint.ofChar '"', CodePoint.ofChar '\\', CodePoint.ofNat 0xDC00, CodePoint.ofNat 0xD800],
          .api, true, false,
          [⟨[CodePoint.ofNat 0, CodePoint.ofNat 0x1F600], 65536, .http⟩], [[], [CodePoint.ofNat 0x7F]],
          some ⟨some (.int (-3)), none⟩⟩,
        ⟨[CodePoint.ofChar '\n'], .db, false, true, [], [], some ⟨none, some (.float ⟨1⟩)⟩⟩]
    metadata := ⟨.yaml, some [CodePoint.ofNat 0xD83D, CodePoint.ofNat 0xDE00]⟩ }

theorem isExpressible_escapedTopology : escapedTopology.IsExpressible := by
  intro s hs
  simp only [escapedTopology, List.mem_cons, List.not_mem_nil, or_false] at hs
  rcases hs with rfl | rfl
  · refine ⟨by decide, ?_⟩
    intro l hl
    cases hl
    refine ⟨?_, nofun⟩
    intro a ha
    cases ha
    exact (by decide +kernel : (Binary64.ofInt (-3)).isFinite = true)
  · refine ⟨by decide, ?_⟩
    intro l hl
    cases hl
    refine ⟨nofun, ?_⟩
    intro a ha
    cases ha
    exact trivial

/-- The escaped topology is recovered from both of its texts. -/
theorem Topology.recovered_of_escaped_topology :
    (∃ text, Json.print Style.compact escapedTopology.wire = .ok text ∧
      ∃ t', Topology.parse .asWritten (.text SourceFormat.json.name) text = .ok (.success t') ∧
        t'.services = escapedTopology.services) ∧
      ∃ text, Json.print Style.readable escapedTopology.wire = .ok text ∧
        ∃ t', Topology.parse .asWritten (.text SourceFormat.json.name) text = .ok (.success t') ∧
          t'.services = escapedTopology.services := by
  constructor
  · obtain ⟨-, text, hprint, -, t', hparse, hservices, -⟩ :=
      Topology.recovered_of_written .asWritten escapedTopology Style.compact (.inl rfl)
        isExpressible_escapedTopology (by decide +kernel) (by decide)
    exact ⟨text, hprint, t', hparse, hservices⟩
  · obtain ⟨-, text, hprint, -, t', hparse, hservices, -⟩ :=
      Topology.recovered_of_written .asWritten escapedTopology Style.readable (.inr rfl)
        isExpressible_escapedTopology (by decide +kernel) (by decide)
    exact ⟨text, hprint, t', hparse, hservices⟩

end TopologyAudit
