import TopologyAudit.Proofs.Entries
import TopologyAudit.Record.Wire
import TopologyAudit.Topology.Schema

/-!
# Records on the wire, read back by the schema

A record whose attributes have distinct names on the wire loses none of them: each is
found again under its wire name exactly when it is shown (`valueOf?_wireAttributes`).
`required_of_attribute` and `optional_of_attribute` are what this means for the fields
that the schema looks up.
-/

namespace TopologyAudit

namespace Value

/-! ## Forms part by part -/

theorem formItems_eq_map (items : List Value) : formItems items = items.map form := by
  induction items with
  | nil => rfl
  | cons item rest ih => rw [formItems, ih, List.map_cons]

theorem formEntries_eq_map (entries : List (Value × Value)) :
    formEntries entries = entries.map fun e => (e.1, e.2.form) := by
  induction entries with
  | nil => rfl
  | cons entry rest ih => rw [formEntries, ih, List.map_cons]

/-- The attributes that are shown. -/
def shownAttributes (attributes : List (Text × Value)) : List (Text × Value) :=
  attributes.filter fun a => isShown a.1 a.2

theorem formAttributes_eq_map (attributes : List (Text × Value)) :
    formAttributes attributes =
      (shownAttributes attributes).map fun a => (FieldName.wire a.1, a.2.form) := by
  induction attributes with
  | nil => rfl
  | cons entry rest ih =>
    rw [formAttributes, ih, shownAttributes, shownAttributes, List.filter_cons]
    cases isShown entry.1 entry.2 <;> rfl

theorem jsonItems_eq_map (items : List Value) : jsonItems items = items.map json := by
  induction items with
  | nil => rfl
  | cons item rest ih => rw [jsonItems, ih, List.map_cons]

theorem jsonEntries_eq_map (entries : List (Value × Value)) :
    jsonEntries entries = entries.map fun e => (keyText e.1, e.2.json) := by
  induction entries with
  | nil => rfl
  | cons entry rest ih => rw [jsonEntries, ih, List.map_cons]

/-- Fields are written under their names. -/
theorem json_ofFields (fields : List (Text × Value)) :
    (ofFields fields).json = .object (fields.map fun f => (f.1, f.2.json)) := by
  rw [ofFields, json, jsonEntries_eq_map, List.map_map]
  rfl

/-! ## Values on the wire -/

@[simp]
theorem wire_null : null.wire = .null := rfl

@[simp]
theorem wire_bool (b : Bool) : (bool b).wire = .bool b := rfl

@[simp]
theorem wire_int (n : Int) : (int n).wire = .int n := rfl

@[simp]
theorem wire_float (x : Binary64) : (float x).wire = .float x := rfl

@[simp]
theorem wire_text (t : Text) : (text t).wire = .text t := rfl

@[simp]
theorem wire_word (w : Word) : (word w).wire = .text w.name := rfl

theorem wire_list (items : List Value) : (list items).wire = .array (items.map wire) := by
  rw [wire, form, json, formItems_eq_map, jsonItems_eq_map, List.map_map]
  rfl

theorem wire_tuple (items : List Value) : (tuple items).wire = .array (items.map wire) :=
  wire_list items

/-- The attributes that are shown, as they are written. -/
def wireAttributes : List (Text × Value) → List (Text × Json)
  | [] => []
  | (name, value) :: rest =>
    if isShown name value then (FieldName.wire name, wire value) :: wireAttributes rest
    else wireAttributes rest

theorem wireAttributes_eq_map (attributes : List (Text × Value)) :
    wireAttributes attributes = (formAttributes attributes).map fun f => (f.1, f.2.json) := by
  induction attributes with
  | nil => rfl
  | cons a rest ih =>
    obtain ⟨name, value⟩ := a
    rw [wireAttributes, formAttributes, ih]
    split <;> rfl

theorem wire_record_ofList (attributes : List (Text × Value)) :
    (record attributes).wire = .object (Entries.ofList (wireAttributes attributes)) := by
  rw [wire, form, json_ofFields, wireAttributes_eq_map, Entries.ofList_map]

/-! ## Foreign values -/

theorem foreignInList?_eq_findSome? (items : List Value) :
    foreignInList? items = items.findSome? foreign? := by
  induction items with
  | nil => rfl
  | cons item rest ih =>
    rw [foreignInList?, ih, List.findSome?_cons]
    cases foreign? item <;> rfl

theorem foreignInList?_eq_none {items : List Value} (h : ∀ v ∈ items, foreign? v = none) :
    foreignInList? items = none := by
  rw [foreignInList?_eq_findSome?]
  exact List.findSome?_eq_none_iff.mpr h

theorem foreignInRecord?_eq_none {attributes : List (Text × Value)}
    (h : ∀ a ∈ attributes, foreign? a.2 = none) : foreignInRecord? attributes = none := by
  induction attributes with
  | nil => rfl
  | cons a rest ih =>
    obtain ⟨name, value⟩ := a
    have hrest := ih fun b hb => h b (List.mem_cons_of_mem _ hb)
    have hvalue : foreign? value = none := h (name, value) (List.mem_cons_self ..)
    rw [foreignInRecord?, hrest, hvalue]
    split <;> rfl

/-! ## Names on the wire -/

/-- The names on the wire are among the wire names of the attributes. -/
theorem wireAttributes_names_sublist (attributes : List (Text × Value)) :
    ((wireAttributes attributes).map (·.1)).Sublist
      ((attributes.map (·.1)).map FieldName.wire) := by
  induction attributes with
  | nil => exact List.Sublist.refl _
  | cons a rest ih =>
    obtain ⟨name, value⟩ := a
    rw [wireAttributes]
    split
    next => exact ih.cons_cons _
    next => exact ih.cons _

/-- Attributes with distinct wire names go on the wire as they stand. -/
theorem wire_record {attributes : List (Text × Value)}
    (h : ((attributes.map (·.1)).map FieldName.wire).Nodup) :
    (record attributes).wire = .object (wireAttributes attributes) := by
  rw [wire_record_ofList,
    Entries.ofList_of_nodup ((wireAttributes_names_sublist attributes).nodup h)]

end Value

namespace Tree

theorem ofItems_eq_map (items : List Json) : ofItems items = items.map ofJson := by
  induction items with
  | nil => rfl
  | cons item rest ih => rw [ofItems, ih, List.map_cons]

theorem valueOf?_cons_self (name : Text) (value : Tree) (entries : List (Scalar × Tree)) :
    valueOf? ((.text name, value) :: entries) name = some value := by
  rw [valueOf?, List.lookup_cons_self]

theorem valueOf?_cons_ne {first name : Text} {value : Tree} {entries : List (Scalar × Tree)}
    (h : name ≠ first) :
    valueOf? ((.text first, value) :: entries) name = valueOf? entries name := by
  have hne : (Scalar.text name == Scalar.text first) = false :=
    beq_eq_false_iff_ne.mpr fun he => h (Scalar.text.inj he)
  rw [valueOf?, List.lookup_cons, hne]
  rfl

/-- A name that no attribute has on the wire is not found. -/
theorem valueOf?_wireAttributes_of_notMem {attributes : List (Text × Value)} {key : Text}
    (h : key ∉ (attributes.map (·.1)).map FieldName.wire) :
    valueOf? (ofFields (Value.wireAttributes attributes)) key = none := by
  induction attributes with
  | nil => rfl
  | cons a rest ih =>
    obtain ⟨name, value⟩ := a
    rw [List.map_cons, List.map_cons, List.mem_cons, not_or] at h
    rw [Value.wireAttributes]
    split
    next => rw [ofFields, valueOf?_cons_ne h.1, ih h.2]
    next => exact ih h.2

/-- **Nothing is lost by dropping nulls.** Under its wire name an attribute is found
exactly when it is shown. -/
theorem valueOf?_wireAttributes {attributes : List (Text × Value)} {name : Text} {value : Value}
    (hn : ((attributes.map (·.1)).map FieldName.wire).Nodup) (hmem : (name, value) ∈ attributes) :
    valueOf? (ofFields (Value.wireAttributes attributes)) (FieldName.wire name) =
      if Value.isShown name value then some (ofJson value.wire) else none := by
  induction attributes with
  | nil => exact absurd hmem List.not_mem_nil
  | cons a rest ih =>
    obtain ⟨first, firstValue⟩ := a
    rw [List.map_cons, List.map_cons, List.nodup_cons] at hn
    rw [Value.wireAttributes]
    rcases List.mem_cons.mp hmem with heq | hrest
    · obtain ⟨rfl, rfl⟩ := Prod.mk.inj heq
      split
      next => rw [ofFields, valueOf?_cons_self]
      next => exact valueOf?_wireAttributes_of_notMem hn.1
    · have hne : FieldName.wire name ≠ FieldName.wire first := by
        intro he
        exact hn.1 (he ▸ List.mem_map_of_mem (List.mem_map_of_mem (f := (·.1)) hrest))
      split
      next => rw [ofFields, valueOf?_cons_ne hne, ih hn.2 hrest]
      next => exact ih hn.2 hrest

end Tree

namespace Schema

/-- A field is found under the wire name of the attribute that it is written from. -/
theorem find?_of_attribute {f : FieldName} {attributes : List (Text × Value)} {name : Text}
    {value : Value} (hn : ((attributes.map (·.1)).map TopologyAudit.FieldName.wire).Nodup)
    (hmem : (name, value) ∈ attributes) (hname : TopologyAudit.FieldName.wire name = f.name)
    (halt : ∀ other ∈ f.alternative,
      other ∉ (attributes.map (·.1)).map TopologyAudit.FieldName.wire) :
    f.find? (Tree.ofFields (Value.wireAttributes attributes)) =
      if Value.isShown name value then some (f.name, Tree.ofJson value.wire) else none := by
  unfold FieldName.find?
  rw [← hname, Tree.valueOf?_wireAttributes hn hmem]
  by_cases hs : Value.isShown name value = true
  · rw [if_pos hs, if_pos hs]
  · rw [if_neg hs, if_neg hs]
    -- the attribute is not shown, and its other name is nobody's either
    cases hf : f.alternative with
    | none => rfl
    | some other =>
      simp only
      rw [Tree.valueOf?_wireAttributes_of_notMem (halt other hf)]
      rfl

section

variable {α : Type} {attributes : List (Text × Value)}

theorem required_of_attribute (f : FieldName) (check : Tree → Checked α) (name : Text)
    (value : Value) {a : α}
    (hn : ((attributes.map (·.1)).map TopologyAudit.FieldName.wire).Nodup)
    (hmem : (name, value) ∈ attributes) (hname : TopologyAudit.FieldName.wire name = f.name)
    (halt : f.alternative = none) (hs : Value.isShown name value = true)
    (hcheck : check (Tree.ofJson value.wire) = .ok a) :
    required f check (Tree.ofFields (Value.wireAttributes attributes)) = .ok a := by
  rw [required, find?_of_attribute hn hmem hname (by simp [halt]), if_pos hs]
  simp only
  rw [hcheck]
  rfl

theorem optional_of_attribute (f : FieldName) (default : α) (check : Tree → Checked α)
    (name : Text) (value : Value) {a : α}
    (hn : ((attributes.map (·.1)).map TopologyAudit.FieldName.wire).Nodup)
    (hmem : (name, value) ∈ attributes) (hname : TopologyAudit.FieldName.wire name = f.name)
    (halt : ∀ other ∈ f.alternative,
      other ∉ (attributes.map (·.1)).map TopologyAudit.FieldName.wire)
    (hcheck : Value.isShown name value = true → check (Tree.ofJson value.wire) = .ok a)
    (hdefault : Value.isShown name value = false → a = default) :
    optional f default check (Tree.ofFields (Value.wireAttributes attributes)) = .ok a := by
  rw [optional, find?_of_attribute hn hmem hname halt]
  by_cases hs : Value.isShown name value = true
  · rw [if_pos hs]
    simp only
    rw [hcheck hs]
    rfl
  · rw [if_neg hs]
    simp only
    rw [hdefault (Bool.eq_false_iff.mpr hs)]

end

end Schema

end TopologyAudit
