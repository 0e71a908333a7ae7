import Mathlib.Data.List.Forall2
import Mathlib.Data.List.Lex
import TopologyAudit.Proofs.Record.Wire
import TopologyAudit.Record.Topology

/-!
# Values that go on the wire

To put a value on the wire, its parts are gone through in their order, and the parts of these
before the next one. A value of a foreign type anywhere among them (`Reaches`) stops this, and
the first one in the order is named (`toWire_eq_error_iff`). Without any the value goes on the
wire in a form that is laid down here by the kinds of values alone (`Shows`, `toWire_eq_ok_iff`).

Such a form is a value of primitives, lists and tables only (`IsPlain`), which goes on the wire
as it stands. The keys of its tables are those that the value had (`HasKey`), of whatever kind, or
the names of attributes; so they are primitives if the value's are.
-/

namespace TopologyAudit

namespace Value

/-- The parts of a value that are gone through, in their order: items, the values of a table, and
the attributes whose names do not start with an underscore. -/
def parts : Value → List Value
  | .list items => items
  | .tuple items => items
  | .table entries => entries.map (·.2)
  | .record attributes => (attributes.filter fun a => !a.1.startsWith "_").map (·.2)
  | _ => []

/-- A value of a foreign type stands where positions among parts lead to from a value. -/
inductive Reaches : Value → List Nat → Text → Prop
  | foreign (type shown : Text) : Reaches (.foreign type shown) [] type
  | part {v u : Value} {position : Nat} {path : List Nat} {type : Text}
    (hu : v.parts[position]? = some u) (h : Reaches u path type) :
    Reaches v (position :: path) type

/-- A value of a foreign type stands there, and all others come later. -/
structure ReachesFirst (v : Value) (path : List Nat) (type : Text) : Prop where
  reaches : v.Reaches path type
  first : ∀ path' type', v.Reaches path' type' → path' = path ∨ List.Lex (· < ·) path path'

/-- What a value is on the wire. Tables keep their keys, and their nulls; of a record the
attributes that are shown are set in their order, under their names on the wire. -/
inductive Shows : Value → Value → Prop
  | null : Shows .null .null
  | bool (b : Bool) : Shows (.bool b) (.bool b)
  | int (n : Int) : Shows (.int n) (.int n)
  | float (x : Binary64) : Shows (.float x) (.float x)
  | text (t : Text) : Shows (.text t) (.text t)
  | word (w : Word) : Shows (.word w) (.text w.name)
  | list {items us : List Value} (hlength : items.length = us.length)
    (h : ∀ v u, (v, u) ∈ items.zip us → Shows v u) : Shows (.list items) (.list us)
  | tuple {items us : List Value} (hlength : items.length = us.length)
    (h : ∀ v u, (v, u) ∈ items.zip us → Shows v u) : Shows (.tuple items) (.list us)
  | table {entries : List (Value × Value)} {us : List Value} (hlength : entries.length = us.length)
    (h : ∀ v u, (v, u) ∈ (entries.map (·.2)).zip us → Shows v u) :
    Shows (.table entries) (.table ((entries.map (·.1)).zip us))
  | record {attributes : List (Text × Value)} {us : List Value}
    (hlength : (shownAttributes attributes).length = us.length)
    (h : ∀ v u, (v, u) ∈ ((shownAttributes attributes).map (·.2)).zip us → Shows v u) :
    Shows (.record attributes) (ofFields (Entries.ofList
      (((shownAttributes attributes).map fun a => FieldName.wire a.1).zip us)))

inductive IsPrimitive : Value → Prop
  | null : IsPrimitive .null
  | bool (b : Bool) : IsPrimitive (.bool b)
  | int (n : Int) : IsPrimitive (.int n)
  | float (x : Binary64) : IsPrimitive (.float x)
  | text (t : Text) : IsPrimitive (.text t)

/-- There is nothing but primitives, and lists and tables of such values. The tables have keys of
some kind. -/
inductive IsPlain (IsKey : Value → Prop) : Value → Prop
  | primitive {v : Value} (h : v.IsPrimitive) : IsPlain IsKey v
  | list {items : List Value} (h : ∀ v ∈ items, IsPlain IsKey v) : IsPlain IsKey (.list items)
  | table {entries : List (Value × Value)} (hkeys : ∀ e ∈ entries, IsKey e.1)
    (h : ∀ e ∈ entries, IsPlain IsKey e.2) : IsPlain IsKey (.table entries)

/-- A table that is the value, or is reached from it, has the key. -/
inductive HasKey : Value → Value → Prop
  | entry {entries : List (Value × Value)} {e : Value × Value} (h : e ∈ entries) :
    HasKey (.table entries) e.1
  | part {v u key : Value} (hu : u ∈ v.parts) (h : HasKey u key) : HasKey v key

/-! ## Parts -/

theorem sizeOf_lt_of_mem_parts {u v : Value} (h : u ∈ v.parts) : sizeOf u < sizeOf v := by
  have hentry : ∀ {κ : Type} [SizeOf κ] {entries : List (κ × Value)}, u ∈ entries.map (·.2) →
      sizeOf u < sizeOf entries := by
    intro κ _ entries hmem
    obtain ⟨e, he, rfl⟩ := List.mem_map.mp hmem
    have hlt := List.sizeOf_lt_of_mem he
    obtain ⟨name, value⟩ := e
    simp only [Prod.mk.sizeOf_spec] at hlt ⊢
    omega
  cases v with
  | list items | tuple items =>
    have hlt := List.sizeOf_lt_of_mem (show u ∈ items from h)
    simp only [list.sizeOf_spec, tuple.sizeOf_spec]
    omega
  | table entries =>
    have hlt := hentry h
    simp only [table.sizeOf_spec]
    omega
  | record attributes =>
    have hmem : u ∈ attributes.map (·.2) := ((List.filter_sublist).map _).subset h
    have hlt := hentry hmem
    simp only [record.sizeOf_spec]
    omega
  | _ => exact absurd h List.not_mem_nil

/-- What holds of a value when it holds of its parts holds of all values. -/
theorem parts_induction {motive : Value → Prop}
    (part : ∀ v, (∀ u ∈ v.parts, motive u) → motive v) (v : Value) : motive v :=
  part v fun u _ => parts_induction part u
termination_by sizeOf v
decreasing_by exact sizeOf_lt_of_mem_parts ‹_›

theorem foreignInTable?_eq_findSome? (entries : List (Value × Value)) :
    foreignInTable? entries = (entries.map (·.2)).findSome? foreign? := by
  induction entries with
  | nil => rfl
  | cons entry rest ih =>
    rw [foreignInTable?, ih, List.map_cons, List.findSome?_cons]
    cases foreign? entry.2 <;> rfl

theorem foreignInRecord?_eq_findSome? (attributes : List (Text × Value)) :
    foreignInRecord? attributes = (record attributes).parts.findSome? foreign? := by
  induction attributes with
  | nil => rfl
  | cons entry rest ih =>
    obtain ⟨name, value⟩ := entry
    rw [foreignInRecord?, ih, isShown, parts, parts, List.filter_cons, ← FieldName.isHidden]
    cases FieldName.isHidden name with
    | true => rfl
    | false =>
      rw [Bool.not_false, Bool.true_and, if_pos rfl, List.map_cons, List.findSome?_cons]
      cases hnull : value.isNull with
      -- a null is not shown, but it is not foreign either
      | true =>
        cases value with
        | null => rfl
        | _ => cases hnull
      | false => cases foreign? value <;> rfl

/-- The first part with a foreign value in it decides. -/
theorem foreign?_eq_findSome? {v : Value} (h : ∀ type shown, v ≠ .foreign type shown) :
    v.foreign? = v.parts.findSome? foreign? := by
  cases v with
  | list items | tuple items => exact foreignInList?_eq_findSome? items
  | table entries => exact foreignInTable?_eq_findSome? entries
  | record attributes => exact foreignInRecord?_eq_findSome? attributes
  | foreign type shown => exact absurd rfl (h type shown)
  | _ => rfl

/-! ## Foreign values -/

theorem Reaches.foreign?_ne_none {v : Value} {path : List Nat} {type : Text}
    (h : v.Reaches path type) : v.foreign? ≠ none := by
  induction h with
  | foreign type shown => nofun
  | @part v u position path type hu _ ih =>
    have hmem : u ∈ v.parts := List.mem_of_getElem? hu
    have hv : ∀ type shown, v ≠ .foreign type shown := by
      rintro type shown rfl
      exact List.not_mem_nil hmem
    rw [foreign?_eq_findSome? hv]
    exact fun hnone => ih (List.findSome?_eq_none_iff.mp hnone u hmem)

theorem exists_reachesFirst (v : Value) :
    ∀ type, v.foreign? = some type → ∃ path, v.ReachesFirst path type := by
  induction v using parts_induction with
  | part v ih =>
    intro type hfound
    by_cases hv : ∃ type shown, v = .foreign type shown
    · obtain ⟨type', shown, rfl⟩ := hv
      cases hfound
      refine ⟨[], .foreign type shown, fun path' type' hother => ?_⟩
      cases hother with
      | foreign => exact Or.inl rfl
      | part => exact Or.inr .nil
    · have hne : ∀ type shown, v ≠ .foreign type shown := fun type shown heq =>
        hv ⟨type, shown, heq⟩
      rw [foreign?_eq_findSome? hne] at hfound
      obtain ⟨front, u, back, hparts, hu, hfront⟩ := List.findSome?_eq_some_iff.mp hfound
      have hmem : u ∈ v.parts := hparts ▸ List.mem_append_cons_self
      obtain ⟨path, hreaches, hfirst⟩ := ih u hmem type hu
      refine ⟨front.length :: path, .part (by simp [hparts]) hreaches, ?_⟩
      intro path' type' hother
      cases hother with
      | foreign type shown => exact absurd rfl (hne _ _)
      | @part _ w position path' _ hw hother =>
        rw [hparts] at hw
        rcases Nat.lt_trichotomy position front.length with hlt | heq | hgt
        -- in front of the part there is none
        · rw [List.getElem?_append_left hlt] at hw
          exact absurd (hfront w (List.mem_of_getElem? hw)) hother.foreign?_ne_none
        · subst heq
          rw [List.getElem?_append_right (Nat.le_refl _), Nat.sub_self, List.getElem?_cons_zero] at hw
          cases hw
          rcases hfirst path' type' hother with rfl | hlex
          · exact Or.inl rfl
          · exact Or.inr (.cons hlex)
        · exact Or.inr (.rel hgt)

/-- One place leads to one value, so that of a type alone is the first. -/
theorem Reaches.type_unique {v : Value} {path : List Nat} {type type' : Text}
    (h : v.Reaches path type) (h' : v.Reaches path type') : type = type' := by
  induction h with
  | foreign type shown =>
    cases h'
    rfl
  | part hu _ ih =>
    cases h' with
    | part hu' h' =>
      cases hu.symm.trans hu'
      exact ih h'

theorem ReachesFirst.type_unique {v : Value} {path path' : List Nat} {type type' : Text}
    (h : v.ReachesFirst path type) (h' : v.ReachesFirst path' type') : type = type' := by
  rcases h.first _ _ h'.reaches with rfl | hlex
  · exact h.reaches.type_unique h'.reaches
  · rcases h'.first _ _ h.reaches with rfl | hlex'
    · exact h.reaches.type_unique h'.reaches
    · exact absurd hlex' (asymm_of (List.Lex (· < ·)) hlex)

theorem foreign?_eq_some_iff {v : Value} {type : Text} :
    v.foreign? = some type ↔ ∃ path, v.ReachesFirst path type := by
  refine ⟨exists_reachesFirst v type, ?_⟩
  rintro ⟨path, hfirst⟩
  obtain ⟨type', hfound⟩ := Option.ne_none_iff_exists'.mp hfirst.reaches.foreign?_ne_none
  obtain ⟨path', hfirst'⟩ := exists_reachesFirst v type' hfound
  rw [hfound, hfirst.type_unique hfirst']

theorem foreign?_eq_none_iff {v : Value} :
    v.foreign? = none ↔ ∀ path type, ¬v.Reaches path type := by
  constructor
  · exact fun hnone path type h => h.foreign?_ne_none hnone
  · intro hnever
    refine Option.eq_none_iff_forall_ne_some.mpr fun type hfound => ?_
    obtain ⟨path, hfirst⟩ := exists_reachesFirst v type hfound
    exact hnever path type hfirst.reaches

/-- The first foreign value is named when there is one, and then only. -/
theorem toWire_eq_error_iff {v : Value} {e : ForeignType} :
    v.toWire = .error e ↔ ∃ path, v.ReachesFirst path e.name := by
  rw [← foreign?_eq_some_iff, toWire]
  obtain ⟨type⟩ := e
  cases v.foreign? with
  | none => exact ⟨nofun, nofun⟩
  | some type' => simp

/-! ## Forms on the wire -/

theorem formEntries_eq_zip (entries : List (Value × Value)) :
    formEntries entries = (entries.map (·.1)).zip ((entries.map (·.2)).map form) := by
  rw [formEntries_eq_map, List.map_map, List.zip_map']
  rfl

theorem formAttributes_eq_zip (attributes : List (Text × Value)) :
    formAttributes attributes =
      ((shownAttributes attributes).map fun a => FieldName.wire a.1).zip
        (((shownAttributes attributes).map (·.2)).map form) := by
  rw [formAttributes_eq_map, List.map_map, List.zip_map']
  rfl

/-- What is shown of a record is gone through. -/
theorem mem_parts_of_shown {attributes : List (Text × Value)} {u : Value}
    (h : u ∈ (shownAttributes attributes).map (·.2)) : u ∈ (record attributes).parts := by
  obtain ⟨a, ha, rfl⟩ := List.mem_map.mp h
  obtain ⟨ha, hshown⟩ := List.mem_filter.mp ha
  rw [isShown, Bool.and_eq_true] at hshown
  exact List.mem_map_of_mem (List.mem_filter.mpr ⟨ha, hshown.1⟩)

/-- What is gone through of a record is shown unless it is null. -/
theorem shown_or_null_of_mem_parts {attributes : List (Text × Value)} {u : Value}
    (h : u ∈ (record attributes).parts) :
    u ∈ (shownAttributes attributes).map (·.2) ∨ u = .null := by
  obtain ⟨⟨name, value⟩, ha, rfl⟩ := List.mem_map.mp h
  obtain ⟨ha, hname⟩ := List.mem_filter.mp ha
  cases value with
  | null => exact Or.inr rfl
  | _ =>
    refine Or.inl (List.mem_map_of_mem (f := Prod.snd) (List.mem_filter.mpr ⟨ha, ?_⟩))
    rw [isShown, Bool.and_eq_true]
    exact ⟨hname, rfl⟩

/-- Values have their forms, one by one. -/
theorem shows_map_form {vs : List Value} (h : ∀ v ∈ vs, Shows v v.form) :
    ∀ v u, (v, u) ∈ vs.zip (vs.map form) → Shows v u := by
  have hall : List.Forall₂ Shows vs (vs.map form) :=
    List.forall₂_map_right_iff.mpr (List.forall₂_same.mpr h)
  exact fun v u hvu => (List.forall₂_iff_zip.mp hall).2 hvu

/-- Where no foreign value is reached, a value has its form. -/
theorem shows_form (v : Value) : v.foreign? = none → Shows v v.form := by
  induction v using parts_induction with
  | part v ih =>
    intro hnone
    have hparts : ∀ u ∈ v.parts, Shows u u.form := by
      intro u hu
      obtain ⟨position, hposition⟩ := List.getElem?_of_mem hu
      refine ih u hu (foreign?_eq_none_iff.mpr fun path type hreaches => ?_)
      exact foreign?_eq_none_iff.mp hnone _ _ (.part hposition hreaches)
    cases v with
    | null => exact .null
    | bool b => exact .bool b
    | int n => exact .int n
    | float x => exact .float x
    | text t => exact .text t
    | word w => exact .word w
    | list items =>
      rw [form, formItems_eq_map]
      exact .list (List.length_map _).symm (shows_map_form hparts)
    | tuple items =>
      rw [form, formItems_eq_map]
      exact .tuple (List.length_map _).symm (shows_map_form hparts)
    | table entries =>
      rw [form, formEntries_eq_zip]
      exact .table (by simp) (shows_map_form hparts)
    | record attributes =>
      rw [form, formAttributes_eq_zip]
      exact .record (by simp) (shows_map_form fun u hu => hparts u (mem_parts_of_shown hu))
    | foreign type shown => cases hnone

/-- What has forms, one by one, holds no foreign value, and the forms are its own. -/
theorem forall₂_form {vs us : List Value} (hlength : vs.length = us.length)
    (h : ∀ v u, (v, u) ∈ vs.zip us → v.foreign? = none ∧ u = v.form) :
    (∀ v ∈ vs, v.foreign? = none) ∧ us = vs.map form := by
  have hall : List.Forall₂ (fun v u => v.foreign? = none ∧ u = v.form) vs us :=
    List.forall₂_iff_zip.mpr ⟨hlength, fun hvu => h _ _ hvu⟩
  clear hlength h
  induction hall with
  | nil => exact ⟨fun _ hv => absurd hv List.not_mem_nil, rfl⟩
  | cons hfirst _ ih =>
    obtain ⟨hnone, rfl⟩ := hfirst
    obtain ⟨hrest, rfl⟩ := ih
    exact ⟨List.forall_mem_cons.mpr ⟨hnone, hrest⟩, rfl⟩

/-- A value has one form at most, and only values without foreign ones have one. -/
theorem Shows.form_eq {v u : Value} (h : Shows v u) : v.foreign? = none ∧ u = v.form := by
  induction h with
  | list hlength _ ih | tuple hlength _ ih =>
    obtain ⟨hnone, rfl⟩ := forall₂_form hlength ih
    rw [form, formItems_eq_map]
    exact ⟨foreignInList?_eq_none hnone, rfl⟩
  | @table entries us hlength _ ih =>
    obtain ⟨hnone, rfl⟩ := forall₂_form (by simpa using hlength) ih
    rw [foreign?, foreignInTable?_eq_findSome?, form, formEntries_eq_zip]
    exact ⟨List.findSome?_eq_none_iff.mpr hnone, rfl⟩
  | @record attributes us hlength _ ih =>
    obtain ⟨hnone, rfl⟩ := forall₂_form (by simpa using hlength) ih
    rw [foreign?, foreignInRecord?_eq_findSome?, form, formAttributes_eq_zip]
    refine ⟨List.findSome?_eq_none_iff.mpr fun u hu => ?_, rfl⟩
    rcases shown_or_null_of_mem_parts hu with hshown | rfl
    · exact hnone u hshown
    · rfl
  | _ => exact ⟨rfl, rfl⟩

/-- What goes on the wire is the form of the value, and all that have one go. -/
theorem toWire_eq_ok_iff {v u : Value} : v.toWire = .ok u ↔ v.Shows u := by
  constructor
  · intro hok
    unfold toWire at hok
    split at hok
    next => cases hok
    next hnone =>
      cases hok
      exact shows_form v hnone
  · intro h
    obtain ⟨hnone, rfl⟩ := h.form_eq
    rw [toWire, hnone]

/-! ## What forms are made of -/

/-- Each member of a list has a partner in another one of its length. -/
theorem exists_mem_zip {α β : Type} (as : List α) {bs : List β} {b : β}
    (hlength : as.length = bs.length) (hb : b ∈ bs) : ∃ a, (a, b) ∈ as.zip bs := by
  rw [← List.map_snd_zip hlength.ge] at hb
  obtain ⟨⟨a, b'⟩, hpair, rfl⟩ := List.mem_map.mp hb
  exact ⟨a, hpair⟩

/-- The values of set attributes are among those that were set. -/
theorem snd_mem_of_mem_ofList {names : List Text} {us : List Value} {f : Text × Value}
    (h : f ∈ Entries.ofList (names.zip us)) : f.2 ∈ us :=
  (List.of_mem_zip (Entries.mem_of_mem_ofList h)).2

theorem parts_ofFields (fields : List (Text × Value)) :
    (ofFields fields).parts = fields.map (·.2) := by
  rw [ofFields, parts, List.map_map]
  rfl

/-- Plain values are told from others apart from their keys. -/
theorem IsPlain.of_keys {IsKey IsKey' : Value → Prop} {v : Value} (h : v.IsPlain IsKey)
    (hkeys : ∀ key, v.HasKey key → IsKey' key) : v.IsPlain IsKey' := by
  induction h with
  | primitive h => exact .primitive h
  | list _ ih => exact .list fun u hu => ih u hu fun key hkey => hkeys key (.part hu hkey)
  | table _ _ ih =>
    refine .table (fun e he => hkeys e.1 (.entry he)) fun e he => ih e he fun key hkey => ?_
    exact hkeys key (.part (List.mem_map_of_mem he) hkey)

theorem Shows.isPlain {v u : Value} (h : Shows v u) : u.IsPlain fun _ => True := by
  induction h with
  | null => exact .primitive .null
  | bool b => exact .primitive (.bool b)
  | int n => exact .primitive (.int n)
  | float x => exact .primitive (.float x)
  | text t => exact .primitive (.text t)
  | word w => exact .primitive (.text w.name)
  | list hlength _ ih | tuple hlength _ ih =>
    refine .list fun u hu => ?_
    obtain ⟨v, hvu⟩ := exists_mem_zip _ hlength hu
    exact ih v u hvu
  | @table entries us hlength _ ih =>
    refine .table (fun _ _ => trivial) fun e he => ?_
    obtain ⟨v, hvu⟩ := exists_mem_zip (entries.map (·.2)) (by simpa using hlength)
      (List.of_mem_zip he).2
    exact ih v e.2 hvu
  | @record attributes us hlength _ ih =>
    refine .table (fun _ _ => trivial) fun e he => ?_
    obtain ⟨f, hf, rfl⟩ := List.mem_map.mp he
    obtain ⟨v, hvu⟩ := exists_mem_zip ((shownAttributes attributes).map (·.2))
      (by simpa using hlength) (snd_mem_of_mem_ofList hf)
    exact ih v f.2 hvu

/-- The keys of a form are those of the value, or names. -/
theorem Shows.key_cases {v u key : Value} (h : Shows v u) :
    u.HasKey key → v.HasKey key ∨ ∃ name, key = .text name := by
  induction h with
  | @list items us hlength _ ih | @tuple items us hlength _ ih =>
    rintro (_ | ⟨hu, hkey⟩)
    obtain ⟨v, hvu⟩ := exists_mem_zip _ hlength hu
    exact (ih v _ hvu hkey).imp_left (.part (List.of_mem_zip hvu).1)
  | @table entries us hlength _ ih =>
    rintro (he | ⟨hu, hkey⟩)
    · obtain ⟨e, he, heq⟩ := List.mem_map.mp (List.of_mem_zip he).1
      rw [← heq]
      exact Or.inl (.entry he)
    · obtain ⟨e, he, rfl⟩ := List.mem_map.mp hu
      obtain ⟨v, hvu⟩ := exists_mem_zip (entries.map (·.2)) (by simpa using hlength)
        (List.of_mem_zip he).2
      exact (ih v _ hvu hkey).imp_left (.part (List.of_mem_zip hvu).1)
  | @record attributes us hlength _ ih =>
    intro hkey
    generalize hform : ofFields _ = form at hkey
    cases hkey with
    | entry he =>
      cases hform
      obtain ⟨f, -, rfl⟩ := List.mem_map.mp he
      exact Or.inr ⟨f.1, rfl⟩
    | part hu hkey =>
      rw [← hform, parts_ofFields] at hu
      obtain ⟨f, hf, rfl⟩ := List.mem_map.mp hu
      obtain ⟨v, hvu⟩ := exists_mem_zip ((shownAttributes attributes).map (·.2))
        (by simpa using hlength) (snd_mem_of_mem_ofList hf)
      exact (ih v _ hvu hkey).imp_left (.part (mem_parts_of_shown (List.of_mem_zip hvu).1))
  | _ =>
    rintro (_ | ⟨hu, -⟩)
    exact absurd hu List.not_mem_nil

section

variable {IsKey : Value → Prop} {v : Value}

theorem IsPlain.foreign?_eq_none (h : v.IsPlain IsKey) : v.foreign? = none := by
  induction h with
  | primitive h => cases h <;> rfl
  | list _ ih => exact foreignInList?_eq_none ih
  | table _ _ ih =>
    rw [foreign?, foreignInTable?_eq_findSome?]
    exact List.findSome?_eq_none_iff.mpr (List.forall_mem_map.mpr ih)

/-- A plain value is its own form, whatever its keys are. -/
theorem IsPlain.form_eq (h : v.IsPlain IsKey) : v.form = v := by
  induction h with
  | primitive h => cases h <;> rfl
  | list _ ih => rw [form, formItems_eq_map, List.map_congr_left ih, List.map_id']
  | table _ _ ih =>
    rw [form, formEntries_eq_map]
    congr 1
    refine (List.map_congr_left fun e he => ?_).trans (List.map_id' _)
    rw [ih e he]

theorem IsPlain.toWire_eq (h : v.IsPlain IsKey) : v.toWire = .ok v := by
  rw [toWire, h.foreign?_eq_none, h.form_eq]

end

/-- A value goes on the wire exactly when it reaches no value of a foreign type, and otherwise
the type of the first one is named. What goes on the wire is the form that its kinds lay down: it
is plain, with no keys but those that the value brings, and names; so it is primitives, lists and
tables down to the keys if all keys of the value are primitives. It goes on the wire again as it
stands. -/
theorem shown_unless_reaches (v : Value) :
    ((∃ u, v.toWire = .ok u) ↔ ∀ path type, ¬v.Reaches path type) ∧
      (∀ e, v.toWire = .error e ↔ ∃ path, v.ReachesFirst path e.name) ∧
      ∀ u, v.toWire = .ok u →
        v.Shows u ∧ (u.IsPlain fun key => v.HasKey key ∨ ∃ name, key = .text name) ∧
          ((∀ key, v.HasKey key → key.IsPrimitive) → u.IsPlain IsPrimitive) ∧
            u.toWire = .ok u := by
  refine ⟨?_, fun e => toWire_eq_error_iff, fun u hok => ?_⟩
  · rw [← foreign?_eq_none_iff, toWire]
    cases v.foreign? with
    | none => exact iff_of_true ⟨v.form, rfl⟩ rfl
    | some type =>
      refine iff_of_false ?_ (Option.some_ne_none type)
      rintro ⟨u, hok⟩
      cases hok
  · have hshows := toWire_eq_ok_iff.mp hok
    refine ⟨hshows, hshows.isPlain.of_keys fun key => hshows.key_cases, fun hkeys => ?_,
      hshows.isPlain.toWire_eq⟩
    refine hshows.isPlain.of_keys fun key hkey => ?_
    rcases hshows.key_cases hkey with hv | ⟨name, rfl⟩
    · exact hkeys key hv
    · exact .text name

/-- A record with a hidden attribute of a foreign type, and two attributes of one name on the
wire, the first of which has some value. The second one holds a table with keys of many kinds. -/
def collidingRecord (value : Value) : Value :=
  .record [("_cache", .foreign "set" "\x7b1\x7d"), ("risk_level", value), ("note", .null),
    ("riskLevel", .tuple [.table [(.text "limit", .null), (.int 1, .word (.severity .high)),
      (.tuple [.null, .bool true], .float Binary64.zero)], .word (.severity .high)])]

/-- The value that is overwritten does not show, but if it is foreign, it is named before any
other. -/
theorem shown_unless_reaches_of_colliding :
    (let form : Value := .table [(.text "riskLevel", .list [.table [(.text "limit", .null),
        (.int 1, .text "high"), (.tuple [.null, .bool true], .float Binary64.zero)],
          .text "high"])]
      let v := collidingRecord (.int 1)
      v.toWire = .ok form ∧ (∀ path type, ¬v.Reaches path type) ∧ v.Shows form ∧
        (form.IsPlain fun key => v.HasKey key ∨ ∃ name, key = .text name) ∧
          form.toWire = .ok form) ∧
      let v := Value.list [.tuple [.null, collidingRecord (.foreign "bytes" "b'x'")],
        .foreign "range" "range(0, 2)"]
      v.toWire = .error ⟨"bytes"⟩ ∧ (∃ path, v.ReachesFirst path "bytes") ∧
        ForeignType.message ⟨"bytes"⟩ = "Cannot serialize object of type bytes" := by
  refine ⟨?_, ?_⟩
  · intro form v
    have hok : v.toWire = .ok form := rfl
    obtain ⟨hreaches, -, hform⟩ := shown_unless_reaches v
    obtain ⟨hshows, hplain, -, hagain⟩ := hform form hok
    exact ⟨hok, hreaches.mp ⟨form, hok⟩, hshows, hplain, hagain⟩
  · intro v
    have herror : v.toWire = .error ⟨"bytes"⟩ := rfl
    exact ⟨herror, ((shown_unless_reaches v).2.1 _).mp herror, by decide⟩

/-! A key that is no primitive stays in the form as it is. -/

example : (table [(.word (.severity .high), .word (.severity .low))]).toWire =
    .ok (table [(.word (.severity .high), .text "low")]) := rfl

/-! ## The keys of reports -/

/-- That no table with a key is reached. -/
def IsKeyless (v : Value) : Prop := ∀ key, ¬v.HasKey key

theorem isKeyless_of_parts {v : Value} (hv : ∀ entries, v ≠ .table entries)
    (h : ∀ u ∈ v.parts, u.IsKeyless) : v.IsKeyless := by
  intro key hkey
  cases hkey with
  | entry => exact hv _ rfl
  | part hu hkey => exact h _ hu key hkey

theorem isKeyless_record {attributes : List (Text × Value)}
    (h : ∀ a ∈ attributes, a.2.IsKeyless) : (record attributes).IsKeyless := by
  refine isKeyless_of_parts nofun fun u hu => ?_
  obtain ⟨a, ha, rfl⟩ := List.mem_map.mp hu
  exact h a (List.mem_filter.mp ha).1

theorem isKeyless_list {α : Type} {toValue : α → Value} {l : List α}
    (h : ∀ a, (toValue a).IsKeyless) : (Value.list (l.map toValue)).IsKeyless :=
  isKeyless_of_parts nofun (List.forall_mem_map.mpr fun a _ => h a)

theorem isKeyless_tuple {α : Type} {toValue : α → Value} {l : List α}
    (h : ∀ a, (toValue a).IsKeyless) : (tuple (l.map toValue)).IsKeyless :=
  isKeyless_of_parts nofun (List.forall_mem_map.mpr fun a _ => h a)

theorem isKeyless_text (t : Text) : (text t).IsKeyless := isKeyless_of_parts nofun nofun

theorem isKeyless_bool (b : Bool) : (bool b).IsKeyless := isKeyless_of_parts nofun nofun

theorem isKeyless_int (n : Int) : (int n).IsKeyless := isKeyless_of_parts nofun nofun

theorem isKeyless_word (w : Word) : (word w).IsKeyless := isKeyless_of_parts nofun nofun

theorem isKeyless_ofOption {α : Type} {toValue : α → Value} {o : Option α}
    (h : ∀ a, (toValue a).IsKeyless) : (ofOption toValue o).IsKeyless := by
  cases o with
  | none => exact isKeyless_of_parts nofun nofun
  | some a => exact h a

/-- What a value without keys is on the wire has names for keys, so JSON has the like. -/
theorem IsKeyless.exists_name {v u key : Value} (h : v.IsKeyless) (hu : v.toWire = .ok u)
    (hkey : u.HasKey key) : ∃ name, key = .text name :=
  ((toWire_eq_ok_iff.mp hu).key_cases hkey).resolve_left (h key)

end Value

open Value

theorem Amount.isKeyless_toValue (a : Amount) : a.toValue.IsKeyless := by
  cases a <;> exact isKeyless_of_parts nofun nofun

theorem Topology.isKeyless_toValue (t : Topology) : t.toValue.IsKeyless := by
  have hbinding : ∀ b : Binding, b.toValue.IsKeyless := fun b => isKeyless_record <| by
    simp [isKeyless_text, isKeyless_int, isKeyless_word]
  have hlimits : ∀ l : Limits, l.toValue.IsKeyless := fun l => isKeyless_record <| by
    simp [isKeyless_ofOption Amount.isKeyless_toValue]
  have hservice : ∀ s : Service, s.toValue.IsKeyless := fun s => isKeyless_record <| by
    simp [isKeyless_text, isKeyless_bool, isKeyless_word, isKeyless_tuple hbinding,
      isKeyless_tuple isKeyless_text, isKeyless_ofOption hlimits]
  have hmetadata : t.metadata.toValue.IsKeyless := isKeyless_record <| by
    simp [isKeyless_word, isKeyless_ofOption isKeyless_text]
  refine isKeyless_record ?_
  simp [isKeyless_tuple hservice, hmetadata]

theorem Violation.isKeyless_toValue (v : Violation) : v.toValue.IsKeyless := by
  refine isKeyless_record ?_
  simp [isKeyless_text, isKeyless_word]

theorem Drift.isKeyless_toValue (d : Drift) : d.toValue.IsKeyless := by
  have hchange : ∀ c : Change, c.toValue.IsKeyless := fun c => isKeyless_record <| by
    simp [isKeyless_text, isKeyless_word, isKeyless_tuple isKeyless_text]
  have hsummary : (record [("total_new_violations", .int d.introduced),
      ("total_resolved_violations", .int d.resolved)]).IsKeyless := isKeyless_record <| by
    simp [isKeyless_int]
  refine isKeyless_record ?_
  simp [isKeyless_tuple hchange, hsummary]

/-- **The keys of reports are names.** What topologies, violations and drifts are on the wire has
texts for all of its keys, and these are the keys that JSON has. -/
theorem Report.exists_name_of_hasKey (t : Topology) (vs : List Violation) (d : Drift) :
    ∀ v ∈ [t.toValue, .list (vs.map Violation.toValue), d.toValue], ∀ u key,
      v.toWire = .ok u → u.HasKey key → ∃ name, key = .text name := by
  have hkeyless : ∀ v ∈ [t.toValue, .list (vs.map Violation.toValue), d.toValue], v.IsKeyless := by
    simp [t.isKeyless_toValue, d.isKeyless_toValue, isKeyless_list Violation.isKeyless_toValue]
  exact fun v hv u key hu hkey => (hkeyless v hv).exists_name hu hkey

end TopologyAudit
