import Mathlib.Data.List.Basic
import TopologyAudit.Record.Display

/-!
# Values that no message shows

A value is not shown exactly when an integer of too many digits stands in it where it
would be shown (`shown?_eq_none`).
-/

namespace TopologyAudit.Value

/-- An integer of too many digits is the value or stands in a part of it that is shown. -/
inductive IsOversized : Value → Prop
  | int {n : Int} (h : Json.refusesInt n = true) : IsOversized (.int n)
  | list {items : List Value} {item : Value} (hmem : item ∈ items) (h : IsOversized item) :
      IsOversized (.list items)
  | tuple {items : List Value} {item : Value} (hmem : item ∈ items) (h : IsOversized item) :
      IsOversized (.tuple items)
  | key {entries : List (Value × Value)} {entry : Value × Value} (hmem : entry ∈ entries)
      (h : IsOversized entry.1) : IsOversized (.table entries)
  | table {entries : List (Value × Value)} {entry : Value × Value} (hmem : entry ∈ entries)
      (h : IsOversized entry.2) : IsOversized (.table entries)
  /-- Attributes without a name are not shown. -/
  | record {attributes : List (Text × Value)} {name : Text} {value : Value} (hname : name ≠ [])
      (hmem : (name, value) ∈ attributes) (h : IsOversized value) :
      IsOversized (.record attributes)

/-- Two parts are shown together when both are shown. -/
private theorem both_eq_none {α β γ : Type} {x : Option α} {y : Option β} {f : α → β → γ} :
    (do return f (← x) (← y)) = none ↔ x = none ∨ y = none := by
  cases x <;> cases y <;> simp

/-- An entry is shown in front of others when its key, its value and the others are. -/
private theorem entry_eq_none {x y : Option Text} {texts : Option (List Text)} :
    (do return ((← x) ++ ": " ++ (← y)) :: (← texts)) = none ↔
      x = none ∨ y = none ∨ texts = none := by
  cases x <;> cases y <;> cases texts <;> simp

mutual

theorem shownInside?_eq_none (v : Value) : v.shownInside? = none ↔ v.IsOversized := by
  cases v with
  | null | bool value | float value | text value | word value | foreign type shown =>
    rw [shownInside?]
    exact ⟨nofun, nofun⟩
  | int n =>
    rw [shownInside?]
    split
    next h => exact ⟨fun _ => .int h, fun _ => rfl⟩
    next h => exact ⟨nofun, fun hover => by cases hover; contradiction⟩
  | list items =>
    rw [shownInside?, Option.map_eq_none_iff, shownItems?_eq_none items]
    constructor
    · intro hr
      obtain ⟨item, hmem, h⟩ := hr
      exact .list hmem h
    · intro hr
      rcases hr with _ | ⟨hmem, h⟩
      exact ⟨_, hmem, h⟩
  | tuple items =>
    rw [shownInside?, Option.map_eq_none_iff, shownItems?_eq_none items]
    constructor
    · intro hr
      obtain ⟨item, hmem, h⟩ := hr
      exact .tuple hmem h
    · intro hr
      rcases hr with _ | _ | ⟨hmem, h⟩
      exact ⟨_, hmem, h⟩
  | table entries =>
    rw [shownInside?, Option.map_eq_none_iff, shownEntries?_eq_none entries]
    constructor
    · intro hr
      obtain ⟨entry, hmem, h | h⟩ := hr
      · exact .key hmem h
      · exact .table hmem h
    · intro hr
      rcases hr with _ | _ | _ | ⟨hmem, h⟩ | ⟨hmem, h⟩
      · exact ⟨_, hmem, Or.inl h⟩
      · exact ⟨_, hmem, Or.inr h⟩
  | record attributes =>
    rw [shownInside?, Option.map_eq_none_iff, shownAttributes?_eq_none attributes]
    constructor
    · intro hr
      obtain ⟨name, value, hname, hmem, h⟩ := hr
      exact .record hname hmem h
    · intro hr
      rcases hr with _ | _ | _ | _ | _ | ⟨hname, hmem, h⟩
      exact ⟨_, _, hname, hmem, h⟩

theorem shownItems?_eq_none (items : List Value) :
    shownItems? items = none ↔ ∃ item ∈ items, item.IsOversized := by
  cases items with
  | nil => simp [shownItems?]
  | cons item rest =>
    rw [shownItems?, both_eq_none, shownInside?_eq_none item, shownItems?_eq_none rest]
    exact (List.exists_mem_cons_iff _ item rest).symm

theorem shownEntries?_eq_none (entries : List (Value × Value)) :
    shownEntries? entries = none ↔
      ∃ entry ∈ entries, entry.1.IsOversized ∨ entry.2.IsOversized := by
  cases entries with
  | nil => simp [shownEntries?]
  | cons entry rest =>
    obtain ⟨key, value⟩ := entry
    rw [shownEntries?, entry_eq_none, shownInside?_eq_none key, shownInside?_eq_none value,
      shownEntries?_eq_none rest, List.exists_mem_cons_iff, or_assoc]

theorem shownAttributes?_eq_none (attributes : List (Text × Value)) :
    shownAttributes? attributes = none ↔
      ∃ name value, name ≠ [] ∧ (name, value) ∈ attributes ∧ value.IsOversized := by
  cases attributes with
  | nil => simp [shownAttributes?]
  | cons entry rest =>
    obtain ⟨first, value⟩ := entry
    -- what is not shown of the rest is not shown of the whole
    have hrest : (∃ name other, name ≠ [] ∧ (name, other) ∈ rest ∧ other.IsOversized) →
        ∃ name other, name ≠ [] ∧ (name, other) ∈ (first, value) :: rest ∧ other.IsOversized := by
      intro hr
      obtain ⟨name, other, hname, hmem, h⟩ := hr
      exact ⟨name, other, hname, List.mem_cons_of_mem _ hmem, h⟩
    rw [shownAttributes?]
    split
    -- an attribute without a name is passed over
    next hempty =>
      rw [shownAttributes?_eq_none rest]
      refine ⟨hrest, ?_⟩
      intro hr
      obtain ⟨name, other, hname, hmem, h⟩ := hr
      rcases List.mem_cons.mp hmem with heq | hmem
      · rw [(Prod.mk.inj heq).1] at hname
        exact absurd (List.isEmpty_iff.mp hempty) hname
      · exact ⟨name, other, hname, hmem, h⟩
    next hempty =>
      rw [both_eq_none (f := fun shown texts => (first ++ "=" ++ shown) :: texts),
        shownInside?_eq_none value, shownAttributes?_eq_none rest]
      constructor
      · intro hr
        rcases hr with h | h
        · exact ⟨first, value, fun hnil => hempty (List.isEmpty_iff.mpr hnil),
            List.mem_cons_self .., h⟩
        · exact hrest h
      · intro hr
        obtain ⟨name, other, hname, hmem, h⟩ := hr
        rcases List.mem_cons.mp hmem with heq | hmem
        · exact Or.inl ((Prod.mk.inj heq).2 ▸ h)
        · exact Or.inr ⟨name, other, hname, hmem, h⟩

end

/-- **What is not shown.** -/
theorem shown?_eq_none (v : Value) : v.shown? = none ↔ v.IsOversized := by
  unfold shown?
  split
  next => exact ⟨nofun, nofun⟩
  next => exact ⟨nofun, nofun⟩
  next => exact shownInside?_eq_none _

end TopologyAudit.Value
