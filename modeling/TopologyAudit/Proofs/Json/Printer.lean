import TopologyAudit.Proofs.Numeral.Range

/-!
# What is written

A value is written when no number in it is refused. Texts, truth values and null never
are, so whether a list or an object is written is a matter of its numbers alone.
-/

namespace TopologyAudit.Json

variable {style : Style}

/-- That a value is written in a style. -/
def IsWritable (style : Style) (j : Json) : Prop := refusal? style j = none

theorem refusalItems?_eq_none {items : List Json} :
    refusalItems? style items = none ↔ ∀ item ∈ items, item.IsWritable style := by
  induction items with
  | nil => simp [refusalItems?]
  | cons item rest ih => rw [refusalItems?, Option.or_eq_none_iff, ih, List.forall_mem_cons, IsWritable]

theorem refusalFields?_eq_none {fields : List (Text × Json)} :
    refusalFields? style fields = none ↔ ∀ f ∈ fields, f.2.IsWritable style := by
  induction fields with
  | nil => simp [refusalFields?]
  | cons f rest ih =>
    obtain ⟨name, value⟩ := f
    rw [refusalFields?, Option.or_eq_none_iff, ih, List.forall_mem_cons, IsWritable]

@[simp]
theorem isWritable_null : null.IsWritable style := rfl

@[simp]
theorem isWritable_bool (b : Bool) : (bool b).IsWritable style := rfl

@[simp]
theorem isWritable_text (t : Text) : (text t).IsWritable style := rfl

@[simp]
theorem isWritable_array {items : List Json} :
    (array items).IsWritable style ↔ ∀ item ∈ items, item.IsWritable style := by
  rw [IsWritable, refusal?, refusalItems?_eq_none]

@[simp]
theorem isWritable_object {fields : List (Text × Json)} :
    (object fields).IsWritable style ↔ ∀ f ∈ fields, f.2.IsWritable style := by
  rw [IsWritable, refusal?, refusalFields?_eq_none]

/-- Integers are written in every style, up to a number of digits. -/
@[simp]
theorem isWritable_int {n : Int} :
    (int n).IsWritable style ↔ n.natAbs < 10 ^ Integer.digitLimit := by
  rw [IsWritable, refusal?, ← refusesInt_eq_false_iff]
  cases refusesInt n <;> simp

/-- Doubles that are not finite are written in some styles only. -/
@[simp]
theorem isWritable_float {x : Binary64} :
    (float x).IsWritable style ↔ style.allowNonFinite = true ∨ x.isFinite = true := by
  rw [IsWritable, refusal?, refusesFloat]
  cases style.allowNonFinite <;> cases x.isFinite <;> simp

theorem print_of_isWritable {j : Json} (h : j.IsWritable style) :
    print style j = .ok (render style j) := by
  rw [print, h]

theorem print_of_not_isWritable {j : Json} (h : ¬j.IsWritable style) :
    ∃ e, print style j = .error e := by
  obtain ⟨e, he⟩ := Option.ne_none_iff_exists'.mp h
  exact ⟨e, by rw [print, he]⟩

end TopologyAudit.Json
