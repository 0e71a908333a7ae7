import TopologyAudit.Result

/-!
# Results that do not mix

A result has places for a value and for errors, so that the two could stand together. What the
steps of the program come to never mixes them: it is a value alone or errors alone.
-/

namespace TopologyAudit.Result

variable {ε α : Type}

/-- That a result is a value without errors, or errors without a value. -/
inductive IsUnmixed : Result ε α → Prop
  | success (a : α) : IsUnmixed (success a)
  | failure {errors : List ε} (h : errors ≠ []) : IsUnmixed (failure errors)

theorem success_inj {a b : α} : (success a : Result ε α) = success b ↔ a = b := by
  simp [success]

theorem failure_inj {errors errors' : List ε} :
    (failure errors : Result ε α) = failure errors' ↔ errors = errors' := by
  simp [failure]

theorem success_ne_failure (a : α) (errors : List ε) : success a ≠ failure errors := by
  simp [success, failure]

theorem IsUnmixed.eq_success {r : Result ε α} {a : α} (h : r.IsUnmixed) (ha : r.value = some a) :
    r = Result.success a := by
  cases h with
  | success b => rw [Option.some.inj ha]
  | failure h => cases ha

/-- A result without errors has a value, and only such a result does. -/
theorem IsUnmixed.isOk_iff {r : Result ε α} (h : r.IsUnmixed) : r.isOk = true ↔ r.errors = [] := by
  cases h with
  | success a => exact iff_of_true rfl rfl
  | failure h => exact iff_of_false Bool.false_ne_true h

/-- Whether a step that may break down comes to a value that passes a test. -/
def passes {δ : Type} (p : α → Bool) : Except δ (Result ε α) → Bool
  | .ok ⟨some a, []⟩ => p a
  | _ => false

theorem exists_of_passes {δ : Type} {p : α → Bool} {x : Except δ (Result ε α)}
    (h : passes p x = true) : ∃ a, x = .ok (.success a) ∧ p a = true := by
  unfold passes at h
  split at h
  next a => exact ⟨a, rfl, h⟩
  next => cases h

end TopologyAudit.Result
