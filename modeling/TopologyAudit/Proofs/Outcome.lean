/-!
# Chains of steps that may fail

A chain succeeds when both of its steps do, and it fails with the failure of the first
step that fails. Readers of configs are such chains, so their laws are taken apart with
the equivalences here.
-/

namespace TopologyAudit.Outcome

variable {ε δ α β : Type}

theorem ok_bind (a : α) (f : α → Except ε β) : (Except.ok a >>= f) = f a := rfl

theorem bind_eq_ok {x : Except ε α} {f : α → Except ε β} {b : β} :
    (x >>= f) = .ok b ↔ ∃ a, x = .ok a ∧ f a = .ok b := by
  cases x with
  | error e => simp [bind, Except.bind]
  | ok a => simp [bind, Except.bind]

theorem bind_eq_error {x : Except ε α} {f : α → Except ε β} {e : ε} :
    (x >>= f) = .error e ↔ x = .error e ∨ ∃ a, x = .ok a ∧ f a = .error e := by
  cases x with
  | error e' => simp [bind, Except.bind]
  | ok a => simp [bind, Except.bind]

/-- A chain whose second step never fails has the failures of the first. -/
theorem bind_eq_error_of_ok {x : Except ε α} {f : α → Except ε β} {e : ε}
    (hf : ∀ a, ∃ b, f a = .ok b) : (x >>= f) = .error e ↔ x = .error e := by
  rw [bind_eq_error]
  refine ⟨?_, Or.inl⟩
  intro hr
  rcases hr with hx | ⟨a, -, ha⟩
  · exact hx
  -- the second step comes to a value and cannot have failed
  · obtain ⟨b, hb⟩ := hf a
    rw [hb] at ha
    cases ha

theorem map_eq_ok {x : Except ε α} {f : α → β} {b : β} :
    x.map f = .ok b ↔ ∃ a, x = .ok a ∧ f a = b := by
  cases x <;> simp [Except.map]

theorem mapError_eq_ok {f : ε → δ} {x : Except ε α} {a : α} :
    x.mapError f = .ok a ↔ x = .ok a := by
  cases x <;> constructor <;> intro h <;> cases h <;> rfl

end TopologyAudit.Outcome
