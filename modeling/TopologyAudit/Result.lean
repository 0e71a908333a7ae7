/-!
# Results

What comes of a step: a value, and errors. Each has a place of its own, and a step that ends
well fills in the one, a step that fails the other.
-/

namespace TopologyAudit

structure Result (ε α : Type) where
  value : Option α
  errors : List ε
deriving DecidableEq

namespace Result

variable {ε α : Type}

def success (a : α) : Result ε α := ⟨some a, []⟩

def failure (errors : List ε) : Result ε α := ⟨none, errors⟩

/-- Whether there is a value. -/
def isOk (r : Result ε α) : Bool := r.value.isSome

end Result

end TopologyAudit
