import TopologyAudit.Yaml.Graph

/-!
# How readers of YAML texts end

A reader comes to a value, refuses its text, or breaks down. `Ends` bounds what a reader
may come to and how it may break down, and says nothing about refusals. A chain of readers
keeps to the bounds that its parts keep to (`Ends.bind`), so each reader needs one lemma.
-/

namespace TopologyAudit.Yaml

variable {α β : Type} {B C : Breakdown → Prop} {P : α → Prop} {Q : β → Prop}

/-- A reader ends with a value of one kind, with a refusal, or with a breakdown of one
kind. -/
inductive Ends (B : Breakdown → Prop) (P : α → Prop) : Except Error α → Prop
  | ok {a : α} (h : P a) : Ends B P (.ok a)
  | refused (r : Refusal) : Ends B P (.error (.refused r))
  | broken {b : Breakdown} (h : B b) : Ends B P (.error (.broken b))

namespace Ends

theorem during {activity : Activity} {began mark : Mark} {problem : Problem} :
    Ends B P (.error (.during activity began problem mark)) :=
  refused _

theorem here {problem : Problem} {mark : Mark} : Ends B P (.error (.here problem mark)) :=
  refused _

theorem bind {x : Except Error α} {f : α → Except Error β} (hx : Ends B P x)
    (hf : ∀ a, P a → Ends B Q (f a)) : Ends B Q (x >>= f) := by
  cases hx with
  | ok h => exact hf _ h
  | refused r => exact refused r
  | broken h => exact broken h

theorem map {x : Except Error α} {f : α → β} (hx : Ends B P x) (hf : ∀ a, P a → Q (f a)) :
    Ends B Q (x.map f) := by
  cases hx with
  | ok h => exact ok (hf _ h)
  | refused r => exact refused r
  | broken h => exact broken h

theorem mono {P' : α → Prop} {x : Except Error α} (hx : Ends B P x) (hB : ∀ b, B b → C b)
    (hP : ∀ a, P a → P' a) : Ends C P' x := by
  cases hx with
  | ok h => exact ok (hP _ h)
  | refused r => exact refused r
  | broken h => exact broken (hB _ h)

/-- What a reader comes to is what it comes to. -/
theorem attach {x : Except Error α} (hx : Ends B P x) : Ends B (fun a => x = .ok a ∧ P a) x := by
  cases hx with
  | ok h => exact ok ⟨rfl, h⟩
  | refused r => exact refused r
  | broken h => exact broken h

theorem ite {p : Prop} [Decidable p] {x y : Except Error α} (hx : p → Ends B P x)
    (hy : ¬p → Ends B P y) : Ends B P (if p then x else y) := by
  split
  next hp => exact hx hp
  next hp => exact hy hp

/-- A step that keeps a property is taken any number of times. -/
theorem foldlM {f : α → β → Except Error α} {list : List β}
    (hf : ∀ a, P a → ∀ b ∈ list, Ends B P (f a b)) : ∀ {a : α}, P a → Ends B P (list.foldlM f a) := by
  induction list with
  | nil => intro a ha; exact ok ha
  | cons b rest ih =>
    intro a ha
    rw [List.foldlM_cons]
    -- one step, and then the others from where it has led
    refine bind (hf a ha b (List.mem_cons_self ..)) ?_
    intro a' ha'
    exact ih (fun a ha b hb => hf a ha b (List.mem_cons_of_mem _ hb)) ha'

theorem breakdown {x : Except Error α} {b : Breakdown} (hx : Ends B P x)
    (h : x = .error (.broken b)) : B b := by
  subst h
  cases hx with
  | broken hb => exact hb

theorem value {x : Except Error α} {a : α} (hx : Ends B P x) (h : x = .ok a) : P a := by
  subst h
  cases hx with
  | ok ha => exact ha

end Ends

end TopologyAudit.Yaml
