import TopologyAudit.Text.Basic

/-!
# Issues

A loaded tree that does not have the shape of a config is answered with issues.
Each names a place in the tree and what was expected there. Checks collect their
issues: the combination of two checks has the issues of both, first those of the
first.
-/

namespace TopologyAudit

/-- A step from a value to one of its parts. -/
inductive Step
  | key (name : Text)
  | index (position : Nat)
deriving DecidableEq

/-- What was expected of a value. -/
inductive Mismatch
  | missing
  | notText
  /-- A text with a surrogate where one of some words was expected. -/
  | notUnicode
  | notBool
  | notInteger
  | negative
  | notNumber
  | notList
  /-- Not a mapping, where one for the named part of a config was expected. -/
  | notMapping (part : Text)
  | notOneOf (words : List Text)
deriving DecidableEq

/-- Words between single quotes, separated by commas and a final `or`. -/
def alternatives : List Text → Text
  | [] => []
  | [word] => "'" ++ (word ++ ("'" : Text))
  | [word, last] => "'" ++ word ++ "' or '" ++ last ++ "'"
  | word :: rest => "'" ++ word ++ "', " ++ alternatives rest

def Mismatch.message : Mismatch → Text
  | .missing => "Field required"
  | .notText => "Input should be a valid string"
  | .notUnicode =>
    "Input should be a valid string, unable to parse raw data as a unicode string"
  | .notBool => "Input should be a valid boolean"
  | .notInteger => "Input should be a valid integer"
  | .negative => "Input should be greater than or equal to 0"
  | .notNumber => "Input should be a valid number"
  | .notList => "Input should be a valid list"
  | .notMapping part => "Input should be a valid dictionary or instance of " ++ part
  | .notOneOf words => "Input should be " ++ alternatives words

/-- A mismatch and the path to its place from the root. -/
structure Issue where
  path : List Step
  mismatch : Mismatch
deriving DecidableEq

namespace Issue

/-- The issue as seen from the value one step further up. -/
def under (step : Step) (i : Issue) : Issue := { i with path := step :: i.path }

def stepText : Step → Text
  | .key name => name
  | .index position => Text.ofNat position

/-- The path with points between its steps; the root has a name of its own. -/
def pathText : List Step → Text
  | [] => "<root>"
  | steps => Text.join "." (steps.map stepText)

def message (i : Issue) : Text := pathText i.path ++ ": " ++ i.mismatch.message

end Issue

/-- The result of a check: a value, or the issues that were found. -/
inductive Checked (α : Type)
  | ok (value : α)
  | failed (issues : List Issue)

namespace Checked

variable {α β : Type}

/-- A single issue at the value itself. -/
def mismatch (m : Mismatch) : Checked α := failed [⟨[], m⟩]

/-- The issues of a result, none when there is a value. -/
def issues : Checked α → List Issue
  | ok _ => []
  | failed list => list

def map (f : α → β) : Checked α → Checked β
  | ok a => ok (f a)
  | failed list => failed list

/-- Both results together. -/
def both : Checked α → Checked β → Checked (α × β)
  | ok a, ok b => ok (a, b)
  | ok _, failed list => failed list
  | failed list, other => failed (list ++ other.issues)

/-- The result as seen from one step further up. -/
def under (step : Step) : Checked α → Checked α
  | ok a => ok a
  | failed list => failed (list.map (Issue.under step))

/-- Checks the items of a list, which stand from a position on. -/
def items (check : α → Checked β) : (position : Nat) → List α → Checked (List β)
  | _, [] => ok []
  | n, a :: rest =>
    (both (under (.index n) (check a)) (items check (n + 1) rest)).map fun (b, bs) => b :: bs

end Checked

end TopologyAudit
