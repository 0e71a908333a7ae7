import TopologyAudit.Json.Basic
import TopologyAudit.Result

/-!
# Reports

A report is the result of a run: everything that was found out, or nothing but the messages of
errors.
-/

namespace TopologyAudit

abbrev Report (α : Type) := Result Text α

/-- The JSON of a report: the fields of what was found out, if it was, and the errors. -/
def Report.toJson {α : Type} (fields : α → List (Text × Json)) (r : Report α) : Json :=
  let errors : List (Text × Json) := [("errors", .array (r.errors.map .text))]
  match r.value with
  | none => .object errors
  | some a => .object (fields a ++ errors)

end TopologyAudit
