import TopologyAudit.Numeral.Binary64
import TopologyAudit.Text.Basic

/-!
# JSON values

The values of JSON with integers and doubles kept apart. The fields of an object
have an order.
-/

namespace TopologyAudit

inductive Json
  | null
  | bool (value : Bool)
  | int (value : Int)
  | float (value : Binary64)
  | text (value : Text)
  | array (items : List Json)
  | object (fields : List (Text × Json))

namespace Json

instance : Inhabited Json := ⟨null⟩

/-- The field of an object, when the value is an object that has it. -/
def field? (name : Text) : Json → Option Json
  | object fields => fields.lookup name
  | _ => none

/-- The text of a value that is a text. -/
def asText? : Json → Option Text
  | text t => some t
  | _ => none

end Json

end TopologyAudit
