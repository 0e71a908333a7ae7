import TopologyAudit.Entries
import TopologyAudit.Json.Printer
import TopologyAudit.Record.FieldName
import TopologyAudit.Record.Value

/-!
# The wire form of values

Words become texts, tuples become lists, and records become tables with the names
that their attributes have on the wire. Attributes that are hidden or hold null are
left out; of two attributes with one name the later one counts. The keys of a table stay
as they are, whatever they are. A value of a foreign type has no wire form.
-/

namespace TopologyAudit.Value

/-- Whether an attribute goes on the wire. -/
def isShown (name : Text) (value : Value) : Bool := !FieldName.isHidden name && !value.isNull

mutual

/-- The type of the first value that has no wire form, of those that would go on the
wire. -/
def foreign? : Value → Option Text
  | .foreign type _ => some type
  | .list items => foreignInList? items
  | .tuple items => foreignInList? items
  | .table entries => foreignInTable? entries
  | .record attributes => foreignInRecord? attributes
  | _ => none

def foreignInList? : List Value → Option Text
  | [] => none
  | item :: rest => (foreign? item).or (foreignInList? rest)

def foreignInTable? : List (Value × Value) → Option Text
  | [] => none
  | (_, value) :: rest => (foreign? value).or (foreignInTable? rest)

def foreignInRecord? : List (Text × Value) → Option Text
  | [] => none
  | (name, value) :: rest =>
    if isShown name value then (foreign? value).or (foreignInRecord? rest)
    else foreignInRecord? rest

end

mutual

/-- The wire form, where foreign values stand as null. -/
def form : Value → Value
  | .null => .null
  | .bool b => .bool b
  | .int n => .int n
  | .float x => .float x
  | .text t => .text t
  | .word w => .text w.name
  | .list items => .list (formItems items)
  | .tuple items => .list (formItems items)
  | .table entries => .table (formEntries entries)
  | .record attributes => ofFields (Entries.ofList (formAttributes attributes))
  | .foreign _ _ => .null

def formItems : List Value → List Value
  | [] => []
  | item :: rest => form item :: formItems rest

/-- Keys stay as they are. -/
def formEntries : List (Value × Value) → List (Value × Value)
  | [] => []
  | (key, value) :: rest => (key, form value) :: formEntries rest

def formAttributes : List (Text × Value) → List (Text × Value)
  | [] => []
  | (name, value) :: rest =>
    if isShown name value then (FieldName.wire name, form value) :: formAttributes rest
    else formAttributes rest

end

/-- A type whose values have no wire form. -/
structure ForeignType where
  name : Text
deriving DecidableEq

def ForeignType.message (e : ForeignType) : Text :=
  "Cannot serialize object of type " ++ e.name

/-- The wire form of a value that has one. -/
def toWire (v : Value) : Except ForeignType Value :=
  match v.foreign? with
  | some type => .error ⟨type⟩
  | none => .ok v.form

/-! ## Writing a wire form as JSON -/

/-- The name that a key gets in JSON. Keys of other kinds cannot be written. -/
def keyText : Value → Text
  | .text t => t
  | .word w => w.name
  | .bool b => if b then "true" else "false"
  | .int n => Text.ofInt n
  | .float x => Json.renderFloat x
  | _ => "null"

mutual

/-- The JSON of a wire form. Records and foreign values, which stand in none, are null. -/
def json : Value → Json
  | .null => .null
  | .bool b => .bool b
  | .int n => .int n
  | .float x => .float x
  | .text t => .text t
  | .word w => .text w.name
  | .list items => .array (jsonItems items)
  | .tuple items => .array (jsonItems items)
  | .table entries => .object (jsonEntries entries)
  | .record _ => .null
  | .foreign _ _ => .null

def jsonItems : List Value → List Json
  | [] => []
  | item :: rest => json item :: jsonItems rest

def jsonEntries : List (Value × Value) → List (Text × Json)
  | [] => []
  | (key, value) :: rest => (keyText key, json value) :: jsonEntries rest

end

/-- The JSON that a value is written as. -/
def wire (v : Value) : Json := v.form.json

end TopologyAudit.Value
