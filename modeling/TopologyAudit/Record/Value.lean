import TopologyAudit.Audit.Violation
import TopologyAudit.Drift.Basic
import TopologyAudit.Text.Case

/-!
# Attributed values

Values as programs hold them: besides what JSON knows there are words from the
vocabularies of the model, tuples, records with named attributes, and values of
foreign types that have nothing to show.
-/

namespace TopologyAudit

/-- A word from one of the vocabularies of the model. -/
inductive Word
  | kind (k : ServiceKind)
  | protocol (p : Protocol)
  | format (f : SourceFormat)
  | severity (s : Severity)
  | impact (i : Impact)
deriving DecidableEq

namespace Word

/-- The word as it is written. -/
def name : Word → Text
  | kind k => k.name
  | protocol p => p.name
  | format f => f.name
  | severity s => s.name
  | impact i => i.name

/-- The name of the vocabulary that the word is from. -/
def vocabulary : Word → Text
  | kind _ => "ServiceType"
  | protocol _ => "Protocol"
  | format _ => "SourceFormat"
  | severity _ => "Severity"
  | impact _ => "RiskImpact"

/-- The word with its vocabulary, as messages show it. -/
def label (w : Word) : Text := w.vocabulary ++ "." ++ Text.upper w.name

end Word

inductive Value
  | null
  | bool (value : Bool)
  | int (value : Int)
  | float (value : Binary64)
  | text (value : Text)
  | word (value : Word)
  | list (items : List Value)
  | tuple (items : List Value)
  /-- A table has values for keys. -/
  | table (entries : List (Value × Value))
  | record (attributes : List (Text × Value))
  /-- A value of a type without attributes: the name of the type, and how the value is
  shown. -/
  | foreign (type shown : Text)

namespace Value

instance : Inhabited Value := ⟨null⟩

/-- The table of fields, with their names for keys. -/
def ofFields (fields : List (Text × Value)) : Value :=
  table (fields.map fun (name, value) => (text name, value))

def isNull : Value → Bool
  | null => true
  | _ => false

end Value

end TopologyAudit
