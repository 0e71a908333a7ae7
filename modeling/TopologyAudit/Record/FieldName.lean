import TopologyAudit.Text.Case

/-!
# Names of fields

Attributes have names of words with underscores between them. On the wire the words
are run together, and each but the first one is capitalised.
-/

namespace TopologyAudit.FieldName

/-- The attribute whose name on the wire keeps an abbreviation in capitals. -/
def handlesPii : Text := "handles_pii"

/-- The name of an attribute on the wire. -/
def wire (name : Text) : Text :=
  if name = handlesPii then "handlesPII"
  else
    match Text.splitOn '_' name with
    | [] => []
    | head :: words => head ++ words.flatMap Text.capitalize

/-- Whether an attribute is kept off the wire. -/
def isHidden (name : Text) : Bool := name.startsWith "_"

end TopologyAudit.FieldName
