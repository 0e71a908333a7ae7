import TopologyAudit.Record.Display
import TopologyAudit.Text.Blank

/-!
# Naming a format

The format of a config is named by a word in any case with white space around it.
Callers may pass any value; what a message would show of it is taken as the word.
-/

namespace TopologyAudit

namespace SourceFormat

/-- The format that a text names. -/
def ofText? (t : Text) : Option SourceFormat :=
  let word : Text := (Text.trim t).lower
  all.find? fun f : SourceFormat => f.name == word

end SourceFormat

/-- Why a value names no format. -/
inductive FormatError
  | unknown (shown : Text)
  /-- The value cannot be shown. -/
  | tooLong
deriving DecidableEq

def FormatError.message : FormatError → Text
  | .unknown shown => Text.quoted (Text.trim shown).lower ++ " is not a valid SourceFormat"
  | .tooLong => Json.PrintError.tooLong.message

/-- The format that a value names. -/
def SourceFormat.ofValue : Value → Except FormatError SourceFormat
  | .word (.format f) => .ok f
  | v =>
    match v.shown? with
    | none => .error .tooLong
    | some shown =>
      match ofText? shown with
      | some f => .ok f
      | none => .error (.unknown shown)

end TopologyAudit
