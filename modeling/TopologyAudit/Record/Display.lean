import TopologyAudit.Json.Printer
import TopologyAudit.Record.Value
import TopologyAudit.Text.Quoted

/-!
# Values in messages

How a message shows a value: a text as it is, and texts within collections and records
quoted. An integer of too many digits is not shown, nor is a value with one in it.
-/

namespace TopologyAudit.Value

/-- Items between brackets. -/
def bracketed (left right : String) (items : List Text) : Text :=
  Text.ofString left ++ (Text.join ", " items ++ Text.ofString right)

mutual

/-- A value as it is shown within a collection. -/
def shownInside? : Value → Option Text
  | .null => some "None"
  | .bool b => some (if b then "True" else "False")
  | .int n => if Json.refusesInt n then none else some (Text.ofInt n)
  | .float x => some x.toText
  | .text t => some t.quoted
  | .word w => some ("<" ++ w.label ++ ": " ++ Text.quoted w.name ++ ">")
  | .list items => (shownItems? items).map (bracketed "[" "]")
  | .tuple items =>
    (shownItems? items).map fun texts =>
      match texts with
      | [only] => bracketed "(" ",)" [only]
      | _ => bracketed "(" ")" texts
  | .table entries => (shownEntries? entries).map (bracketed "\x7b" "\x7d")
  | .record attributes => (shownAttributes? attributes).map (bracketed "namespace(" ")")
  | .foreign _ shown => some shown

def shownItems? : List Value → Option (List Text)
  | [] => some []
  | item :: rest => do return (← shownInside? item) :: (← shownItems? rest)

def shownEntries? : List (Value × Value) → Option (List Text)
  | [] => some []
  | (key, value) :: rest => do
    return ((← shownInside? key) ++ ": " ++ (← shownInside? value)) :: (← shownEntries? rest)

/-- Attributes without a name are not shown. -/
def shownAttributes? : List (Text × Value) → Option (List Text)
  | [] => some []
  | (name, value) :: rest =>
    if name.isEmpty then shownAttributes? rest
    else do
      return (name ++ "=" ++ (← shownInside? value)) :: (← shownAttributes? rest)

end

/-- A value as a message shows it. -/
def shown? : Value → Option Text
  | .text t => some t
  | .word w => some w.label
  | v => shownInside? v

end TopologyAudit.Value
