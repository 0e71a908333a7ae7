import TopologyAudit.Json.Basic
import TopologyAudit.Numeral.Integer
import TopologyAudit.Numeral.Shortest

/-!
# Writing JSON

Output is ASCII: code points outside it are written by number, those past `FFFF`
as a surrogate pair. There are two layouts, one without any space and one with a
line per item. `render` writes every value; `print?` refuses the values that have
no portable form.
-/

namespace TopologyAudit.Json

/-- How values are laid out and which are refused. -/
structure Style where
  /-- The steps of indentation, or none for a single line. -/
  indent : Option Nat
  /-- What stands between the name of a field and its value. -/
  afterName : Text
  /-- Whether infinities and the value that is no number are written. -/
  allowNonFinite : Bool

/-- A single line without spaces, of finite numbers only. -/
def Style.compact : Style := ⟨none, ":", false⟩

/-- A line for each item, two spaces a level. -/
def Style.readable : Style := ⟨some 2, ": ", true⟩

/-- Why a value is not written. -/
inductive PrintError
  /-- A double that is not finite. -/
  | nonFinite
  /-- An integer of too many digits. -/
  | tooLong
deriving DecidableEq, Repr

def PrintError.message : PrintError → Text
  | .nonFinite => "Out of range float values are not JSON compliant"
  | .tooLong => Integer.limitMessage ++ Integer.limitAdvice

/-- An escape by number. -/
def unicodeEscape (n : Nat) : Text := "\\u" ++ Text.hex 4 n

/-- A code point as it stands in a string. -/
def escapeCodePoint (c : CodePoint) : Text :=
  if c == '"' then "\\\""
  else if c == '\\' then "\\\\"
  else if c.within 0x20 0x7E then [c]
  else if c == '\n' then "\\n"
  else if c == '\r' then "\\r"
  else if c == '\t' then "\\t"
  else if c.val = 0x0C then "\\f"
  else if c.val = 0x08 then "\\b"
  else if c.val ≤ 0xFFFF then unicodeEscape c.val
  else
    let offset := c.val - 0x10000
    unicodeEscape (0xD800 + offset / 0x400) ++ unicodeEscape (0xDC00 + offset % 0x400)

/-- A text between quotes. -/
def renderText (t : Text) : Text := "\"" ++ (t.flatMap escapeCodePoint ++ ("\"" : Text))

/-- A double: the shortest form, or a name. -/
def renderFloat (x : Binary64) : Text :=
  if x.isNaN then "NaN"
  else if x.isInfinite then (if x.isNegative then "-Infinity" else "Infinity")
  else x.toText

/-- The break before an item at a level. -/
def Style.lineBreak (style : Style) (level : Nat) : Text :=
  match style.indent with
  | none => []
  | some width => CodePoint.ofChar '\n' :: List.replicate (width * level) (CodePoint.ofChar ' ')

/-- Items between brackets; nothing stands between the brackets of no items. -/
def enclose (style : Style) (level : Nat) (left right : Char) (items : List Text) : Text :=
  match items with
  | [] => [CodePoint.ofChar left, CodePoint.ofChar right]
  | _ :: _ =>
    let inner := Text.join "," (items.map (style.lineBreak (level + 1) ++ ·))
    CodePoint.ofChar left :: (inner ++ (style.lineBreak level ++ [CodePoint.ofChar right]))

mutual

/-- The text of a value at a level of nesting. -/
def renderAt (style : Style) (level : Nat) : Json → Text
  | .null => "null"
  | .bool true => "true"
  | .bool false => "false"
  | .int n => Text.ofInt n
  | .float x => renderFloat x
  | .text t => renderText t
  | .array items => enclose style level '[' ']' (renderItems style (level + 1) items)
  | .object fields => enclose style level '\x7b' '\x7d' (renderFields style (level + 1) fields)

def renderItems (style : Style) (level : Nat) : List Json → List Text
  | [] => []
  | item :: rest => renderAt style level item :: renderItems style level rest

def renderFields (style : Style) (level : Nat) : List (Text × Json) → List Text
  | [] => []
  | (name, value) :: rest =>
    (renderText name ++ (style.afterName ++ renderAt style level value))
      :: renderFields style level rest

end

/-- The text of a value. -/
def render (style : Style) (j : Json) : Text := renderAt style 0 j

/-- Whether a double is refused. -/
def refusesFloat (style : Style) (x : Binary64) : Bool := !style.allowNonFinite && !x.isFinite

/-- Whether an integer has too many digits. -/
def refusesInt (n : Int) : Bool := Binary64.digitCount n.natAbs > Integer.digitLimit

mutual

/-- The first reason, in writing order, not to write a value. -/
def refusal? (style : Style) : Json → Option PrintError
  | .null | .bool _ | .text _ => none
  | .int n => if refusesInt n then some .tooLong else none
  | .float x => if refusesFloat style x then some .nonFinite else none
  | .array items => refusalItems? style items
  | .object fields => refusalFields? style fields

def refusalItems? (style : Style) : List Json → Option PrintError
  | [] => none
  | item :: rest => (refusal? style item).or (refusalItems? style rest)

def refusalFields? (style : Style) : List (Text × Json) → Option PrintError
  | [] => none
  | (_, value) :: rest => (refusal? style value).or (refusalFields? style rest)

end

/-- Writes a value, or says why it is refused. -/
def print (style : Style) (j : Json) : Except PrintError Text :=
  match refusal? style j with
  | some e => .error e
  | none => .ok (render style j)

end TopologyAudit.Json
