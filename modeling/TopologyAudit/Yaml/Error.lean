import TopologyAudit.Numeral.Integer
import TopologyAudit.Yaml.Fault

/-!
# Why a YAML text does not load

Most texts that do not load are refused with a message. Some scalars break a
conversion in a way that nobody has foreseen; such a breakdown is no refusal and is
passed on as it is.
-/

namespace TopologyAudit.Yaml

/-- A date or a time of day that does not exist. -/
inductive CalendarError
  | year (number : Nat)
  | month
  | day
  | hour
  | minute
  | second
  /-- An offset of a day or more, in minutes. -/
  | offset (minutes : Int)
deriving DecidableEq

/-- A span of minutes as days and seconds; the days carry the sign. -/
def spanText (minutes : Int) : Text :=
  let days := minutes.fdiv 1440
  let seconds := (minutes.fmod 1440) * 60
  let parts :=
    (if days = 0 then [] else [("days=" : Text) ++ Text.ofInt days])
      ++ (if seconds = 0 then [] else [("seconds=" : Text) ++ Text.ofInt seconds])
  "datetime.timedelta(" ++ (if parts.isEmpty then ("0" : Text) else Text.join ", " parts) ++ ")"

def CalendarError.message : CalendarError → Text
  | .year n => "year " ++ Text.ofNat n ++ " is out of range"
  | .month => "month must be in 1..12"
  | .day => "day is out of range for month"
  | .hour => "hour must be in 0..23"
  | .minute => "minute must be in 0..59"
  | .second => "second must be in 0..59"
  | .offset minutes =>
    "offset must be a timedelta strictly between -timedelta(hours=24) and "
      ++ "timedelta(hours=24), not " ++ spanText minutes ++ "."

/-- A conversion that breaks down on a scalar. -/
inductive Breakdown
  /-- A number without any digit or sign left. -/
  | emptyNumber
  /-- A truth value that is none of the words for one. -/
  | unknownBool (word : Text)
  /-- A timestamp that does not have the form of one. -/
  | noTimestamp
  /-- A timestamp that stands in a mapping. -/
  | timestampInMapping
  /-- An escape for a number beyond thirty-one bits. -/
  | hugeEscape
  /-- A number in base sixty with a place value beyond all doubles. -/
  | hugePlaceValue
deriving DecidableEq

def Breakdown.message : Breakdown → Text
  | .emptyNumber => "string index out of range"
  | .unknownBool word => word.quoted
  | .noTimestamp => "'NoneType' object has no attribute 'groupdict'"
  | .timestampInMapping => "expected string or bytes-like object, got 'list'"
  | .hugeEscape => "Python int too large to convert to C int"
  | .hugePlaceValue => "int too large to convert to float"

/-- Why a text is refused. -/
inductive Refusal
  /-- A code point that YAML texts may not hold. -/
  | unprintable (found : CodePoint) (offset : Nat)
  | fault (f : Fault)
  /-- Nodes are nested too deeply. -/
  | tooDeep
  /-- An escape for a number that is no code point. -/
  | noCodePoint
  | integer (e : Integer.ReadError)
  | float (numeral : Text)
  | calendar (e : CalendarError)
deriving DecidableEq

def Refusal.message (t : Text) : Refusal → Text
  | .unprintable found offset =>
    "unacceptable character #x" ++ Text.hex 4 found.val
      ++ ": special characters are not allowed\n  in \"<unicode string>\", position "
      ++ Text.ofNat offset
  | .fault f => f.message t
  | .tooDeep => "maximum recursion depth exceeded"
  | .noCodePoint => "chr() arg not in range(0x110000)"
  | .integer e => e.message
  | .float numeral => "could not convert string to float: " ++ numeral.quoted
  | .calendar e => e.message

/-- Why a text does not load. -/
inductive Error
  | refused (r : Refusal)
  | broken (b : Breakdown)
deriving DecidableEq

namespace Error

/-- A fault within an activity. -/
def during (activity : Activity) (began : Mark) (problem : Problem) (mark : Mark) : Error :=
  refused (.fault ⟨some activity, some began, problem, mark⟩)

/-- A fault by itself. -/
def here (problem : Problem) (mark : Mark) : Error := refused (.fault ⟨none, none, problem, mark⟩)

end Error

/-- Items in order, until the source ends or breaks off with an error. -/
structure Supply (α : Type) where
  items : List α
  failure : Option Error

end TopologyAudit.Yaml
