import TopologyAudit.Text.Quoted

/-!
# Log lines

Messages for whoever runs the program, each with a level. A threshold hides the
lines of lower levels.
-/

namespace TopologyAudit

/-- How much a log line matters. -/
inductive LogLevel
  | notset
  | debug
  | info
  | warning
  | error
  | critical
deriving DecidableEq, Repr

namespace LogLevel

def rank : LogLevel → Nat
  | notset => 0
  | debug => 10
  | info => 20
  | warning => 30
  | error => 40
  | critical => 50

/-- The names of levels. Two of them have a second name. -/
def names : List (Text × LogLevel) :=
  [("CRITICAL", critical), ("FATAL", critical), ("ERROR", error), ("WARN", warning),
   ("WARNING", warning), ("INFO", info), ("DEBUG", debug), ("NOTSET", notset)]

/-- The level of a name. -/
def ofName? (name : Text) : Option LogLevel := names.lookup name

/-- The name that a log line shows. -/
def name : LogLevel → Text
  | notset => "NOTSET"
  | debug => "DEBUG"
  | info => "INFO"
  | warning => "WARNING"
  | error => "ERROR"
  | critical => "CRITICAL"

/-- Whether lines of a level are shown under a threshold. -/
def admits (threshold level : LogLevel) : Bool := threshold.rank ≤ level.rank

end LogLevel

structure LogLine where
  level : LogLevel
  message : Text
deriving DecidableEq

/-- A line as it is shown, with the part of the program that it comes from. -/
def LogLine.render (source : Text) (l : LogLine) : Text :=
  l.level.name ++ " [" ++ source ++ "] " ++ l.message

end TopologyAudit
