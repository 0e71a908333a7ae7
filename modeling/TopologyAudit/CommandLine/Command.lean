import TopologyAudit.Audit.Violation
import TopologyAudit.CommandLine.Grammar

/-!
# Commands

The two commands of the program, the grammars of their arguments, and their help.
-/

namespace TopologyAudit.CommandLine

inductive Command
  /-- Audits one file. The gate is the severity from which on violations fail. -/
  | analyze (file : Option Text) (format : Option Text) (gate : Option Severity) (json : Bool)
  /-- Compares two files. -/
  | diff (old new : Option Text) (format : Option Text) (json : Bool)
deriving DecidableEq

namespace Command

/-- The files that a command reads. -/
def files : Command → List Text
  | analyze file _ _ _ => file.toList
  | diff old new _ _ => old.toList ++ new.toList

/-- Lines with a line feed behind each. -/
def lines (ls : List String) : Text := ls.flatMap fun l => Text.ofString l ++ ("\n" : Text)

def helpOption : OptionSpec := ⟨["-h", "--help"], .help⟩

def formatOption : OptionSpec := ⟨["--format"], .choice ["yaml", "json"]⟩

def gateOption : OptionSpec := ⟨["--fail-on"], .choice (Severity.all.map Severity.name)⟩

def jsonOption : OptionSpec := ⟨["--json"], .flag⟩

def grammar : Grammar where
  program := "safeconfig"
  usage := lines ["usage: safeconfig [-h] \x7banalyze,diff\x7d ..."]
  description := lines [
    "",
    "SafeConfig: service topology invariant checks and drift diff",
    "",
    "positional arguments:",
    "  \x7banalyze,diff\x7d",
    "    analyze       Check one config against the invariants",
    "    diff          Compare violations between two configs",
    "",
    "options:",
    "  -h, --help      show this help message and exit"]
  options := [helpOption]
  operands := ["command"]

def analyzeGrammar : Grammar where
  program := "safeconfig analyze"
  usage := lines [
    "usage: safeconfig analyze [-h] [--format \x7byaml,json\x7d]",
    "                          [--fail-on \x7blow,medium,high\x7d] [--json]",
    "                          config_file"]
  description := lines [
    "",
    "positional arguments:",
    "  config_file",
    "",
    "options:",
    "  -h, --help            show this help message and exit",
    "  --format \x7byaml,json\x7d",
    "  --fail-on \x7blow,medium,high\x7d",
    "                        Exit 1 when a violation at or above this severity is",
    "                        found",
    "  --json                Print the raw result as JSON"]
  options := [helpOption, formatOption, gateOption, jsonOption]
  operands := ["config_file"]

def diffGrammar : Grammar where
  program := "safeconfig diff"
  usage := lines [
    "usage: safeconfig diff [-h] [--format \x7byaml,json\x7d] [--json] old_file new_file"]
  description := lines [
    "",
    "positional arguments:",
    "  old_file",
    "  new_file",
    "",
    "options:",
    "  -h, --help            show this help message and exit",
    "  --format \x7byaml,json\x7d",
    "  --json                Print the raw result as JSON"]
  options := [helpOption, formatOption, jsonOption]
  operands := ["old_file", "new_file"]

def analyzeName : Text := "analyze"

def diffName : Text := "diff"

/-- The operand at a place. -/
def operand (s : Taken) (i : Nat) : Option Text := (s.operands[i]?).join

/-- The severity that the gate option names. -/
def gate (s : Taken) : Option Severity :=
  (s.choice? gateOption.title).bind fun name => Severity.all.find? fun g => g.name == name

def ofAnalyze (s : Taken) : Command :=
  .analyze (operand s 0) (s.choice? formatOption.title) (gate s)
    (s.flags.contains jsonOption.title)

def ofDiff (s : Taken) : Command :=
  .diff (operand s 0) (operand s 1) (s.choice? formatOption.title)
    (s.flags.contains jsonOption.title)

/-- Reads the arguments of the program. Arguments that nothing takes are refused
last. -/
def read (args : List Text) : Except Halt Command := do
  let (name, rest, extras) ← grammar.readCommand [analyzeName, diffName] args
  let taken ← (if name = analyzeName then analyzeGrammar else diffGrammar).read rest
  match extras ++ taken.extras with
  | [] => return if name = analyzeName then ofAnalyze taken else ofDiff taken
  | unknown => .error (.misuse grammar (.unrecognized unknown))

end Command

end TopologyAudit.CommandLine
