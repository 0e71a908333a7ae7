import TopologyAudit.CommandLine.Command
import TopologyAudit.CommandLine.Report
import TopologyAudit.Files.Directory
import TopologyAudit.Log
import TopologyAudit.Settings

/-!
# Running commands

From arguments and files to what is printed and the exit code. Files are UTF-8, and
every end of a line counts as a line feed. Output is UTF-8 as well: a line with a
surrogate cannot be printed, while diagnostics write surrogates by number.
-/

namespace TopologyAudit.CommandLine

/-- What a run leaves behind. -/
structure Outcome where
  stdout : Text
  stderr : Text
  exit : Nat
deriving DecidableEq

/-- Why a run breaks off. -/
inductive Crash
  | unknownLevel (name : Text)
  /-- An operand has no value. -/
  | noPath
  /-- A path holds the code point zero. -/
  | nul
  | unwritablePath (e : EncodingError)
  | undecodable (e : Utf8.DecodingError)
  | breakdown (b : Breakdown)
  | unprintable (e : EncodingError)
  | json (e : Json.PrintError)
deriving DecidableEq

def Crash.message : Crash → Text
  | .unknownLevel name => "Unknown level: " ++ name.quoted
  | .noPath => "expected str, bytes or os.PathLike object, not list"
  | .nul => "embedded null byte"
  | .unwritablePath e => e.message
  | .undecodable e => e.message
  | .breakdown b => b.message
  | .unprintable e => e.message
  | .json e => e.message

/-- The text with a line feed for every end of a line: a carriage return is one, and a
line feed behind it belongs to it. -/
def unifyLineEnds (t : Text) : Text :=
  -- each code point with the one before it
  ((CodePoint.ofNat 0 :: t).zip t).filterMap fun (before, c) =>
    if c == '\r' then some (CodePoint.ofChar '\n')
    else if before == '\r' && c == '\n' then none
    else some c

/-- A diagnostic as it is printed. -/
def diagnostic (t : Text) : Text :=
  t.flatMap fun c => if c.isSurrogate then EncodingError.numbered c else [c]

/-- Lines with a line feed behind each. -/
def joinLines (lines : List Text) : Text := lines.flatMap fun l => l ++ ("\n" : Text)

/-- Lines as they are printed. The first one that cannot be printed breaks the run
off. -/
def printable : List Text → Except Crash Text
  | [] => .ok []
  | l :: rest =>
    match Charset.utf8.refusal? l with
    | some e => .error (.unprintable e)
    | none => (printable rest).map fun after => l ++ CodePoint.ofChar '\n' :: after

/-- What surrounds a run: the settings, the working directory, the files, and the order in which
the process goes through sets. -/
structure Surroundings where
  settings : Settings
  directory : Path
  read : Path → Except ReadFailure (List UInt8)
  order : SetOrder

/-- The path that an operand gives. -/
def pathOf : Option Text → Except Crash Path
  | none => .error .noPath
  | some t => .ok (Path.ofText t)

/-- Reads a config, or says why it cannot be read. -/
def readConfig (w : Surroundings) (p : Path) : Except Crash (Except Text Text) :=
  match p.refusal? with
  | some e => .error (.unwritablePath e)
  | none =>
    if p.toText.contains (CodePoint.ofNat 0) then .error .nul
    else
      match w.read p with
      | .error e =>
        .ok (.error ("Cannot read " ++ (p.resolve w.directory).toText ++ ": " ++ e.message))
      | .ok bytes =>
        match Utf8.decode bytes with
        | .error e => .error (.undecodable e)
        | .ok t => .ok (.ok (unifyLineEnds t))

/-- The format of a file. -/
def formatOf (w : Surroundings) (format : Option Text) (p : Path) : Value :=
  .text (p.formatName w.settings.defaultFormat format)

/-- A JSON report as it is printed. -/
def jsonText (report : Json) : Except Crash Text :=
  match Json.print Json.Style.readable report with
  | .error e => .error (.json e)
  | .ok t => printable [t]

/-- Turns a breakdown into the end of a run. -/
def unlessBroken {α : Type} : Except Breakdown α → Except Crash α
  | .error b => .error (.breakdown b)
  | .ok a => .ok a

/-- A line that says that an analysis failed, if the threshold admits it. -/
def failureLine (threshold : LogLevel) (p : Path) : List Text :=
  if threshold.admits .warning then
    [LogLine.render "safeconfig.cli" ⟨.warning, "analyze failed for " ++ p.toText⟩]
  else []

/-- What is printed of an analysis, and the exit code. -/
def analysisOutcome (threshold : LogLevel) (p : Path) (gate : Option Severity) (json : Bool)
    (report : Report Analysis) : Except Crash Outcome := do
  match report.value with
  | some a =>
    let stdout ← if json then jsonText (Analysis.toJson report) else printable a.lines
    return ⟨stdout, [], if gate.any a.trips then 1 else 0⟩
  | none =>
    let stdout ← if json then jsonText (Analysis.toJson report) else .ok []
    let errors := if json then [] else Report.errorLines report.errors
    return ⟨stdout, diagnostic (joinLines (errors ++ failureLine threshold p)), 1⟩

/-- What is printed of a comparison, and the exit code. -/
def comparisonOutcome (json : Bool) (report : Report Comparison) : Except Crash Outcome := do
  match report.value with
  | some c =>
    let stdout ← if json then jsonText (Comparison.toJson report) else printable c.lines
    return ⟨stdout, [], 0⟩
  | none =>
    let stdout ← if json then jsonText (Comparison.toJson report) else .ok []
    let stderr := if json then [] else diagnostic (joinLines (Report.errorLines report.errors))
    return ⟨stdout, stderr, 1⟩

/-- The message of a config that cannot be read. -/
def readError : Except Text Text → List Text
  | .error message => [message]
  | .ok _ => []

/-- Runs a command. -/
def runCommand (w : Surroundings) (threshold : LogLevel) : Command → Except Crash Outcome
  | .analyze file format gate json => do
    let p ← pathOf file
    match ← readConfig w p with
    | .error message => return ⟨[], diagnostic (joinLines [message]), 1⟩
    | .ok t =>
      let report ← unlessBroken (Analysis.run w.order (formatOf w format p) t)
      analysisOutcome threshold p gate json report
  | .diff old new format json => do
    let p ← pathOf old
    let q ← pathOf new
    let oldText ← readConfig w p
    let newText ← readConfig w q
    match oldText, newText with
    | .ok s, .ok t =>
      let report ← unlessBroken
        (Comparison.run w.order (formatOf w format p) (formatOf w format q) s t)
      comparisonOutcome json report
    | _, _ =>
      return ⟨[], diagnostic (joinLines (readError oldText ++ readError newText)), 1⟩

/-- What is printed when no command is run, and the exit code. -/
def haltOutcome : Halt → Outcome
  | .help g => ⟨g.usage ++ g.description, [], 0⟩
  | .misuse g e => ⟨[], diagnostic (g.usage ++ g.program ++ ": error: " ++ e.message ++ "\n"), 2⟩

/-- Runs the program. The threshold of the log is looked up first. -/
def run (w : Surroundings) (args : List Text) : Except Crash Outcome :=
  match LogLevel.ofName? w.settings.logLevel with
  | none => .error (.unknownLevel w.settings.logLevel)
  | some threshold =>
    match Command.read args with
    | .error halt => .ok (haltOutcome halt)
    | .ok command => runCommand w threshold command

end TopologyAudit.CommandLine
