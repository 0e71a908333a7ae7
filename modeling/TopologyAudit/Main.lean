import TopologyAudit.CommandLine.Run

/-!
# The program

Reads the environment and the files that the arguments name, runs the command, and
prints what it leaves behind.
-/

namespace TopologyAudit

open CommandLine

/-- Why a file was not read. -/
def ReadFailure.ofSystem : IO.Error → ReadFailure
  | .noFileOrDirectory _ _ _ => .notFound
  | .inappropriateType _ _ reason => .other reason
  | .permissionDenied _ _ reason => .other reason
  | .invalidArgument _ _ reason => .other reason
  | e => .other e.toString

/-- Reads the file at a path. -/
def readFile (p : Path) : IO (Path × Except ReadFailure (List UInt8)) := do
  try
    let bytes ← IO.FS.readBinFile p.toText.toString
    return (p, .ok bytes.toList)
  catch e => return (p, .error (ReadFailure.ofSystem e))

/-- The settings of some variables of an environment. -/
def readSettings : IO (Except Integer.ReadError Settings) := do
  let names := ["SAFECONFIG_PORT", "SAFECONFIG_DEFAULT_FORMAT", "SAFECONFIG_CORS_ORIGINS",
    "SAFECONFIG_HOST", "SAFECONFIG_LOG_LEVEL"]
  let values ← names.mapM fun name => do
    return (name, (← IO.getEnv name).map Text.ofString)
  return Settings.read fun name => (values.lookup name).join

/-- Prints a message and fails. -/
def giveUp (message : Text) : IO UInt32 := do
  IO.eprintln message.toString
  return 1

def runProgram (args : List Text) : IO UInt32 := do
  match ← readSettings with
  | .error e => giveUp e.message
  | .ok settings =>
    let files :=
      match Command.read args with
      | .ok command => command.files.map Path.ofText
      | .error _ => []
    let contents ← files.mapM readFile
    let directory := Path.ofText (← IO.currentDir).toString
    let read (p : Path) := (contents.lookup p).getD (.error .notFound)
    match CommandLine.run ⟨settings, directory, read, .asWritten⟩ args with
    | .error crash => giveUp crash.message
    | .ok outcome =>
      IO.print outcome.stdout.toString
      IO.eprint outcome.stderr.toString
      return outcome.exit.toUInt32

end TopologyAudit

def main (args : List String) : IO UInt32 :=
  TopologyAudit.runProgram (args.map TopologyAudit.Text.ofString)
