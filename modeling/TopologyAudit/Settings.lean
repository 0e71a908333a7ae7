import TopologyAudit.Numeral.Integer
import TopologyAudit.Text.Case

/-!
# Settings

What the environment sets: the format of files whose names tell none, the web pages
that may call the service, its address, and the threshold of the log.
-/

namespace TopologyAudit

structure Settings where
  defaultFormat : Text
  origins : List Text
  host : Text
  port : Int
  /-- The name of the threshold of the log; it may be unknown. -/
  logLevel : Text
deriving DecidableEq

namespace Settings

/-- The settings of an empty environment. -/
def standard : Settings := ⟨"yaml", ["http://localhost:5173"], "0.0.0.0", 4000, "INFO"⟩

/-- The members of a list with commas between them; blank ones are dropped. -/
def listMembers (t : Text) : List Text :=
  ((Text.splitOn ',' t).map Text.trim).filter fun member => !member.isEmpty

/-- Reads the settings from the variables of an environment. -/
def read (lookup : String → Option Text) : Except Integer.ReadError Settings := do
  let port ←
    match lookup "SAFECONFIG_PORT" with
    | none => .ok standard.port
    | some t => Integer.read 10 t
  return {
    defaultFormat := (lookup "SAFECONFIG_DEFAULT_FORMAT").getD standard.defaultFormat
    origins := ((lookup "SAFECONFIG_CORS_ORIGINS").map listMembers).getD standard.origins
    host := (lookup "SAFECONFIG_HOST").getD standard.host
    port
    logLevel := ((lookup "SAFECONFIG_LOG_LEVEL").map Text.upper).getD standard.logLevel }

end Settings

end TopologyAudit
