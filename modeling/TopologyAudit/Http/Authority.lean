import TopologyAudit.Host.Address
import TopologyAudit.Host.Name
import TopologyAudit.Numeral.Integer

/-!
# Authorities

The part of an address that names the server: a user up to the last at sign, a host, and a
port behind a colon. Each of them may be left out.
-/

namespace TopologyAudit.Http

/-- The host and the port are kept as they are written. -/
structure Authority where
  user : Text
  host : Text
  port : Text
deriving DecidableEq

/-- Why an authority names no server. -/
inductive AuthorityError
  | dottedAddress (host : Text)
  | groupedAddress (host : Text)
  | hostName (host : Text)
  | port (t : Text)
deriving DecidableEq

def AuthorityError.message : AuthorityError → Text
  | .dottedAddress host => "Invalid IPv4 address: " ++ host.quoted
  | .groupedAddress host => "Invalid IPv6 address: " ++ host.quoted
  | .hostName host => "Invalid IDNA hostname: " ++ host.quoted
  | .port t => "Invalid port: " ++ t.quoted

namespace Authority

/-- The host at the start of a text: up to the last bracket if it begins with one, else up
to a colon. -/
def takeHost (t : Text) : Text :=
  let bracketed := (t.reverse.dropWhile fun c : CodePoint => !(c == ']')).reverse
  if t.head? = some (CodePoint.ofChar '[') && !bracketed.isEmpty then bracketed
  else t.takeWhile fun c : CodePoint => !(c == ':')

def ofText (t : Text) : Authority :=
  let server := (t.reverse.takeWhile fun c : CodePoint => !(c == '@')).reverse
  let host := takeHost server
  let rest := server.drop host.length
  let port := if rest.head? = some (CodePoint.ofChar ':') then rest.drop 1 else rest
  ⟨t.take (t.length - server.length - 1), host, port⟩

/-- Whether a user, a host or a port is named. -/
def isNamed (a : Authority) : Bool := !(a.user.isEmpty && a.host.isEmpty && a.port.isEmpty)

/-- Whether a host stands in brackets, as grouped addresses do. -/
def isBracketed (host : Text) : Bool :=
  host.head? == some (CodePoint.ofChar '[') && host.getLast? == some (CodePoint.ofChar ']')

/-- Refuses an address that is not well formed and a name that has no ASCII form. A host in
ASCII that is no address may have any name. -/
def checkHost (host : Text) : Except AuthorityError Unit :=
  if HostAddress.looksDotted host then
    if HostAddress.isDotted host then .ok () else .error (.dottedAddress host)
  else if isBracketed host then
    if HostAddress.isGrouped (host.drop 1).dropLast then .ok () else .error (.groupedAddress host)
  else if host.all CodePoint.isAscii || (HostName.ascii? host).isSome then .ok ()
  else .error (.hostName host)

/-- Refuses a port that is no integer. -/
def checkPort (port : Text) : Except AuthorityError Unit :=
  if port.isEmpty then .ok ()
  else
    match Integer.read 10 port with
    | .ok _ => .ok ()
    | .error _ => .error (.port port)

def check (a : Authority) : Except AuthorityError Unit := do
  checkHost a.host
  checkPort a.port

end Authority

end TopologyAudit.Http
