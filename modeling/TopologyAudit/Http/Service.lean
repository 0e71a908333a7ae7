import TopologyAudit.Http.Body
import TopologyAudit.Http.Target
import TopologyAudit.Log
import TopologyAudit.Report.Comparison
import TopologyAudit.Settings
import TopologyAudit.Text.Case

/-!
# The web service

Two endpoints that take configs in a JSON body and answer with the reports of an
analysis and a comparison, and one that tells that the service is up. Answers are
compact JSON. A report that cannot be written, and a breakdown, are answered by a
server error. Beside the endpoints there are pages that describe them.
-/

namespace TopologyAudit.Http

structure Request where
  method : Text
  target : Text
  body : List UInt8
  /-- The web page that the request comes from, if it says so. -/
  origin : Option Text
deriving DecidableEq

structure Response where
  status : Nat
  body : Text
  log : List LogLine
  /-- The web page that may read the response. -/
  allowOrigin : Option Text
deriving DecidableEq

namespace Response

/-- A response before its readers are known. -/
def of (status : Nat) (body : Text) (log : List LogLine) : Response := ⟨status, body, log, none⟩

/-- The response when something breaks. -/
def serverError (log : List LogLine) : Response := of 500 "Internal Server Error" log

/-- A response with a JSON body, if the value can be written. -/
def json (status : Nat) (value : Json) (log : List LogLine) : Response :=
  match Json.print Json.Style.compact value with
  | .ok t => of status t log
  | .error _ => serverError log

/-- A response with a single text under a name. -/
def message (status : Nat) (name text : Text) : Response :=
  json status (.object [(name, .text text)]) []

def detail (status : Nat) (text : Text) : Response := message status "detail" text

end Response

/-! ## Endpoints -/

/-- The format that a body names; only the exact word counts. -/
def formatField? (value : Json) : Option SourceFormat :=
  ((value.field? "format").bind Json.asText?).bind fun name =>
    SourceFormat.all.find? fun f => f.name == name

/-- The text under a name. -/
def textField? (name : Text) (value : Json) : Option Text := (value.field? name).bind Json.asText?

structure AnalyzeRequest where
  config : Text
  format : SourceFormat
deriving DecidableEq

namespace AnalyzeRequest

def usage : Text := "config (string) and format (\"yaml\" | \"json\") are required."

def ofJson? (value : Json) : Option AnalyzeRequest := do
  return ⟨← textField? "config" value, ← formatField? value⟩

/-- The log line of an analysis. -/
def logLine (r : AnalyzeRequest) (report : Report Analysis) : LogLine :=
  match report.value with
  | some a =>
    ⟨.info, "analyze format=" ++ r.format.name ++ " hash="
      ++ a.topology.metadata.fingerprint.getD "None" ++ " services="
      ++ Text.ofNat a.topology.services.length ++ " violations=" ++ Text.ofNat a.violations.length⟩
  | none =>
    ⟨.warning, "analyze rejected (" ++ r.format.name ++ "): " ++ Text.join "; " report.errors⟩

def answer (order : SetOrder) (r : AnalyzeRequest) : Response :=
  match Analysis.run order (.text r.format.name) r.config with
  | .error _ => Response.serverError []
  | .ok report =>
    let status := if report.isOk then 200 else 400
    Response.json status (Analysis.toJson report) [r.logLine report]

end AnalyzeRequest

structure DiffRequest where
  oldConfig : Text
  newConfig : Text
  format : SourceFormat
deriving DecidableEq

namespace DiffRequest

def usage : Text :=
  "oldConfig, newConfig (strings) and format (\"yaml\" | \"json\") are required."

def ofJson? (value : Json) : Option DiffRequest := do
  return ⟨← textField? "oldConfig" value, ← textField? "newConfig" value, ← formatField? value⟩

/-- The log line of a comparison. -/
def logLine (r : DiffRequest) (report : Report Comparison) : LogLine :=
  match report.value with
  | some c =>
    ⟨.info, "diff format=" ++ r.format.name ++ " old="
      ++ c.oldTopology.metadata.fingerprint.getD "None" ++ " new="
      ++ c.newTopology.metadata.fingerprint.getD "None" ++ " new_violations="
      ++ Text.ofNat c.drift.introduced ++ " resolved=" ++ Text.ofNat c.drift.resolved⟩
  | none =>
    ⟨.warning, "diff rejected (" ++ r.format.name ++ "): " ++ Text.ofNat report.errors.length
      ++ " error(s)"⟩

def answer (order : SetOrder) (r : DiffRequest) : Response :=
  let format := Value.text r.format.name
  match Comparison.run order format format r.oldConfig r.newConfig with
  | .error _ => Response.serverError []
  | .ok report =>
    let status := if report.isOk then 200 else 400
    Response.json status (Comparison.toJson report) [r.logLine report]

end DiffRequest

/-- Answers a request with a body: the body is read, and the fields that it needs are
looked up. -/
def answerBody {α : Type} (usage : Text) (ofJson? : Json → Option α) (answer : α → Response)
    (bytes : List UInt8) : Response :=
  match Body.read bytes with
  | .unreadable => Response.detail 400 "There was an error parsing the body"
  | .empty | .malformed => Response.message 400 "error" usage
  | .json value =>
    match ofJson? value with
    | none => Response.message 400 "error" usage
    | some request => answer request

/-! ## Routes -/

/-- The endpoints of the service. -/
inductive Endpoint
  | analyze
  | diff
  | health
deriving DecidableEq, Repr

namespace Endpoint

def all : List Endpoint := [analyze, diff, health]

def path : Endpoint → Text
  | analyze => "/api/analyze"
  | diff => "/api/diff"
  | health => "/health"

/-- The only method that the endpoint takes. -/
def method : Endpoint → Text
  | analyze | diff => "POST"
  | health => "GET"

def answer (order : SetOrder) (bytes : List UInt8) : Endpoint → Response
  | analyze =>
    answerBody AnalyzeRequest.usage AnalyzeRequest.ofJson? (AnalyzeRequest.answer order) bytes
  | diff => answerBody DiffRequest.usage DiffRequest.ofJson? (DiffRequest.answer order) bytes
  | health =>
    Response.json 200
      (.object [("status", .text "ok"), ("service", .text "safeconfig-backend")]) []

end Endpoint

/-- The paths of the pages that describe the service. The pages themselves hold nothing of
configs and are left blank. -/
def descriptionPaths : List Text := ["/openapi.json", "/docs", "/docs/oauth2-redirect", "/redoc"]

/-- Answers a request for a page. -/
def answerPage (method : Text) : Response :=
  if method = "GET" || method = "HEAD" then Response.of 200 [] []
  else Response.detail 405 "Method Not Allowed"

/-- A path without slashes at its end, and then without one line feed. -/
def trimmed (path : List UInt8) : List UInt8 :=
  let bare := (path.reverse.dropWhile fun b => b = 0x2F).reverse
  if bare.getLast? = some 0x0A then bare.dropLast else bare

/-- The endpoint at a path. -/
def endpointAt? (path : List UInt8) : Option Endpoint :=
  Endpoint.all.find? fun e => Utf8.encode e.path == trimmed path

/-- Answers a request for a path, to whoever reads the answer. -/
def route (order : SetOrder) (r : Request) (path : List UInt8) : Response :=
  let method := Text.upper r.method
  match endpointAt? path with
  | some e =>
    if e.method = method then e.answer order r.body else Response.detail 405 "Method Not Allowed"
  | none =>
    if descriptionPaths.any fun page => Utf8.encode page == trimmed path then answerPage method
    else Response.detail 404 "Not Found"

/-- Why a request cannot be sent. -/
inductive RequestError
  | target (e : TargetError)
  /-- The origin or the host is not in ASCII, as the head of a request has to be. -/
  | head (e : EncodingError)
  | unknownScheme (name : Text)
deriving DecidableEq

def RequestError.message : RequestError → Text
  | .target e => e.message
  | .head e => e.message
  | .unknownScheme name => name.quoted

/-- Refuses a text of the head that is not in ASCII. -/
def checkHead (t : Text) : Except RequestError Unit :=
  match Charset.ascii.refusal? t with
  | none => .ok ()
  | some e => .error (.head e)

/-- The path that a request is sent to. A host outside ASCII has an ASCII form, unless it
is an address. -/
def send (r : Request) : Except RequestError (List UInt8) := do
  let target ← (Target.ofText r.target).mapError .target
  checkHead (r.origin.getD [])
  if Authority.isBracketed target.host then checkHead target.host
  if Target.schemes.contains target.scheme then return target.pathBytes
  else throw (.unknownScheme target.scheme)

/-- Answers a request, in a process that goes through sets in an order. When only the head is
asked for, the answer has no body. A web page may read the answer if it is among the origins of
the settings, unless the answer is a server error. -/
def serve (order : SetOrder) (settings : Settings) (r : Request) :
    Except RequestError Response := do
  let response := route order r (← send r)
  return { response with
    body := if Text.upper r.method = "HEAD" then [] else response.body
    allowOrigin := r.origin.filter fun origin =>
      settings.origins.contains origin && response.status != 500 }

end TopologyAudit.Http
