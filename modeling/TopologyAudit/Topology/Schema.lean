import TopologyAudit.Topology.Basic
import TopologyAudit.Topology.Issue
import TopologyAudit.Tree

/-!
# The shape of a config

`Schema.check` turns a loaded tree into services or lists all issues. Scalars are
taken strictly: a text is no number, a truth value is no integer. Unknown keys are
ignored. Some fields have a second name, which counts only where the first one is
absent.
-/

namespace TopologyAudit.Schema

/-- How deep a config is looked into: the root, its services, one of them, its
bindings, one of them, and a field of that. -/
def depth : Nat := 6

/-- The names under which a field is looked up, the preferred one first. -/
structure FieldName where
  name : Text
  alternative : Option Text

namespace FieldName

def host : FieldName := ⟨"host", none⟩
def port : FieldName := ⟨"port", none⟩
def protocol : FieldName := ⟨"protocol", none⟩
def cpu : FieldName := ⟨"cpu", none⟩
def memoryMb : FieldName := ⟨"memoryMb", some "memory_mb"⟩
def serviceName : FieldName := ⟨"name", none⟩
def kind : FieldName := ⟨"type", none⟩
def isPublic : FieldName := ⟨"public", none⟩
def handlesPii : FieldName := ⟨"handlesPII", some "handles_pii"⟩
def network : FieldName := ⟨"network", none⟩
def dependsOn : FieldName := ⟨"dependsOn", some "depends_on"⟩
def limits : FieldName := ⟨"resourceLimits", some "resource_limits"⟩
def services : FieldName := ⟨"services", none⟩

/-- The value of a field and the name it was found under. -/
def find? (f : FieldName) (entries : List (Scalar × Tree)) : Option (Text × Tree) :=
  match Tree.valueOf? entries f.name with
  | some value => some (f.name, value)
  | none =>
    match f.alternative with
    | none => none
    | some other => (Tree.valueOf? entries other).map fun value => (other, value)

end FieldName

/-- Checks a field that must be present. -/
def required {α : Type} (f : FieldName) (check : Tree → Checked α)
    (entries : List (Scalar × Tree)) : Checked α :=
  match f.find? entries with
  | some (name, value) => (check value).under (.key name)
  | none => (Checked.mismatch .missing).under (.key f.name)

/-- Checks a field that has a default. -/
def optional {α : Type} (f : FieldName) (default : α) (check : Tree → Checked α)
    (entries : List (Scalar × Tree)) : Checked α :=
  match f.find? entries with
  | some (name, value) => (check value).under (.key name)
  | none => .ok default

/-- Any text. -/
def text : Tree → Checked Text
  | .scalar (.text t) => .ok t
  | _ => .mismatch .notText

/-- A truth value. -/
def bool : Tree → Checked Bool
  | .scalar (.bool b) => .ok b
  | _ => .mismatch .notBool

/-- An integer that is not negative. -/
def natural : Tree → Checked Int
  | .scalar (.int n) => if 0 ≤ n then .ok n else .mismatch .negative
  | _ => .mismatch .notInteger

/-- A double, or an integer whose nearest double is finite; it stays an integer. -/
def amount : Tree → Checked Amount
  | .scalar (.int n) =>
    if (Binary64.ofInt n).isFinite then .ok (.int n) else .mismatch .notNumber
  | .scalar (.float x) => .ok (.float x)
  | _ => .mismatch .notNumber

/-- One of the named values. -/
def oneOf {α : Type} (all : List α) (name : α → Text) : Tree → Checked α
  | .scalar (.text t) =>
    if t.any CodePoint.isSurrogate then .mismatch .notUnicode
    else
      match all.find? fun a => name a == t with
      | some a => .ok a
      | none => .mismatch (.notOneOf (all.map name))
  | _ => .mismatch (.notOneOf (all.map name))

/-- Null, or what a check accepts. -/
def nullable {α : Type} (check : Tree → Checked α) : Tree → Checked (Option α)
  | .scalar .null => .ok none
  | t => (check t).map some

/-- A list or a set of what a check accepts. -/
def listOf {α : Type} (check : Tree → Checked α) : Tree → Checked (List α)
  | .list items => Checked.items check 0 items
  | .set members => Checked.items check 0 (members.map .scalar)
  | _ => .mismatch .notList

/-- A mapping whose entries a check accepts. -/
def mappingOf {α : Type} (part : Text) (check : List (Scalar × Tree) → Checked α) :
    Tree → Checked α
  | .mapping entries => check entries
  | _ => .mismatch (.notMapping part)

def binding : Tree → Checked Binding :=
  mappingOf "NetworkBindingDocument" fun entries =>
    let host := required .host text entries
    let port := required .port natural entries
    let protocol := required .protocol (oneOf Protocol.all Protocol.name) entries
    (host.both (port.both protocol)).map fun (h, p, q) => ⟨h, p, q⟩

def limits : Tree → Checked Limits :=
  mappingOf "ResourceLimitsDocument" fun entries =>
    let cpu := optional .cpu none (nullable amount) entries
    let memoryMb := optional .memoryMb none (nullable amount) entries
    (cpu.both memoryMb).map fun (c, m) => ⟨c, m⟩

def service : Tree → Checked Service :=
  mappingOf "ServiceDocument" fun entries =>
    let name := required .serviceName text entries
    let kind := required .kind (oneOf ServiceKind.all ServiceKind.name) entries
    let isPublic := optional .isPublic false bool entries
    let handlesPii := optional .handlesPii false bool entries
    let network := optional .network [] (listOf binding) entries
    let dependsOn := optional .dependsOn [] (listOf text) entries
    let limits := optional .limits none (nullable limits) entries
    (name.both (kind.both (isPublic.both (handlesPii.both
        (network.both (dependsOn.both limits)))))).map
      fun (n, k, p, h, w, d, l) => ⟨n, k, p, h, w, d, l⟩

/-- The services of a config, or everything that is wrong with its shape. -/
def check : Tree → Checked (List Service) :=
  mappingOf "ConfigDocument" fun entries => required .services (listOf service) entries

end TopologyAudit.Schema
