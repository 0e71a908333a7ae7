import TopologyAudit.Digest.Fingerprint
import TopologyAudit.Json.Reader
import TopologyAudit.Result
import TopologyAudit.Source.Format
import TopologyAudit.Topology.Schema
import TopologyAudit.Yaml.Document

/-!
# Parsing configs

From a config text to a topology: the format is looked up, the text is loaded, and
the tree is checked. Each step has errors of its own, and the first step that fails
decides. A breakdown of a loader is no error of the config and is passed on.
-/

namespace TopologyAudit

/-- What nobody has foreseen. -/
inductive Breakdown
  /-- A scalar of a YAML text breaks a conversion. -/
  | conversion (b : Yaml.Breakdown)
  /-- The format is given as a value that no message can show. -/
  | format
deriving DecidableEq

def Breakdown.message : Breakdown → Text
  | .conversion b => b.message
  | .format => Json.PrintError.tooLong.message

/-- Why a text of a format does not load. -/
inductive LoadError
  | json (e : Json.ReadError)
  | yaml (source : Text) (r : Yaml.Refusal)
deriving DecidableEq

namespace LoadError

def format : LoadError → SourceFormat
  | json _ => .json
  | yaml _ _ => .yaml

def detail : LoadError → Text
  | json e => e.message
  | yaml source r => r.message source

def message (e : LoadError) : Text :=
  "Failed to parse " ++ Text.upper e.format.name ++ " (format=" ++ e.format.name ++ "): " ++ e.detail

end LoadError

/-- Loads a text of a format, as a process goes through the sets of it. -/
def SourceFormat.load (order : SetOrder) :
    SourceFormat → Text → Except Breakdown (Except LoadError Tree)
  | .json, t =>
    match Json.read t with
    | .ok value => .ok (.ok (Tree.ofJson value))
    | .error e => .ok (.error (.json e))
  | .yaml, t =>
    match Yaml.Document.read order Schema.depth t with
    | .ok tree => .ok (.ok tree)
    | .error (.refused r) => .ok (.error (.yaml t r))
    | .error (.broken b) => .error (.conversion b)

/-- Why a config is not accepted. -/
inductive ParseError
  /-- The format is not known; it is shown as it was given. -/
  | format (given : Text)
  | load (e : LoadError)
  | schema (issues : List Issue)
deriving DecidableEq

namespace ParseError

/-- The name of the step that failed. -/
def kind : ParseError → Text
  | format _ => "format"
  | load _ => "syntax"
  | schema _ => "schema"

def message : ParseError → Text
  | format given => "Unsupported format '" ++ given ++ "'; expected yaml or json"
  | load e => e.message
  | schema issues =>
    "Schema validation failed: " ++ Text.join "; " (issues.map Issue.message)

end ParseError

/-- What comes of parsing a config. -/
abbrev ParseResult := Result ParseError Topology

/-- The messages of the errors. -/
def ParseResult.messages (r : ParseResult) : List Text := r.errors.map ParseError.message

namespace Topology

/-- What the tree of a config comes to. -/
def ofTree (metadata : Metadata) (tree : Tree) : ParseResult :=
  match Schema.check tree with
  | .ok services => .success ⟨services, metadata⟩
  | .failed issues => .failure [.schema issues]

/-- Parses a text of a known format. -/
def parseAs (order : SetOrder) (format : SourceFormat) (t : Text) :
    Except Breakdown ParseResult := do
  match ← format.load order t with
  | .error e => return .failure [.load e]
  | .ok tree => return ofTree ⟨format, some (fingerprint t)⟩ tree

/-- Parses a text in the format that a value names. -/
def parse (order : SetOrder) (format : Value) (t : Text) : Except Breakdown ParseResult :=
  match SourceFormat.ofValue format with
  | .ok f => parseAs order f t
  | .error (.unknown shown) => .ok (.failure [.format shown])
  | .error .tooLong => .error .format

end Topology

end TopologyAudit
