import TopologyAudit.Yaml.Error

/-!
# Tokens

The tokens of YAML 1.1: signs of documents and collections, properties of nodes,
and scalars. Block collections have tokens of their own where their indentation
begins and ends.
-/

namespace TopologyAudit.Yaml

/-- How a scalar is written: plain, or between quotes or as a block. -/
inductive ScalarStyle
  | plain
  | marked
deriving DecidableEq, Repr

/-- A directive in front of a document. -/
inductive Directive
  | version (major minor : Nat)
  | handle (handle expansion : Text)
  | other
deriving DecidableEq

inductive Lexeme
  | streamStart
  | streamEnd
  | directive (d : Directive)
  | documentStart
  | documentEnd
  | blockSequenceStart
  | blockMappingStart
  | blockEnd
  | flowSequenceStart
  | flowSequenceEnd
  | flowMappingStart
  | flowMappingEnd
  | key
  | value
  | blockEntry
  | flowEntry
  | alias (name : Text)
  | anchor (name : Text)
  /-- A tag; without a handle the suffix is the whole tag. -/
  | tag (handle : Option Text) (suffix : Text)
  | scalar (value : Text) (style : ScalarStyle)
deriving DecidableEq

/-- How a token is named in messages. -/
def Lexeme.name : Lexeme → Text
  | .streamStart => "<stream start>"
  | .streamEnd => "<stream end>"
  | .directive _ => "<directive>"
  | .documentStart => "<document start>"
  | .documentEnd => "<document end>"
  | .blockSequenceStart => "<block sequence start>"
  | .blockMappingStart => "<block mapping start>"
  | .blockEnd => "<block end>"
  | .flowSequenceStart => "["
  | .flowSequenceEnd => "]"
  | .flowMappingStart => "\x7b"
  | .flowMappingEnd => "\x7d"
  | .key => "?"
  | .value => ":"
  | .blockEntry => "-"
  | .flowEntry => ","
  | .alias _ => "<alias>"
  | .anchor _ => "<anchor>"
  | .tag _ _ => "<tag>"
  | .scalar _ _ => "<scalar>"

/-- A token and the places where it begins and ends. -/
structure Token where
  lexeme : Lexeme
  start : Mark
  stop : Mark
deriving DecidableEq

end TopologyAudit.Yaml
