import TopologyAudit.Text.Encodable
import TopologyAudit.Text.Utf8
import TopologyAudit.Yaml.Cursor

/-!
# Faults in a YAML text

A fault says what went wrong and where, and as a rule what was being done and where
that began.
-/

namespace TopologyAudit.Yaml

/-- The three kinds of nodes. -/
inductive NodeKind
  | scalar
  | sequence
  | mapping
deriving DecidableEq, Repr

def NodeKind.name : NodeKind → Text
  | .scalar => "scalar"
  | .sequence => "sequence"
  | .mapping => "mapping"

/-- What was being done when a fault was met. -/
inductive Activity
  | scanningToken
  | scanningSimpleKey
  | scanningDirective
  | scanningAnchor
  | scanningAlias
  | scanningTag
  | readingTag
  | readingDirective
  | scanningBlockScalar
  | scanningDoubleQuoted
  | scanningQuoted
  | parsingBlockSequence
  | parsingBlockMapping
  | parsingFlowSequence
  | parsingFlowMapping
  | parsingBlockNode
  | parsingFlowNode
  | parsingNode
  /-- The one document that a text may hold. -/
  | holdingDocument
  /-- An anchor was set for the first time. -/
  | setAnchor (name : Text)
  | constructingMapping
  | constructingOrderedMap
  | constructingPairs
deriving DecidableEq

def Activity.message : Activity → Text
  | .scanningToken => "while scanning for the next token"
  | .scanningSimpleKey => "while scanning a simple key"
  | .scanningDirective => "while scanning a directive"
  | .scanningAnchor => "while scanning an anchor"
  | .scanningAlias => "while scanning an alias"
  | .scanningTag => "while scanning a tag"
  | .readingTag => "while parsing a tag"
  | .readingDirective => "while parsing a directive"
  | .scanningBlockScalar => "while scanning a block scalar"
  | .scanningDoubleQuoted => "while scanning a double-quoted scalar"
  | .scanningQuoted => "while scanning a quoted scalar"
  | .parsingBlockSequence => "while parsing a block collection"
  | .parsingBlockMapping => "while parsing a block mapping"
  | .parsingFlowSequence => "while parsing a flow sequence"
  | .parsingFlowMapping => "while parsing a flow mapping"
  | .parsingBlockNode => "while parsing a block node"
  | .parsingFlowNode => "while parsing a flow node"
  | .parsingNode => "while parsing a node"
  | .holdingDocument => "expected a single document in the stream"
  | .setAnchor name => "found duplicate anchor " ++ name.quoted ++ "; first occurrence"
  | .constructingMapping => "while constructing a mapping"
  | .constructingOrderedMap => "while constructing an ordered map"
  | .constructingPairs => "while constructing pairs"

/-- What a code point was expected to be. -/
inductive Expected
  | wordCharacter
  | digit
  | digitOrPoint
  | digitOrSpace
  | space
  | exclamationMark
  | lineEnd
  | uri
  | greaterThan
  | uriEscape
  | blockIndicator
  | hexDigits (count : Nat)
deriving DecidableEq

def Expected.message : Expected → Text
  | .wordCharacter => "alphabetic or numeric character"
  | .digit => "a digit"
  | .digitOrPoint => "a digit or '.'"
  | .digitOrSpace => "a digit or ' '"
  | .space => "' '"
  | .exclamationMark => "'!'"
  | .lineEnd => "a comment or a line break"
  | .uri => "URI"
  | .greaterThan => "'>'"
  | .uriEscape => "URI escape sequence of 2 hexadecimal numbers"
  | .blockIndicator => "chomping or indentation indicators"
  | .hexDigits count => "escape sequence of " ++ Text.ofNat count ++ " hexadecimal numbers"

/-- What is wrong at a place. Tokens are given by the text that names them. -/
inductive Problem
  | startsNoToken (found : CodePoint)
  | missingColon
  | sequenceNotAllowed
  | keyNotAllowed
  | valueNotAllowed
  | expected (what : Expected) (found : CodePoint)
  | zeroIndentation
  | unknownEscape (found : CodePoint)
  | endOfText
  | documentSeparator
  | undecodable (e : Utf8.DecodingError)
  | expectedBlockEnd (token : Text)
  | expectedCommaOrBracket (token : Text)
  | expectedCommaOrBrace (token : Text)
  | expectedContent (token : Text)
  | expectedDocumentStart (token : Text)
  | undefinedHandle (handle : Text)
  | duplicateHandle (handle : Text)
  | duplicateVersion
  | incompatibleVersion
  | anotherDocument
  | undefinedAlias (name : Text)
  | secondOccurrence
  | unhashableKey
  | expectedMergeable (found : NodeKind)
  | expectedMergeableItem (found : NodeKind)
  | unknownTag (tag : Text)
  | expectedNode (wanted found : NodeKind)
  | expectedItems (found : NodeKind)
  | expectedSingleton (found : NodeKind)
  | expectedOneItem (count : Nat)
  | notAscii (e : EncodingError)
  /-- Base64 digits whose number leaves one over; the number is given. -/
  | extraBase64Digit (digits : Nat)
  | base64Padding
deriving DecidableEq

def Problem.message : Problem → Text
  | .startsNoToken found =>
    "found character " ++ Text.quoted [found] ++ " that cannot start any token"
  | .missingColon => "could not find expected ':'"
  | .sequenceNotAllowed => "sequence entries are not allowed here"
  | .keyNotAllowed => "mapping keys are not allowed here"
  | .valueNotAllowed => "mapping values are not allowed here"
  | .expected what found =>
    "expected " ++ what.message ++ ", but found " ++ Text.quoted [found]
  | .zeroIndentation => "expected indentation indicator in the range 1-9, but found 0"
  | .unknownEscape found => "found unknown escape character " ++ Text.quoted [found]
  | .endOfText => "found unexpected end of stream"
  | .documentSeparator => "found unexpected document separator"
  | .undecodable e => e.message
  | .expectedBlockEnd token => "expected <block end>, but found " ++ token.quoted
  | .expectedCommaOrBracket token => "expected ',' or ']', but got " ++ token.quoted
  | .expectedCommaOrBrace token => "expected ',' or '\x7d', but got " ++ token.quoted
  | .expectedContent token => "expected the node content, but found " ++ token.quoted
  | .expectedDocumentStart token => "expected '<document start>', but found " ++ token.quoted
  | .undefinedHandle handle => "found undefined tag handle " ++ handle.quoted
  | .duplicateHandle handle => "duplicate tag handle " ++ handle.quoted
  | .duplicateVersion => "found duplicate YAML directive"
  | .incompatibleVersion =>
    "found incompatible YAML document (version 1.* is required)"
  | .anotherDocument => "but found another document"
  | .undefinedAlias name => "found undefined alias " ++ name.quoted
  | .secondOccurrence => "second occurrence"
  | .unhashableKey => "found unhashable key"
  | .expectedMergeable found =>
    "expected a mapping or list of mappings for merging, but found " ++ found.name
  | .expectedMergeableItem found =>
    "expected a mapping for merging, but found " ++ found.name
  | .unknownTag tag => "could not determine a constructor for the tag " ++ tag.quoted
  | .expectedNode wanted found =>
    "expected a " ++ wanted.name ++ " node, but found " ++ found.name
  | .expectedItems found => "expected a sequence, but found " ++ found.name
  | .expectedSingleton found => "expected a mapping of length 1, but found " ++ found.name
  | .expectedOneItem count =>
    "expected a single mapping item, but found " ++ Text.ofNat count ++ " items"
  | .notAscii e => "failed to convert base64 data into ascii: " ++ e.message
  | .extraBase64Digit digits =>
    "failed to decode base64 data: Invalid base64-encoded string: number of data characters ("
      ++ Text.ofNat digits ++ ") cannot be 1 more than a multiple of 4"
  | .base64Padding => "failed to decode base64 data: Incorrect padding"

/-- A problem at a place, within an activity that began at another one. -/
structure Fault where
  activity : Option Activity
  /-- Where the activity began. -/
  began : Option Mark
  problem : Problem
  mark : Mark
deriving DecidableEq

/-- Where the activity began is left out when the problem is at the same line and
column. -/
def Fault.message (f : Fault) (t : Text) : Text :=
  let activity := (f.activity.map (·.message)).toList
  let began :=
    match f.began with
    | none => []
    | some m =>
      if m.line = f.mark.line ∧ m.column = f.mark.column then [] else [m.message t]
  Text.join [CodePoint.ofChar '\n'] (activity ++ began ++ [f.problem.message, f.mark.message t])

end TopologyAudit.Yaml
