import TopologyAudit.Http.Authority
import TopologyAudit.Text.Encodable
import TopologyAudit.Text.Utf8

/-!
# Request targets

The path that the target of a request leads to, as bytes. A target is a whole address
with scheme and host, or is taken from the root of the service. Steps up and points are
resolved before escapes by number are, and escapes are resolved twice: once where the
address is read, and once where the request is received.
-/

namespace TopologyAudit.Http

/-- Why a target leads nowhere. -/
inductive TargetError
  | tooLong
  /-- A control character stands at a position. -/
  | unprintable (c : CodePoint) (position : Nat)
  | authority (e : AuthorityError)
  | leadingSlashes
  | leadingColon
  /-- A part is too long once it is escaped. -/
  | longPart (name : Text)
  | unwritable (e : EncodingError)
deriving DecidableEq

def TargetError.message : TargetError → Text
  | .tooLong => "URL too long"
  | .unprintable c position =>
    "Invalid non-printable ASCII character in URL, " ++ Text.quoted [c] ++ " at position "
      ++ Text.ofNat position ++ "."
  | .authority e => e.message
  | .leadingSlashes => "Relative URLs cannot have a path starting with '//'"
  | .leadingColon => "Relative URLs cannot have a path starting with ':'"
  | .longPart name => "URL component '" ++ name ++ "' too long"
  | .unwritable e => e.message

/-- Where a target leads: a path on a host that is reached by a scheme, or on the service
itself if no host is named. -/
structure Target where
  scheme : Text
  host : Text
  path : Text
deriving DecidableEq

/-- The parts of a target as they are written. -/
structure TargetParts where
  scheme : Text
  authority : Authority
  path : Text
  query : Text
  fragment : Text
deriving DecidableEq

/-- The most code points that a target may have, and each part of it. -/
def targetLimit : Nat := 65536

namespace TargetParts

def isSlash (c : CodePoint) : Bool := c == '/'

/-- Whether a code point ends a path. -/
def endsPath (c : CodePoint) : Bool := c == '?' || c == '#'

/-- Whether a code point may stand in a scheme behind its first letter. -/
def isSchemeSign (c : CodePoint) : Bool :=
  c.isLetter || c.isDigit || c == '+' || c == '.' || c == '-'

/-- Takes a scheme with its colon off the front; the scheme may be empty. -/
def takeScheme (t : Text) : Text × Text :=
  let scheme := if t.head?.any CodePoint.isLetter then t.takeWhile isSchemeSign else []
  match t.drop scheme.length with
  | c :: rest => if c == ':' then (scheme, rest) else ([], t)
  | [] => ([], t)

/-- Takes an authority with its two slashes off the front, if there is one. -/
def takeAuthority (t : Text) : Text × Text :=
  if t.startsWith "//" then
    let rest := t.drop 2
    let authority := rest.takeWhile fun c => !(isSlash c || endsPath c)
    (authority, rest.drop authority.length)
  else ([], t)

/-- Takes the part behind a sign, up to the next number sign. -/
def partBehind (sign : CodePoint) : Text → Text
  | [] => []
  | c :: rest => if c = sign then rest.takeWhile fun d : CodePoint => !(d == '#') else []

def ofText (t : Text) : TargetParts :=
  let (scheme, rest) := takeScheme t
  let (authority, rest) := takeAuthority rest
  let path := rest.takeWhile fun c => !endsPath c
  let rest := rest.drop path.length
  let fragment := (rest.dropWhile fun c : CodePoint => !(c == '#')).drop 1
  ⟨scheme.lower, Authority.ofText authority, path, partBehind '?' rest, fragment⟩

/-- Whether the path is taken from the root of the service. -/
def isRelative (p : TargetParts) : Bool := p.scheme.isEmpty || p.authority.host.isEmpty

/-! ## Paths -/

/-- Goes on to a segment of a path: a point stays, and two points lead up. -/
def descend (segments : List Text) (segment : Text) : List Text :=
  if segment = "." then segments
  else if segment = ".." then (if segments = [[]] then segments else segments.dropLast)
  else segments ++ [segment]

/-- A path without points and steps up. -/
def resolved (path : Text) : Text := Text.join "/" ((Text.splitOn '/' path).foldl descend [])

/-- A path with a single slash in front. -/
def rooted (path : Text) : Text := CodePoint.ofChar '/' :: path.dropWhile isSlash

/-- The path as it is written. Without scheme and authority it is left as it is until the
root is put in front. -/
def writtenPath (p : TargetParts) : Except TargetError Text :=
  if !p.scheme.isEmpty || p.authority.isNamed then .ok (resolved p.path)
  else if p.path.startsWith "//" then .error .leadingSlashes
  else if p.path.startsWith ":" then .error .leadingColon
  else .ok p.path

/-! ## Limits -/

/-- Whether a code point stands for itself in a path; others are escaped. -/
def isPathSign (c : CodePoint) : Bool := c.within 0x21 0x7E && !Text.has "\"#<>?`\x7b\x7d" c

/-- Whether a code point stands for itself in a query. -/
def isQuerySign (c : CodePoint) : Bool := c.within 0x21 0x7E && !Text.has "\"#<>" c

/-- The length of a text once all but some code points are escaped, three signs a byte. -/
def escapedLength (isSign : CodePoint → Bool) (t : Text) : Nat :=
  t.foldl (fun n c => n + if isSign c then 1 else 3 * (Utf8.encodeCodePoint c).length) 0

/-- Refuses surrogates, which have no bytes to be escaped. Code points are escaped one by
one. -/
def checkWritable (t : Text) : Except TargetError Unit :=
  match t.find? CodePoint.isSurrogate with
  | none => .ok ()
  | some c => (Charset.utf8.refusal? [c]).elim (.ok ()) fun e => .error (.unwritable e)

/-- Refuses a path from the root or a query that is too long. -/
def checkLength (path query : Text) : Except TargetError Unit :=
  if targetLimit < escapedLength isPathSign path then .error (.longPart "path")
  else if targetLimit < escapedLength isQuerySign query then .error (.longPart "query")
  else .ok ()

/-- Where the parts lead. -/
def resolve (p : TargetParts) : Except TargetError Target := do
  checkWritable p.authority.user
  p.authority.check.mapError .authority
  let path ← p.writtenPath
  checkWritable (path ++ p.query ++ p.fragment)
  if p.isRelative then
    checkLength (rooted path) p.query
    return ⟨"http", [], resolved (rooted path)⟩
  else return ⟨p.scheme, p.authority.host, path⟩

end TargetParts

namespace Target

def isControl (c : CodePoint) : Bool := c.val < 0x20 || c.val = 0x7F

def ofText (t : Text) : Except TargetError Target :=
  if targetLimit < t.length then .error .tooLong
  else
    let printable := t.takeWhile fun c => !isControl c
    match t.drop printable.length with
    | c :: _ => .error (.unprintable c printable.length)
    | [] => (TargetParts.ofText t).resolve

/-- The value of a hexadecimal digit, as a byte. -/
def hexValue? (b : UInt8) : Option Nat := (CodePoint.ofNat b.toNat).hexValue?

/-- Puts bytes in the place of their escapes; a percent sign without two hexadecimal
digits behind it stays. -/
def unescape : List UInt8 → List UInt8
  | b :: high :: low :: after =>
    if b = 0x25 then
      match hexValue? high, hexValue? low with
      | some h, some l => UInt8.ofNat (h * 16 + l) :: unescape after
      | _, _ => b :: unescape (high :: low :: after)
    else b :: unescape (high :: low :: after)
  | short => short

/-- The bytes of the path that a target leads to. -/
def pathBytes (t : Target) : List UInt8 := unescape (unescape (Utf8.encode t.path))

/-- The schemes by which the service is reached. -/
def schemes : List Text := ["http", "https"]

end Target

end TopologyAudit.Http
