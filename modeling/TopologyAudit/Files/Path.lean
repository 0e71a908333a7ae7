import TopologyAudit.Text.Case
import TopologyAudit.Text.Encodable

/-!
# Paths

A path is a root and the names behind it. Empty names and points are dropped when a
path is read; a name of two points stays, as it may leave a link.
-/

namespace TopologyAudit

/-- The root is empty for a relative path, and one slash, or exactly two, for an
absolute one. -/
structure Path where
  root : Text
  names : List Text
deriving DecidableEq

namespace Path

/-- The name that leads one directory up. -/
def parentName : Text := ".."

def ofText (t : Text) : Path :=
  let slashes := (t.takeWhile fun c : CodePoint => c == '/').length
  let root : Text := if slashes = 0 then "" else if slashes = 2 then "//" else "/"
  ⟨root, (Text.splitOn '/' t).filter fun name => !(name.isEmpty || name = ".")⟩

def toText (p : Path) : Text :=
  if p.root.isEmpty && p.names.isEmpty then "." else p.root ++ Text.join "/" p.names

def isAbsolute (p : Path) : Bool := !p.root.isEmpty

/-- The ending of a name from its last point on, unless the point is its first or
last code point. -/
def ending (name : Text) : Text :=
  let letters := (name.reverse.takeWhile fun c : CodePoint => !(c == '.')).reverse
  if letters.isEmpty || name.length ≤ letters.length + 1 then []
  else CodePoint.ofChar '.' :: letters

/-- The ending of the last name. -/
def suffix (p : Path) : Text :=
  match p.names.getLast? with
  | some name => ending name
  | none => []

/-- Goes on to a name; two points lead up, but not beyond the root. -/
def descend (names : List Text) (name : Text) : List Text :=
  if name = parentName then names.dropLast else names ++ [name]

/-- The absolute form of a path, as seen from a directory. -/
def resolve (p directory : Path) : Path :=
  if p.isAbsolute then ⟨"/", p.names.foldl descend []⟩
  else ⟨directory.root, p.names.foldl descend directory.names⟩

/-- A surrogate that stands for a byte of a file name. -/
def standsForByte (c : CodePoint) : Bool := c.within 0xDC80 0xDCFF

/-- The first run of a path that no file name can hold. -/
def refusal? (p : Path) : Option EncodingError :=
  let t := p.toText
  let writable := t.takeWhile fun c => !c.isSurrogate || standsForByte c
  match t.drop writable.length with
  | [] => none
  | c :: rest => some ⟨.utf8, writable.length, c, (rest.takeWhile CodePoint.isSurrogate).length⟩

/-- The format of a file: the one that is asked for, else the one that the name
tells, else the default. -/
def formatName (defaultFormat : Text) (explicit : Option Text) (p : Path) : Text :=
  match explicit.filter fun t => !t.isEmpty with
  | some format => format
  | none =>
    let suffix := Text.lower p.suffix
    if suffix = ".json" then "json"
    else if suffix = ".yaml" || suffix = ".yml" then "yaml"
    else defaultFormat

end Path

end TopologyAudit
