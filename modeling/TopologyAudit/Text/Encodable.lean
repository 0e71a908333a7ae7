import TopologyAudit.Text.Basic

/-!
# Texts that a character set cannot write

A strict encoder stops at the first run of code points outside its set. The
error names that run: its place, its length and its first member.
-/

namespace TopologyAudit

/-- A character set that writes some code points and refuses the others. -/
inductive Charset
  /-- Code points below 128. -/
  | ascii
  /-- All code points but the surrogates. -/
  | utf8
deriving DecidableEq, Repr

namespace Charset

def name : Charset → Text
  | ascii => "ascii"
  | utf8 => "utf-8"

/-- Whether the set writes a code point. -/
def writes : Charset → CodePoint → Bool
  | ascii, c => c.isAscii
  | utf8, c => !c.isSurrogate

/-- What is said of a code point that is refused. -/
def complaint : Charset → Text
  | ascii => "ordinal not in range(128)"
  | utf8 => "surrogates not allowed"

end Charset

/-- The first run of a text that a character set refuses. -/
structure EncodingError where
  charset : Charset
  position : Nat
  first : CodePoint
  /-- How many more refused code points follow the first. -/
  more : Nat
deriving DecidableEq

namespace EncodingError

/-- A code point by its number, in the shortest of three widths. -/
def numbered (c : CodePoint) : Text :=
  if c.val ≤ 0xFF then "\\x" ++ Text.hex 2 c.val
  else if c.val ≤ 0xFFFF then "\\u" ++ Text.hex 4 c.val
  else "\\U" ++ Text.hex 8 c.val

def message (e : EncodingError) : Text :=
  let place : Text :=
    match e.more with
    | 0 => "character '" ++ numbered e.first ++ "' in position " ++ Text.ofNat e.position
    | n + 1 =>
      "characters in position " ++ Text.ofNat e.position ++ "-" ++ Text.ofNat (e.position + n + 1)
  "'" ++ e.charset.name ++ "' codec can't encode " ++ place ++ ": " ++ e.charset.complaint

end EncodingError

/-- The first refused run of a text, when it has one. -/
def Charset.refusal? (charset : Charset) (t : Text) : Option EncodingError :=
  let written := t.takeWhile charset.writes
  match t.drop written.length with
  | [] => none
  | c :: rest =>
    some ⟨charset, written.length, c, (rest.takeWhile fun d => !charset.writes d).length⟩

end TopologyAudit
