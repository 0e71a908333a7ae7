import TopologyAudit.Json.Reader
import TopologyAudit.Text.Utf8

/-!
# Bodies

The JSON value in the body of a request. Its encoding is told by its first bytes: a
byte order mark, or where the zeros of the first ASCII characters stand. Surrogates
are read in every encoding.
-/

namespace TopologyAudit.Http

/-- The order of the bytes of a unit. -/
inductive ByteOrder
  | big
  | little
deriving DecidableEq, Repr

/-- The encodings of JSON texts. -/
inductive Encoding
  | utf8
  | utf16 (order : ByteOrder)
  | utf32 (order : ByteOrder)
deriving DecidableEq, Repr

namespace Encoding

/-- The encoding that a byte order mark announces, and the bytes behind the mark. -/
def ofMark? : List UInt8 → Option (Encoding × List UInt8)
  | 0x00 :: 0x00 :: 0xFE :: 0xFF :: rest => some (utf32 .big, rest)
  | 0xFF :: 0xFE :: 0x00 :: 0x00 :: rest => some (utf32 .little, rest)
  | 0xFE :: 0xFF :: rest => some (utf16 .big, rest)
  | 0xFF :: 0xFE :: rest => some (utf16 .little, rest)
  | 0xEF :: 0xBB :: 0xBF :: rest => some (utf8, rest)
  | _ => none

/-- The encoding that the zeros among the first bytes tell. -/
def ofZeros : List UInt8 → Encoding
  | a :: b :: c :: d :: _ =>
    if a = 0 then (if b = 0 then utf32 .big else utf16 .big)
    else if b = 0 then (if c = 0 ∧ d = 0 then utf32 .little else utf16 .little)
    else utf8
  | [a, b] => if a = 0 then utf16 .big else if b = 0 then utf16 .little else utf8
  | _ => utf8

/-- The encoding of a body, and the body without its byte order mark. -/
def detect (bytes : List UInt8) : Encoding × List UInt8 :=
  (ofMark? bytes).getD (ofZeros bytes, bytes)

/-- The number that two bytes write. -/
def number (order : ByteOrder) (a b : Nat) : Nat :=
  match order with
  | .big => a * 0x100 + b
  | .little => b * 0x100 + a

/-- The units of sixteen bits that bytes write. -/
def units16? (order : ByteOrder) : List UInt8 → Option (List Nat)
  | [] => some []
  | [_] => none
  | a :: b :: rest => (units16? order rest).map (number order a.toNat b.toNat :: ·)

/-- Joins the halves of surrogate pairs. -/
def joinPairs : List Nat → Text
  | [] => []
  | [u] => [CodePoint.ofNat u]
  | u :: v :: rest =>
    if 0xD800 ≤ u ∧ u ≤ 0xDBFF ∧ 0xDC00 ≤ v ∧ v ≤ 0xDFFF then
      CodePoint.ofNat (0x10000 + (u - 0xD800) * 0x400 + (v - 0xDC00)) :: joinPairs rest
    else CodePoint.ofNat u :: joinPairs (v :: rest)

/-- The code points that units of thirty-two bits, in halves, write. -/
def joinHalves? (order : ByteOrder) : List Nat → Option Text
  | [] => some []
  | [_] => none
  | u :: v :: rest => do
    let (high, low) := if order = .big then (u, v) else (v, u)
    let c ← CodePoint.ofNat? (high * 0x10000 + low)
    return c :: (← joinHalves? order rest)

/-- The text that bytes write in an encoding. -/
def decode? : Encoding → List UInt8 → Option Text
  | utf8, bytes =>
    match Utf8.decodeAll bytes with
    | .ok t => some t
    | .error _ => none
  | utf16 order, bytes => (units16? order bytes).map joinPairs
  | utf32 order, bytes => (units16? order bytes).bind (joinHalves? order)

end Encoding

/-- What a body holds. -/
inductive Body
  | empty
  /-- The bytes write no text, or the text is beyond what is read. -/
  | unreadable
  /-- The text is not JSON. -/
  | malformed
  | json (value : Json)

namespace Body

def read (bytes : List UInt8) : Body :=
  if bytes.isEmpty then .empty
  else
    let (encoding, rest) := Encoding.detect bytes
    match encoding.decode? rest with
    | none => .unreadable
    | some t =>
      match Json.read t with
      | .ok value => .json value
      | .error (.malformed _ _ _ _) => .malformed
      | .error _ => .unreadable

end Body

end TopologyAudit.Http
