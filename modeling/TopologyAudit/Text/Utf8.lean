import TopologyAudit.Text.Basic

/-!
# UTF-8

`encode` writes every code point in one to four bytes; a surrogate takes the
three bytes that its number has, so no text is refused. `decode` reads only
well-formed UTF-8, shortest forms without surrogates, and says where and why the
bytes go wrong. `decodeAll` reads surrogates too, and so all that `encode` writes.
-/

namespace TopologyAudit.Utf8

/-- The bytes of one code point. -/
def encodeCodePoint (c : CodePoint) : List UInt8 :=
  let tail (shift : Nat) : UInt8 := UInt8.ofNat (0x80 + c.val >>> shift % 64)
  if c.val < 0x80 then [UInt8.ofNat c.val]
  else if c.val < 0x800 then [UInt8.ofNat (0xC0 + c.val >>> 6), tail 0]
  else if c.val < 0x10000 then [UInt8.ofNat (0xE0 + c.val >>> 12), tail 6, tail 0]
  else [UInt8.ofNat (0xF0 + c.val >>> 18), tail 12, tail 6, tail 0]

/-- The bytes of a text, surrogates included. -/
def encode (t : Text) : List UInt8 := t.flatMap encodeCodePoint

/-- Why bytes are not UTF-8. -/
inductive Reason
  | invalidStart
  | invalidContinuation
  | unexpectedEnd
deriving DecidableEq, Repr

def Reason.message : Reason → Text
  | .invalidStart => "invalid start byte"
  | .invalidContinuation => "invalid continuation byte"
  | .unexpectedEnd => "unexpected end of data"

/-- Bytes that cannot be read, with the position of the first of them. -/
structure DecodingError where
  reason : Reason
  position : Nat
  bytes : List UInt8
deriving DecidableEq

def DecodingError.message (e : DecodingError) : Text :=
  let place : Text :=
    match e.bytes with
    | [b] => "byte 0x" ++ Text.hex 2 b.toNat ++ " in position " ++ Text.ofNat e.position
    | bytes =>
      "bytes in position " ++ Text.ofNat e.position ++ "-"
        ++ Text.ofNat (e.position + bytes.length - 1)
  "'utf-8' codec can't decode " ++ place ++ ": " ++ e.reason.message

/-- What a first byte announces: the number of bytes that follow it, the range
of the second byte, and its own share of the code point. -/
structure Lead where
  following : Nat
  low : UInt8
  high : UInt8
  bits : Nat

/-- The narrowed ranges of the second byte keep out long forms, numbers past the last
code point, and surrogates unless they are let in. -/
def lead? (surrogates : Bool) (b : UInt8) : Option Lead :=
  if b < 0x80 then some ⟨0, 0x80, 0xBF, b.toNat⟩
  else if b < 0xC2 then none
  else if b < 0xE0 then some ⟨1, 0x80, 0xBF, b.toNat - 0xC0⟩
  else if b = 0xE0 then some ⟨2, 0xA0, 0xBF, 0⟩
  else if b = 0xED then some ⟨2, 0x80, if surrogates then 0xBF else 0x9F, 0xD⟩
  else if b < 0xF0 then some ⟨2, 0x80, 0xBF, b.toNat - 0xE0⟩
  else if b = 0xF0 then some ⟨3, 0x90, 0xBF, 0⟩
  else if b < 0xF4 then some ⟨3, 0x80, 0xBF, b.toNat - 0xF0⟩
  else if b = 0xF4 then some ⟨3, 0x80, 0x8F, 4⟩
  else none

/-- Reads the bytes that follow a first byte: the code point and the rest, or
the reason and how many bytes were still good. -/
def continuation : (following : Nat) → (low high : UInt8) → (bits good : Nat) →
    List UInt8 → Except (Reason × Nat) (Nat × List UInt8)
  | 0, _, _, bits, _, rest => .ok (bits, rest)
  | _ + 1, _, _, _, good, [] => .error (.unexpectedEnd, good)
  | n + 1, low, high, bits, good, b :: rest =>
    if low ≤ b ∧ b ≤ high then
      continuation n 0x80 0xBF (bits * 64 + b.toNat % 64) (good + 1) rest
    else .error (.invalidContinuation, good)

/-- Reads one code point off the front of some bytes. -/
def decodeOne (surrogates : Bool) (b : UInt8) (rest : List UInt8) :
    Except (Reason × Nat) (CodePoint × List UInt8) :=
  match lead? surrogates b with
  | none => .error (.invalidStart, 1)
  | some lead =>
    match continuation lead.following lead.low lead.high lead.bits 1 rest with
    | .error e => .error e
    | .ok (n, rest') => .ok (CodePoint.ofNat n, rest')

/-- Reads code points until the bytes end; `fuel` is at least their number. -/
def decodeFrom (surrogates : Bool) :
    (fuel position : Nat) → List UInt8 → (acc : Text) → Except DecodingError Text
  | _, _, [], acc => .ok acc.reverse
  | 0, _, _ :: _, acc => .ok acc.reverse
  | fuel + 1, position, b :: rest, acc =>
    match decodeOne surrogates b rest with
    | .error (reason, n) => .error ⟨reason, position, (b :: rest).take n⟩
    | .ok (c, rest') =>
      decodeFrom surrogates fuel (position + (encodeCodePoint c).length) rest' (c :: acc)

/-- The text that some bytes write. -/
def decode (bytes : List UInt8) : Except DecodingError Text :=
  decodeFrom false bytes.length 0 bytes []

/-- The text that some bytes write, which may hold surrogates. -/
def decodeAll (bytes : List UInt8) : Except DecodingError Text :=
  decodeFrom true bytes.length 0 bytes []

end TopologyAudit.Utf8
