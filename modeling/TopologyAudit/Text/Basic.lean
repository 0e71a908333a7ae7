/-!
# Text

A text is a list of Unicode code points, surrogates included. Configs reach the
auditor through escapes that may name half of a surrogate pair, so the scalar
values of `Char` are too few: the two halves `D83D DE00` held side by side are a
different text from the one code point `1F600`.
-/

namespace TopologyAudit

/-- A Unicode code point: any number below `110000₁₆`. -/
structure CodePoint where
  val : Nat
  val_lt : val < 0x110000
deriving DecidableEq

namespace CodePoint

instance : Inhabited CodePoint := ⟨⟨0, by decide⟩⟩

theorem ext_val {a b : CodePoint} (h : a.val = b.val) : a = b := by
  cases a; cases b; simp only at h; subst h; rfl

/-- The code point of a scalar value. -/
def ofChar (c : Char) : CodePoint :=
  ⟨c.val.toNat, by
    have h := c.valid
    simp only [UInt32.isValidChar, Nat.isValidChar] at h
    omega⟩

instance : Coe Char CodePoint := ⟨ofChar⟩

/-- The code point with a given number, when there is one. -/
def ofNat? (n : Nat) : Option CodePoint :=
  if h : n < 0x110000 then some ⟨n, h⟩ else none

/-- Replaces a number that is too large by zero. -/
def ofNat (n : Nat) : CodePoint := (ofNat? n).getD default

/-- Whether the number lies between two others, ends included. -/
def within (c : CodePoint) (low high : Nat) : Bool := low ≤ c.val && c.val ≤ high

/-- The first half of a surrogate pair. -/
def isHighSurrogate (c : CodePoint) : Bool := c.within 0xD800 0xDBFF

/-- The second half of a surrogate pair. -/
def isLowSurrogate (c : CodePoint) : Bool := c.within 0xDC00 0xDFFF

/-- Either half of a surrogate pair; such a code point has no UTF-8 form. -/
def isSurrogate (c : CodePoint) : Bool := c.within 0xD800 0xDFFF

def isAscii (c : CodePoint) : Bool := c.val < 0x80

/-- One of the ASCII digits. -/
def isDigit (c : CodePoint) : Bool := c.within 0x30 0x39

/-- An ASCII letter of either case. -/
def isLetter (c : CodePoint) : Bool := c.within 0x41 0x5A || c.within 0x61 0x7A

/-- The value of a hexadecimal digit of either case. -/
def hexValue? (c : CodePoint) : Option Nat :=
  if c.isDigit then some (c.val - 0x30)
  else if c.within 0x41 0x46 then some (c.val - 0x41 + 10)
  else if c.within 0x61 0x66 then some (c.val - 0x61 + 10)
  else none

def isHexDigit (c : CodePoint) : Bool := c.hexValue?.isSome

end CodePoint

/-- Text as the list of its code points. -/
abbrev Text := List CodePoint

namespace Text

def ofString (s : String) : Text := s.toList.map CodePoint.ofChar

instance : Coe String Text := ⟨ofString⟩

/-- The string of a text. It has no characters for surrogates and shows zeros in
their place. -/
def toString (t : Text) : String := String.ofList (t.map fun c => Char.ofNat c.val)

/-- Whether the code point occurs in the given characters. -/
def has (chars : String) (c : CodePoint) : Bool := (ofString chars).contains c

/-- The texts one after another with a separator between neighbours. -/
def join (separator : Text) (parts : List Text) : Text :=
  (parts.intersperse separator).flatten

/-- The pieces between the occurrences of a separator, at least one. -/
def splitOn (separator : CodePoint) : Text → List Text
  | [] => [[]]
  | c :: rest =>
    match splitOn separator rest with
    | [] => [[]]
    | piece :: pieces => if c = separator then [] :: piece :: pieces else (c :: piece) :: pieces

/-- Whether the text begins with another one. -/
def startsWith (t start : Text) : Bool := start.isPrefixOf t

/-- The digit of a value below sixteen, in lower case. -/
def digit (n : Nat) : CodePoint := CodePoint.ofChar (Nat.digitChar n)

/-- Digits in front of an accumulator, least significant first; `fuel` bounds
how many are written. -/
def digitsAux (base : Nat) : (fuel : Nat) → Nat → Text → Text
  | 0, _, acc => acc
  | fuel + 1, n, acc =>
    if n < base then digit n :: acc
    else digitsAux base fuel (n / base) (digit (n % base) :: acc)

/-- The numeral of a natural number in a base from two to sixteen. -/
def numeral (base n : Nat) : Text := digitsAux base (n.log2 + 1) n []

/-- The decimal numeral of a natural number. -/
def ofNat (n : Nat) : Text := numeral 10 n

/-- The decimal numeral of an integer, with a minus sign when it is negative. -/
def ofInt (n : Int) : Text :=
  match n with
  | .ofNat n => ofNat n
  | .negSucc n => CodePoint.ofChar '-' :: ofNat (n + 1)

/-- The hexadecimal numeral, padded with zeros to a width. -/
def hex (width n : Nat) : Text :=
  let digits := numeral 16 n
  List.replicate (width - digits.length) (CodePoint.ofChar '0') ++ digits

end Text

end TopologyAudit
