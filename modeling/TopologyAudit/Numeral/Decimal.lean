import TopologyAudit.Numeral.Ascii
import TopologyAudit.Numeral.Integer
import TopologyAudit.Numeral.Shortest

/-!
# Decimal numerals

A decimal is a sign, a whole number and a power of ten; it rounds to the nearest
double. `Decimal.read` reads the forms that stand for a double in free text:
padding, a sign, digits with a point and an exponent, or a name for infinity or
for the value that is no number.
-/

namespace TopologyAudit

/-- `digits * 10 ^ exponent` with a sign. -/
structure Decimal where
  negative : Bool
  digits : Nat
  exponent : Int
deriving DecidableEq

namespace Decimal

/-- Powers of ten past this one are out of the range of doubles on either side. -/
def farExponent : Int := 400

/-- The double nearest to a decimal; one past the greatest double is infinite. -/
def toBinary64 (d : Decimal) : Binary64 :=
  if d.digits = 0 then Binary64.ofMagnitude d.negative 0
  else
    let top := Binary64.digitCount d.digits + d.exponent
    if top > farExponent then Binary64.infinity d.negative
    else if top < -farExponent then Binary64.ofMagnitude d.negative 0
    else
      let (num, den) := Binary64.decimalRatio d.digits d.exponent
      Binary64.ofRatio d.negative num den

/-- The decimal of digits before the point, digits after it, and an exponent. -/
def ofParts (negative : Bool) (whole fraction : Text) (exponent : Int) : Decimal :=
  ⟨negative, Integer.value 10 (whole ++ fraction), exponent - fraction.length⟩

/-- The number after an exponent letter, if a number follows. -/
def takeExponent (t : Text) : Option (Int × Text) :=
  let (negative, rest) := t.takeSign
  match rest.takeWhile CodePoint.isDigit with
  | [] => none
  | digits =>
    let n : Int := Integer.value 10 digits
    some (if negative then -n else n, rest.drop digits.length)

/-- Whether the code point announces an exponent. -/
def isExponentLetter (c : CodePoint) : Bool := c == 'e' || c == 'E'

/-- Digits with an optional point and an optional exponent, and the rest. -/
def takeUnsigned (negative : Bool) (t : Text) : Option (Decimal × Text) :=
  let whole := t.takeWhile CodePoint.isDigit
  let afterWhole := t.drop whole.length
  let (fraction, rest) :=
    match afterWhole with
    | c :: tail =>
      if c == '.' then
        let digits := tail.takeWhile CodePoint.isDigit
        (digits, tail.drop digits.length)
      else ([], afterWhole)
    | [] => ([], [])
  if whole = [] ∧ fraction = [] then none
  else
    let plain := (ofParts negative whole fraction 0, rest)
    match rest with
    | [] => some plain
    | c :: tail =>
      if isExponentLetter c then
        match takeExponent tail with
        | some (e, rest') => some (ofParts negative whole fraction e, rest')
        | none => some plain
      else some plain

/-- An ASCII letter in lower case. -/
def lowerLetter (c : CodePoint) : CodePoint :=
  if c.within 0x41 0x5A then CodePoint.ofNat (c.val + 0x20) else c

/-- Reads a double; no value for a text that is none of its forms. -/
def read? (t : Text) : Option Binary64 :=
  let body : Text := (t.numeralStart.reverse.dropWhile CodePoint.isPadding).reverse
  let (negative, unsigned) := body.takeSign
  let word := unsigned.map lowerLetter
  if word = "inf" ∨ word = "infinity" then some (Binary64.infinity negative)
  else if word = "nan" then some Binary64.nan
  else
    match takeUnsigned negative unsigned with
    | some (d, []) => some d.toBinary64
    | _ => none

end Decimal

end TopologyAudit
