/-!
# Binary floating-point numbers

The doubles of IEEE 754 as bit patterns, with exact arithmetic on what they
stand for: a finite pattern is a sign and `significand * 2 ^ exponent`. One
function rounds a quotient of natural numbers to the nearest pattern, ties to
the even one, and conversion, sum and product are built on it.
-/

namespace TopologyAudit

/-- A double by its bits: sign, eleven bits of exponent, fifty-two of fraction. -/
structure Binary64 where
  bits : UInt64
deriving DecidableEq

namespace Binary64

/-- The magnitude bits of infinity; greater ones are no numbers. -/
def infinityBits : Nat := 2047 <<< 52

/-- The double with a sign and magnitude bits. -/
def ofMagnitude (negative : Bool) (magnitude : Nat) : Binary64 :=
  ⟨UInt64.ofNat (magnitude + if negative then 1 <<< 63 else 0)⟩

def zero : Binary64 := ⟨0⟩
def infinity (negative : Bool) : Binary64 := ofMagnitude negative infinityBits
def nan : Binary64 := ofMagnitude false (infinityBits + 1 <<< 51)

instance : Inhabited Binary64 := ⟨zero⟩

/-- The bits other than the sign. -/
def magnitude (x : Binary64) : Nat := x.bits.toNat % (1 <<< 63)

def isNegative (x : Binary64) : Bool := 1 <<< 63 ≤ x.bits.toNat
def isNaN (x : Binary64) : Bool := infinityBits < x.magnitude
def isInfinite (x : Binary64) : Bool := x.magnitude = infinityBits
def isFinite (x : Binary64) : Bool := x.magnitude < infinityBits
def isZero (x : Binary64) : Bool := x.magnitude = 0

/-- The whole number in front of the power of two. -/
def significand (x : Binary64) : Nat :=
  let fraction := x.magnitude % (1 <<< 52)
  if x.magnitude < 1 <<< 52 then fraction else 1 <<< 52 + fraction

/-- The power of two that scales the significand. -/
def exponent (x : Binary64) : Int := (max 1 (x.magnitude >>> 52) : Nat) - 1075

/-- Numerator and denominator of `m * 2 ^ q`. -/
def scale (m : Nat) (q : Int) : Nat × Nat :=
  match q with
  | .ofNat n => (m <<< n, 1)
  | .negSucc n => (m, 1 <<< (n + 1))

/-- The whole number nearest to a quotient, a tie to the even one. -/
def roundQuotient (num den : Nat) : Nat :=
  let q := num / den
  let twice := 2 * (num % den)
  if twice < den then q else if den < twice then q + 1 else q + q % 2

/-- The magnitude bits nearest to a quotient. The exponent is chosen so that the
rounded quotient has fifty-three bits, or less at the bottom of the range; a
carry into the next power of two gives the right bits by itself. -/
def roundMagnitude (num den : Nat) : Nat :=
  if num = 0 then 0
  else
    -- the two logarithms give the exponent or one less
    let estimate : Int := (num.log2 : Int) - den.log2 - 53
    let fits (q : Int) : Bool :=
      let (n, d) := scale den q
      num * d < n <<< 53
    let q : Int := max (-1074) (if fits estimate then estimate else estimate + 1)
    let (n, d) := scale den q
    min infinityBits ((q + 1074).toNat <<< 52 + roundQuotient (num * d) n)

/-- The double nearest to a quotient with a sign. -/
def ofRatio (negative : Bool) (num den : Nat) : Binary64 :=
  ofMagnitude negative (roundMagnitude num den)

/-- The double nearest to an integer. -/
def ofInt (n : Int) : Binary64 := ofRatio (n < 0) n.natAbs 1

/-- A finite double as a whole multiple of `2 ^ q`, for a `q` no greater than
its exponent. -/
def multiple (x : Binary64) (q : Int) : Int :=
  let m : Int := x.significand <<< (x.exponent - q).toNat
  if x.isNegative then -m else m

/-- The rounded sum. A sum of zero is positive unless both terms are negative. -/
def add (x y : Binary64) : Binary64 :=
  if x.isNaN || y.isNaN then nan
  else if x.isInfinite then
    if y.isInfinite && x.isNegative != y.isNegative then nan else x
  else if y.isInfinite then y
  else
    -- both are whole multiples of the smaller power of two: the sum is exact so far
    let q := min x.exponent y.exponent
    let sum := x.multiple q + y.multiple q
    if sum = 0 then ofMagnitude (x.isNegative && y.isNegative) 0
    else
      let (num, den) := scale sum.natAbs q
      ofRatio (sum < 0) num den

/-- The rounded product. -/
def mul (x y : Binary64) : Binary64 :=
  let negative := x.isNegative != y.isNegative
  if x.isNaN || y.isNaN then nan
  else if x.isInfinite || y.isInfinite then
    if x.isZero || y.isZero then nan else infinity negative
  else
    let (num, den) := scale (x.significand * y.significand) (x.exponent + y.exponent)
    ofRatio negative num den

/-- The other sign; a value that is no number stays what it is. -/
def neg (x : Binary64) : Binary64 :=
  if x.isNaN then x else ofMagnitude (!x.isNegative) x.magnitude

/-- Numerator and denominator of the absolute value of a finite double. -/
def ratio (x : Binary64) : Nat × Nat := scale x.significand x.exponent

end Binary64

end TopologyAudit
