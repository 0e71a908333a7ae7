import TopologyAudit.Numeral.Binary64
import TopologyAudit.Text.Basic

/-!
# Shortest decimal form of a double

Of the decimals with the fewest digits that read back as a double, the one
nearest to it is written, and of two equally near ones the even one. For one digit,
two digits and so on the two neighbours of the double on that decimal grid are
tried, by exact arithmetic, until one of them reads back. Seventeen digits always
suffice.
-/

namespace TopologyAudit.Binary64

/-- How many decimal digits a number has; zero has none. -/
def digitCount (n : Nat) : Nat := if n = 0 then 0 else (Text.ofNat n).length

/-- The power of ten of the first digit of a positive quotient. -/
def leadingExponent (num den : Nat) : Int :=
  if den ≤ num then (digitCount (num / den) : Int) - 1
  else -(digitCount ((den - 1) / num) : Int)

/-- Numerator and denominator of `digits * 10 ^ e`. -/
def decimalRatio (digits : Nat) (e : Int) : Nat × Nat :=
  match e with
  | .ofNat n => (digits * Nat.pow 10 n, 1)
  | .negSucc n => (digits, Nat.pow 10 (n + 1))

/-- Whether a decimal reads back as the given magnitude. -/
def readsBack (magnitude digits : Nat) (e : Int) : Bool :=
  let (num, den) := decimalRatio digits e
  roundMagnitude num den = magnitude

/-- Tries grids of more and more digits, at most `fuel` of them: the digits and
the power of ten of the last one. -/
def shortestFrom (magnitude num den : Nat) (first : Int) : (fuel count : Nat) → Nat × Int
  | 0, count => (0, first - count + 1)
  | fuel + 1, count =>
    let e := first - count + 1
    let (gridNum, gridDen) := decimalRatio den e
    let scaled := num * gridDen
    let low := scaled / gridNum
    let lowHits := readsBack magnitude low e
    let highHits := readsBack magnitude (low + 1) e
    -- of the two neighbours on the grid the nearer one wins, a tie goes to the even one
    let twice := 2 * (scaled % gridNum)
    let lowIsNearer := twice < gridNum || (twice = gridNum && low % 2 = 0)
    if lowHits && (!highHits || lowIsNearer) then (low, e)
    else if highHits then (low + 1, e)
    else shortestFrom magnitude num den first fuel (count + 1)

/-- The shortest decimal of a positive finite double: its digits as a number and
the power of ten of the last one. -/
def shortest (x : Binary64) : Nat × Int :=
  let (num, den) := x.ratio
  shortestFrom x.magnitude num den (leadingExponent num den) 17 1

/-- Decimal exponents from here on are written with an exponent. -/
def exponentFrom : Int := 16

/-- Decimal exponents below this one are written with an exponent. -/
def exponentBelow : Int := -4

/-- Digits with a point, for a first digit at the power `e` of ten: at least one
digit stands on each side of the point. -/
def positional (digits : Text) (e : Int) : Text :=
  let zeros (n : Nat) : Text := List.replicate n '0'
  if e < 0 then "0." ++ zeros (-e - 1).toNat ++ digits
  else
    let whole := e.toNat + 1
    if digits.length ≤ whole then digits ++ zeros (whole - digits.length) ++ ".0"
    else digits.take whole ++ "." ++ digits.drop whole

/-- Digits with an exponent of two digits or more and its sign; the point
appears only before a further digit. -/
def scientific (digits : Text) (e : Int) : Text :=
  let mantissa :=
    match digits with
    | d :: rest@(_ :: _) => d :: ("." ++ rest)
    | short => short
  let mark : Text := if e < 0 then "e-" else "e+"
  let exponent := Text.ofNat e.natAbs
  let zeros : Text := List.replicate (2 - exponent.length) '0'
  mantissa ++ mark ++ zeros ++ exponent

/-- The number without the zeros at its end, and how many there were. -/
def dropZeros : (fuel : Nat) → Nat → Nat × Nat
  | 0, n => (n, 0)
  | fuel + 1, n =>
    if n % 10 = 0 ∧ n ≠ 0 then
      let (m, k) := dropZeros fuel (n / 10)
      (m, k + 1)
    else (n, 0)

/-- The shortest text that reads back as the double. -/
def toText (x : Binary64) : Text :=
  let sign : Text := if x.isNegative && !x.isNaN then "-" else ""
  if x.isNaN then "nan"
  else if x.isInfinite then sign ++ "inf"
  else if x.isZero then sign ++ "0.0"
  else
    let (n, e) := x.shortest
    let (m, k) := dropZeros 17 n
    let digits := Text.ofNat m
    let leading := e + k + digits.length - 1
    sign ++
      (if exponentBelow ≤ leading && leading < exponentFrom then positional digits leading
       else scientific digits leading)

end TopologyAudit.Binary64
