import TopologyAudit.Numeral.Ascii
import TopologyAudit.Text.Quoted

/-!
# Integer numerals

`Integer.read` reads an integer in a base from two to sixteen: padding, one sign,
the marker of the base (`0b`, `0o`, `0x`) if the base has one, and digits with
single underscores between them. In base ten at most 4300 digits are read, so
that the time to convert them stays bounded.
-/

namespace TopologyAudit.Integer

/-- The most digits that a decimal numeral may have, read or written. -/
def digitLimit : Nat := 4300

/-- Why a text is not an integer in a base. -/
inductive ReadError
  | malformed (base : Nat) (numeral : Text)
  | tooLong (digits : Nat)
deriving DecidableEq

/-- How many code points of a malformed numeral are shown, quotes included. -/
def shownLength : Nat := 200

/-- The start of the complaint about a numeral with too many digits. -/
def limitMessage : Text :=
  "Exceeds the limit (" ++ Text.ofNat digitLimit ++ " digits) for integer string conversion"

/-- The advice at the end of that complaint. -/
def limitAdvice : Text := "; use sys.set_int_max_str_digits() to increase the limit"

def ReadError.message : ReadError → Text
  | .malformed base numeral =>
    "invalid literal for int() with base " ++ Text.ofNat base ++ ": "
      ++ numeral.quoted.take shownLength
  | .tooLong digits =>
    limitMessage ++ ": value has " ++ Text.ofNat digits ++ " digits" ++ limitAdvice

/-- The value of a digit in a base. -/
def digitValue? (base : Nat) (c : CodePoint) : Option Nat :=
  c.hexValue?.filter (· < base)

/-- The letter of the marker of a base, in lower case. -/
def marker? (base : Nat) : Option CodePoint :=
  if base = 2 then some 'b' else if base = 8 then some 'o' else if base = 16 then some 'x' else none

/-- Drops the marker of a base and one underscore after it. -/
def dropMarker (base : Nat) (t : Text) : Text :=
  match marker? base, t with
  | some m, z :: c :: rest =>
    if z == '0' && (c = m || c.val + 0x20 = m.val) then
      match rest with
      | u :: rest' => if u == '_' then rest' else rest
      | [] => []
    else t
  | _, _ => t

/-- Whether every underscore stands between two digits, given that the text
consists of digits and underscores. -/
def underscoresSingle : Text → Bool
  | [] => true
  | [c] => !(c == '_')
  | c :: d :: rest => !(c == '_' && d == '_') && underscoresSingle (d :: rest)

/-- The number that digits in a base write; underscores are passed over. -/
def value (base : Nat) (digits : Text) : Nat :=
  digits.foldl (fun n c =>
    match digitValue? base c with
    | some d => n * base + d
    | none => n) 0

/-- Reads an integer in a base. -/
def read (base : Nat) (t : Text) : Except ReadError Int :=
  let malformed := ReadError.malformed base t
  let (negative, signless) := t.numeralStart.takeSign
  let body := dropMarker base signless
  let digits := body.takeWhile fun c : CodePoint => (digitValue? base c).isSome || c == '_'
  let count := (digits.filter fun c : CodePoint => !(c == '_')).length
  let rest := body.drop digits.length
  if digits.head? = some (CodePoint.ofChar '_') || !underscoresSingle digits then .error malformed
  else if base = 10 && count > digitLimit then .error (.tooLong count)
  else if digits = [] || !rest.all CodePoint.isPadding then .error malformed
  else
    let n : Int := value base digits
    .ok (if negative then -n else n)

end TopologyAudit.Integer
