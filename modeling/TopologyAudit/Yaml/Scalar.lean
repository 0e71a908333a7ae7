import TopologyAudit.Numeral.Decimal
import TopologyAudit.Text.Case
import TopologyAudit.Tree
import TopologyAudit.Yaml.Graph

/-!
# The values of scalars

What the text of a scalar stands for under each tag: truth values, integers in
several bases, doubles, bytes in base sixty-four, and timestamps.
-/

namespace TopologyAudit.Yaml.Convert

/-- The truth value of a word in any case. -/
def bool (t : Text) : Except Error Scalar :=
  let word := t.lower
  if Form.isOneOf ["yes", "true", "on"] word then .ok (.bool true)
  else if Form.isOneOf ["no", "false", "off"] word then .ok (.bool false)
  else .error (.broken (.unknownBool word))

/-- The text without its underscores. -/
def dropLines (t : Text) : Text := t.filter fun c : CodePoint => !(c == '_')

/-- Takes a sign off a number that has at least a sign or a digit. -/
def takeSign (t : Text) : Except Error (Bool × Text) :=
  if t.isEmpty then .error (.broken .emptyNumber) else .ok t.takeSign

/-- Reads an integer in a base. -/
def readInt (base : Nat) (t : Text) : Except Error Int :=
  (Integer.read base t).mapError fun e => .refused (.integer e)

/-- The integer of the places of a number in base sixty, the first one leading. -/
def sexagesimal (places : List Int) : Int := places.foldl (fun n place => n * 60 + place) 0

/-- An integer without its sign: binary, hexadecimal, octal after a zero, in base
sixty with colons, else decimal. -/
def unsignedInt (t : Text) : Except Error Int :=
  if t = "0" then .ok 0
  else if t.startsWith "0b" then readInt 2 (t.drop 2)
  else if t.startsWith "0x" then readInt 16 (t.drop 2)
  else
    match t with
    | [] => .error (.broken .emptyNumber)
    | c :: _ =>
      if c == '0' then readInt 8 t
      else if t.contains (':' : CodePoint) then do
        return sexagesimal (← (Text.splitOn ':' t).mapM (readInt 10))
      else readInt 10 t

def int (t : Text) : Except Error Scalar := do
  let (negative, unsigned) ← takeSign (dropLines t)
  let n ← unsignedInt unsigned
  return .int (if negative then -n else n)

/-- Reads a double. -/
def readFloat (t : Text) : Except Error Binary64 :=
  match Decimal.read? t with
  | some x => .ok x
  | none => .error (.refused (.float t))

/-- The sum of places in base sixty, the last one first, computed in doubles. The
place value is a whole number that has to be within the range of doubles. -/
def floatPlaces : (placeValue : Nat) → (sum : Binary64) → List Binary64 → Except Error Binary64
  | _, sum, [] => .ok sum
  | placeValue, sum, x :: rest =>
    let scale := Binary64.ofInt placeValue
    if scale.isFinite then floatPlaces (placeValue * 60) (sum.add (x.mul scale)) rest
    else .error (.broken .hugePlaceValue)

/-- A double without its sign. -/
def unsignedFloat (t : Text) : Except Error Binary64 :=
  if t = ".inf" then .ok (Binary64.infinity false)
  else if t = ".nan" then .ok Binary64.nan
  else if t.contains (':' : CodePoint) then do
    let places ← (Text.splitOn ':' t).mapM readFloat
    floatPlaces 1 Binary64.zero places.reverse
  else readFloat t

/-- A double. The word `.nan` is the same key wherever it stands, so its sign does not
count; any other NaN gets the bits of one that is no key's equal. -/
def float (t : Text) : Except Error Scalar := do
  let (negative, unsigned) ← takeSign (dropLines t).lower
  let x ← unsignedFloat unsigned
  if unsigned = ".nan" then return .float x
  else if x.isNaN then return .float Binary64.nan.neg
  else return .float (if negative then x.neg else x)

/-! ## Bytes -/

/-- The value of a digit in base sixty-four. -/
def base64Value? (c : CodePoint) : Option Nat :=
  if c.within 0x41 0x5A then some (c.val - 0x41)
  else if c.within 0x61 0x7A then some (c.val - 0x61 + 26)
  else if c.isDigit then some (c.val - 0x30 + 52)
  else if c == '+' then some 62
  else if c == '/' then some 63
  else none

/-- Reads groups of four digits: how many digits of the group have been read, the
bits that are left of the last one, and how many padding signs followed it. The
padding that completes a group ends the text, and other code points are passed
over. The bytes are gathered last one first; the result tells them and how many
digits of a group are left over. -/
def base64From : Text → (position left pads : Nat) → (acc : List UInt8) → List UInt8 × Nat
  | [], position, _, _, acc => (acc, position)
  | c :: rest, position, left, pads, acc =>
    if c == '=' then
      if position ≥ 2 then
        if position + (pads + 1) ≥ 4 then (acc, 0)
        else base64From rest position left (pads + 1) acc
      else base64From rest position left pads acc
    else
      match base64Value? c with
      | none => base64From rest position left pads acc
      | some d =>
        match position with
        | 0 => base64From rest 1 d 0 acc
        | 1 => base64From rest 2 (d % 16) 0 (UInt8.ofNat (left * 4 + d / 16) :: acc)
        | 2 => base64From rest 3 (d % 4) 0 (UInt8.ofNat (left * 16 + d / 4) :: acc)
        | _ => base64From rest 0 0 0 (UInt8.ofNat (left * 64 + d) :: acc)

def binary (mark : Mark) (t : Text) : Except Error Scalar :=
  match Charset.ascii.refusal? t with
  | some e => .error (.here (.notAscii e) mark)
  | none =>
    match base64From t 0 0 0 [] with
    | (acc, 0) => .ok (.bytes acc.reverse)
    | (acc, 1) => .error (.here (.extraBase64Digit (acc.length / 3 * 4 + 1)) mark)
    | _ => .error (.here .base64Padding mark)

/-! ## Timestamps -/

/-- The number of digits; no digits are zero. -/
def number (t : Text) : Nat := Integer.value 10 t

/-- The fraction of a second in millionths; further digits are dropped. -/
def millionths (digits : Text) : Nat :=
  number ((digits ++ List.replicate 6 (CodePoint.ofChar '0')).take 6)

/-- The offset of a zone in minutes, which is less than a day either way. -/
def zoneOffset : Option (Option (Bool × Text × Text)) → Except Error (Option Int)
  | none => .ok none
  | some none => .ok (some 0)
  | some (some (negative, hours, minutes)) =>
    let span : Int := number hours * 60 + number minutes
    let offset := if negative then -span else span
    if span < 1440 then .ok (some offset) else .error (.refused (.calendar (.offset offset)))

/-- The time of day of a timestamp, given that its date is. -/
def timeOfDay (hour minute second : Nat) : Except CalendarError Unit :=
  if hour > 23 then .error .hour
  else if minute > 59 then .error .minute
  else if second > 59 then .error .second
  else .ok ()

def date (year month day : Nat) : Except CalendarError Unit :=
  if year = 0 then .error (.year year)
  else if month = 0 ∨ month > 12 then .error .month
  else if day = 0 ∨ day > Timestamp.daysInMonth year month then .error .day
  else .ok ()

/-- Reads the parts of a timestamp. The zone is looked at before the calendar. -/
def ofParts (p : TimestampText) : Except Error Timestamp := do
  let refuse (e : CalendarError) : Error := .refused (.calendar e)
  let (year, month, day) := (number p.year, number p.month, number p.day)
  match p.time with
  | none =>
    (date year month day).mapError refuse
    return ⟨year, month, day, none⟩
  | some (h, m, s, fraction) =>
    let offset ← zoneOffset p.zone
    let (hour, minute, second) := (number h, number m, number s)
    (date year month day).mapError refuse
    (timeOfDay hour minute second).mapError refuse
    return ⟨year, month, day, some (hour, minute, second, millionths fraction, offset)⟩

/-- The text without a line feed at its end. -/
def chomp (t : Text) : Text := if t.getLast? == some (CodePoint.ofChar '\n') then t.dropLast else t

def timestamp (t : Text) : Except Error Scalar :=
  match (TimestampText.read? t).or (TimestampText.read? (chomp t)) with
  | none => .error (.broken .noTimestamp)
  | some parts => (ofParts parts).map .timestamp

end TopologyAudit.Yaml.Convert
