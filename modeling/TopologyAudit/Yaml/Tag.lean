import TopologyAudit.Text.Basic

/-!
# Tags

The tags of YAML 1.1 and the forms of plain scalars that get one by their content.
A form is matched as a whole; a line feed behind it does no harm.
-/

namespace TopologyAudit.Yaml

namespace Tag

/-- A tag of the standard repertoire. -/
def standard (name : String) : Text := "tag:yaml.org,2002:" ++ Text.ofString name

def null : Text := standard "null"
def bool : Text := standard "bool"
def int : Text := standard "int"
def float : Text := standard "float"
def binary : Text := standard "binary"
def timestamp : Text := standard "timestamp"
def omap : Text := standard "omap"
def pairs : Text := standard "pairs"
def set : Text := standard "set"
def str : Text := standard "str"
def seq : Text := standard "seq"
def map : Text := standard "map"
def merge : Text := standard "merge"
def value : Text := standard "value"
def yaml : Text := standard "yaml"

end Tag

namespace Form

/-- Takes a sign, if there is one. -/
def dropSign (t : Text) : Text :=
  match t with
  | c :: rest => if c == '-' || c == '+' then rest else t
  | [] => []

/-- A digit or an underscore. -/
def isDigitOrLine (c : CodePoint) : Bool := c.isDigit || c == '_'

/-- A digit and then digits and underscores. -/
def isNumber : Text → Bool
  | [] => false
  | c :: rest => c.isDigit && rest.all isDigitOrLine

/-- A number that does not begin with a zero. -/
def isPositive : Text → Bool
  | [] => false
  | c :: rest => c.within 0x31 0x39 && rest.all isDigitOrLine

/-- A place of a number in base sixty: one digit, or two of which the first is at
most five. -/
def isSixtieth : Text → Bool
  | [c] => c.isDigit
  | [c, d] => c.within 0x30 0x35 && d.isDigit
  | _ => false

/-- A leading number and at least one further place in base sixty. -/
def isSexagesimal (isLeading : Text → Bool) (t : Text) : Bool :=
  match Text.splitOn ':' t with
  | leading :: places => isLeading leading && !places.isEmpty && places.all isSixtieth
  | [] => false

/-- Nothing, or an exponent with a sign. -/
def isExponent (t : Text) : Bool :=
  match t with
  | [] => true
  | e :: sign :: digits =>
    (e == 'e' || e == 'E') && (sign == '-' || sign == '+') && !digits.isEmpty
      && digits.all CodePoint.isDigit
  | _ => false

/-- Digits and underscores and then an exponent or nothing. -/
def isFraction (t : Text) : Bool := isExponent (t.dropWhile isDigitOrLine)

/-- What stands before the first point and what stands behind it. -/
def splitPoint (t : Text) : Option (Text × Text) :=
  let whole := t.takeWhile fun c : CodePoint => !(c == '.')
  match t.drop whole.length with
  | [] => none
  | _ :: fraction => some (whole, fraction)

/-- One of some words. -/
def isOneOf (words : List String) (t : Text) : Bool := words.any fun w => Text.ofString w == t

def isBool (t : Text) : Bool :=
  isOneOf ["yes", "Yes", "YES", "no", "No", "NO", "true", "True", "TRUE", "false", "False", "FALSE",
    "on", "On", "ON", "off", "Off", "OFF"] t

def isNull (t : Text) : Bool := isOneOf ["~", "null", "Null", "NULL", ""] t

def isFloat (t : Text) : Bool :=
  let unsigned := dropSign t
  isOneOf [".nan", ".NaN", ".NAN"] t || isOneOf [".inf", ".Inf", ".INF"] unsigned
    || (match splitPoint unsigned with
        | none => false
        | some (whole, fraction) =>
          (isNumber whole && isFraction fraction)
            || (isSexagesimal isNumber whole && fraction.all isDigitOrLine))
    || (match t with
        | c :: d :: rest => c == '.' && d.isDigit && isFraction rest
        | _ => false)

/-- A prefixed numeral: the prefix, and at least one of some code points. -/
def isPrefixed (start : Text) (isPart : CodePoint → Bool) (t : Text) : Bool :=
  let rest := t.drop start.length
  t.startsWith start && !rest.isEmpty && rest.all isPart

def isInt (t : Text) : Bool :=
  let unsigned := dropSign t
  isPrefixed "0b" (Text.has "01_") unsigned
    || isPrefixed "0" (Text.has "01234567_") unsigned
    || unsigned == Text.ofString "0" || isPositive unsigned
    || isPrefixed "0x" (fun c => c.isHexDigit || c == '_') unsigned
    || isSexagesimal isPositive unsigned

/-- So many digits, at least and at most. -/
def isDigits (least most : Nat) (t : Text) : Bool :=
  least ≤ t.length && t.length ≤ most && t.all CodePoint.isDigit

end Form

/-- The parts of a timestamp as they are written. -/
structure TimestampText where
  year : Text
  month : Text
  day : Text
  /-- Hour, minute, second, digits of the fraction. -/
  time : Option (Text × Text × Text × Text)
  /-- Universal time, or an offset: its sign, hours, and minutes if given. -/
  zone : Option (Option (Bool × Text × Text))
deriving DecidableEq

namespace TimestampText

def blank (c : CodePoint) : Bool := c == ' ' || c == '\t'

/-- Reads the zone at the end of a timestamp. -/
def readZone? (t : Text) : Option (Option (Option (Bool × Text × Text))) :=
  if t.isEmpty then some none
  else
    match t.dropWhile blank with
    | c :: rest =>
      if c == 'Z' then (if rest.isEmpty then some (some none) else none)
      else if c == '+' || c == '-' then
        match Text.splitOn ':' rest with
        | [hours] =>
          if Form.isDigits 1 2 hours then some (some (some (c == '-', hours, []))) else none
        | [hours, minutes] =>
          if Form.isDigits 1 2 hours && Form.isDigits 2 2 minutes then
            some (some (some (c == '-', hours, minutes)))
          else none
        | _ => none
      else none
    | [] => none

/-- Reads what follows the seconds: a fraction and a zone. -/
def readTail? (t : Text) : Option (Text × Option (Option (Bool × Text × Text))) :=
  match t with
  | c :: rest =>
    if c == '.' then
      let digits := rest.takeWhile CodePoint.isDigit
      (readZone? (rest.drop digits.length)).map fun zone => (digits, zone)
    else (readZone? t).map fun zone => ([], zone)
  | [] => some ([], none)

/-- Takes a day off the front: year, month, day and the rest. -/
def takeDay? (t : Text) : Option ((Text × Text × Text) × Text) :=
  let year := t.takeWhile CodePoint.isDigit
  match t.drop year.length with
  | d0 :: rest0 =>
    let month := rest0.takeWhile CodePoint.isDigit
    match rest0.drop month.length with
    | d1 :: rest1 =>
      let day := rest1.takeWhile CodePoint.isDigit
      if d0 == '-' && d1 == '-' && Form.isDigits 4 4 year && Form.isDigits 1 2 month
          && Form.isDigits 1 2 day then
        some ((year, month, day), rest1.drop day.length)
      else none
    | [] => none
  | [] => none

/-- Takes the separator of a time: a letter or blanks. -/
def takeSeparator? (t : Text) : Option Text :=
  match t with
  | c :: rest =>
    if c == 'T' || c == 't' then some rest
    else if blank c then some (rest.dropWhile blank)
    else none
  | [] => none

/-- Takes hour, minute and second off the front. -/
def takeTime? (t : Text) : Option ((Text × Text × Text) × Text) :=
  let hour := t.takeWhile CodePoint.isDigit
  match t.drop hour.length with
  | c0 :: m0 :: m1 :: c1 :: s0 :: s1 :: rest =>
    if c0 == ':' && c1 == ':' && Form.isDigits 1 2 hour && Form.isDigits 2 2 [m0, m1]
        && Form.isDigits 2 2 [s0, s1] then
      some ((hour, [m0, m1], [s0, s1]), rest)
    else none
  | _ => none

/-- Reads a whole text: a day, or a day and a time. -/
def read? (t : Text) : Option TimestampText := do
  let ((year, month, day), rest) ← takeDay? t
  if rest.isEmpty then return ⟨year, month, day, none, none⟩
  let ((hour, minute, second), rest) ← takeTime? (← takeSeparator? rest)
  let (fraction, zone) ← readTail? rest
  return ⟨year, month, day, some (hour, minute, second, fraction), zone⟩

end TimestampText

namespace Form

/-- Whether a plain scalar is a timestamp: with a time, or a day with two digits
for month and day. -/
def isTimestamp (t : Text) : Bool :=
  match TimestampText.read? t with
  | none => false
  | some parts => parts.time.isSome || (parts.month.length = 2 && parts.day.length = 2)

/-- A text that has a form, or has it up to a line feed at the end. -/
def matchesLine (form : Text → Bool) (t : Text) : Bool :=
  form t || (t.getLast? == some (CodePoint.ofChar '\n') && form t.dropLast)

end Form

/-- The tag of a scalar by its content. The forms are tried in order, each only for scalars
that begin as its members do. -/
def Tag.ofContent (t : Text) : Text :=
  let starts (chars : String) : Bool := t.head?.any (Text.has chars)
  let forms : List (Bool × (Text → Bool) × Text) :=
    [(starts "yYnNtTfFoO", Form.isBool, Tag.bool),
     (starts "-+0123456789.", Form.isFloat, Tag.float),
     (starts "-+0123456789", Form.isInt, Tag.int),
     (starts "<", (· == Text.ofString "<<"), Tag.merge),
     (starts "~nN" || t.isEmpty, Form.isNull, Tag.null),
     (starts "0123456789", Form.isTimestamp, Tag.timestamp),
     (starts "=", (· == Text.ofString "="), Tag.value),
     -- no plain scalar begins so, but a quoted one with the tag `!` can
     (starts "!&*", Form.isOneOf ["!", "&", "*"], Tag.yaml)]
  match forms.find? fun (begins, form, _) => begins && Form.matchesLine form t with
  | some (_, _, tag) => tag
  | none => Tag.str

end TopologyAudit.Yaml
