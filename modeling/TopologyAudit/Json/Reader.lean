import TopologyAudit.Entries
import TopologyAudit.Json.Basic
import TopologyAudit.Numeral.Decimal

/-!
# Reading JSON

A reader takes a value off the front of a text and returns the rest. The words
`NaN`, `Infinity` and `-Infinity` count as numbers, a string may hold any code
point from `20₁₆` on, and of fields of one name the last value is kept. A failure
keeps the text that was left, which gives its place once the whole text is known.
-/

namespace TopologyAudit.Json

/-- What is wrong at a place of a text that is not JSON. -/
inductive Problem
  | expectingValue
  | expectingName
  | expectingColon
  | expectingComma
  | extraData
  | unterminatedString
  | controlCharacter
  | badEscape
  | badUnicodeEscape
  | byteOrderMark
deriving DecidableEq, Repr

def Problem.message : Problem → Text
  | .expectingValue => "Expecting value"
  | .expectingName => "Expecting property name enclosed in double quotes"
  | .expectingColon => "Expecting ':' delimiter"
  | .expectingComma => "Expecting ',' delimiter"
  | .extraData => "Extra data"
  | .unterminatedString => "Unterminated string starting at"
  | .controlCharacter => "Invalid control character at"
  | .badEscape => "Invalid \\escape"
  | .badUnicodeEscape => "Invalid \\uXXXX escape"
  | .byteOrderMark => "Unexpected UTF-8 BOM (decode using utf-8-sig)"

/-- Why a text is not read. -/
inductive ReadError
  /-- The text goes wrong at an offset on a line and column counted from one. -/
  | malformed (problem : Problem) (line column offset : Nat)
  | integer (e : Integer.ReadError)
  /-- Arrays and objects are nested too deeply. -/
  | tooDeep
deriving DecidableEq

def ReadError.message : ReadError → Text
  | .malformed problem line column offset =>
    problem.message ++ ": line " ++ Text.ofNat line ++ " column " ++ Text.ofNat column
      ++ " (char " ++ Text.ofNat offset ++ ")"
  | .integer e => e.message
  | .tooDeep => "maximum recursion depth exceeded"

/-- A failure inside the text: `rest` is the text from the place of the problem
on. -/
inductive Failure
  | stopped (problem : Problem) (rest : Text)
  | integer (e : Integer.ReadError)
  | tooDeep
deriving DecidableEq

/-- How deep arrays and objects may be nested. -/
def nestingLimit : Nat := 990

def isSpace (c : CodePoint) : Bool := c == ' ' || c == '\t' || c == '\n' || c == '\r'

def skipSpace (t : Text) : Text := t.dropWhile isSpace

/-- The code point that a one-letter escape stands for. -/
def escapeValue? (c : CodePoint) : Option CodePoint :=
  if c == '"' || c == '\\' || c == '/' then some c
  else if c == 'b' then some ⟨0x08, by decide⟩
  else if c == 'f' then some ⟨0x0C, by decide⟩
  else if c == 'n' then some '\n'
  else if c == 'r' then some '\r'
  else if c == 't' then some '\t'
  else none

/-- The number of four hexadecimal digits. -/
def fourHex? (a b c d : CodePoint) : Option Nat := do
  return ((← a.hexValue?) * 16 + (← b.hexValue?)) * 256 + ((← c.hexValue?) * 16 + (← d.hexValue?))

/-- The code point of a surrogate pair. -/
def joinSurrogates (high low : CodePoint) : CodePoint :=
  CodePoint.ofNat (0x10000 + (high.val - 0xD800) * 0x400 + (low.val - 0xDC00))

/-- Reads a string whose opening quote has been taken, up to and with the closing
one; `opened` is the text from the opening quote on, and `acc` holds
what has been read, last code point first. An escape by number needs a further
code point behind its four digits. Two escapes that form a surrogate pair are
one code point. -/
def readString (opened : Text) : Text → (acc : Text) → Except Failure (Text × Text)
  | [], _ => .error (.stopped .unterminatedString opened)
  | c :: rest, acc =>
    if c == '"' then .ok (acc.reverse, rest)
    else if c == '\\' then
      match rest with
      | [] => .error (.stopped .unterminatedString opened)
      | e :: afterLetter =>
        if e == 'u' then
          match afterLetter with
          | h0 :: h1 :: h2 :: h3 :: tail =>
            -- the last four digits of a text are not looked at
            if tail.isEmpty then .error (.stopped .badUnicodeEscape rest)
            else
              match fourHex? h0 h1 h2 h3 with
              | none => .error (.stopped .badUnicodeEscape rest)
              | some n =>
                let first := CodePoint.ofNat n
                match tail with
                | b :: u :: g0 :: g1 :: g2 :: g3 :: x :: after =>
                  if first.isHighSurrogate && b == '\\' && u == 'u' then
                    match fourHex? g0 g1 g2 g3 with
                    | none => .error (.stopped .badUnicodeEscape (tail.drop 1))
                    | some m =>
                      let second := CodePoint.ofNat m
                      -- half a pair stands for itself, and the second escape is read on its own
                      if second.isLowSurrogate then
                        readString opened (x :: after) (joinSurrogates first second :: acc)
                      else
                        readString opened (b :: u :: g0 :: g1 :: g2 :: g3 :: x :: after)
                          (first :: acc)
                  else
                    readString opened (b :: u :: g0 :: g1 :: g2 :: g3 :: x :: after) (first :: acc)
                | shorter => readString opened shorter (first :: acc)
          | _ => .error (.stopped .badUnicodeEscape rest)
        else
          match escapeValue? e with
          | some d => readString opened afterLetter (d :: acc)
          | none => .error (.stopped .badEscape (c :: rest))
    else if c.val < 0x20 then .error (.stopped .controlCharacter (c :: rest))
    else readString opened rest (c :: acc)
  termination_by t => t.length
  decreasing_by
    all_goals simp_wf
    all_goals simp_all
    all_goals omega

/-- Takes a fixed word off the front of a text. -/
def takeWord? (word t : Text) : Option Text :=
  if t.startsWith word then some (t.drop word.length) else none

/-- Digits of a whole number: a zero alone, or digits that do not start with it. -/
def takeWhole? (t : Text) : Option (Text × Text) :=
  match t with
  | [] => none
  | c :: rest =>
    if c == '0' then some ([c], rest)
    else if c.isDigit then
      let digits := rest.takeWhile CodePoint.isDigit
      some (c :: digits, rest.drop digits.length)
    else none

/-- Digits after a point, if a point and a digit follow. -/
def takeFraction (t : Text) : Option (Text × Text) :=
  match t with
  | p :: c :: rest =>
    if p == '.' && c.isDigit then
      let digits := rest.takeWhile CodePoint.isDigit
      some (c :: digits, rest.drop digits.length)
    else none
  | _ => none

/-- The exponent, if an exponent letter and a number follow. -/
def takeExponent (t : Text) : Option (Int × Text) :=
  match t with
  | c :: rest => if Decimal.isExponentLetter c then Decimal.takeExponent rest else none
  | [] => none

/-- Reads a number. One without point and exponent is an integer. -/
def readNumber (t : Text) : Except Failure (Json × Text) :=
  let (negative, unsigned) : Bool × Text :=
    match t with
    | c :: rest => if c == '-' then (true, rest) else (false, t)
    | [] => (false, [])
  match takeWhole? unsigned with
  | none => .error (.stopped .expectingValue t)
  | some (whole, rest) =>
    let fraction? := takeFraction rest
    let (fraction, afterFraction) := fraction?.getD ([], rest)
    let exponent? := takeExponent afterFraction
    let (exponent, after) := exponent?.getD (0, afterFraction)
    -- what has a point or an exponent is a double, even if it is whole
    if fraction?.isNone && exponent?.isNone then
      match Integer.read 10 whole with
      | .error e => .error (.integer e)
      | .ok n => .ok (.int (if negative then -n else n), rest)
    else
      .ok (.float (Decimal.ofParts negative whole fraction exponent).toBinary64, after)

/-- Reads a word or a number. -/
def readAtom (t : Text) : Except Failure (Json × Text) :=
  let words : List (Text × Json) :=
    [("null", .null), ("true", .bool true), ("false", .bool false),
     ("NaN", .float Binary64.nan), ("Infinity", .float (Binary64.infinity false)),
     ("-Infinity", .float (Binary64.infinity true))]
  match words.findSome? fun (word, j) => (takeWord? word t).map fun rest => (j, rest) with
  | some result => .ok result
  | none => readNumber t

mutual

/-- Reads a value; `depth` more levels of nesting are allowed, and `fuel` bounds
the number of steps. -/
def readValue : (fuel depth : Nat) → Text → Except Failure (Json × Text)
  | 0, _, _ => .error .tooDeep
  | _ + 1, _, [] => .error (.stopped .expectingValue [])
  | fuel + 1, depth, c :: rest =>
    if c == '"' then
      match readString (c :: rest) rest [] with
      | .ok (t, after) => .ok (.text t, after)
      | .error e => .error e
    else if c == '\x7b' then
      match depth with
      | 0 => .error .tooDeep
      | depth + 1 =>
        match skipSpace rest with
        | [] => .error (.stopped .expectingName [])
        | d :: after =>
          if d == '\x7d' then .ok (.object [], after)
          else readFields fuel depth (d :: after) []
    else if c == '[' then
      match depth with
      | 0 => .error .tooDeep
      | depth + 1 =>
        match skipSpace rest with
        | [] => .error (.stopped .expectingValue [])
        | d :: after =>
          if d == ']' then .ok (.array [], after)
          else readItems fuel depth (d :: after) []
    else readAtom (c :: rest)

/-- Reads the items of an array up to its closing bracket; `acc` holds those read
so far, last one first. -/
def readItems : (fuel depth : Nat) → Text → (acc : List Json) → Except Failure (Json × Text)
  | 0, _, _, _ => .error .tooDeep
  | fuel + 1, depth, t, acc =>
    match readValue fuel depth t with
    | .error e => .error e
    | .ok (item, after) =>
      match skipSpace after with
      | [] => .error (.stopped .expectingComma [])
      | c :: rest =>
        if c == ']' then .ok (.array (item :: acc).reverse, rest)
        else if c == ',' then readItems fuel depth (skipSpace rest) (item :: acc)
        else .error (.stopped .expectingComma (c :: rest))

/-- Reads the fields of an object up to its closing brace. -/
def readFields : (fuel depth : Nat) → Text → (acc : List (Text × Json)) →
    Except Failure (Json × Text)
  | 0, _, _, _ => .error .tooDeep
  | _ + 1, _, [], _ => .error (.stopped .expectingName [])
  | fuel + 1, depth, q :: t, acc =>
    if q == '"' then
      match readString (q :: t) t [] with
      | .error e => .error e
      | .ok (name, afterName) =>
        match skipSpace afterName with
        | [] => .error (.stopped .expectingColon [])
        | c :: rest =>
          if c == ':' then
            match readValue fuel depth (skipSpace rest) with
            | .error e => .error e
            | .ok (value, after) =>
              match skipSpace after with
              | [] => .error (.stopped .expectingComma [])
              | d :: rest' =>
                if d == '\x7d' then
                  .ok (.object (Entries.ofList ((name, value) :: acc).reverse), rest')
                else if d == ',' then
                  readFields fuel depth (skipSpace rest') ((name, value) :: acc)
                else .error (.stopped .expectingComma (d :: rest'))
          else .error (.stopped .expectingColon (c :: rest))
    else .error (.stopped .expectingName (q :: t))

end

/-- The line and the column, both from one, of the place behind a text. -/
def place (before : Text) : Nat × Nat :=
  let lastLine := before.reverse.takeWhile fun c : CodePoint => !(c == '\n')
  ((before.filter fun c : CodePoint => c == '\n').length + 1, lastLine.length + 1)

/-- The failure as it is reported of a whole text. -/
def Failure.inText (t : Text) : Failure → ReadError
  | .stopped problem rest =>
    let offset := t.length - rest.length
    let (line, column) := place (t.take offset)
    .malformed problem line column offset
  | .integer e => .integer e
  | .tooDeep => .tooDeep

/-- Reads a text that holds one value and white space around it. A bracket takes two
steps, one for the array and one for its first item. -/
def readWhole (t : Text) : Except Failure Json :=
  match readValue (2 * t.length + 2) nestingLimit (skipSpace t) with
  | .error e => .error e
  | .ok (value, rest) =>
    match skipSpace rest with
    | [] => .ok value
    | after@(_ :: _) => .error (.stopped .extraData after)

/-- The byte order mark. -/
def isByteOrderMark (c : CodePoint) : Bool := c.val = 0xFEFF

/-- The value that a text writes. A byte order mark in front is refused. -/
def read (t : Text) : Except ReadError Json :=
  if t.head?.any isByteOrderMark then .error (.malformed .byteOrderMark 1 1 0)
  else (readWhole t).mapError (·.inText t)

end TopologyAudit.Json
