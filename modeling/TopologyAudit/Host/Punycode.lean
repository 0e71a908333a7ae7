import TopologyAudit.Text.Basic

/-!
# Punycode

A form of texts in ASCII letters, digits and hyphens. The ASCII code points come first and
end in a hyphen; then each other code point is a number that tells how far its place and
its value lie from those of the one before it. A number is written from its lowest digit
on, in base 36 with a threshold at each place; a digit below the threshold is the last.
Thresholds follow the size of the numbers through a bias.
-/

namespace TopologyAudit.Punycode

/-- The digit of a value below 36: the letters come before the digits of ASCII. -/
def digit (n : Nat) : CodePoint := CodePoint.ofNat (if n < 26 then 0x61 + n else 0x30 + (n - 26))

def digitValue? (c : CodePoint) : Option Nat :=
  if c.within 0x61 0x7A then some (c.val - 0x61)
  else if c.within 0x41 0x5A then some (c.val - 0x41)
  else if c.isDigit then some (c.val - 0x30 + 26)
  else none

/-- The threshold at a place, from 1 to 26. -/
def threshold (bias place : Nat) : Nat := max 1 (min 26 (36 * (place + 1) - bias))

theorem threshold_pos (bias place : Nat) : 1 ≤ threshold bias place := by
  unfold threshold
  omega

/-- A number below 456 to which a distance is divided down, and 36 for every division. -/
def scaled (distance : Nat) : Nat × Nat :=
  if distance ≤ 455 then (distance, 0)
  else
    let (rest, places) := scaled (distance / 35)
    (rest, places + 36)
termination_by distance
decreasing_by omega

/-- The bias after a distance was written, for a text that now has so many code points. -/
def adapted (distance count : Nat) (isFirst : Bool) : Nat :=
  let damped := if isFirst then distance / 700 else distance / 2
  let (rest, places) := scaled (damped + damped / count)
  places + 36 * rest / (rest + 38)

/-! ## Writing -/

/-- The digits of a number from a place on. -/
def digits (bias place n : Nat) : Text :=
  let t := threshold bias place
  if n < t then [digit n]
  else digit (t + (n - t) % (36 - t)) :: digits bias (place + 1) ((n - t) / (36 - t))
termination_by n
decreasing_by
  have := threshold_pos bias place
  have := Nat.div_le_self (n - threshold bias place) (36 - threshold bias place)
  omega

/-- What is written of a text so far. -/
structure Writing where
  output : Text
  /-- The distance from the last code point that was written. -/
  distance : Nat
  bias : Nat
  /-- How many code points of the text are written. -/
  count : Nat
deriving DecidableEq

/-- Goes over one code point of the text in search of those of a value. -/
def Writing.pass (ascii value : Nat) (w : Writing) (c : CodePoint) : Writing :=
  if c.val < value then { w with distance := w.distance + 1 }
  else if c.val = value then
    -- the distance is written where the code point stands
    ⟨w.output ++ digits w.bias 0 w.distance, 0,
      adapted w.distance (w.count + 1) (w.count == ascii), w.count + 1⟩
  else w

/-- Writes the code points of some values, which ascend from a least one. -/
def Writing.passes (t : Text) (ascii : Nat) : (least : Nat) → List Nat → Writing → Writing
  | _, [], w => w
  | least, value :: values, w =>
    -- every value that is skipped would have gone to each of the places
    let w := { w with distance := w.distance + (value - least) * (w.count + 1) }
    let w := t.foldl (pass ascii value) w
    passes t ascii (value + 1) values { w with distance := w.distance + 1 }

/-- The values of the code points outside ASCII, each once, in ascending order. -/
def values (t : Text) : List Nat :=
  ((t.filter fun c => !c.isAscii).map (·.val)).mergeSort.eraseDups

/-- The written form of a text. -/
def encode (t : Text) : Text :=
  let ascii := t.filter CodePoint.isAscii
  let start := if ascii.isEmpty then [] else ascii ++ [CodePoint.ofChar '-']
  (Writing.passes t ascii.length 0x80 (values t) ⟨start, 0, 72, ascii.length⟩).output

/-! ## Reading -/

/-- What is read of a written form so far. -/
structure Reading where
  text : Text
  /-- The value of the last code point that was put in. -/
  value : Nat
  /-- The place behind that code point. -/
  position : Nat
  bias : Nat
  isFirst : Bool
  /-- The number that is being read, as far as it goes. -/
  number : Nat
  weight : Nat
  place : Nat
deriving DecidableEq

/-- Puts a code point at its distance into the text. -/
def Reading.insert (r : Reading) (distance : Nat) : Option Reading :=
  let count := r.text.length + 1
  let value := r.value + (r.position + distance) / count
  let place := (r.position + distance) % count
  (CodePoint.ofNat? value).map fun c =>
    ⟨r.text.take place ++ c :: r.text.drop place, value, place + 1,
      adapted distance count r.isFirst, false, 0, 1, 0⟩

/-- Reads one digit. -/
def Reading.step (r : Reading) (c : CodePoint) : Option Reading := do
  let d ← digitValue? c
  let t := threshold r.bias r.place
  let number := r.number + d * r.weight
  if d < t then r.insert number
  else some { r with number := number, weight := r.weight * (36 - t), place := r.place + 1 }

/-- The text of a written form; a number without its last digit is refused. -/
def decode? (t : Text) : Option Text :=
  let extended := (t.reverse.takeWhile fun c : CodePoint => !(c == '-')).reverse
  let ascii := t.take (t.length - extended.length - 1)
  match extended.foldlM Reading.step ⟨ascii, 0x80, 0, 72, true, 0, 1, 0⟩ with
  | some r => if r.place = 0 then some r.text else none
  | none => none

end TopologyAudit.Punycode
