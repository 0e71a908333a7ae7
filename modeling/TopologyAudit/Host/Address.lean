import TopologyAudit.Text.Basic

/-!
# Numeric addresses

The two kinds of addresses that stand in the place of a host name: four numbers between
dots, and eight groups of hexadecimal digits between colons.
-/

namespace TopologyAudit.HostAddress

/-! ## Four numbers -/

/-- The number that decimal digits write. -/
def decimal (digits : Text) : Nat := digits.foldl (fun n c => n * 10 + (c.val - 0x30)) 0

/-- A number up to 255 without zeros in front. -/
def isByte (t : Text) : Bool :=
  !t.isEmpty && t.length ≤ 3 && t.all CodePoint.isDigit
    && (t.length == 1 || t.head? != some (CodePoint.ofChar '0')) && decimal t ≤ 255

/-- Four numbers between dots. -/
def isDotted (t : Text) : Bool :=
  let numbers := Text.splitOn '.' t
  numbers.length == 4 && numbers.all isByte

/-- The stages to which a code point leads on the way through four runs of digits: in an
even stage the first digit of a run is awaited, and an odd one lies within a run. -/
def advance (c : CodePoint) (stage : Nat) : List Nat :=
  if c.isDigit then (if stage % 2 = 0 then [stage + 1] else [stage, stage + 1])
  else (if stage % 2 = 0 then [] else [stage + 1])

/-- Whether a text has the look of four numbers, with any code point between two of them.
A text of at least seven digits has it as well. -/
def looksDotted (t : Text) : Bool :=
  let next (stages : List Nat) (c : CodePoint) : List Nat :=
    ((stages.flatMap (advance c)).filter (· < 8)).eraseDups
  (t.foldl next [0]).contains 7

/-! ## Eight groups -/

/-- One to four hexadecimal digits. -/
def isGroup (t : Text) : Bool := !t.isEmpty && t.length ≤ 4 && t.all CodePoint.isHexDigit

/-- The number of groups on one side of a gap; a side may be empty. -/
def sideLength? (groups : List Text) : Option Nat :=
  if groups = [[]] then some 0
  else if groups.all isGroup then some groups.length
  else none

/-- Puts two groups in the place of four numbers at the end. -/
def inGroups? (parts : List Text) : Option (List Text) :=
  match parts.getLast? with
  | none => none
  | some last =>
    if !last.contains (CodePoint.ofChar '.') then some parts
    else if isDotted last then
      let group : Text := "0"
      some (parts.dropLast ++ [group, group])
    else none

/-- Eight groups; a gap between two colons stands for all that are missing. -/
def areGroups : List Text → Bool
  | [] => false
  | first :: rest =>
    let inner := rest.dropLast
    let before := inner.takeWhile fun group => !group.isEmpty
    if before.length < inner.length then
      match sideLength? (first :: before), sideLength? (rest.drop (before.length + 1)) with
      | some m, some n => m + n < 8
      | _, _ => false
    else rest.length == 7 && (first :: rest).all isGroup

/-- Groups between colons, and behind a percent sign the name of a zone. -/
def isGrouped (t : Text) : Bool :=
  let percent := CodePoint.ofChar '%'
  let address := t.takeWhile fun c => c != percent
  let zoneFits :=
    match t.drop address.length with
    | [] => true
    | _ :: zone => !zone.isEmpty && !zone.contains percent
  zoneFits && (inGroups? (Text.splitOn ':' address)).any areGroups

end TopologyAudit.HostAddress
