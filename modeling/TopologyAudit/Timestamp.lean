/-!
# Timestamps

Days of the calendar and times on them. Timestamps that tell their offset from
universal time are the same when they are the same moment, wherever it was read off.
-/

namespace TopologyAudit

/-- A day, and a time on it when one is given: hour, minute, second, millionths,
and the offset in minutes from universal time if it is known. -/
structure Timestamp where
  year : Nat
  month : Nat
  day : Nat
  time : Option (Nat × Nat × Nat × Nat × Option Int)
deriving DecidableEq

namespace Timestamp

def isLeapYear (year : Nat) : Bool := (year % 4 == 0 && year % 100 != 0) || year % 400 == 0

def daysInMonth (year month : Nat) : Nat :=
  if month = 2 then (if isLeapYear year then 29 else 28)
  else if month = 4 ∨ month = 6 ∨ month = 9 ∨ month = 11 then 30
  else 31

/-- How many days the years before a year have, counted from the year one. -/
def daysBeforeYear (year : Nat) : Nat :=
  let past := year - 1
  past * 365 + past / 4 - past / 100 + past / 400

/-- The number of a day, counted from the first day of the year one. -/
def dayNumber (t : Timestamp) : Nat :=
  daysBeforeYear t.year
    + ((List.range (t.month - 1)).map fun m => daysInMonth t.year (m + 1)).foldr (· + ·) 0 + t.day

/-- The moment of a timestamp that tells its offset, in millionths of a second. -/
def moment? (t : Timestamp) : Option Int :=
  match t.time with
  | some (hour, minute, second, millionths, some offset) =>
    let minutes : Int := (t.dayNumber * 24 + hour) * 60 + minute - offset
    some ((minutes * 60 + second) * 1000000 + millionths)
  | _ => none

/-- Whether two timestamps are the same: moments if both tell their offsets, else part
by part. -/
def sameMoment (s t : Timestamp) : Bool :=
  match s.moment?, t.moment? with
  | some m, some n => m == n
  | none, none => s == t
  | _, _ => false

end Timestamp

end TopologyAudit
