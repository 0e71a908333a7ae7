import TopologyAudit.Entries
import TopologyAudit.Json.Basic
import TopologyAudit.Timestamp

/-!
# Loaded trees

What a config text loads to, whichever format it is written in: scalars, lists,
sets and mappings. Keys of mappings and members of sets are scalars of any kind;
JSON has only texts for keys. A set lists its members in the order in which the process
that loads the text goes through them.
-/

namespace TopologyAudit

/-- A value without parts. -/
inductive Scalar
  | null
  | bool (value : Bool)
  | int (value : Int)
  | float (value : Binary64)
  | text (value : Text)
  | bytes (value : List UInt8)
  | timestamp (value : Timestamp)
deriving DecidableEq

/-- A loaded value. A pair is an item of an ordered map. -/
inductive Tree
  | scalar (value : Scalar)
  | list (items : List Tree)
  | set (members : List Scalar)
  | pair (first second : Tree)
  | mapping (entries : List (Scalar × Tree))

/-- The order in which a process goes through the members of a set. A text does not lay it down:
two processes may go through sets of the same members in different orders. -/
structure SetOrder where
  /-- The members in order, given as they are written. -/
  arrange : List Scalar → List Scalar
  perm : ∀ members, (arrange members).Perm members

namespace SetOrder

def asWritten : SetOrder := ⟨id, fun _ => .refl _⟩

def backwards : SetOrder := ⟨List.reverse, List.reverse_perm⟩

end SetOrder

namespace Scalar

instance : Inhabited Scalar := ⟨null⟩

/-- The number that a scalar counts as when keys are compared: a truth value
counts as zero or one. -/
def number? : Scalar → Option (Int ⊕ Binary64)
  | bool b => some (.inl (if b then 1 else 0))
  | int n => some (.inl n)
  | float x => some (.inr x)
  | _ => none

/-- Whether a double stands for an integer exactly. -/
def floatIs (x : Binary64) (n : Int) : Bool :=
  x.isFinite &&
    let (num, den) := x.ratio
    (num : Int) * (if x.isNegative then -1 else 1) == n * den

/-- Whether two doubles are the same key. The NaN that has a word of its own is the same
as itself; any other one is the same as none. -/
def sameFloat (x y : Binary64) : Bool :=
  (x == y && (!x.isNaN || x == Binary64.nan)) || (x.isZero && y.isZero)

/-- Whether two scalars are the same key. Numbers are compared by value, whatever
their kind, and timestamps as moments. -/
def sameKey (a b : Scalar) : Bool :=
  match a.number?, b.number? with
  | some (.inl m), some (.inl n) => m == n
  | some (.inl m), some (.inr y) => floatIs y m
  | some (.inr x), some (.inl n) => floatIs x n
  | some (.inr x), some (.inr y) => sameFloat x y
  | none, none =>
    match a, b with
    | timestamp s, timestamp t => s.sameMoment t
    | _, _ => a == b
  | _, _ => false

/-- Sets the value of a key in a mapping. -/
def putKey {ν : Type} (entries : List (Scalar × ν)) (key : Scalar) (value : ν) :
    List (Scalar × ν) :=
  @Entries.put Scalar ν ⟨sameKey⟩ entries key value

end Scalar

namespace Tree

instance : Inhabited Tree := ⟨scalar .null⟩

/-- The value under a key of text. -/
def valueOf? (entries : List (Scalar × Tree)) (name : Text) : Option Tree :=
  entries.lookup (.text name)

mutual

/-- The tree that a JSON value loads to. -/
def ofJson : Json → Tree
  | .null => scalar .null
  | .bool b => scalar (.bool b)
  | .int n => scalar (.int n)
  | .float x => scalar (.float x)
  | .text t => scalar (.text t)
  | .array items => list (ofItems items)
  | .object fields => mapping (ofFields fields)

def ofItems : List Json → List Tree
  | [] => []
  | item :: rest => ofJson item :: ofItems rest

def ofFields : List (Text × Json) → List (Scalar × Tree)
  | [] => []
  | (name, value) :: rest => (.text name, ofJson value) :: ofFields rest

end

end Tree

end TopologyAudit
