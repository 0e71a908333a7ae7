/-!
# Entries in insertion order

An ordered map is a list of key and value pairs with distinct keys. Putting a key
that is present replaces its value and keeps its place; a new key goes to the end.
-/

namespace TopologyAudit.Entries

variable {κ ν : Type} [BEq κ]

/-- Sets the value of a key. -/
def put (entries : List (κ × ν)) (key : κ) (value : ν) : List (κ × ν) :=
  if entries.any (·.1 == key) then
    entries.map fun e => if e.1 == key then (e.1, value) else e
  else entries ++ [(key, value)]

/-- The map that results from putting the pairs in order: each key stands where it
first occurs and has the value it has last. -/
def ofList (pairs : List (κ × ν)) : List (κ × ν) :=
  pairs.foldl (fun entries pair => put entries pair.1 pair.2) []

/-- The members of a list without those that occur earlier in it. -/
def distinct (keys : List κ) : List κ :=
  keys.foldl (fun seen key => if seen.any (· == key) then seen else seen ++ [key]) []

end TopologyAudit.Entries
