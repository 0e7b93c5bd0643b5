/-!
# Entries

Key and value pairs in the order of insertion, each key once. Setting a key that is present keeps
its place.
-/

namespace LayeredConfig

abbrev Entries (α : Type) := List (String × α)

namespace Entries

variable {α β : Type}

def get? (key : String) (entries : Entries α) : Option α := entries.lookup key

def has (key : String) (entries : Entries α) : Bool := (entries.get? key).isSome

/-- Exchanges the value of a present key, or appends the pair. -/
def set (key : String) (value : α) : Entries α → Entries α
  | [] => [(key, value)]
  | (k, v) :: rest => if k = key then (k, value) :: rest else (k, v) :: set key value rest

/-- Pairs with repeated keys: the first place and the last value of each key stay. -/
def ofPairs (pairs : List (String × α)) : Entries α :=
  pairs.foldl (fun entries pair => entries.set pair.1 pair.2) []

def keys (entries : Entries α) : List String := entries.map (·.1)

/-- The value of a present key exchanged for `f` of it, or `value` appended. -/
def alter (key : String) (value : α) (f : α → α) : Entries α → Entries α
  | [] => [(key, value)]
  | (k, v) :: rest => if k = key then (k, f v) :: rest else (k, v) :: alter key value f rest

end Entries

end LayeredConfig
