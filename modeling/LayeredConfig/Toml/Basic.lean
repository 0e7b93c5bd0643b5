import LayeredConfig.Entries
import LayeredConfig.Value.Basic

/-!
# TOML values

A TOML document is a table. Numbers with a fraction or an exponent keep their digits, and points in
time keep their written form.
-/

namespace LayeredConfig

inductive Toml
  | string (value : String)
  | bool (value : Bool)
  | int (value : Int)
  | fraction (value : Decimal)
  | moment (kind : MomentKind) (written : String)
  | array (items : List Toml)
  | table (entries : List (String × Toml))
  deriving Repr, Inhabited

namespace Toml

inductive ReadFault
  /-- The text is not TOML. -/
  | malformed
  /-- A number is too large for exact arithmetic. -/
  | unrepresentable
  deriving DecidableEq, Repr

mutual

/-- The data of a document. -/
def toValue : Toml → Value
  | string value => .text value
  | bool value => .bool value
  | int value => .int value
  | fraction value => .decimal value
  | moment kind written => .moment kind written
  | array items => .list (itemsToValues items)
  | table entries => .dict (entriesToValues entries)

def itemsToValues : List Toml → List Value
  | [] => []
  | item :: rest => toValue item :: itemsToValues rest

def entriesToValues : List (String × Toml) → List (Value × Value)
  | [] => []
  | (key, value) :: rest => (.text key, toValue value) :: entriesToValues rest

end

/-- Whether further keys can be put below a value: it is a table or an array. -/
def isContainer : Toml → Bool
  | array _ | table _ => true
  | _ => false

/--
Changes the table at a path. Missing tables are created on the way; where `throughArrays` holds, an
array of tables stands for its last table. Nothing else can be entered.
-/
def alterAt (throughArrays : Bool) (change : Entries Toml → Option (Entries Toml)) :
    List String → Entries Toml → Option (Entries Toml)
  | [], entries => change entries
  | key :: rest, entries =>
    let within (inner : Entries Toml) (build : Entries Toml → Toml) : Option (Entries Toml) :=
      (alterAt throughArrays change rest inner).map fun changed => entries.set key (build changed)
    match entries.get? key with
    | none => within [] .table
    | some (table inner) => within inner .table
    | some (array items) =>
      match throughArrays, items.getLast? with
      | true, some (table inner) =>
        within inner fun changed => .array (items.dropLast ++ [.table changed])
      | _, _ => none
    | some _ => none

/-- Adds a key that must be new. -/
def insertNew (key : String) (value : Toml) (entries : Entries Toml) : Option (Entries Toml) :=
  if entries.has key then none else some (entries.set key value)

/-- Adds an empty table to an array of tables, which is created if it is missing. -/
def appendTable (key : String) (entries : Entries Toml) : Option (Entries Toml) :=
  match entries.get? key with
  | none => some (entries.set key (array [table []]))
  | some (array items) => some (entries.set key (array (items ++ [table []])))
  | some _ => none

end Toml

end LayeredConfig
