import LayeredConfig.Tree.Basic

/-!
# Values

The data that a host program hands in and gets back: plain values, containers, instances of record
types, and things that have no configuration form. A tree may stand inside a value as it is.
-/

namespace LayeredConfig

/-- Kinds of points in time; each has its own textual form. -/
inductive MomentKind
  | dateTime
  | date
  | time
  deriving DecidableEq, Repr, Inhabited

/-- How a field of a record says under which key it is kept, apart from its name. -/
inductive FieldNaming
  /-- A key for each tag; the tag in use is an option. -/
  | tags (keys : List (String × String))
  /-- A name for reading, and a name for reading and writing. -/
  | aliases (reading common : Option String)
  deriving DecidableEq, Repr, Inhabited

structure FieldName where
  name : String
  naming : FieldNaming
  deriving DecidableEq, Repr, Inhabited

/-- The two ways of declaring a record type: by tagged fields, or as a model with aliases. -/
inductive RecordKind
  | tagged
  | model
  deriving DecidableEq, Repr, Inhabited

structure RecordName where
  kind : RecordKind
  name : String
  deriving DecidableEq, Repr, Inhabited

inductive Value
  | null
  | bool (value : Bool)
  | int (value : Int)
  | float (value : Binary64)
  | decimal (value : Decimal)
  | text (value : String)
  | moment (kind : MomentKind) (iso : String)
  | bytes (content : List UInt8)
  | list (items : List Value)
  | tuple (items : List Value)
  | set (items : List Value)
  | dict (entries : List (Value × Value))
  /-- A member of an enumeration; an integral one is an integer, too. -/
  | enum (type member : String) (integral : Bool) (value : Value)
  | record (type : RecordName) (fields : List (FieldName × Value))
  /-- An instance of a type that means nothing here. -/
  | object (type : String)
  /-- A type in the place of a value. -/
  | typeItself (name : String)
  | tree (tree : Tree)
  deriving Repr, Inhabited

namespace Value

def typeName : Value → String
  | null => "NoneType"
  | bool _ => "bool"
  | int _ => "int"
  | float _ => "float"
  | decimal _ => "Decimal"
  | text _ => "str"
  | moment .dateTime _ => "datetime"
  | moment .date _ => "date"
  | moment .time _ => "time"
  | bytes _ => "bytes"
  | list _ => "list"
  | tuple _ => "tuple"
  | set _ => "set"
  | dict _ => "dict"
  | enum type _ _ _ => type
  | record type _ => type.name
  | object type => type
  | typeItself _ => "type"
  | tree _ => "TreeNode"

/-! ## Keys -/

/-- The number that a value is equal to. -/
def number? : Value → Option Decimal
  | bool value => some (.ofInt (if value then 1 else 0))
  | int value => some (.ofInt value)
  | float value => some value.toDecimal
  | decimal value => some value
  | enum _ _ true (int value) => some (.ofInt value)
  | _ => none

mutual

/-- Whether two values are one key: numbers of all kinds are equal by value. -/
def sameKey : Value → Value → Bool
  | null, null => true
  | text a, text b => a == b
  | moment k a, moment l b => k == l && a == b
  | bytes a, bytes b => a == b
  | tuple xs, tuple ys => sameKeys xs ys
  | enum t m false _, enum u n false _ => t == u && m == n
  | a, b =>
    match a.number?, b.number? with
    | some x, some y => x.sameValue y
    | _, _ => false

def sameKeys : List Value → List Value → Bool
  | [], [] => true
  | x :: xs, y :: ys => sameKey x y && sameKeys xs ys
  | _, _ => false

end

/-- Sets an entry; an equal key keeps its place and its spelling. -/
def setEntry (key value : Value) : List (Value × Value) → List (Value × Value)
  | [] => [(key, value)]
  | (k, v) :: rest =>
    if k.sameKey key then (k, value) :: rest else (k, v) :: setEntry key value rest

/-- A dictionary from pairs, of which later ones win. -/
def dictOfPairs (pairs : List (Value × Value)) : Value :=
  dict (pairs.foldl (fun entries pair => setEntry pair.1 pair.2 entries) [])

/-- The first of equal members stays. -/
def distinct (items : List Value) : List Value :=
  items.foldl (fun kept item => if kept.any (·.sameKey item) then kept else kept ++ [item]) []

def setOf (items : List Value) : Value := set (distinct items)

/-- A dictionary with text keys. -/
def ofEntries (entries : List (String × Value)) : Value :=
  dict (entries.map fun (key, value) => (text key, value))

/-- The entry under a text key. -/
def entry? (key : String) (entries : List (Value × Value)) : Option Value :=
  (entries.find? fun pair => pair.1.sameKey (text key)).map (·.2)

/-- Whether a value counts as true where a truth value is asked for. -/
def isTruthy : Value → Bool
  | null => false
  | bool value => value
  | int value => value != 0
  | float value => !value.isZero
  | decimal value => !value.isZero
  | text value => !value.isEmpty
  | bytes content => !content.isEmpty
  | list items | tuple items | set items => !items.isEmpty
  | dict entries => !entries.isEmpty
  | enum _ _ true (int value) => value != 0
  | _ => true

end Value

end LayeredConfig
