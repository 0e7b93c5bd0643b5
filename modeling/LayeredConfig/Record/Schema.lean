import LayeredConfig.Record.Keys

/-!
# Schemas

The types that values are extracted into, and the names by which messages call them.
-/

namespace LayeredConfig

/-- A field of a record type, apart from the type of its values. -/
structure FieldInfo where
  name : FieldName
  /-- What the field holds when nothing is given; without it the field is required. -/
  default : Option Value := none
  /-- Whether a value can be given at all. -/
  settable : Bool := true
  deriving Repr, Inhabited

inductive Schema
  | any
  | null
  | bool
  | int
  | float
  | text
  | anyList
  | anyDict
  | list (item : Schema)
  | set (item : Schema)
  | frozenSet (item : Schema)
  | sequence (item : Schema)
  /-- A tuple of any length with items of one type. -/
  | variadic (item : Schema)
  | tuple (items : List Schema)
  | dict (key value : Schema)
  | mapping (key value : Schema)
  /-- One of several types, of which no two are equal and none is a union itself. -/
  | union (members : List Schema)
  /-- A type with a remark that changes nothing. -/
  | annotated (type : Schema)
  | record (type : RecordName) (fields : List (FieldInfo × Schema))
  /-- A type of which only the name is known. -/
  | named (name : String)
  deriving Repr, Inhabited

namespace Schema

/-- The name of a type in messages. -/
def name : Schema → String
  | any => "Any"
  | null => "NoneType"
  | bool => "bool"
  | int => "int"
  | float => "float"
  | text => "str"
  | anyList | list _ => "list"
  | anyDict | dict .. => "dict"
  | set _ => "set"
  | frozenSet _ => "frozenset"
  | sequence _ => "Sequence"
  | variadic _ | tuple _ => "tuple"
  | mapping .. => "Mapping"
  | union [_, null] | union [null, _] => "Optional"
  | union _ => "Union"
  | annotated _ => "Annotated"
  | record type _ => type.name
  | named name => name

mutual

/-- Equality of types; every record type differs from every other. -/
def same : Schema → Schema → Bool
  | any, any | null, null | bool, bool | int, int | float, float | text, text => true
  | anyList, anyList | anyDict, anyDict => true
  | list a, list b | set a, set b | frozenSet a, frozenSet b | sequence a, sequence b => same a b
  | variadic a, variadic b | annotated a, annotated b => same a b
  | tuple as, tuple bs | union as, union bs => sameAll as bs
  | dict k a, dict l b | mapping k a, mapping l b => same k l && same a b
  | named a, named b => a == b
  | _, _ => false

def sameAll : List Schema → List Schema → Bool
  | [], [] => true
  | a :: as, b :: bs => same a b && sameAll as bs
  | _, _ => false

end

/-- The members of a union, or the type itself. -/
def members : Schema → List Schema
  | union members => members
  | type => [type]

/-- One of the given types: unions are opened, repetitions dropped, a single type stands alone. -/
def oneOf (types : List Schema) : Schema :=
  let distinct := (types.flatMap members).foldl
    (fun kept type => if kept.any (·.same type) then kept else kept ++ [type]) []
  match distinct with
  | [type] => type
  | types => union types

/-- A type, or nothing. -/
def optional (type : Schema) : Schema := oneOf [type, null]

mutual

/-- Whether null is a value of the type. -/
def admitsNull : Schema → Bool
  | any | null => true
  | annotated type => admitsNull type
  | union members => someAdmitsNull members
  | _ => false

def someAdmitsNull : List Schema → Bool
  | [] => false
  | type :: rest => admitsNull type || someAdmitsNull rest

end

def isNull : Schema → Bool
  | null => true
  | _ => false

def isRecord : Schema → Bool
  | record .. => true
  | _ => false

/-- The type without remarks around it. -/
def bare : Schema → Schema
  | annotated type => bare type
  | type => type

/-- The type that a value is an instance of. -/
def ofValue : Value → Schema
  | .null => null
  | .bool _ => bool
  | .int _ => int
  | .float _ => float
  | .text _ => text
  | .list _ => anyList
  | .dict _ => anyDict
  | value => named value.typeName

/-- The own keys of all fields of a record type; other types have none. -/
def fieldKeys? (tag : String) : Schema → Option (List (String × String))
  | record _ fields => some (fields.map fun (field, _) => (field.name.name, field.name.ownKey tag))
  | _ => none

end Schema

end LayeredConfig
