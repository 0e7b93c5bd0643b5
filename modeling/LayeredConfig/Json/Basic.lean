import LayeredConfig.Number.Binary64
import LayeredConfig.Value.Basic

/-!
# JSON values

A JSON document as it was written: integers and numbers with a fraction or an exponent are kept
apart, the latter digit by digit, and the members of an object keep their order and repetitions.
-/

namespace LayeredConfig

inductive Json
  | null
  | bool (value : Bool)
  | int (value : Int)
  | fraction (value : Decimal)
  | string (value : String)
  | array (items : List Json)
  | object (members : List (String × Json))
  deriving Repr, Inhabited

namespace Json

mutual

/-- The data of a document, where `number` says what a number with a fraction becomes. -/
def toValue (number : Decimal → Value) : Json → Value
  | null => .null
  | bool value => .bool value
  | int value => .int value
  | fraction value => number value
  | string value => .text value
  | array items => .list (itemsToValues number items)
  | object members => Value.ofEntries (Entries.ofPairs (membersToValues number members))

def itemsToValues (number : Decimal → Value) : List Json → List Value
  | [] => []
  | item :: rest => toValue number item :: itemsToValues number rest

def membersToValues (number : Decimal → Value) : List (String × Json) → List (String × Value)
  | [] => []
  | (key, value) :: rest => (key, toValue number value) :: membersToValues number rest

end

/-- Data with every digit of its numbers. -/
def toExactValue (json : Json) : Value := json.toValue .decimal

/-- Data with binary numbers. -/
def toBinaryValue (json : Json) : Value :=
  json.toValue fun number => .float (Binary64.ofDecimal number)

/-! ## Parts -/

def members : Json → List (String × Json)
  | object members => members
  | _ => []

/-- The first member under a key. -/
def get? (key : String) (json : Json) : Option Json := json.members.lookup key

def items : Json → List Json
  | array items => items
  | _ => []

def string? : Json → Option String
  | string value => some value
  | _ => none

def int? : Json → Option Int
  | int value => some value
  | _ => none

def bool? : Json → Option Bool
  | bool value => some value
  | _ => none

end Json

end LayeredConfig
