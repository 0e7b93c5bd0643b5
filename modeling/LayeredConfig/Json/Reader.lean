import LayeredConfig.Json.Basic
import LayeredConfig.Json.Token

/-!
# Reading JSON

Tokens drive a machine whose stack holds the containers that are still open. The first token that
does not fit decides the fault.
-/

namespace LayeredConfig.Json

inductive ReadFault
  /-- The text is not JSON. -/
  | malformed
  /-- A number is not admitted. -/
  | unrepresentable
  deriving DecidableEq, Repr

namespace Reader

/-- An open container with what it holds so far, the latest first. -/
inductive Frame
  | array (items : List Json)
  | object (members : List (String × Json)) (key : String)
  deriving Repr

inductive State
  /-- A value must follow. -/
  | value (stack : List Frame)
  /-- The first item of an array or its end must follow. -/
  | firstItem (stack : List Frame)
  /-- The first key of an object or its end must follow. -/
  | firstKey (stack : List Frame)
  /-- Another key must follow. -/
  | key (stack : List Frame) (members : List (String × Json))
  | colon (stack : List Frame) (members : List (String × Json)) (key : String)
  /-- A value is complete inside the open containers. -/
  | complete (stack : List Frame) (value : Json)
  deriving Repr

/-- A token in the place of a value; only some numbers with a fraction may be admitted. -/
def startValue (admits : Decimal → Bool) (stack : List Frame) : Token → Except ReadFault State
  | .null => .ok (.complete stack .null)
  | .bool value => .ok (.complete stack (.bool value))
  | .int value => .ok (.complete stack (.int value))
  | .fraction value =>
    if admits value then .ok (.complete stack (.fraction value)) else .error .unrepresentable
  | .string value => .ok (.complete stack (.string value))
  | .openBracket => .ok (.firstItem stack)
  | .openBrace => .ok (.firstKey stack)
  | _ => .error .malformed

def step (admits : Decimal → Bool) : State → Token → Except ReadFault State
  | .value stack, token => startValue admits stack token
  | .firstItem stack, .closeBracket => .ok (.complete stack (.array []))
  | .firstItem stack, token => startValue admits (.array [] :: stack) token
  | .firstKey stack, .closeBrace => .ok (.complete stack (.object []))
  | .firstKey stack, .string key => .ok (.colon stack [] key)
  | .key stack members, .string key => .ok (.colon stack members key)
  | .colon stack members key, .colon => .ok (.value (.object members key :: stack))
  | .complete (.array items :: stack) value, .comma =>
    .ok (.value (.array (value :: items) :: stack))
  | .complete (.array items :: stack) value, .closeBracket =>
    .ok (.complete stack (.array (value :: items).reverse))
  | .complete (.object members key :: stack) value, .comma =>
    .ok (.key stack ((key, value) :: members))
  | .complete (.object members key :: stack) value, .closeBrace =>
    .ok (.complete stack (.object ((key, value) :: members).reverse))
  | _, _ => .error .malformed

def run (admits : Decimal → Bool) (state : State) (tokens : List Token) : Except ReadFault State :=
  tokens.foldlM (step admits) state

end Reader

/-- The value that a text spells, as far as its numbers are admitted. -/
def readAdmitting (admits : Decimal → Bool) (text : String) : Except ReadFault Json :=
  match Reader.run admits (.value []) (Token.ofChars text.toList) with
  | .ok (.complete [] value) => .ok value
  | .ok _ => .error .malformed
  | .error fault => .error fault

/-- The value that a text spells, with numbers that exact arithmetic holds. -/
def read (text : String) : Except ReadFault Json := readAdmitting Decimal.isRepresentable text

/-- The value that a text spells, with numbers of any size. -/
def readLarge (text : String) : Except ReadFault Json := readAdmitting (fun _ => true) text

end LayeredConfig.Json
