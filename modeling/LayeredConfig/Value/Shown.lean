import LayeredConfig.Text.Quoted
import LayeredConfig.Value.Basic

/-!
# Values in messages

Two texts of a value. The plain text leaves texts as they are; the literal text is how a value
appears inside a container, with texts in quotes.
-/

namespace LayeredConfig.Value

/-- One byte inside a quoted row of bytes. -/
def byteText (quote : Char) (byte : UInt8) : List Char :=
  let c := Char.ofNat byte.toNat
  if byte < 0x80 then Text.escaped quote c else '\\' :: 'x' :: Text.digitsInBase 16 2 byte.toNat

def bytesText (content : List UInt8) : String :=
  let quote := Text.quoteFor (content.map fun byte => Char.ofNat byte.toNat)
  String.ofList ('b' :: quote :: content.flatMap (byteText quote) ++ [quote])

/-! ## Points in time -/

/-- The numbers in a text, in order. -/
def numbersIn (text : List Char) : List Nat :=
  let runs := text.splitBy fun a b => Text.isAsciiDigit a == Text.isAsciiDigit b
  (runs.filter fun run => run.all Text.isAsciiDigit).map Text.digitsValue

/-- A time by its numbers; seconds are left out when nothing follows the minute. -/
def clockNumbers (clock : List Char) : List Nat :=
  match numbersIn clock with
  | [hour, minute, 0] => [hour, minute]
  | numbers => numbers

/-- The zone behind a time, by its distance from universal time. -/
def zoneLiteral (zone : List Char) : List String :=
  let parts := (numbersIn zone).zip [3600, 60, 1]
  let seconds : Nat := parts.foldl (fun sum (number, weight) => sum + number * weight) 0
  if zone.isEmpty then []
  else if seconds = 0 then ["tzinfo=datetime.timezone.utc"]
  else
    let distance :=
      if zone.head? == some '-' then "days=-1, seconds=" ++ toString (86400 - seconds)
      else "seconds=" ++ toString seconds
    ["tzinfo=datetime.timezone(datetime.timedelta(" ++ distance ++ "))"]

/-- A point in time by the numbers of its written form. -/
def momentLiteral (kind : MomentKind) (iso : String) : String :=
  let (date, clock) :=
    match kind with
    | .date => (iso.toList, [])
    | .dateTime => (iso.toList.takeWhile (· != 'T'), iso.toList.dropWhile (· != 'T'))
    | .time => ([], iso.toList)
  let isZone (c : Char) : Bool := c == '+' || c == '-'
  let numbers := numbersIn date ++ clockNumbers (clock.takeWhile (!isZone ·))
  let name :=
    match kind with
    | .date => "date"
    | .dateTime => "datetime"
    | .time => "time"
  "datetime." ++ name ++ "(" ++
    ", ".intercalate (numbers.map toString ++ zoneLiteral (clock.dropWhile (!isZone ·))) ++ ")"

/-! ## Texts -/

mutual

def literal : Value → String
  | null => "None"
  | bool value => if value then "True" else "False"
  | int value => toString value
  | float value => value.toText
  | decimal value => s!"Decimal('{value}')"
  | text value => Text.quoted value
  | moment kind iso => momentLiteral kind iso
  | bytes content => bytesText content
  | list items => "[" ++ ", ".intercalate (literals items) ++ "]"
  | tuple [item] => "(" ++ item.literal ++ ",)"
  | tuple items => "(" ++ ", ".intercalate (literals items) ++ ")"
  | set [] => "set()"
  | set items => "\x7b" ++ ", ".intercalate (literals items) ++ "\x7d"
  | dict entries => "\x7b" ++ ", ".intercalate (literalEntries entries) ++ "\x7d"
  | enum type member _ value => s!"<{type}.{member}: " ++ value.literal ++ ">"
  | record type fields =>
    type.name ++ "(" ++ ", ".intercalate (literalFields fields) ++ ")"
  | object type => s!"<{type}>"
  | typeItself name => s!"<class '{name}'>"
  | tree _ => "<tree>"

def literals : List Value → List String
  | [] => []
  | item :: rest => item.literal :: literals rest

def literalEntries : List (Value × Value) → List String
  | [] => []
  | (key, value) :: rest => (key.literal ++ ": " ++ value.literal) :: literalEntries rest

def literalFields : List (FieldName × Value) → List String
  | [] => []
  | (field, value) :: rest => (field.name ++ "=" ++ value.literal) :: literalFields rest

end

def toText : Value → String
  | text value => value
  | decimal value => value.toText
  | moment .dateTime iso => Text.replaceAll "T" " " iso
  | moment _ iso => iso
  | enum type member false _ => s!"{type}.{member}"
  | enum _ _ true value => value.literal
  | record ⟨.model, _⟩ fields => " ".intercalate (literalFields fields)
  | value => value.literal

instance : ToString Value := ⟨toText⟩

/-- A value as it is displayed: as a scalar if it is one, binary numbers to six places. -/
def display : Value → String
  | null => "null"
  | bool value => Scalar.boolText value
  | float value => value.toFixed 6
  | value => value.toText

end LayeredConfig.Value
