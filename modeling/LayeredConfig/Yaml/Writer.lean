import LayeredConfig.Fault
import LayeredConfig.Value.Basic
import LayeredConfig.Yaml.ScalarWriter

/-!
# Writing YAML

Data in block style, two columns for each level; sequences directly below a key are not indented. A
document that is a plain scalar is closed by a mark.
-/

namespace LayeredConfig.Yaml

/-- A number in exponential notation gets a point if it has none. -/
def withPoint (text : List Char) : List Char :=
  let mantissa := text.takeWhile (· != 'e')
  let exponent := text.dropWhile (· != 'e')
  if exponent.isEmpty || mantissa.contains '.' then text else mantissa ++ ".0".toList ++ exponent

/-- A binary number; the special ones have names. -/
def doubleText : Binary64 → String
  | .nan => ".nan"
  | .infinite negative => if negative then "-.inf" else ".inf"
  | value => String.ofList (withPoint value.toText.toList)

/-- A decimal number with its digits and always with a point. -/
def decimalText : Decimal → String
  | .nan .. => ".nan"
  | .infinite negative => if negative then "-.inf" else ".inf"
  | number =>
    let text := number.toChars
    let mantissa := text.takeWhile (· != 'E')
    String.ofList ((if mantissa.contains '.' then mantissa else mantissa ++ ".0".toList) ++
      text.dropWhile (· != 'E'))

/-- The tag and the text of a scalar value. -/
def scalarForm? : Value → Option (String × String)
  | .null => some (coreTag "null", "null")
  | .bool value => some (coreTag "bool", Scalar.boolText value)
  | .int value => some (coreTag "int", toString value)
  | .float value => some (coreTag "float", doubleText value)
  | .decimal value => some (coreTag "float", decimalText value)
  | .text value => some (coreTag "str", value)
  | _ => none

/-- Where a node stands. -/
inductive Place
  | root
  | item
  | value
  deriving DecidableEq

/-- The column of what belongs to a node in the given column. -/
def deeper : Option Nat → Nat
  | none => 0
  | some column => column + 2

/-- The column in which a scalar continues. -/
def continuation (column : Option Nat) : Nat := column.getD 0 + 2

/-- The longest key that stands before its colon, together with the name of its tag. -/
def maxKeyLength : Nat := 127

/-- Whether a key can stand before its colon; others need a mark. -/
def isShortKey (tag text : String) : Bool :=
  let name := "!!".length + (tag.length - (coreTag "").length)
  !text.isEmpty && !ScalarStyle.isMultiline text.toList && name + text.length ≤ maxKeyLength

mutual

/-- Writes a node at a place whose column is given, if it is below another one. -/
def writeNode (place : Place) (column : Option Nat) (page : Page) : Value → Except Fault Page
  | .list [] => .ok ((page.sign "[" true false).sign "]" false false)
  | .dict [] => .ok ((page.sign "\x7b" true false).sign "\x7d" false false)
  | .list (item :: rest) =>
    let inner := if place = .value && !page.fresh then column.getD 0 else deeper column
    writeItems inner page (item :: rest)
  | .dict (entry :: rest) => writeEntries (deeper column) page (entry :: rest)
  | value =>
    match scalarForm? value with
    | none => .error (.notWritable "YAML")
    | some (tag, text) =>
      let page := page.scalar (continuation column) false tag text
      let isPlain := ScalarStyle.choose tag false text = .plain
      .ok { page with isOpen := place = .root && isPlain }

def writeItems (column : Nat) (page : Page) : List Value → Except Fault Page
  | [] => .ok page
  | item :: rest => do
    let page := (page.moveTo column).sign "-" true true
    writeItems column (← writeNode .item (some column) page item) rest

def writeEntries (column : Nat) (page : Page) : List (Value × Value) → Except Fault Page
  | [] => .ok page
  | (key, value) :: rest => do
    match scalarForm? key with
    | none => .error (.notWritable "YAML")
    | some (tag, text) =>
      let page := page.moveTo column
      let page :=
        if isShortKey tag text then (page.scalar (column + 2) true tag text).sign ":" false false
        else
          let page := (page.sign "?" true true).scalar (column + 2) false tag text
          (page.moveTo column).sign ":" true true
      writeEntries column (← writeNode .value (some column) page value) rest

end

/-- A document with one value. -/
def write (value : Value) : Except Fault String := do
  let page := (← writeNode .root none {} value).moveTo 0
  let page := if page.isOpen then (page.sign "..." true false).moveTo 0 else page
  return String.ofList page.written

end LayeredConfig.Yaml
