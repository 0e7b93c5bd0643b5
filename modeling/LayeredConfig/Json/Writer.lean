import LayeredConfig.Fault
import LayeredConfig.Value.Shown

/-!
# Writing JSON

Two blanks for each level, one item to a line, empty containers closed at once. Decimal numbers keep
their digits; numbers without a decimal form cannot be written.
-/

namespace LayeredConfig.Json

def indent (level : Nat) : String := String.ofList (List.replicate (2 * level) ' ')

/-- Written items between brackets, each on a line of its own. -/
def layOut (opening closing : String) (level : Nat) (items : List String) : String :=
  if items.isEmpty then opening ++ closing
  else
    opening ++ "\n" ++ ",\n".intercalate (items.map (indent (level + 1) ++ ·)) ++ "\n" ++
      indent level ++ closing

/-- A binary number; the special ones have names. -/
def doubleText : Binary64 → String
  | .nan => "NaN"
  | .infinite negative => if negative then "-Infinity" else "Infinity"
  | value => value.toText

mutual

/-- A value as JSON at the given depth. -/
def write (level : Nat) : Value → Except Fault String
  | .null => .ok "null"
  | .bool value => .ok (Scalar.boolText value)
  | .int value => .ok (toString value)
  | .float value => .ok (doubleText value)
  | .decimal value => if value.isFinite then .ok value.toText else .error (.notFinite value)
  | .text value => .ok (Text.jsonQuoted value)
  | .list items | .tuple items => (writeItems (level + 1) items).map (layOut "[" "]" level)
  | .dict entries => (writeEntries (level + 1) entries).map (layOut "\x7b" "\x7d" level)
  | _ => .error (.notWritable "JSON")

def writeItems (level : Nat) : List Value → Except Fault (List String)
  | [] => .ok []
  | item :: rest => do
    let first ← write level item
    let others ← writeItems level rest
    .ok (first :: others)

def writeEntries (level : Nat) : List (Value × Value) → Except Fault (List String)
  | [] => .ok []
  | (key, value) :: rest => do
    let first ← write level value
    let others ← writeEntries level rest
    .ok ((Text.jsonQuoted key.toText ++ ": " ++ first) :: others)

end

end LayeredConfig.Json
