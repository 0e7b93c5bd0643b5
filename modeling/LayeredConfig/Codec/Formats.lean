import LayeredConfig.Codec.Basic
import LayeredConfig.Commented.Document
import LayeredConfig.Json.Reader
import LayeredConfig.Json.Writer
import LayeredConfig.Toml.Document
import LayeredConfig.Value.OfTree
import LayeredConfig.Yaml.Document
import LayeredConfig.Yaml.Writer

/-!
# The formats

YAML and JSON are read and written, TOML is read. Numbers with a fraction keep their digits in both
directions. YAML nodes know their lines; nodes of the other formats know their file.
-/

namespace LayeredConfig

/-! ## YAML -/

def Yaml.extensions : List String := ["yaml", "yml"]

def Yaml.decode (info : DocumentInfo) (bytes : List UInt8) : Except Fault Tree := do
  Decoder.requireMap info (← Yaml.read info.name (← Decoder.textOf info bytes))

def Decoder.yaml : Decoder := ⟨Yaml.extensions, Yaml.decode⟩

def Encoder.yaml : Encoder :=
  ⟨Yaml.extensions, Yaml.write, fun tree => .ok (Commented.renderOrigins tree)⟩

/-! ## JSON -/

def Json.ReadFault.toFault (name : String) : Json.ReadFault → Fault
  | malformed => .malformed "JSON" name
  | unrepresentable => .foreign .inexactNumber

/-- The tree of a JSON text; a blank text is empty. -/
def Json.decode (info : DocumentInfo) (bytes : List UInt8) : Except Fault Tree := do
  let text ← Decoder.textOf info bytes
  if Text.isAllBlank text.toList then return .empty
  match Json.read text with
  | .error fault => .error (fault.toFault info.name)
  | .ok json => Decoder.requireMap info (← Tree.ofValue [⟨info.name, 0, 0⟩] json.toExactValue)

/-- The origins of a node as the last entry of an object. -/
def Json.originEntry (mark : Mark) : Value × Value :=
  (.text "origins", .list (mark.origins.map fun origin => .text origin.toText))

mutual

/-- Each node as an object of its data and its origins. -/
def Json.withOrigins : Tree → Value
  | .leaf value mark =>
    .dict [(.text "value", (value.map Scalar.toValue).getD .null), originEntry mark]
  | .map entries mark =>
    .dict [(.text "map", .dict (entriesWithOrigins entries)), originEntry mark]
  | .array items mark =>
    .dict [(.text "array", .list (itemsWithOrigins items)), originEntry mark]

def Json.entriesWithOrigins : List (String × Tree) → List (Value × Value)
  | [] => []
  | (key, child) :: rest => (.text key, withOrigins child) :: entriesWithOrigins rest

def Json.itemsWithOrigins : List Tree → List Value
  | [] => []
  | item :: rest => withOrigins item :: itemsWithOrigins rest

end

def Decoder.json : Decoder := ⟨["json"], Json.decode⟩

def Encoder.json : Encoder :=
  ⟨["json"], Json.write 0, fun tree => Json.write 0 (Json.withOrigins tree)⟩

/-! ## TOML -/

def Toml.ReadFault.toFault (name : String) : Toml.ReadFault → Fault
  | malformed => .malformed "TOML" name
  | unrepresentable => .foreign .inexactNumber

/-- The tree of a TOML text; a text without keys is empty. -/
def Toml.decode (info : DocumentInfo) (bytes : List UInt8) : Except Fault Tree := do
  match Toml.read (← Decoder.textOf info bytes) with
  | .error fault => .error (fault.toFault info.name)
  | .ok [] => return .empty
  | .ok entries => Tree.ofValue [⟨info.name, 0, 0⟩] (Toml.table entries).toValue

def Decoder.toml : Decoder := ⟨["toml"], Toml.decode⟩

end LayeredConfig
