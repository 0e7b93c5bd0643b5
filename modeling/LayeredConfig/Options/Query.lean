import LayeredConfig.Options.Offered
import LayeredConfig.Record.Extract

/-!
# Query options

How a value is read out of a configuration: under which keys fields are found, how strict the
conversion is, what hooks and validators see, and whether the value may be missing.
-/

namespace LayeredConfig

/-- Accepts a value or fails. -/
abbrev Validator := Value → Except Fault Unit

inductive QueryOption
  | optional (enabled : Bool)
  | validator (check : Option Validator)
  | mapper (mapper : KeyMapper)
  | refuseUnused (enabled : Bool)
  | refuseUnset (enabled : Bool)
  | weak (enabled : Bool)
  | hook (hook : Hook)
  | tag (name : String)
  deriving Inhabited

structure QuerySettings where
  optional : Bool := false
  validator : Option Validator := none
  extraction : ExtractOptions := {}

namespace ExtractOptions

/-- The options with a mapper that is asked before the others. -/
def addMapper (mapper : KeyMapper) (options : ExtractOptions) : ExtractOptions :=
  { options with mappers := mapper :: options.mappers }

/-- The options with a hook that runs after the others. -/
def addHook (hook : Hook) (options : ExtractOptions) : ExtractOptions :=
  { options with hooks := options.hooks ++ [hook] }

end ExtractOptions

namespace QuerySettings

/-- The settings with one option applied. -/
def apply (settings : QuerySettings) : QueryOption → QuerySettings
  | .optional enabled => { settings with optional := enabled }
  | .validator check => { settings with validator := check }
  | .mapper mapper => { settings with extraction := settings.extraction.addMapper mapper }
  | .refuseUnused enabled =>
    { settings with extraction := { settings.extraction with refuseUnused := enabled } }
  | .refuseUnset enabled =>
    { settings with extraction := { settings.extraction with refuseUnset := enabled } }
  | .weak enabled => { settings with extraction := { settings.extraction with weak := enabled } }
  | .hook hook => { settings with extraction := settings.extraction.addHook hook }
  | .tag name => { settings with extraction := { settings.extraction with tag := name } }

def ofOptions (options : List (Offered QueryOption)) : Except Fault QuerySettings :=
  Offered.foldAll .notUnmarshalOption apply {} options

end QuerySettings

namespace QueryOption

/-- The kind of an option where it is shown. -/
def kind : QueryOption → String × String
  | optional _ => ("OPTIONAL", "optional")
  | validator _ => ("VALIDATOR", "validator")
  | mapper _ => ("KEYMAP", "keymap")
  | refuseUnused _ => ("ERROR_UNUSED", "error_unused")
  | refuseUnset _ => ("ERROR_UNSET", "error_unset")
  | weak _ => ("WEAK", "weak")
  | hook _ => ("HOOK", "hook")
  | tag _ => ("TAG_NAME", "tag_name")

def payload : QueryOption → String
  | optional enabled | refuseUnused enabled | refuseUnset enabled | weak enabled =>
    (Value.bool enabled).literal
  | tag name => Text.quoted name
  | validator none => Value.null.literal
  | validator (some _) | mapper _ | hook _ => shownFunction

/-- The option where it is out of place. -/
def shown (option : QueryOption) (label : String) : String :=
  ShownOption.text ⟨"Unmarshal", option.kind, option.payload, label⟩

end QueryOption

/-! ## Options by name -/

namespace Options

def optional (flag : Value) : Offered QueryOption :=
  .option (.optional flag.isTruthy) (flagLabel "optional" flag)

def required (flag : Value) : Offered QueryOption :=
  .option (.optional !flag.isTruthy) (flagLabel "required" flag)

def withValidator (check : Option Validator) : Offered QueryOption :=
  .option (.validator check) "with_validator()"

def keymap (table : List (String × String)) : Offered QueryOption :=
  let shown := Value.ofEntries (table.map fun (field, key) => (field, .text key))
  .option (.mapper (.ofTable table)) s!"keymap({shown})"

def keymapFunction (mapper : Option KeyMapper) : Except Fault (Offered QueryOption) :=
  match mapper with
  | some mapper => .ok (.option (.mapper mapper) "keymap_fn()")
  | none => .error (.functionMissing "keymap_fn")

def errorUnused (flag : Value) : Offered QueryOption :=
  .option (.refuseUnused flag.isTruthy) (flagLabel "error_unused" flag)

def errorUnset (flag : Value) : Offered QueryOption :=
  .option (.refuseUnset flag.isTruthy) (flagLabel "error_unset" flag)

def weaklyTypedInput (flag : Value) : Offered QueryOption :=
  .option (.weak flag.isTruthy) (flagLabel "weakly_typed_input" flag)

def decodeHook (hook : Option Hook) : Except Fault (Offered QueryOption) :=
  match hook with
  | some hook => .ok (.option (.hook hook) "decode_hook()")
  | none => .error (.functionMissing "decode_hook")

def tagName (name : String) : Except Fault (Offered QueryOption) :=
  if name.isEmpty then .error .tagNameEmpty
  else .ok (.option (.tag name) (textLabel "tag_name" name))

end Options

end LayeredConfig
