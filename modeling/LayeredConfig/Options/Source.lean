import LayeredConfig.Options.Query
import LayeredConfig.Record.Flatten

/-!
# Source options

How a buffer or a value takes part in a configuration. The options that say how fields are found and
converted are taken over from queries; the others of a query make no sense here and are refused.
-/

namespace LayeredConfig

inductive SourceOption
  | asDefault (enabled : Bool)
  | strict (enabled : Bool)
  | query (option : QueryOption)
  deriving Inhabited

structure SourceSettings where
  /-- Whether the source belongs to the defaults. -/
  isDefault : Bool := false
  /-- Whether values without a form as configuration are refused. -/
  strict : Bool := false
  extraction : ExtractOptions := {}

namespace SourceSettings

/-- Whether an option of a query says how values are converted. -/
def concerns : QueryOption → Bool
  | .optional _ | .validator _ => false
  | _ => true

/-- The settings with one option applied. -/
def apply (settings : SourceSettings) : Offered SourceOption → Except Fault SourceSettings
  | .option (.asDefault enabled) _ => .ok { settings with isDefault := enabled }
  | .option (.strict enabled) _ => .ok { settings with strict := enabled }
  | .option (.query option) label =>
    if concerns option then
      .ok { settings with
        extraction :=
          (QuerySettings.apply { extraction := settings.extraction } option).extraction }
    else .error (.optionRefused label)
  | .other label _ => .error (.optionRefused label)

def ofOptions (options : List (Offered SourceOption)) : Except Fault SourceSettings :=
  options.foldlM apply {}

/-- How values are flattened: strictly, also if unused keys are to be refused. -/
def flattening (settings : SourceSettings) : FlattenOptions where
  mappers := settings.extraction.mappers
  strict := settings.strict || settings.extraction.refuseUnused
  hooks := settings.extraction.hooks
  refuseUnset := settings.extraction.refuseUnset
  weak := settings.extraction.weak
  tag := settings.extraction.tag

end SourceSettings

namespace SourceOption

/-- The option where it is out of place. -/
def shown (option : SourceOption) (label : String) : String :=
  match option with
  | asDefault enabled =>
    ShownOption.text ⟨"Value", ("AS_DEFAULT", "as_default"), (Value.bool enabled).literal, label⟩
  | strict enabled =>
    ShownOption.text ⟨"Value", ("FAIL_ON_NON_SERIALIZABLE", "fail_on_non_serializable"),
      (Value.bool enabled).literal, label⟩
  | query option => option.shown label

end SourceOption

/-! ## Options by name -/

namespace Options

def asDefault (flag : Value) : Offered SourceOption :=
  .option (.asDefault flag.isTruthy) (flagLabel "as_default" flag)

def failOnNonSerializable (flag : Value) : Offered SourceOption :=
  .option (.strict flag.isTruthy) (flagLabel "fail_on_non_serializable" flag)

end Options

end LayeredConfig
