import LayeredConfig.Fault
import LayeredConfig.Record.Schema

/-!
# Hooks

A hook looks at a value and the type that it is meant for or that it has, and answers with the value
to go on with.
-/

namespace LayeredConfig

abbrev Hook := Schema → Value → Except Fault Value

namespace Hook

/-- All hooks in turn; a fault that is not of the admitted kind is wrapped. -/
def runAll (hooks : List Hook) (type : Value → Schema) (passes : Category)
    (wrap : Value → Fault → Fault) (value : Value) : Except Fault Value :=
  hooks.foldlM (fun value hook =>
      match hook (type value) value with
      | .ok value => .ok value
      | .error fault => .error (if fault.category = passes then fault else wrap value fault))
    value

end Hook

end LayeredConfig
