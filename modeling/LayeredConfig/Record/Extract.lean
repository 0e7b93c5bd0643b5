import LayeredConfig.Record.Fit
import LayeredConfig.Record.Prepare

/-!
# Extracting typed values

Data is prepared for a type and then fitted into it. Without a type, or where anything will do, the
prepared data is the answer.
-/

namespace LayeredConfig.ExtractOptions

/-- Data as a value of the type; `place` is the key of the data in messages. -/
def extract (options : ExtractOptions) (place : String) (type : Schema) (data : Value) :
    Except Fault Value := do
  let prepared ← options.prepare place type data
  match type with
  | .any => return prepared
  | type =>
    match type.fit prepared with
    | some fitted => return fitted.value
    | none => .error (.doesNotFit place type.name)

end LayeredConfig.ExtractOptions
