import LayeredConfig.Config.Output

/-!
# Calls

What can be asked of a configuration. Only compiling and new options change it.
-/

namespace LayeredConfig.Config

inductive Call
  | withOptions (options : List (Offered ConfigOption))
  | compile
  | fetch (key : String)
  | query (key : String) (type : Schema) (options : List (Offered QueryOption))
  | output (options : List (Offered OutputOption))

inductive Answer
  | done
  | node (tree : Tree)
  | value (value : Value)
  | text (text : String)
  deriving Repr

/-- The answer to a call that ends at a point in time, and the configuration after it. -/
def perform (disk : Disk) (config : Config) (call : Call) (now : Moment := .epoch) :
    Config × Traced Answer :=
  match call with
  | .withOptions options =>
    let (config, done) := config.withOptions disk options now
    (config, (fun _ => .done) <$> done)
  | .compile =>
    let (config, done) := config.compile disk now
    (config, (fun _ => .done) <$> done)
  | .fetch key => (config, .ofExcept (.node <$> config.fetch key))
  | .query key type options => (config, .ofExcept (.value <$> config.query key type options))
  | .output options => (config, .text <$> config.output options)

end LayeredConfig.Config
