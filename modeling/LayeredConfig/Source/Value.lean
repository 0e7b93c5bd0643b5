import LayeredConfig.Record.Flatten
import LayeredConfig.Source.Buffer
import LayeredConfig.Tree.Fetch
import LayeredConfig.Value.OfTree

/-!
# Values as sources

A value that the host program hands in under a key. It is flattened, put below its key, and becomes
a tree whose nodes all come from the source of that name.
-/

namespace LayeredConfig

/-- Produces the value of a source of a name. -/
abbrev ValueProducer := String → Query → Traced Value

structure ValueSource where
  name : String
  key : String
  produce : ValueProducer
  isDefault : Bool := false
  flattening : FlattenOptions := {}

namespace ValueSource

def make (name key : String) (produce : Option ValueProducer) (isDefault : Bool)
    (flattening : FlattenOptions) : Except Fault ValueSource :=
  if name.isEmpty then .error .valueUnnamed
  else
    match produce with
    | some produce => .ok { name, key, produce, isDefault, flattening }
    | none => .error (.valueWithoutProducer name)

/-- A value below the segments of a key. -/
def below (segments : List String) (value : Value) : Value :=
  segments.foldr (fun segment value => .ofEntries [(segment, value)]) value

/-- The segments of a key; there is no splitting it at an empty delimiter. -/
def segments (delimiter key : String) : Except Fault (List String) :=
  if delimiter.isEmpty && !key.isEmpty then .error .separatorEmpty else .ok (keyPath delimiter key)

/-- The value as a record; nothing at all becomes the empty tree. -/
def record (source : ValueSource) (delimiter : String) : Record where
  name := source.name
  kind := .value
  isDefault := source.isDefault
  load query := do
    let value ← source.produce source.name query
    match ← Traced.ofExcept (source.flattening.flatten value) with
    | none | some .null => return .empty
    | some plain =>
      let path ← Traced.ofExcept (segments delimiter source.key)
      Traced.emit (Record.loadedEvent .value source.name [("key", .text source.key)])
      Traced.ofExcept (Tree.ofValue [{ source := source.name }] (below path plain))

end ValueSource

/-- A source that the host program hands in. -/
inductive Source
  | buffer (source : BufferSource)
  | value (source : ValueSource)

end LayeredConfig
