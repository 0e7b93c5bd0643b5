import LayeredConfig.Yaml.Position

/-!
# YAML tokens

The signs and scalars of a YAML text. Indentation shows as the start and end of block collections,
and a key that no sign announces is marked once its colon is found.
-/

namespace LayeredConfig.Yaml

inductive Token
  /-- A version, of which the first number matters. -/
  | version (major : Nat)
  /-- A handle that stands for the beginning of tags. -/
  | handle (name start : String)
  | otherDirective
  | documentStart
  | documentEnd
  | streamEnd
  | blockSequenceStart
  | blockMappingStart
  | blockEnd
  | flowSequenceStart
  | flowSequenceEnd
  | flowMappingStart
  | flowMappingEnd
  | flowEntry
  | blockEntry
  | key
  | value
  | alias (name : String)
  | anchor (name : String)
  /-- A tag behind its handle; without a handle it is complete. -/
  | tag (handle : Option String) (suffix : String)
  | scalar (plain : Bool) (text : String)
  deriving DecidableEq, Repr, Inhabited

/-- A token with the positions of its first character and behind its last one. -/
structure Located where
  token : Token
  start : Position
  stop : Position
  deriving DecidableEq, Repr, Inhabited

end LayeredConfig.Yaml
