import LayeredConfig.Fault

/-!
# Faults of reading YAML

A text may be no YAML at all, or spell a value that does not exist, such as a thirteenth month.
-/

namespace LayeredConfig.Yaml

inductive ReadFault
  | malformed
  /-- A value that cannot be built, with the kind of failure. -/
  | noSuchValue (category : Category)
  deriving DecidableEq, Repr, Inhabited

/-- The fault of a document under a name. -/
def ReadFault.toFault (name : String) : ReadFault → Fault
  | malformed => .malformed "YAML" name
  | noSuchValue category => .foreign category

end LayeredConfig.Yaml
