import LayeredConfig.Log
import LayeredConfig.Options.Query
import LayeredConfig.Tree.Basic

/-!
# Records

Every source becomes a record: a name, the kind of source behind it, and a way of loading a tree.
Loading may ask for values of the configuration that was merged before.
-/

namespace LayeredConfig

/-- Reads a key as a value of a type. -/
abbrev Query := String → Schema → List (Offered QueryOption) → Traced Value

inductive SourceKind
  | file
  | buffer
  | value
  deriving DecidableEq, Repr, Inhabited

def SourceKind.text : SourceKind → String
  | file => "file"
  | buffer => "buffer"
  | value => "value"

structure Record where
  name : String
  kind : SourceKind
  load : Query → Traced Tree
  /-- Defaults are merged first, in the order in which they were declared. -/
  isDefault : Bool := false

namespace Record

/-- A record whose tree is there already. -/
def loaded (name : String) (kind : SourceKind) (tree : Tree) : Record where
  name := name
  kind := kind
  load _ := .pure tree

/-- The event that a record was loaded. -/
def loadedEvent (kind : SourceKind) (name : String) (details : Entries Value) : Event :=
  .about .debug "record_loaded" kind.text (some name) details

end Record

end LayeredConfig
