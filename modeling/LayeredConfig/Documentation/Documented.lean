import LayeredConfig.Commented.Document
import LayeredConfig.Documentation.Basic
import LayeredConfig.Order.NumericFirst
import LayeredConfig.Tree.Basic

/-!
# Documented trees

Documentation and a compiled tree laid over one another, so that every key shows what is said about
it and its value. Either side may be missing anywhere. Documentation of array elements goes with the
first element only. A default is noted where it differs from the value.
-/

namespace LayeredConfig

/-- What is known about one place of a documented tree. -/
structure DocumentedNote where
  documentation : Option Documentation := none
  /-- The key of a map; items of an array have none. -/
  name : Option String := none
  scalar : Option Scalar := none
  /-- The default, where it differs. -/
  preset : Option Scalar := none
  level : Int := -1
  isArray : Bool := false
  keyDocumentation : Option Documentation := none
  valueDocumentation : Option Documentation := none
  deriving Repr, Inhabited

inductive Documented
  | node (note : DocumentedNote) (children : List (String × Documented))
  deriving Repr, Inhabited

namespace Documented

def note : Documented → DocumentedNote
  | node note _ => note

def children : Documented → Entries Documented
  | node _ children => children

/-! ## Overlay -/

/-- A scalar that is no null. -/
def proper? (value : Option Scalar) : Option Scalar := value.filter fun scalar => !scalar.isNull

/-- The default at a leaf where it differs from the live value. -/
def presetOf (presets : Option Tree) (live : Option Scalar) : Option Scalar :=
  (proper? (presets.bind Tree.scalar?)).filter fun preset => !live.any preset.same

/-- The children of a map, ordered by name, with reserved names put in their place. -/
def place (note : DocumentedNote) (built : List (String × Documented)) :
    List (String × Except Fault Documented) → Except Fault Documented
  | [] => .ok (node note built)
  | (name, child) :: rest =>
    match ReservedName.ofText? name with
    | some .array => .error .arrayKeyInMap
    | some .embedded => .error .embeddedKeyInMap
    | some .key =>
      place { note with keyDocumentation := note.documentation.bind (·.child? name) } built rest
    | some .value =>
      place { note with valueDocumentation := note.documentation.bind (·.child? name) } built rest
    | none =>
      match child with
      | .ok child => place note (built ++ [(name, child)]) rest
      | .error fault => .error fault

/-- A map of the given children. -/
def ofChildren (note : DocumentedNote) (children : List (String × Except Fault Documented)) :
    Except Fault Documented :=
  place note [] (children.mergeSort fun a b => compare a.1 b.1 != .gt)

mutual

/-- A place that only documentation knows. -/
def ofDocumentation (level : Int) (name : Option String) :
    Documentation → Except Fault Documented
  | .node note children =>
    let here : DocumentedNote := { documentation := some (.node note children), name, level }
    if note.type = .array || children.isEmpty then .ok (node here [])
    else ofChildren here (ofDocumentationChildren (level + 1) children)

def ofDocumentationChildren (level : Int) :
    List (String × Documentation) → List (String × Except Fault Documented)
  | [] => []
  | (name, child) :: rest =>
    (name, ofDocumentation level (some name) child) :: ofDocumentationChildren level rest

end

/-- The children of documentation that a tree lacks. -/
def missing (level : Int) (documentation : Option Documentation) (entries : List (String × Tree)) :
    List (String × Except Fault Documented) :=
  ofDocumentationChildren level
    (((documentation.map Documentation.children).getD []).filter fun child =>
      !Entries.has child.1 entries)

/-- Whether documentation describes an array. -/
def describesArray (documentation : Option Documentation) : Bool :=
  documentation.any fun documentation => documentation.note.type = .array

/-- Whether documentation describes keys. -/
def describesKeys (documentation : Option Documentation) : Bool :=
  !describesArray documentation &&
    documentation.any fun documentation => !documentation.children.isEmpty

mutual

/-- A place that a tree knows, with what documentation and defaults have there. -/
def ofTree (level : Int) (name : Option String) (documentation : Option Documentation)
    (presets : Option Tree) : Tree → Except Fault Documented
  | .leaf value _ =>
    let here : DocumentedNote := { documentation, name, level }
    if describesKeys documentation then ofChildren here (missing (level + 1) documentation [])
    else
      let live := proper? value
      .ok (node { here with scalar := live, preset := presetOf presets live } [])
  | .map entries _ =>
    let here : DocumentedNote := { documentation, name, level }
    if entries.isEmpty && !describesKeys documentation then
      .ok (node { here with preset := presetOf presets none } [])
    else if describesArray documentation then .error .arrayMeetsMap
    else
      ofChildren here
        (ofEntries (level + 1) documentation presets entries ++
          missing (level + 1) documentation entries)
  | .array items _ =>
    let here : DocumentedNote := { documentation, name, level }
    if items.isEmpty then
      if describesKeys documentation then ofChildren here (missing (level + 1) documentation [])
      else .ok (node { here with preset := presetOf presets none } [])
    else if describesKeys documentation then .error .arrayMeetsMap
    else do
      let element := documentation.bind (·.child? ReservedName.array.text)
      let children ← ofItems (level + 1) 0 element ((presets.map Tree.items).getD []) items
      .ok (node { here with isArray := true } children)

def ofEntries (level : Int) (documentation : Option Documentation) (presets : Option Tree) :
    List (String × Tree) → List (String × Except Fault Documented)
  | [] => []
  | (name, child) :: rest =>
    let preset := presets.bind fun presets => presets.entries.get? name
    (name, ofTree level (some name) (documentation.bind (·.child? name)) preset child) ::
      ofEntries level documentation presets rest

/-- Items under their numbers; only the first one is documented. -/
def ofItems (level : Int) (index : Nat) (element : Option Documentation) (presets : List Tree) :
    List Tree → Except Fault (List (String × Documented))
  | [] => .ok []
  | item :: rest => do
    let first ← ofTree level none element presets.head? item
    let others ← ofItems level (index + 1) none presets.tail rest
    .ok ((toString index, first) :: others)

end

/-- Documentation and a compiled tree with its defaults, any of which may be missing. -/
def build (documentation : Option Documentation) (tree presets : Option Tree) :
    Except Fault Documented :=
  match documentation, tree with
  | documentation, some tree => ofTree (-1) none documentation presets tree
  | some documentation, none => ofDocumentation (-1) none documentation
  | none, none => .ok (node {} [])

/-! ## Comments -/

/-- What frames the comments of a deprecated key. -/
def deprecationNotice : String := "!!! DEPRECATED !!!"

/-- The comments above a key: its text, its type and its default. -/
def comments (note : DocumentedNote) : List String :=
  let texts :=
    match note.documentation with
    | none => []
    | some documentation =>
      let text := documentation.note.text
      let type := documentation.typeText
      (if text.isEmpty then [] else Text.split "\n" text) ++
        if type.isEmpty || type == DocType.root.tag then [] else Text.split "\n" ("type: " ++ type)
  let lines := texts ++ note.preset.toList.map fun preset => s!"default: {preset}"
  if note.documentation.any fun documentation => documentation.note.deprecated then
    deprecationNotice :: lines ++ [deprecationNotice]
  else lines

/-- Children in the order in which they are shown. -/
def inOrder {α : Type} (children : Entries α) : Entries α :=
  children.mergeSort fun a b => Order.numericFirst a.1 b.1 != .gt

mutual

/-- A documented tree as a document with comments. -/
def toEntry : Documented → Commented.Entry
  | node note children =>
    .entry note.level note.name (note.scalar.map Scalar.toText) (comments note) []
      (if children.isEmpty then none else some ((inOrder (childEntries children)).map (·.2)))

def childEntries : List (String × Documented) → List (String × Commented.Entry)
  | [] => []
  | (name, child) :: rest => (name, toEntry child) :: childEntries rest

end

end Documented

end LayeredConfig
