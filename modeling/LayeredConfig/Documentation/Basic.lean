import LayeredConfig.Entries
import LayeredConfig.Text.Split

/-!
# Documentation

A tree that describes what a configuration is meant to look like: texts, types and marks for each
key. Some names of children do not stand for keys but for the elements of an array, the keys and the
values of a map, or an embedded record.
-/

namespace LayeredConfig

/-- What a documented value is meant to be. -/
inductive DocType
  | unspecified
  | root | map | struct | array
  | string | bool
  | int | int8 | int16 | int32 | int64
  | uint | uint8 | uint16 | uint32 | uint64 | uintptr
  | float32 | float64
  | complex64 | complex128
  deriving DecidableEq, Repr, Inhabited

namespace DocType

/-- The mark of a type in documentation. -/
def tag : DocType → String
  | unspecified => ""
  | root => "<root>"
  | map => "<map>"
  | struct => "<struct>"
  | array => "<array>"
  | string => "<string>"
  | bool => "<bool>"
  | int => "<int>"
  | int8 => "<int8>"
  | int16 => "<int16>"
  | int32 => "<int32>"
  | int64 => "<int64>"
  | uint => "<uint>"
  | uint8 => "<uint8>"
  | uint16 => "<uint16>"
  | uint32 => "<uint32>"
  | uint64 => "<uint64>"
  | uintptr => "<uintptr>"
  | float32 => "<float32>"
  | float64 => "<float64>"
  | complex64 => "<complex64>"
  | complex128 => "<complex128>"

def all : List DocType :=
  [unspecified, root, map, struct, array, string, bool, int, int8, int16, int32, int64, uint, uint8,
    uint16, uint32, uint64, uintptr, float32, float64, complex64, complex128]

def ofTag? (tag : String) : Option DocType := all.find? fun type => type.tag == tag

end DocType

/-- Names of children that are no keys. -/
inductive ReservedName
  | array
  | key
  | value
  | embedded
  deriving DecidableEq, Repr

namespace ReservedName

def text : ReservedName → String
  | array => "<array>"
  | key => "<key>"
  | value => "<value>"
  | embedded => "<embedded>"

def ofText? (name : String) : Option ReservedName :=
  [array, key, value, embedded].find? fun reserved => reserved.text == name

end ReservedName

/-- What is said about one key. -/
structure DocNote where
  name : String := ""
  text : String := ""
  tag : String := ""
  type : DocType := .unspecified
  deprecated : Bool := false
  optional : Bool := false
  deriving DecidableEq, Repr, Inhabited

inductive Documentation
  | node (note : DocNote) (children : List (String × Documentation))
  deriving Repr, Inhabited

namespace DocNote

/-- The first text unless it is empty. -/
def orElse (text other : String) : String := if text.isEmpty then other else text

/-- Another note on top: what it says replaces, what it leaves open stays, marks are kept. -/
def overlay (base other : DocNote) : DocNote :=
  { name := orElse other.name base.name
    text := orElse other.text base.text
    tag := orElse other.tag base.tag
    type := if other.type = .unspecified then base.type else other.type
    deprecated := base.deprecated || other.deprecated
    optional := base.optional || other.optional }

end DocNote

namespace Documentation

def empty : Documentation := node {} []

def note : Documentation → DocNote
  | node note _ => note

def children : Documentation → Entries Documentation
  | node _ children => children

def child? (name : String) (documentation : Documentation) : Option Documentation :=
  documentation.children.get? name

mutual

/-- Other documentation on top; the children of both sides are merged by name. -/
def merge (base : Documentation) : (other : Documentation) → Documentation
  | node note children => node (base.note.overlay note) (mergeChildren base.children children)

def mergeChildren (base : List (String × Documentation)) :
    (other : List (String × Documentation)) → List (String × Documentation)
  | [] => base
  | (name, child) :: rest =>
    let merged :=
      match base.lookup name with
      | some existing => merge existing child
      | none => child
    mergeChildren (Entries.set name merged base) rest

end

mutual

/-- The names of all keys exchanged; a name without a new one and reserved names stay. -/
def rename (newName : String → String) : Documentation → Documentation
  | node note children => node note (renameChildren newName [] children)

/-- Adds the renamed children in order to those before. -/
def renameChildren (newName : String → String) (built : List (String × Documentation)) :
    List (String × Documentation) → List (String × Documentation)
  | [] => built
  | (name, child) :: rest =>
    let renamed :=
      if (ReservedName.ofText? name).isSome then name else DocNote.orElse (newName name) name
    renameChildren newName (Entries.set renamed (rename newName child) built) rest

end

/-! ## Descriptions of types -/

def firstLine (text : String) : String := (Text.split "\n" text).headD ""

/-- What is said about the keys or the values of a map, further lines below the first text. -/
def describe (label type text : String) : List String :=
  if text.isEmpty then []
  else
    let opening := "  " ++ label ++ "(" ++ type ++ ") "
    match Text.split "\n" text with
    | [] => []
    | first :: rest =>
      (opening ++ first) ::
        rest.map fun line => String.ofList (List.replicate opening.length ' ') ++ line

/-- The description of an array by its elements, or of a map by its keys and values. -/
def compose (note : DocNote) (element key value : Option (String × String)) : String :=
  match note.type, element, key, value with
  | .array, some (element, _), _, _ => "array of " ++ element
  | .map, _, some (key, keyText), some (value, valueText) =>
    "\n".intercalate
      (("map with key " ++ key ++ " -> value " ++ value) ::
        describe "key" key keyText ++ describe "value" value valueText)
  | type, _, _, _ => type.tag

mutual

/-- The type of a value in words. -/
def typeText : Documentation → String
  | node note children =>
    compose note (childType ReservedName.array.text children)
      (childType ReservedName.key.text children) (childType ReservedName.value.text children)

/-- The first line of a child's type, and the child's text. -/
def childType (name : String) : List (String × Documentation) → Option (String × String)
  | [] => none
  | (other, child) :: rest =>
    if other == name then some (firstLine (typeText child), child.note.text)
    else childType name rest

end

end Documentation

end LayeredConfig
