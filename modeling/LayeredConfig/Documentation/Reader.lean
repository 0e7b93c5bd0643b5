import LayeredConfig.Documentation.Basic
import LayeredConfig.Json.Reader
import LayeredConfig.Text.Encoding
import LayeredConfig.Value.Shown

/-!
# Reading documentation

Documentation is handed over as nested objects with the members `Name`, `Doc`, `Tag`, `Type`,
`Deprecated`, `Optional` and `Children`, or as JSON of that form whose root is marked as such.
-/

namespace LayeredConfig.Documentation

/-- A member of an object as text. -/
def textMember (key : String) (entries : List (Value × Value)) : String :=
  ((Value.entry? key entries).map Value.toText).getD ""

def flagMember (key : String) (entries : List (Value × Value)) : Bool :=
  ((Value.entry? key entries).map Value.isTruthy).getD false

/-- The type that an object names. -/
def typeMember (entries : List (Value × Value)) : Except Fault DocType :=
  match Value.entry? "Type" entries with
  | none => .ok .unspecified
  | some tag =>
    match tag with
    | .text tag =>
      match DocType.ofTag? tag with
      | some type => .ok type
      | none => .error (.documentationTypeUnknown tag)
    | tag => .error (.documentationTypeUnknown tag.toText)

/-- A child without a name of its own is named by its key. -/
def nameBy (key : String) : Documentation → Documentation
  | node note children => node { note with name := DocNote.orElse note.name key } children

mutual

/-- The documentation that an object spells. -/
def ofValue : Value → Except Fault Documentation
  | .dict entries => do
    let type ← typeMember entries
    let children ← ofMembers entries
    .ok (node
      { name := textMember "Name" entries
        text := textMember "Doc" entries
        tag := textMember "Tag" entries
        type
        deprecated := flagMember "Deprecated" entries
        optional := flagMember "Optional" entries }
      children)
  | value => .error (.documentationNotObject value.typeName)

/-- The children among the members of an object. -/
def ofMembers : List (Value × Value) → Except Fault (List (String × Documentation))
  | [] => .ok []
  | (key, value) :: rest =>
    if key.sameKey (.text "Children") then ofChildren value else ofMembers rest

/-- Children in an object; in place of an empty one anything false may stand. -/
def ofChildren : Value → Except Fault (List (String × Documentation))
  | .dict entries => ofEntries [] entries
  | value => if value.isTruthy then .error .documentationChildrenNotObject else .ok []

/-- Adds the children in order to those before. -/
def ofEntries (built : List (String × Documentation)) :
    List (Value × Value) → Except Fault (List (String × Documentation))
  | [] => .ok built
  | (key, value) :: rest => do
    let child ← ofValue value
    ofEntries (Entries.set key.toText (nameBy key.toText child) built) rest

end

/-- The documentation that JSON spells. -/
def ofJson (bytes : List UInt8) : Except Fault Documentation :=
  match (Text.ofEncodedBytes? bytes).map Json.readLarge with
  | some (.ok json) => do
    let root ← ofValue json.toBinaryValue
    if root.note.name.isEmpty && root.note.type = .root then return root
    else .error .documentationRootWrong
  | _ => .error .documentationMalformed

end LayeredConfig.Documentation
