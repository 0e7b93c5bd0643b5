import LayeredConfig.Value.Basic

/-!
# Keys of fields

Under which key a field of a record is kept. Mappers are asked in turn: the first that answers with
a text decides, a hyphen means that the field takes no part, and when all decline the key is the
field's own: its alias, its tag, or its name.
-/

namespace LayeredConfig

/-- A key for a field name; the empty text declines. -/
abbrev KeyMapper := String → String

namespace KeyMapper

/-- The answer that leaves a field out. -/
def skip : String := "-"

/-- A mapper by a table; it declines names that are not listed. -/
def ofTable (table : List (String × String)) : KeyMapper := fun name => (table.lookup name).getD ""

/-- The first answer that is no empty text. -/
def answer? (mappers : List KeyMapper) (name : String) : Option String :=
  (mappers.map (· name)).find? (· != "")

end KeyMapper

/-- The key of a field, or none if the field is left out. -/
def mapName (mappers : List KeyMapper) (fallback : Option String) (name : String) : Option String :=
  match KeyMapper.answer? mappers name with
  | some key => if key == KeyMapper.skip then none else some key
  | none =>
    match fallback with
    | none => some name
    | some own => if own == "" then some name else if own == KeyMapper.skip then none else some own

/-- The key that a field has by itself, where `tag` picks one of its tags. -/
def FieldName.ownKey (tag : String) (field : FieldName) : String :=
  let key? :=
    match field.naming with
    | .tags keys => if tag.isEmpty then none else keys.lookup tag
    | .aliases reading common =>
      (reading.filter (· != "")).or common
  (key?.filter (· != "")).getD field.name

/-- The key of a field after mappers and naming. -/
def FieldName.key? (mappers : List KeyMapper) (tag : String) (field : FieldName) : Option String :=
  mapName mappers (some (field.ownKey tag)) field.name

end LayeredConfig
