import LayeredConfig.Order.RecordSorter
import LayeredConfig.Record.Hook
import LayeredConfig.Value.Shown

/-!
# Preparing data for a type

Before data is fitted into a type, both are walked together. Hooks run at every level, the outermost
first; the keys of records are exchanged for the names of their fields; unused and unset keys are
refused where that is asked for; and where weak typing is off, scalars must have their type already.
-/

namespace LayeredConfig

structure ExtractOptions where
  mappers : List KeyMapper := []
  hooks : List Hook := []
  /-- Whether keys that no field takes are refused. -/
  refuseUnused : Bool := false
  /-- Whether fields without a key are refused, even if they have a default. -/
  refuseUnset : Bool := false
  /-- Whether scalars are converted. -/
  weak : Bool := true
  /-- The tag under which fields of records name their keys. -/
  tag : String := ""

namespace Schema

/-- Whether a value is of a scalar type already; types of other kinds are not asked. -/
def isExactly : Schema → Value → Bool
  | bool, .bool _ => true
  | bool, _ => false
  | int, .int _ | int, .enum _ _ true _ => true
  | int, _ => false
  | float, .int _ | float, .float _ | float, .enum _ _ true _ => true
  | float, _ => false
  | text, .text _ => true
  | text, _ => false
  | _, _ => true

end Schema

namespace ExtractOptions

/-- The name of a place below another one. -/
def below (place key : String) : String := if place.isEmpty then key else place ++ "." ++ key

/-- Data as the hooks leave it, handed on to `next` with whether its type admits null. -/
def enter (options : ExtractOptions) (place : String) (type : Schema) (data : Value)
    (next : Bool → Value → Except Fault Value) : Except Fault Value := do
  let data ← Hook.runAll options.hooks (fun _ => type) .decoding
    (fun _ fault => .decodeHookFailed place fault) data
  next type.admitsNull data

/-- Data that nothing is below of: null where it is admitted, or of the right type. -/
def leaf (options : ExtractOptions) (place : String) (nullable : Bool) (type : Schema)
    (data : Value) :
    Except Fault Value :=
  if data matches .null && nullable then .ok data
  else if !options.weak && !type.isExactly data then
    .error (.conversionRefused place type.name data.typeName)
  else .ok data

/-- The keys of a record: which are used, and the fields for which there is none. -/
structure FieldUse where
  /-- The prepared values under the names by which fields are filled. -/
  prepared : Entries Value := []
  used : List String := []
  unset : List String := []

/-- Refuses unused keys, then unset fields, where that is asked for. -/
def check (options : ExtractOptions) (place type : String) (entries : List (Value × Value))
    (use : FieldUse) : Except Fault Value :=
  let isUsed (key : Value) : Bool := use.used.any fun used => key.sameKey (.text used)
  let unused := (entries.filter fun entry => !isUsed entry.1).map fun entry => entry.1.toText
  if options.refuseUnused && !unused.isEmpty then
    .error (.unusedKeys place type (RecordSorter.lexical.sortNames unused))
  else if options.refuseUnset && !use.unset.isEmpty then .error (.unsetFields place type use.unset)
  else .ok (.ofEntries use.prepared)

/-- The name under which a field is filled. -/
def target (kind : RecordKind) (field : FieldName) : String :=
  match kind with
  | .tagged => field.name
  | .model => field.ownKey ""

/-- Which member of a union the data goes through: the only one beside null, or a record for a
dictionary. -/
def isChosen (members : List Schema) (data : Value) : Schema → Bool :=
  if (members.filter fun member => !member.isNull).length = 1 then fun member => !member.isNull
  else if data matches .dict _ then Schema.isRecord
  else fun _ => false

mutual

/-- Data behind the hooks; `nullable` tells whether the type as it was declared admits null. -/
def prepareAs (options : ExtractOptions) (place : String) (nullable : Bool) :
    Schema → Value → Except Fault Value
  | .annotated type, data => prepareAs options place nullable type data
  | .union members, data =>
    prepareMember options place nullable (.union members) (isChosen members data) data members
  | .record type fields, .dict entries => do
    check options place type.name entries
      (← prepareFields options place type.kind entries {} fields)
  | .list item, .list items | .set item, .list items | .frozenSet item, .list items
  | .sequence item, .list items | .variadic item, .list items =>
    return .list (← items.zipIdx.mapM fun (value, index) =>
      let place := below place (toString index)
      options.enter place item value fun nullable value =>
        prepareAs options place nullable item value)
  | .tuple types, .list items => return .list (← prepareTuple options place 0 items types)
  | .dict _ type, .dict entries | .mapping _ type, .dict entries =>
    return .dict (← entries.mapM fun (key, value) => do
      let place := below place key.toText
      return (key, ← options.enter place type value fun nullable value =>
        prepareAs options place nullable type value))
  | type, data => options.leaf place nullable type data

/-- Data for the first member that is chosen, or for the union as a whole. -/
def prepareMember (options : ExtractOptions) (place : String) (nullable : Bool) (whole : Schema)
    (isChosen : Schema → Bool) (data : Value) : List Schema → Except Fault Value
  | [] => options.leaf place nullable whole data
  | member :: rest =>
    if isChosen member then prepareAs options place nullable member data
    else prepareMember options place nullable whole isChosen data rest

/-- The fields of a record in turn, each under its key. -/
def prepareFields (options : ExtractOptions) (place : String) (kind : RecordKind)
    (entries : List (Value × Value)) (use : FieldUse) :
    List (FieldInfo × Schema) → Except Fault FieldUse
  | [] => .ok use
  | (field, type) :: rest =>
    let key? := if field.settable then field.name.key? options.mappers options.tag else none
    match key? with
    | none => prepareFields options place kind entries use rest
    | some key =>
      match Value.entry? key entries with
      | none =>
        prepareFields options place kind entries
          { use with unset := use.unset ++ [field.name.name] } rest
      | some value => do
        let place' := below place key
        let declared := if kind = .model then type.bare else type
        let value ← options.enter place' declared value fun nullable value =>
          prepareAs options place' nullable type value
        prepareFields options place kind entries
          { use with
            prepared := use.prepared.set (target kind field.name) value
            used := key :: use.used } rest

/-- The items of a tuple in turn; those behind the last type may be anything. -/
def prepareTuple (options : ExtractOptions) (place : String) (index : Nat) (items : List Value) :
    List Schema → Except Fault (List Value)
  | [] => items.zipIdx.mapM fun (value, offset) =>
    options.enter (below place (toString (index + offset))) .any value fun _ value => .ok value
  | type :: types =>
    match items with
    | [] => .ok []
    | item :: items => do
      let place' := below place (toString index)
      let item ← options.enter place' type item fun nullable item =>
        prepareAs options place' nullable type item
      return item :: (← prepareTuple options place (index + 1) items types)

end

/-- Data prepared for a type. -/
def prepare (options : ExtractOptions) (place : String) (type : Schema) (data : Value) :
    Except Fault Value :=
  options.enter place type data fun nullable data => prepareAs options place nullable type data

end ExtractOptions

end LayeredConfig
