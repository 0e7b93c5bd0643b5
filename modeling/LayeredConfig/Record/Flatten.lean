import LayeredConfig.Record.Hook
import LayeredConfig.Value.OfTree

/-!
# Flattening

Values become plain data: records become dictionaries under the keys of their fields, members of
enumerations become their values, tuples become lists, and keys become texts. A node of a tree is a
record of what it carries. What has no form as configuration is left out of its container, or
refused where that is asked for.
-/

namespace LayeredConfig

structure FlattenOptions where
  mappers : List KeyMapper := []
  /-- Whether values without a form as configuration are refused instead of left out. -/
  strict : Bool := false
  hooks : List Hook := []
  /-- Whether a field of a record may not be null. -/
  refuseUnset : Bool := false
  /-- Whether enumerations and points in time are converted without a hook. -/
  weak : Bool := true
  /-- The tag under which fields of records name their keys. -/
  tag : String := ""

/-! ## Nodes as records -/

/-- A field that is kept under its own name. -/
def FieldName.bare (name : String) : FieldName := ⟨name, .tags []⟩

/-- The kind of a scalar as a member of the enumeration of kinds. -/
def Scalar.kind : Scalar → Value
  | null => .enum "ScalarKind" "NULL" false (.text "null")
  | bool _ => .enum "ScalarKind" "BOOL" false (.text "bool")
  | int _ => .enum "ScalarKind" "INT" false (.text "int")
  | float _ => .enum "ScalarKind" "FLOAT" false (.text "float")
  | text _ => .enum "ScalarKind" "STRING" false (.text "string")

def Scalar.toRecord (scalar : Scalar) : Value :=
  .record ⟨.tagged, "Scalar"⟩ [(.bare "kind", scalar.kind), (.bare "value", scalar.toValue)]

def Origin.toRecord (origin : Origin) : Value :=
  .record ⟨.tagged, "Origin"⟩
    [(.bare "file", .text origin.source), (.bare "line", .int origin.line),
      (.bare "col", .int origin.column)]

namespace Tree

/-- The fields of a node; its children and items are nodes again. -/
def fieldValues (node : Tree) : List (FieldName × Value) :=
  let scalar := (node.scalar?.map Scalar.toRecord).getD .null
  let children :=
    match node with
    | map entries _ => .ofEntries (entries.map fun (key, child) => (key, .tree child))
    | _ => .null
  let items :=
    match node with
    | array items _ => .list (items.map .tree)
    | _ => .null
  [(.bare "value", scalar), (.bare "map", children), (.bare "array", items),
    (.bare "origins", .list (node.origins.map Origin.toRecord)),
    (.bare "secret", .bool node.isSecret)]

mutual

/-- The number of levels of a node as a record. -/
def depth : Tree → Nat
  | leaf .. => 4
  | map entries _ => depthOfEntries entries + 4
  | array items _ => depthOfItems items + 4

def depthOfEntries : List (String × Tree) → Nat
  | [] => 0
  | (_, child) :: rest => max (depth child) (depthOfEntries rest)

def depthOfItems : List Tree → Nat
  | [] => 0
  | item :: rest => max (depth item) (depthOfItems rest)

end

end Tree

namespace Value

/-! ## Levels -/

mutual

/-- The number of levels of a value. -/
def depth : Value → Nat
  | list items | tuple items => depthOfItems items + 1
  | dict entries => depthOfEntries entries + 1
  | enum _ _ _ value => depth value + 1
  | record _ fields => depthOfFields fields + 1
  | tree node => node.depth
  | _ => 1

def depthOfItems : List Value → Nat
  | [] => 0
  | item :: rest => max (depth item) (depthOfItems rest)

def depthOfEntries : List (Value × Value) → Nat
  | [] => 0
  | (_, value) :: rest => max (depth value) (depthOfEntries rest)

def depthOfFields : List (FieldName × Value) → Nat
  | [] => 0
  | (_, value) :: rest => max (depth value) (depthOfFields rest)

end

/-- A value that is turned into another one on the way to a tree. -/
def isConverted : Value → Bool
  | moment .. | enum .. => true
  | _ => false

end Value

namespace FlattenOptions

/-- The value that the hooks answer with. -/
def hooked (options : FlattenOptions) (value : Value) : Except Fault Value :=
  Hook.runAll options.hooks Schema.ofValue .invalidInput
    (fun value fault => .flattenHookFailed value.typeName fault) value

/-- Adds a value to those that are kept. -/
def keep (key : String) (value : Option Value) (kept : Entries Value) : Entries Value :=
  match value with
  | some value => kept.set key value
  | none => kept

/-- The fields of a record in turn, each flattened by `flatten`. -/
def fields (options : FlattenOptions) (owner : String)
    (flatten : Value → Except Fault (Option Value))
    (kept : Entries Value) : List (FieldName × Value) → Except Fault (Entries Value)
  | [] => .ok kept
  | (field, value) :: rest =>
    match field.key? options.mappers options.tag with
    | none => options.fields owner flatten kept rest
    | some key =>
      if kept.has key then .error (.fieldsShareKey key)
      else if value matches .null && options.refuseUnset then .error (.fieldIsNull owner field.name)
      else do options.fields owner flatten (keep key (← flatten value) kept) rest

/-- The entries of a dictionary in turn. -/
def entries (flatten : Value → Except Fault (Option Value)) (kept : Entries Value) :
    List (Value × Value) → Except Fault (Entries Value)
  | [] => .ok kept
  | (key, value) :: rest => do entries flatten (keep key.toText (← flatten value) kept) rest

/-- A value of at most `levels` levels as plain data, or nothing if it has no such form. -/
def flattenLevels (options : FlattenOptions) : (levels : Nat) → Value → Except Fault (Option Value)
  | 0, _ => .error (.foreign .nestedTooDeeply)
  | levels + 1, value => do
    let value ← options.hooked value
    if !options.weak && value.isConverted then .error (.conversionNeedsHook value.typeName)
    else
      match value with
      | .null | .bool _ | .int _ | .float _ | .decimal _ | .text _ | .moment ..
      | .enum _ _ true _ =>
        .ok (some value)
      | .enum _ _ false inner => options.flattenLevels levels inner
      | .record type fieldValues =>
        let kept ← options.fields type.name (options.flattenLevels levels) [] fieldValues
        return some (.ofEntries kept)
      | .tree node =>
        let kept ← options.fields value.typeName (options.flattenLevels levels) [] node.fieldValues
        return some (.ofEntries kept)
      | .dict pairs => return some (.ofEntries (← entries (options.flattenLevels levels) [] pairs))
      | .list items | .tuple items =>
        return some (.list (← items.filterMapM (options.flattenLevels levels)))
      | value => if options.strict then .error (.notConfiguration value.typeName) else .ok none

/-- The levels that hooks may add to a value. -/
def maxAddedLevels : Nat := 1000

/-- A value as plain data, or nothing if it has no such form. -/
def flatten (options : FlattenOptions) (value : Value) : Except Fault (Option Value) :=
  options.flattenLevels (value.depth + maxAddedLevels) value

end FlattenOptions

end LayeredConfig
