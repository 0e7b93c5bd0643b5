import LayeredConfig.Proofs.Entries
import LayeredConfig.Record.Fit
import LayeredConfig.Record.Prepare

/-! # Types and data

The types that a type is made of, and plain data. What is shown of a type by looking one level deep
is shown by induction on these parts. -/

namespace LayeredConfig

namespace Schema

/-! ## Parts of a type -/

/-- The type of the items of a container, if it is one and the type is not one of a tuple. -/
def item? : Schema → Option Schema
  | list item | set item | frozenSet item | sequence item | variadic item => some item
  | _ => none

/-- The types of the keys and of the values of a dictionary. -/
def keyAndValue? : Schema → Option (Schema × Schema)
  | dict key value | mapping key value => some (key, value)
  | _ => none

/-- The types that a type names directly. -/
def parts : Schema → List Schema
  | list type | set type | frozenSet type | sequence type | variadic type | annotated type => [type]
  | tuple types | union types => types
  | dict key value | mapping key value => [key, value]
  | record _ fields => fields.map (·.2)
  | _ => []

/-- The members of a union beside null. -/
def proper (members : List Schema) : List Schema := members.filter fun member => !member.isNull

theorem mem_parts_of_item {type item : Schema} (h : type.item? = some item) :
    item ∈ type.parts := by
  cases type <;> simp_all [item?, parts]

theorem mem_parts_of_entry {type key value : Schema} (h : type.keyAndValue? = some (key, value)) :
    value ∈ type.parts := by
  cases type <;> simp_all [keyAndValue?, parts]

theorem sizeOf_lt_of_mem_parts {part type : Schema} (h : part ∈ type.parts) :
    sizeOf part < sizeOf type := by
  cases type with
  | tuple types | union types =>
      have hlt : sizeOf part < sizeOf types := List.sizeOf_lt_of_mem h
      simp only [tuple.sizeOf_spec, union.sizeOf_spec]
      omega
  | record type fields =>
      obtain ⟨field, hfield, rfl⟩ := List.mem_map.mp h
      have hlt := List.sizeOf_lt_of_mem hfield
      obtain ⟨info, part⟩ := field
      simp only [Prod.mk.sizeOf_spec, record.sizeOf_spec] at hlt ⊢
      omega
  | dict key value | mapping key value =>
      simp only [parts, List.mem_cons, List.not_mem_nil, or_false] at h
      rcases h with rfl | rfl
      · simp +arith
      · simp +arith
  | list item | set item | frozenSet item | sequence item | variadic item | annotated item =>
      cases List.mem_singleton.mp h
      simp
  | _ => cases h

/-- What passes from the parts of a type to the type holds of all types. -/
theorem induction {motive : Schema → Prop}
    (h : ∀ type, (∀ part ∈ type.parts, motive part) → motive type) (type : Schema) :
    motive type :=
  h type fun part hpart =>
    have _ := sizeOf_lt_of_mem_parts hpart
    induction h part
termination_by sizeOf type

/-- The type has a property, and so have its parts and their parts at every depth. -/
inductive Everywhere (property : Schema → Prop) : Schema → Prop
  | intro {type : Schema} (here : property type)
      (inside : ∀ part ∈ type.parts, Everywhere property part) : Everywhere property type

theorem Everywhere.leaf {property : Schema → Prop} {type : Schema} (hparts : type.parts = [])
    (here : property type) : type.Everywhere property := by
  refine .intro here fun part hpart => ?_
  rw [hparts] at hpart
  cases hpart

end Schema

/-! ## Plain data -/

namespace Value

/-- Whether plain data holds the value without anything inside it. -/
def isScalar : Value → Bool
  | null | bool _ | int _ | float _ | decimal _ | text _ => true
  | _ => false

/-- Scalars, lists, and dictionaries under texts. -/
inductive IsPlain : Value → Prop
  | scalar {value : Value} (h : value.isScalar = true) : IsPlain value
  | list {items : List Value} (h : ∀ item ∈ items, IsPlain item) : IsPlain (list items)
  | dict {entries : List (Value × Value)} (hkeys : ∀ entry ∈ entries, ∃ key, entry.1 = text key)
      (h : ∀ entry ∈ entries, IsPlain entry.2) : IsPlain (dict entries)

theorem IsPlain.item {items : List Value} (h : (Value.list items).IsPlain) {item : Value}
    (hitem : item ∈ items) : item.IsPlain := by
  cases h with
  | scalar h => cases h
  | list h => exact h item hitem

theorem IsPlain.value {entries : List (Value × Value)} (h : (Value.dict entries).IsPlain)
    {entry : Value × Value} (hentry : entry ∈ entries) : entry.2.IsPlain := by
  cases h with
  | scalar h => cases h
  | dict _ h => exact h entry hentry

theorem IsPlain.key {entries : List (Value × Value)} (h : (Value.dict entries).IsPlain)
    {entry : Value × Value} (hentry : entry ∈ entries) : ∃ key, entry.1 = text key := by
  cases h with
  | scalar h => cases h
  | dict hkeys _ => exact hkeys entry hentry

theorem IsPlain.areNames {entries : List (Value × Value)} (h : (Value.dict entries).IsPlain)
    (kind : RecordKind) : Fitted.areNames kind entries = true := by
  cases kind with
  | model => rfl
  | tagged =>
      refine List.all_eq_true.mpr fun entry hentry => ?_
      obtain ⟨key, hkey⟩ := h.key hentry
      rw [hkey]

theorem mem_of_entry {key : String} {entries : List (Value × Value)} {value : Value}
    (h : entry? key entries = some value) : ∃ entry ∈ entries, entry.2 = value := by
  obtain ⟨entry, hentry, hvalue⟩ := Option.map_eq_some_iff.mp h
  exact ⟨entry, List.mem_of_find?_eq_some hentry, hvalue⟩

theorem sameKey_text (a b : String) : sameKey (text a) (text b) = (a == b) := by
  simp [sameKey]

/-- In a dictionary under texts an entry is found as in the entries that it was made of. -/
theorem entry?_map_text (key : String) (entries : Entries Value) :
    entry? key (entries.map fun entry => (text entry.1, entry.2)) = entries.lookup key := by
  induction entries with
  | nil => rfl
  | cons entry rest ih =>
      obtain ⟨other, value⟩ := entry
      rw [Entries.lookup_cons, ← ih]
      unfold entry?
      by_cases h : key = other
      · simp [sameKey_text, h]
      · simp [sameKey_text, h, Ne.symm h]

theorem setEntry_map_text (key : String) (value : Value) (entries : Entries Value) :
    setEntry (text key) value (entries.map fun entry => (text entry.1, entry.2)) =
      (Entries.set key value entries).map fun entry => (text entry.1, entry.2) := by
  induction entries with
  | nil => rfl
  | cons entry rest ih =>
      obtain ⟨other, old⟩ := entry
      simp only [List.map_cons, setEntry, Entries.set, sameKey_text, beq_iff_eq, ih]
      split <;> rfl

/-- Pairs under distinct texts make a dictionary as they are. -/
theorem dictOfPairs_map_text {entries : Entries Value} (h : entries.keys.Nodup) :
    dictOfPairs (entries.map fun entry => (text entry.1, entry.2)) = ofEntries entries := by
  suffices ∀ passed : Entries Value,
      (entries.map fun entry => (text entry.1, entry.2)).foldl
        (fun entries pair => setEntry pair.1 pair.2 entries)
        (passed.map fun entry => (text entry.1, entry.2)) =
      (entries.foldl (fun entries pair => entries.set pair.1 pair.2) passed).map
        fun entry => (text entry.1, entry.2) by
    have hnil := this []
    rw [List.map_nil] at hnil
    rw [dictOfPairs, hnil]
    exact congrArg ofEntries (Entries.ofPairs_of_nodup h)
  clear h
  induction entries with
  | nil => exact fun _ => rfl
  | cons entry rest ih =>
      intro passed
      rw [List.map_cons, List.foldl_cons, List.foldl_cons, setEntry_map_text, ih]

end Value

end LayeredConfig
