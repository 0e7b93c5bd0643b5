import LayeredConfig.Proofs.Record.Fitting

/-! # What becomes of data, part by part

A relation between data and the values it becomes may pass from what is inside them to the whole.
It then holds of all that is made of prepared data, once that is known for unions and for data that
nothing is inside of. -/

namespace LayeredConfig.ExtractOptions

open Schema

/-- The fields of a record are filled under names of their own. -/
def NamesApart : Schema → Prop
  | .record type fields => (fields.map fun field => Fitted.givenName type.kind field.1).Nodup
  | _ => True

/-- The relation holds of the data and of whatever value the prepared data becomes. -/
def Yields (U : Schema → Value → Value → Prop) (type : Schema) (data prepared : Value) : Prop :=
  ∀ value, type.value? prepared = some value → U type data value

/-- The relation holds of data and a value if it holds of what is inside them. -/
structure Assembles (options : ExtractOptions) (U : Schema → Value → Value → Prop) : Prop where
  annotated : ∀ {type : Schema} {data value : Value},
    U type data value → U (.annotated type) data value
  items : ∀ {type item : Schema} {rows : List (Value × Value)}, type.item? = some item →
    (∀ row ∈ rows, U item row.1 row.2) →
    U type (.list (rows.map (·.1))) (type.built (rows.map (·.2)))
  tuple : ∀ {rows : List (Schema × Value × Value)}, (∀ row ∈ rows, U row.1 row.2.1 row.2.2) →
    U (.tuple (rows.map (·.1))) (.list (rows.map (·.2.1))) (.tuple (rows.map (·.2.2)))
  entries : ∀ {type key value : Schema} {rows : List ((Value × Value) × (Value × Value))},
    type.keyAndValue? = some (key, value) →
    (∀ row ∈ rows, key.value? row.1.1 = some row.2.1) → (∀ row ∈ rows, U value row.1.2 row.2.2) →
    U type (.dict (rows.map (·.1))) (.dictOfPairs (rows.map (·.2)))
  record : ∀ {type : RecordName} {entries : List (Value × Value)}
    {rows : List ((FieldInfo × Schema) × Value)},
    (options.refuseUnused = true → options.TakesAll (rows.map (·.1)) entries) →
    (∀ row ∈ rows, ∀ data, options.source? row.1.1 entries = some data → U row.1.2 data row.2) →
    (∀ row ∈ rows, options.source? row.1.1 entries = none → row.1.1.default = some row.2) →
    U (.record type (rows.map (·.1))) (.dict entries)
      (.record type (rows.map fun row => (row.1.1.name, row.2)))

variable {options : ExtractOptions} {U : Schema → Value → Value → Prop}

/-- The parts of a tuple next to the types and the data that they were made for and of. -/
theorem TupleWise.exists_rows {types : List Schema} {items others : List Value}
    (h : TupleWise (Yields U) types items others) {parts : List Fitted}
    (hparts : fitEach types others = some parts) :
    ∃ rows : List (Schema × Value × Value), types = rows.map (·.1) ∧ items = rows.map (·.2.1) ∧
      parts.map (·.value) = rows.map (·.2.2) ∧ ∀ row ∈ rows, U row.1 row.2.1 row.2.2 := by
  induction h generalizing parts with
  | excess items =>
      cases items with
      | nil =>
          cases hparts
          exact ⟨[], rfl, rfl, rfl, fun _ hmem => (List.not_mem_nil hmem).elim⟩
      | cons item items => cases hparts
  | short types =>
      cases types with
      | nil =>
          cases hparts
          exact ⟨[], rfl, rfl, rfl, fun _ hmem => (List.not_mem_nil hmem).elim⟩
      | cons type types => cases hparts
  | @cons type types item other items others hyields _ ih =>
      rw [fitEach] at hparts
      obtain ⟨first, hfirst, hparts⟩ := Option.bind_eq_some_iff.mp hparts
      obtain ⟨parts, hrest, hparts⟩ := Option.bind_eq_some_iff.mp hparts
      cases hparts
      obtain ⟨rows, rfl, rfl, hvalues, hrows⟩ := ih hrest
      have hvalue := hyields first.value (value?_eq_some_iff.mpr ⟨first, hfirst, rfl⟩)
      refine ⟨(type, item, first.value) :: rows, rfl, rfl, ?_,
        List.forall_mem_cons.mpr ⟨hvalue, hrows⟩⟩
      rw [List.map_cons, List.map_cons, hvalues]

namespace Assembles

theorem yields_items (h : options.Assembles U) {type item : Schema} (hitem : type.item? = some item)
    {items others : List Value} (hitems : List.Forall₂ (Yields U item) items others) :
    Yields U type (.list items) (.list others) := by
  intro value hvalue
  obtain ⟨values, hvalues, rfl⟩ := built_of_value? hitem hvalue
  obtain ⟨rows, rfl, rfl, hrows⟩ := exists_pairs
    (forall₂_trans hitems (mapM_eq_some_iff.mp hvalues) fun _ _ _ hyields hvalue =>
      hyields _ hvalue)
  exact h.items hitem hrows

theorem yields_tuple (h : options.Assembles U) {types : List Schema} {items others : List Value}
    (hitems : TupleWise (Yields U) types items others) :
    Yields U (.tuple types) (.list items) (.list others) := by
  intro value hvalue
  rw [value?_tuple] at hvalue
  obtain ⟨parts, hparts, rfl⟩ := Option.map_eq_some_iff.mp hvalue
  obtain ⟨rows, rfl, rfl, hvalues, hrows⟩ := hitems.exists_rows hparts
  rw [hvalues]
  exact h.tuple hrows

theorem yields_entries (h : options.Assembles U) {type key value : Schema}
    (hentry : type.keyAndValue? = some (key, value)) {entries others : List (Value × Value)}
    (hentries : List.Forall₂ (fun entry other => other.1 = entry.1 ∧
      Yields U value entry.2 other.2) entries others) :
    Yields U type (.dict entries) (.dict others) := by
  intro result hresult
  rw [value?_entries hentry] at hresult
  obtain ⟨keys, hkeys, hresult⟩ := Option.bind_eq_some_iff.mp hresult
  obtain ⟨values, hvalues, rfl⟩ := Option.map_eq_some_iff.mp hresult
  have hkeys : List.Forall₂ (fun entry part => key.value? entry.1 = some part) entries keys :=
    forall₂_trans hentries (mapM_eq_some_iff.mp hkeys) fun _ _ _ hother hkey => hother.1 ▸ hkey
  have hvalues : List.Forall₂ (fun entry part => U value entry.2 part) entries values :=
    forall₂_trans hentries (mapM_eq_some_iff.mp hvalues) fun _ _ _ hother hvalue =>
      hother.2 _ hvalue
  obtain ⟨rows, rfl, hzip, hrows⟩ := exists_pairs (forall₂_zip_right hkeys hvalues)
  rw [hzip]
  exact h.entries hentry (fun row hrow => (hrows row hrow).1) fun row hrow => (hrows row hrow).2

theorem yields_record (h : options.Assembles U) {type : RecordName}
    {fields : List (FieldInfo × Schema)} {entries others : List (Value × Value)}
    (htakes : options.refuseUnused = true → options.TakesAll fields entries)
    (hothers : Fitted.areNames type.kind others = true)
    (hfields : ∀ field ∈ fields, Option.Rel (Yields U field.2) (options.source? field.1 entries)
      (Fitted.given? type.kind field.1 others)) :
    Yields U (.record type fields) (.dict entries) (.dict others) := by
  intro value hvalue
  rw [value?_record _ _ hothers] at hvalue
  obtain ⟨values, hvalues, rfl⟩ := Option.map_eq_some_iff.mp hvalue
  obtain ⟨rows, rfl, rfl, hrows⟩ := exists_pairs (mapM_eq_some_iff.mp hvalues)
  rw [List.map_map, List.zip_map']
  refine h.record htakes (fun row hrow data hdata => ?_) fun row hrow hdata => ?_
  all_goals
    have hrel := hfields row.1 (List.mem_map_of_mem hrow)
    have hvalue := hrows row hrow
    rw [fieldValue?] at hvalue
    rw [hdata] at hrel
    generalize Fitted.given? type.kind row.1.1 others = given at hrel hvalue
    cases hrel
  case some hyields => exact hyields _ hvalue
  case none => exact hvalue

/-- What a relation holds of is kept by the preparation of whatever is inside. -/
theorem lifts (h : options.Assembles U) : options.Lifts NamesApart (Yields U) where
  annotated hyields value hvalue := h.annotated (hyields value hvalue)
  items hitem hitems := h.yields_items hitem hitems
  tuple := h.yields_tuple
  entries hentry hentries := h.yields_entries hentry hentries
  names hnames := hnames
  record _ htakes _ := h.yields_record htakes

end Assembles

end LayeredConfig.ExtractOptions
