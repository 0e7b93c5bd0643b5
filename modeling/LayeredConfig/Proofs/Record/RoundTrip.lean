import LayeredConfig.Proofs.Record.Fitting
import LayeredConfig.Record.Flatten
import Mathlib.Data.List.Nodup

/-! # From values to plain data and back

A value of a record type is flattened under the keys of its fields and read from these keys. Both
ways find one key for every field, so the value comes back. -/

namespace LayeredConfig

/-! ## Values of a type -/

namespace Schema

/-- The members are the type and null. -/
def IsOptionalIn (type : Schema) (members : List Schema) : Prop :=
  members = [type, null] ∨ members = [null, type]

section Optional

variable {type : Schema} {members : List Schema} (h : type.IsOptionalIn members)

include h

theorem IsOptionalIn.mem : type ∈ members := by
  rcases h with rfl | rfl
  · exact List.mem_cons_self
  · exact List.mem_cons_of_mem _ List.mem_cons_self

theorem IsOptionalIn.any_isNull : members.any isNull = true := by
  rcases h with rfl | rfl <;> simp [isNull]

theorem IsOptionalIn.proper_eq (hnull : type.isNull = false) : proper members = [type] := by
  have htrue : null.isNull = true := rfl
  rcases h with rfl | rfl <;> simp [proper, hnull, htrue]

end Optional

/-- The values that are of a type exactly; the types are scalars, lists, dictionaries under texts,
types that may be null, and records of such that are filled through all their fields. -/
inductive Holds : Schema → Value → Prop
  | bool (value : Bool) : Holds bool (.bool value)
  | int (value : Int) : Holds int (.int value)
  | float (value : Binary64) : Holds float (.float value)
  | text (value : String) : Holds text (.text value)
  | list {item : Schema} {items : List Value} (h : ∀ value ∈ items, Holds item value) :
      Holds (list item) (.list items)
  | dict {type : Schema} {entries : Entries Value} (hkeys : entries.keys.Nodup)
      (h : ∀ entry ∈ entries, Holds type entry.2) : Holds (dict .text type) (.ofEntries entries)
  | absent {members : List Schema} {type : Schema} (hmembers : type.IsOptionalIn members) :
      Holds (union members) .null
  | present {members : List Schema} {type : Schema} {value : Value}
      (hmembers : type.IsOptionalIn members) (h : Holds type value) : Holds (union members) value
  | record {name : String} {rows : List ((FieldInfo × Schema) × Value)}
      (hnames : (rows.map fun row => row.1.1.name.name).Nodup)
      (hsettable : ∀ row ∈ rows, row.1.1.settable = true)
      (h : ∀ row ∈ rows, Holds row.1.2 row.2) :
      Holds (record ⟨.tagged, name⟩ (rows.map (·.1)))
        (.record ⟨.tagged, name⟩ (rows.map fun row => (row.1.1.name, row.2)))

theorem Holds.isNull_eq_false {type : Schema} {value : Value} (h : Holds type value) :
    type.isNull = false := by
  cases h <;> rfl

/-- Every field of a record has a key: none is left out. -/
def KeepsFields (mappers : List KeyMapper) (tag : String) : Schema → Prop
  | record _ fields => ∀ field ∈ fields, field.1.name.key? mappers tag ≠ none
  | _ => True

end Schema

/-! ## Flattening -/

namespace FlattenOptions

variable {options : FlattenOptions} {faults : Fault → Prop}

/-- The entries of a dictionary keep their keys. -/
theorem ends_entries {flatten : Value → Except Fault (Option Value)} {R : Value → Value → Prop}
    {pairs : Entries Value}
    (h : ∀ pair ∈ pairs,
      Ends faults (fun plain? => ∃ plain, plain? = some plain ∧ R pair.2 plain) (flatten pair.2))
    (kept : Entries Value) (hkeys : (Entries.keys (kept ++ pairs)).Nodup) :
    Ends faults (fun final => ∃ plains, final = kept ++ plains ∧
        List.Forall₂ (fun pair plain => plain.1 = pair.1 ∧ R pair.2 plain.2) pairs plains)
      (entries flatten kept (pairs.map fun pair => (.text pair.1, pair.2))) := by
  induction pairs generalizing kept with
  | nil => exact .answer ⟨[], (List.append_nil kept).symm, .nil⟩
  | cons pair rest ih =>
      obtain ⟨key, value⟩ := pair
      have hkey : key ∉ kept.keys := by
        rw [Entries.keys, List.map_append, List.map_cons] at hkeys
        exact fun hmem => (List.nodup_append.mp hkeys).2.2 _ hmem _ List.mem_cons_self rfl
      rw [List.map_cons, entries]
      refine Ends.bind (h (key, value) List.mem_cons_self) ?_
      rintro _ ⟨plain, rfl, hplain⟩
      rw [keep, Value.toText, Entries.set_of_not_mem hkey]
      refine (ih (fun other hother => h other (List.mem_cons_of_mem _ hother)) _ ?_).mono
        (fun _ h => h) ?_
      · simpa [Entries.keys] using hkeys
      · rintro _ ⟨plains, rfl, hplains⟩
        exact ⟨(key, plain) :: plains, by simp, .cons ⟨rfl, hplain⟩ hplains⟩

/-- Fields that have keys are kept under them, and no two under one key. -/
theorem ends_fields {ρ : Type} {field : ρ → FieldName × Value} {owner : String}
    {flatten : Value → Except Fault (Option Value)} {R : ρ → Value → Prop} {rows : List ρ}
    (hkey : ∀ row ∈ rows, (field row).1.key? options.mappers options.tag ≠ none)
    (h : ∀ row ∈ rows, Ends (fun _ => True)
      (fun plain? => ∃ plain, plain? = some plain ∧ R row plain) (flatten (field row).2))
    (kept : Entries Value) (hkept : kept.keys.Nodup) :
    Ends (fun _ => True) (fun final => ∃ plains, final = kept ++ plains ∧ final.keys.Nodup ∧
        List.Forall₂ (fun row plain =>
          (field row).1.key? options.mappers options.tag = some plain.1 ∧ R row plain.2)
          rows plains)
      (options.fields owner flatten kept (rows.map field)) := by
  induction rows generalizing kept with
  | nil => exact .answer ⟨[], (List.append_nil kept).symm, by simpa using hkept, .nil⟩
  | cons row rest ih =>
      obtain ⟨key, hsome⟩ := Option.ne_none_iff_exists'.mp (hkey row List.mem_cons_self)
      unfold fields
      simp only [List.map_cons, hsome]
      split_ifs with hhas hunset
      · exact .fault trivial
      · exact .fault trivial
      refine Ends.bind (h row List.mem_cons_self) ?_
      rintro _ ⟨plain, rfl, hplain⟩
      have hnew : key ∉ kept.keys := by
        rw [← Entries.lookup_isSome_iff]
        exact hhas
      rw [keep, Entries.set_of_not_mem hnew]
      refine (ih (fun other hother => hkey other (List.mem_cons_of_mem _ hother))
        (fun other hother => h other (List.mem_cons_of_mem _ hother)) _ ?_).mono (fun _ h => h) ?_
      · rw [Entries.keys, List.map_append]
        exact hkept.append (List.nodup_singleton key) (List.disjoint_singleton.mpr hnew)
      · rintro _ ⟨plains, rfl, hnodup, hplains⟩
        exact ⟨(key, plain) :: plains, by simp, by simpa using hnodup,
          .cons ⟨hsome, hplain⟩ hplains⟩

end FlattenOptions

/-! ## Reading back -/

namespace ExtractOptions

variable {options : ExtractOptions}

/-- The plain data is read as the value, wherever it stands. -/
def Restores (options : ExtractOptions) (type : Schema) (value plain : Value) : Prop :=
  ∀ place nullable, Ends (fun _ => False) (fun prepared => type.value? prepared = some value)
    (options.prepareAs place nullable type plain)

/-- The prepared data becomes the value that the plain data restores, whichever it is. -/
def ReadsBack (options : ExtractOptions) (type : Schema) (plain prepared : Value) : Prop :=
  ∀ value, options.Restores type value plain → type.value? prepared = some value

theorem Restores.ends_readsBack {type : Schema} {value plain : Value}
    (h : options.Restores type value plain) (place : String) (nullable : Bool) :
    Ends (fun _ => False) (options.ReadsBack type plain)
      (options.prepareAs place nullable type plain) := by
  obtain ⟨prepared, heq, -⟩ := (h place nullable).exists_answer
  rw [heq]
  refine .answer fun other hother => ?_
  have hprepared := hother place nullable
  rw [heq] at hprepared
  exact hprepared.of_ok

/-! ### Types that may be null -/

theorem prepareAs_null (hweak : options.weak = true) {place : String} {nullable : Bool}
    (type : Schema) : options.prepareAs place nullable type .null = .ok .null := by
  induction type using Schema.induction with
  | h type ih =>
      by_cases hopens : type.Opens .null
      · cases hopens with
        | annotated type => exact ih type List.mem_cons_self
        | union members =>
            rw [prepareAs, prepareMember_eq]
            cases hchosen : members.find? (isChosen members .null) with
            | none => exact leaf_of_weak hweak _ _
            | some member => exact ih member (List.mem_of_find?_eq_some hchosen)
      · rw [prepareAs_eq_leaf hopens]
        exact leaf_of_weak hweak _ _

theorem restores_absent (hweak : options.weak = true) {members : List Schema} {type : Schema}
    (hmembers : type.IsOptionalIn members) : options.Restores (.union members) .null .null := by
  intro place nullable
  rw [prepareAs_null hweak]
  refine .answer ?_
  rw [Schema.value?, Schema.fit_union_null hmembers.any_isNull]
  rfl

theorem restores_present (hhooks : options.hooks = []) {members : List Schema} {type : Schema}
    {value plain : Value} (hmembers : type.IsOptionalIn members) (hnull : type.isNull = false)
    (h : options.Restores type value plain) : options.Restores (.union members) value plain := by
  intro place nullable
  have hdecides : Schema.Decides members plain type := .proper (hmembers.proper_eq hnull)
  rw [prepareAs, prepareMember_eq, hdecides.find?_eq]
  refine ((h place nullable).and (reshaped_of_prepareAs hhooks type)).mono (fun _ h => h) ?_
  rintro prepared ⟨hprepared, hshape⟩
  obtain ⟨fitted, hfit, rfl⟩ := Schema.value?_eq_some_iff.mp hprepared
  by_cases hunset : prepared = .null
  · subst hunset
    rw [Schema.value?, Schema.fit_union_null hmembers.any_isNull,
      Schema.eq_null_of_fit_null hfit]
    rfl
  · rw [Schema.value?, Schema.fit_union fun h => (hunset h).elim,
      hdecides.fitMember_eq hshape, hfit]
    rfl

/-! ### Containers -/

section Containers

variable (hoptions : options.Unhooked fun _ => False)

include hoptions

theorem restores_list {item : Schema} {values plains : List Value}
    (h : List.Forall₂ (options.Restores item) values plains) :
    options.Restores (.list item) (.list values) (.list plains) := by
  intro place nullable
  have hitems (plain : Value) (hplain : plain ∈ plains) :=
    let ⟨_, _, hvalue⟩ := exists_of_mem_right h hplain
    hvalue.ends_readsBack
  refine (ends_prepareAs_items hoptions rfl hitems).mono (fun _ h => h) ?_
  rintro _ ⟨others, rfl, hothers⟩
  have hvalues : others.mapM item.value? = some values :=
    mapM_eq_some_iff.mpr (forall₂_trans h hothers fun _ _ _ hr hs => hs _ hr).flip
  rw [Schema.value?_list, hvalues]
  rfl

theorem restores_dict {type : Schema} {entries plains : Entries Value}
    (hkeys : entries.keys.Nodup)
    (h : List.Forall₂ (fun entry plain => plain.1 = entry.1 ∧
      options.Restores type entry.2 plain.2) entries plains) :
    options.Restores (.dict .text type) (.ofEntries entries) (.ofEntries plains) := by
  intro place nullable
  have hentries : ∀ entry ∈ plains.map (fun plain => (Value.text plain.1, plain.2)),
      ∀ place nullable, Ends (fun _ => False) (options.ReadsBack type entry.2)
        (options.prepareAs place nullable type entry.2) := by
    intro entry hentry
    obtain ⟨plain, hplain, rfl⟩ := List.mem_map.mp hentry
    obtain ⟨_, _, _, hvalue⟩ := exists_of_mem_right h hplain
    exact hvalue.ends_readsBack
  refine (ends_prepareAs_entries hoptions rfl hentries).mono (fun _ h => h) ?_
  rintro _ ⟨others, rfl, hothers⟩
  have hothers := List.forall₂_map_left_iff.mp hothers
  have htexts : others.mapM (fun other => Schema.text.value? other.1) =
      some (entries.map fun entry => .text entry.1) := by
    refine mapM_eq_some_iff.mpr (List.forall₂_map_right_iff.mpr
      (forall₂_trans h hothers fun entry plain other hr hs => ?_).flip)
    rw [flip, hs.1, hr.1]
    rfl
  have hvalues : others.mapM (fun other => type.value? other.2) =
      some (entries.map fun entry => entry.2) :=
    mapM_eq_some_iff.mpr (List.forall₂_map_right_iff.mpr
      (forall₂_trans h hothers fun _ _ _ hr hs => hs.2 _ hr.2).flip)
  rw [Schema.value?_entries rfl, htexts, hvalues]
  simp [List.zip_map', Value.dictOfPairs_map_text hkeys]

theorem restores_record {name : String} {rows : List ((FieldInfo × Schema) × Value)}
    {plains : Entries Value} (hnames : (rows.map fun row => row.1.1.name.name).Nodup)
    (hsettable : ∀ row ∈ rows, row.1.1.settable = true) (hkeys : plains.keys.Nodup)
    (h : List.Forall₂ (fun row plain =>
      row.1.1.name.key? options.mappers options.tag = some plain.1 ∧
        options.Restores row.1.2 row.2 plain.2) rows plains) :
    options.Restores (.record ⟨.tagged, name⟩ (rows.map (·.1)))
      (.record ⟨.tagged, name⟩ (rows.map fun row => (row.1.1.name, row.2)))
      (.ofEntries plains) := by
  intro place nullable
  have hsource (row : (FieldInfo × Schema) × Value) (hrow : row ∈ rows) :
      ∃ plain, options.source? row.1.1 (plains.map fun plain => (.text plain.1, plain.2)) =
        some plain ∧ options.Restores row.1.2 row.2 plain := by
    obtain ⟨⟨key, plain⟩, hplain, hkey, hrestores⟩ := exists_of_mem_left h hrow
    refine ⟨plain, ?_, hrestores⟩
    rw [source?, if_pos (hsettable row hrow), hkey, Option.bind_some, Value.entry?_map_text]
    exact Entries.lookup_of_mem hkeys hplain
  have hfields : ∀ field ∈ rows.map (·.1), ∀ value,
      options.source? field.1 (plains.map fun plain => (.text plain.1, plain.2)) = some value →
      ∀ place nullable, Ends (fun _ => False) (options.ReadsBack field.2 value)
        (options.prepareAs place nullable field.2 value) := by
    intro field hfield value hvalue
    obtain ⟨row, hrow, rfl⟩ := List.mem_map.mp hfield
    obtain ⟨plain, hplain, hrestores⟩ := hsource row hrow
    cases hplain.symm.trans hvalue
    exact hrestores.ends_readsBack
  refine (ends_prepareAs_record hoptions ?_ hfields).mono (fun _ h => h) ?_
  · simpa [Fitted.givenName, Function.comp_def] using hnames
  rintro _ ⟨others, rfl, hothers, hgiven⟩
  rw [Schema.value?_record _ _ hothers]
  have hvalues : (rows.map (·.1)).mapM (Schema.fieldValue? .tagged others) =
      some (rows.map (·.2)) := by
    refine mapM_eq_some_iff.mpr ?_
    rw [List.forall₂_map_left_iff, List.forall₂_map_right_iff, List.forall₂_same]
    intro row hrow
    obtain ⟨plain, hplain, hrestores⟩ := hsource row hrow
    have hrel := hgiven row.1 (List.mem_map_of_mem hrow)
    rw [hplain] at hrel
    rw [Schema.fieldValue?]
    generalize Fitted.given? .tagged row.1.1 others = given at hrel
    cases hrel with
    | some hreads => exact hreads _ hrestores
  rw [hvalues]
  simp [List.zip_map']

end Containers

end ExtractOptions

/-! ## There and back -/

section RoundTrip

variable (mappers : List KeyMapper) (tag : String)

/-- What a value is flattened into restores the value. -/
theorem Schema.Holds.restores {type : Schema} {value : Value} (h : type.Holds value)
    (hkeys : type.Everywhere (KeepsFields mappers tag)) (levels : Nat) :
    Ends (fun _ => True)
      (fun plain? => ∃ plain, plain? = some plain ∧
        ({ mappers, tag } : ExtractOptions).Restores type value plain)
      (({ mappers, tag } : FlattenOptions).flattenLevels levels value) := by
  have hoptions := ExtractOptions.unhooked_of_no_refusals
    (show ({ mappers, tag } : ExtractOptions).hooks = [] from rfl) rfl rfl
  induction h generalizing levels with
  | bool value | int value | float value | text value =>
      cases levels with
      | zero => exact .fault trivial
      | succ levels => exact .answer ⟨_, rfl, fun _ _ => .answer rfl⟩
  | absent hmembers =>
      cases levels with
      | zero => exact .fault trivial
      | succ levels => exact .answer ⟨_, rfl, ExtractOptions.restores_absent rfl hmembers⟩
  | @present members type value hmembers hvalue ih =>
      obtain ⟨_, hinside⟩ := hkeys
      refine (ih (hinside type hmembers.mem) levels).mono (fun _ h => h) ?_
      rintro _ ⟨plain, rfl, hplain⟩
      exact ⟨plain, rfl, ExtractOptions.restores_present rfl hmembers hvalue.isNull_eq_false hplain⟩
  | @list item items _ ih =>
      obtain ⟨_, hinside⟩ := hkeys
      cases levels with
      | zero => exact .fault trivial
      | succ levels =>
          refine Ends.bind (Ends.forall₂_filterMapM fun value hvalue =>
            ih value hvalue (hinside item List.mem_cons_self) levels) fun plains hplains => ?_
          exact .answer ⟨_, rfl, ExtractOptions.restores_list hoptions hplains⟩
  | @dict type entries hentries _ ih =>
      obtain ⟨_, hinside⟩ := hkeys
      cases levels with
      | zero => exact .fault trivial
      | succ levels =>
          have htype := hinside type (List.mem_cons_of_mem _ List.mem_cons_self)
          refine Ends.bind (FlattenOptions.ends_entries
            (fun entry hentry => ih entry hentry htype levels) [] hentries) ?_
          rintro _ ⟨plains, rfl, hplains⟩
          exact .answer ⟨_, rfl, ExtractOptions.restores_dict hoptions hentries hplains⟩
  | @record name rows hnames hsettable _ ih =>
      obtain ⟨hhere, hinside⟩ := hkeys
      cases levels with
      | zero => exact .fault trivial
      | succ levels =>
          refine Ends.bind (FlattenOptions.ends_fields
            (R := fun row => ({ mappers, tag } : ExtractOptions).Restores row.1.2 row.2)
            (fun row hrow => hhere row.1 (List.mem_map_of_mem hrow))
            (fun row hrow => ih row hrow (hinside row.1.2 ?_) levels) [] List.nodup_nil) ?_
          · exact List.mem_map_of_mem (List.mem_map_of_mem hrow)
          rintro _ ⟨plains, rfl, hnodup, hplains⟩
          exact .answer ⟨_, rfl,
            ExtractOptions.restores_record hoptions hnames hsettable hnodup hplains⟩

/-- A value that is flattened without leaving a field out is extracted again as it was, by the same
mappers and the same tag. -/
theorem extract_flatten (place : String) {type : Schema} {value : Value} (hvalue : type.Holds value)
    (hkeys : type.Everywhere (Schema.KeepsFields mappers tag)) {plain? : Option Value}
    (hplain : ({ mappers, tag } : FlattenOptions).flatten value = .ok plain?) :
    ∃ plain, plain? = some plain ∧
      ({ mappers, tag } : ExtractOptions).extract place type plain = .ok value := by
  have hends := hvalue.restores mappers tag hkeys (value.depth + FlattenOptions.maxAddedLevels)
  rw [← FlattenOptions.flatten, hplain] at hends
  obtain ⟨plain, rfl, hrestores⟩ := hends.of_ok
  obtain ⟨prepared, hprepared, hvalue⟩ := (hrestores place type.admitsNull).exists_answer
  exact ⟨plain, rfl, (ExtractOptions.extract_eq_ok_iff rfl).mpr ⟨prepared, hprepared, hvalue⟩⟩

/-- A port is kept under its tag, and a missing host under the key that a mapper names. -/
theorem extract_flatten_server :
    let port : FieldName := ⟨"port", .tags [("cfg", "Port")]⟩
    let host : FieldName := ⟨"host", .tags []⟩
    let mappers := [KeyMapper.ofTable [("host", "address")]]
    let type : Schema := .record ⟨.tagged, "Server"⟩
      [({ name := port }, .int), ({ name := host }, .union [.text, .null])]
    let server : Value := .record ⟨.tagged, "Server"⟩ [(port, .int 80), (host, .null)]
    let plain : Value := .dict [(.text "Port", .int 80), (.text "address", .null)]
    type.Holds server ∧ type.Everywhere (Schema.KeepsFields mappers "cfg") ∧
      ({ mappers, tag := "cfg" } : FlattenOptions).flatten server = .ok (some plain) ∧
      ∃ plain', some plain = some plain' ∧
        ({ mappers, tag := "cfg" } : ExtractOptions).extract "" type plain' = .ok server := by
  intro port host mappers type server plain
  have hholds : type.Holds server := by
    refine @Schema.Holds.record "Server" [(({ name := port }, .int), .int 80),
      (({ name := host }, .union [.text, .null]), .null)] (by decide) (by simp) ?_
    simp only [List.forall_mem_cons, List.not_mem_nil, false_implies, implies_true, and_true]
    exact ⟨.int 80, .absent (.inl rfl)⟩
  have hkeys : type.Everywhere (Schema.KeepsFields mappers "cfg") := by
    have hport : port.key? mappers "cfg" = some "Port" := by decide
    have hhost : host.key? mappers "cfg" = some "address" := by decide
    refine .intro (by simp [type, Schema.KeepsFields, hport, hhost]) ?_
    refine List.forall_mem_cons.mpr ⟨.leaf rfl trivial, List.forall_mem_singleton.mpr ?_⟩
    refine .intro trivial (List.forall_mem_cons.mpr ⟨.leaf rfl trivial, ?_⟩)
    exact List.forall_mem_singleton.mpr (.leaf rfl trivial)
  have hflatten :
      ({ mappers, tag := "cfg" } : FlattenOptions).flatten server = .ok (some plain) := rfl
  exact ⟨hholds, hkeys, hflatten, extract_flatten mappers "cfg" "" hholds hkeys hflatten⟩

end RoundTrip

end LayeredConfig
