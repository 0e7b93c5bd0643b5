import LayeredConfig.Proofs.Entries
import LayeredConfig.Proofs.Outcomes
import LayeredConfig.Record.Flatten

/-! # Fields that share a key

Flattening refuses a field whose key is taken already. A key is taken by what was kept under it, so
a field of which nothing is kept does not count: the fields of an instance share a key only behind
such fields, and the refusal is never raised for anything else. -/

namespace LayeredConfig

/-! ## Instances and their parts -/

namespace Value

/-- The fields of an instance of a record type or of a node of a tree. -/
def fields? : Value → Option (List (FieldName × Value))
  | record _ fields => some fields
  | tree node => some node.fieldValues
  | _ => none

/-- A value that has no form as configuration. -/
def isFormless : Value → Bool
  | bytes _ | set _ | object _ | typeItself _ => true
  | _ => false

end Value

namespace FlattenOptions

variable (options : FlattenOptions)

/-- The fields that take part, under their keys. -/
def keyed (fields : List (FieldName × Value)) : List (String × Value) :=
  fields.filterMap fun (field, value) =>
    (field.key? options.mappers options.tag).map fun key => (key, value)

/-- The values inside a value with which flattening goes on. -/
def parts : Value → List Value
  | .enum _ _ false inner => [inner]
  | .record _ fields => (options.keyed fields).map (·.2)
  | .tree node => (options.keyed node.fieldValues).map (·.2)
  | .dict entries => entries.map (·.2)
  | .list items | .tuple items => items
  | _ => []

/-- What flattening a value comes upon, each value as the hooks answer for it. -/
inductive Reaches : Value → Value → Prop
  | here {value found : Value} (h : options.hooked value = .ok found) : Reaches value found
  | inside {value found part inner : Value} (h : options.hooked value = .ok found)
      (hpart : part ∈ options.parts found) (hinner : Reaches part inner) : Reaches value inner

/-- A value of which nothing is kept, be it in an enumeration. -/
inductive Formless : Value → Prop
  | here {value found : Value} (h : options.hooked value = .ok found)
      (hformless : found.isFormless = true) : Formless value
  | member {value inner : Value} {type name : String}
      (h : options.hooked value = .ok (.enum type name false inner))
      (hinner : Formless inner) : Formless value

/-- Two fields have one key, and there is something to keep of the first. -/
def Shares (fields : List (FieldName × Value)) (key : String) : Prop :=
  ∃ first second, [(key, first), (key, second)].Sublist (options.keyed fields) ∧
    ¬ options.Formless first

variable {options}

/-! ## The fields of one instance -/

section Fields

variable {owner : String} {flatten : Value → Except Fault (Option Value)}
  {kept final : Entries Value}
  {field : FieldName} {value : Value} {rows : List (FieldName × Value)} {key : String}

theorem keyed_cons_none (h : field.key? options.mappers options.tag = none) :
    options.keyed ((field, value) :: rows) = options.keyed rows := by
  simp [keyed, h]

theorem keyed_cons_some (h : field.key? options.mappers options.tag = some key) :
    options.keyed ((field, value) :: rows) = (key, value) :: options.keyed rows := by
  simp [keyed, h]

theorem fields_cons_none (h : field.key? options.mappers options.tag = none) :
    options.fields owner flatten kept ((field, value) :: rows) =
      options.fields owner flatten kept rows := by
  conv_lhs => unfold fields
  simp only [h]

theorem fields_cons_some (h : field.key? options.mappers options.tag = some key) :
    options.fields owner flatten kept ((field, value) :: rows) =
      if key ∈ kept.keys then .error (.fieldsShareKey key)
      else if value matches .null && options.refuseUnset then .error (.fieldIsNull owner field.name)
      else (flatten value).bind fun plain? =>
        options.fields owner flatten (keep key plain? kept) rows := by
  conv_lhs => unfold fields
  simp only [h, Entries.has, Entries.get?, Entries.lookup_isSome_iff]
  rfl

theorem mem_keys_keep {other : String} {plain? : Option Value} :
    other ∈ (keep key plain? kept).keys ↔
      other ∈ kept.keys ∨ other = key ∧ plain?.isSome = true := by
  cases plain? with
  | none => simp [keep]
  | some plain =>
      rw [keep, Entries.keys_set]
      split
      · next hmem =>
        simp only [Option.isSome_some, and_true]
        exact ⟨.inl, fun h => h.elim id fun heq => heq ▸ hmem⟩
      · simp

theorem fields_append (rows more : List (FieldName × Value)) :
    options.fields owner flatten kept (rows ++ more) =
      (options.fields owner flatten kept rows).bind fun kept =>
        options.fields owner flatten kept more := by
  induction rows generalizing kept with
  | nil =>
      rw [List.nil_append, fields]
      rfl
  | cons row rest ih =>
      obtain ⟨field, value⟩ := row
      rw [List.cons_append]
      cases hkey : field.key? options.mappers options.tag with
      | none => rw [fields_cons_none hkey, fields_cons_none hkey, ih]
      | some key =>
          rw [fields_cons_some hkey, fields_cons_some hkey]
          split_ifs
          · rfl
          · rfl
          · cases flatten value with
            | error fault => rfl
            | ok plain? => exact ih

/-- A field is passed by if it takes no part; else its key is free and its value is flattened. -/
theorem of_fields_cons_eq_ok {row : FieldName × Value}
    (h : options.fields owner flatten kept (row :: rows) = .ok final) :
    (options.keyed (row :: rows) = options.keyed rows ∧
        options.fields owner flatten kept rows = .ok final) ∨
      ∃ key plain?, options.keyed (row :: rows) = (key, row.2) :: options.keyed rows ∧
        key ∉ kept.keys ∧ flatten row.2 = .ok plain? ∧
        options.fields owner flatten (keep key plain? kept) rows = .ok final := by
  obtain ⟨field, value⟩ := row
  cases hkey : field.key? options.mappers options.tag with
  | none =>
      rw [fields_cons_none hkey] at h
      exact .inl ⟨keyed_cons_none hkey, h⟩
  | some key =>
      rw [fields_cons_some hkey] at h
      split_ifs at h with hfree
      obtain ⟨plain?, hplain, h⟩ := exists_of_bind_eq_ok h
      exact .inr ⟨key, plain?, keyed_cons_some hkey, hfree, hplain, h⟩

/-- What is kept for the fields of an instance is kept under keys that were not taken. If two fields
have one key, nothing is kept of the first. -/
theorem of_fields_eq_ok (h : options.fields owner flatten kept rows = .ok final) :
    (∀ row ∈ options.keyed rows, row.1 ∉ kept.keys ∧ ∃ plain?, flatten row.2 = .ok plain?) ∧
      (options.keyed rows).Pairwise fun first second =>
        first.1 = second.1 → flatten first.2 = .ok none := by
  induction rows generalizing kept with
  | nil => exact ⟨fun _ hrow => (List.not_mem_nil hrow).elim, .nil⟩
  | cons row rest ih =>
      rcases of_fields_cons_eq_ok h with ⟨hkeyed, h⟩ | ⟨key, plain?, hkeyed, hfree, hplain, h⟩
      · rw [hkeyed]
        exact ih h
      · obtain ⟨hrest, hpairs⟩ := ih h
        rw [hkeyed]
        refine ⟨List.forall_mem_cons.mpr ⟨⟨hfree, plain?, hplain⟩, fun row hrow => ?_⟩,
          List.pairwise_cons.mpr ⟨fun second hsecond heq => ?_, hpairs⟩⟩
        · obtain ⟨hnew, hanswer⟩ := hrest row hrow
          exact ⟨fun hmem => hnew (mem_keys_keep.mpr (.inl hmem)), hanswer⟩
        · cases plain? with
          | none => exact hplain
          | some plain =>
              have hnew := (hrest second hsecond).1
              exact (hnew (mem_keys_keep.mpr (.inr ⟨heq.symm, rfl⟩))).elim

/-- A key is refused by the value of a field, because it was taken before, or because of an earlier
field of which something was kept. -/
theorem of_fields_eq_fieldsShareKey
    (h : options.fields owner flatten kept rows = .error (.fieldsShareKey key)) :
    (∃ row ∈ options.keyed rows, flatten row.2 = .error (.fieldsShareKey key)) ∨
      (∃ row ∈ options.keyed rows, row.1 = key ∧ key ∈ kept.keys) ∨
        ∃ first second plain, [(key, first), (key, second)].Sublist (options.keyed rows) ∧
          flatten first = .ok (some plain) := by
  induction rows generalizing kept with
  | nil =>
      rw [fields] at h
      cases h
  | cons row rest ih =>
      obtain ⟨field, value⟩ := row
      cases hkey : field.key? options.mappers options.tag with
      | none =>
          rw [fields_cons_none hkey] at h
          rw [keyed_cons_none hkey]
          exact ih h
      | some other =>
          rw [fields_cons_some hkey] at h
          rw [keyed_cons_some hkey]
          split_ifs at h with htaken
          · cases h
            exact .inr (.inl ⟨_, List.mem_cons_self, rfl, htaken⟩)
          · cases h
          cases hplain : flatten value with
          | error fault =>
              rw [hplain] at h
              cases h
              exact .inl ⟨_, List.mem_cons_self, hplain⟩
          | ok plain? =>
              rw [hplain] at h
              rcases ih h with ⟨row, hrow, hfault⟩ | ⟨⟨_, second⟩, hrow, rfl, hmem⟩ |
                ⟨first, second, plain, hpair, hfirst⟩
              · exact .inl ⟨row, List.mem_cons_of_mem _ hrow, hfault⟩
              · rcases mem_keys_keep.mp hmem with hmem | ⟨rfl, hsome⟩
                · exact .inr (.inl ⟨_, List.mem_cons_of_mem _ hrow, rfl, hmem⟩)
                · obtain ⟨plain, rfl⟩ := Option.isSome_iff_exists.mp hsome
                  exact .inr (.inr ⟨value, second, plain,
                    (List.singleton_sublist.mpr hrow).cons_cons _, hplain⟩)
              · exact .inr (.inr ⟨first, second, plain, hpair.cons _, hfirst⟩)

/-- What was kept before stays, and what there is of the fields is kept under their keys. -/
theorem mem_keys_of_fields_eq_ok (h : options.fields owner flatten kept rows = .ok final) :
    (∀ key ∈ kept.keys, key ∈ final.keys) ∧
      ∀ row ∈ options.keyed rows, ∀ plain, flatten row.2 = .ok (some plain) →
        row.1 ∈ final.keys := by
  induction rows generalizing kept with
  | nil =>
      rw [fields] at h
      cases h
      exact ⟨fun _ hkey => hkey, fun _ hrow => (List.not_mem_nil hrow).elim⟩
  | cons row rest ih =>
      rcases of_fields_cons_eq_ok h with ⟨hkeyed, h⟩ | ⟨key, plain?, hkeyed, _, hplain, h⟩
      · rw [hkeyed]
        exact ih h
      · obtain ⟨hkept, hrest⟩ := ih h
        rw [hkeyed]
        refine ⟨fun key hmem => hkept key (mem_keys_keep.mpr (.inl hmem)),
          List.forall_mem_cons.mpr ⟨fun plain hvalue => ?_, hrest⟩⟩
        cases hplain.symm.trans hvalue
        exact hkept key (mem_keys_keep.mpr (.inr ⟨rfl, rfl⟩))

/-- A field whose key was taken by an earlier one is refused, unless a field before it fails. -/
theorem fields_shared {before after : List (FieldName × Value)} {first plain : Value}
    {second : FieldName × Value} (hfirst : (key, first) ∈ options.keyed before)
    (hplain : flatten first = .ok (some plain))
    (hsecond : second.1.key? options.mappers options.tag = some key) :
    options.fields owner flatten kept (before ++ second :: after) =
      (options.fields owner flatten kept before).bind fun _ => .error (.fieldsShareKey key) := by
  rw [fields_append]
  cases hbefore : options.fields owner flatten kept before with
  | error fault => rfl
  | ok between =>
      have htaken := (mem_keys_of_fields_eq_ok hbefore).2 _ hfirst plain hplain
      exact (fields_cons_some hsecond).trans (if_pos htaken)

end Fields

/-! ## Containers -/

section Containers

variable {flatten : Value → Except Fault (Option Value)}

/-- Every value of a dictionary is flattened, unless one of them fails. -/
theorem ends_entries_each (kept : Entries Value) (pairs : List (Value × Value)) :
    Ends (fun fault => ∃ pair ∈ pairs, flatten pair.2 = .error fault)
      (fun _ => ∀ pair ∈ pairs, ∃ plain?, flatten pair.2 = .ok plain?)
      (entries flatten kept pairs) := by
  induction pairs generalizing kept with
  | nil => exact .answer fun _ hpair => (List.not_mem_nil hpair).elim
  | cons pair rest ih =>
      obtain ⟨key, value⟩ := pair
      rw [entries]
      cases hplain : flatten value with
      | error fault => exact .fault ⟨_, List.mem_cons_self, hplain⟩
      | ok plain? =>
          refine (ih (keep key.toText plain? kept)).mono ?_ fun _ hrest => ?_
          · rintro fault ⟨pair, hpair, hfault⟩
            exact ⟨pair, List.mem_cons_of_mem _ hpair, hfault⟩
          · exact List.forall_mem_cons.mpr ⟨⟨plain?, hplain⟩, hrest⟩

/-- Every item of a list is flattened, unless one of them fails. -/
theorem ends_filterMapM_each (items : List Value) :
    Ends (fun fault => ∃ item ∈ items, flatten item = .error fault)
      (fun _ => ∀ item ∈ items, ∃ plain?, flatten item = .ok plain?)
      (items.filterMapM flatten) := by
  induction items with
  | nil => exact .answer fun _ hitem => (List.not_mem_nil hitem).elim
  | cons item rest ih =>
      rw [List.filterMapM_cons]
      cases hplain : flatten item with
      | error fault => exact .fault ⟨_, List.mem_cons_self, hplain⟩
      | ok plain? =>
          have hrest : Ends (fun fault => ∃ other ∈ item :: rest, flatten other = .error fault)
              (fun _ => ∀ other ∈ item :: rest, ∃ plain?, flatten other = .ok plain?)
              (rest.filterMapM flatten) := by
            refine ih.mono ?_ fun _ hrest => ?_
            · rintro fault ⟨other, hother, hfault⟩
              exact ⟨other, List.mem_cons_of_mem _ hother, hfault⟩
            · exact List.forall_mem_cons.mpr ⟨⟨plain?, hplain⟩, hrest⟩
          cases plain? with
          | none => exact hrest
          | some plain => exact hrest.bind fun _ hall => .answer hall

end Containers

/-! ## Values at every level -/

variable {value found part inner : Value}

/-- Hooks cannot refuse a field: their faults are passed on or wrapped by another kind. -/
theorem hooked_ne_fieldsShareKey (value : Value) (key : String) :
    options.hooked value ≠ .error (.fieldsShareKey key) := by
  have hends : Ends (fun fault => fault ≠ .fieldsShareKey key) (fun _ => True)
      (options.hooked value) := by
    refine Ends.foldlM trivial fun value _ hook _ => ?_
    cases hook (Schema.ofValue value) value with
    | ok found => exact .answer trivial
    | error fault =>
        refine .fault ?_
        split_ifs with hclass
        · rintro rfl
          cases hclass
        · exact nofun
  exact fun h => (h ▸ hends).of_error rfl

theorem formless_iff (h : options.hooked value = .ok found) :
    options.Formless value ↔ found.isFormless = true ∨
      ∃ type name inner, found = .enum type name false inner ∧ options.Formless inner := by
  constructor
  · intro hformless
    cases hformless with
    | here hfound hformless =>
        cases h.symm.trans hfound
        exact .inl hformless
    | member hfound hinner =>
        cases h.symm.trans hfound
        exact .inr ⟨_, _, _, rfl, hinner⟩
  · rintro (hformless | ⟨type, name, inner, rfl, hinner⟩)
    · exact .here h hformless
    · exact .member h hinner

theorem Reaches.eq_or_inside (h : options.Reaches value inner)
    (hfound : options.hooked value = .ok found) :
    inner = found ∨ ∃ part ∈ options.parts found, options.Reaches part inner := by
  cases h with
  | here h =>
      cases hfound.symm.trans h
      exact .inl rfl
  | inside h hpart hinner =>
      cases hfound.symm.trans h
      exact .inr ⟨_, hpart, hinner⟩

variable (options)

/-- Some instance that flattening comes upon has two fields that share a key. -/
def SharesBelow (value : Value) (key : String) : Prop :=
  ∃ found fields, options.Reaches value found ∧ found.fields? = some fields ∧
    options.Shares fields key

variable {options}

theorem SharesBelow.inside {key : String} (hfound : options.hooked value = .ok found)
    (hpart : part ∈ options.parts found) (h : options.SharesBelow part key) :
    options.SharesBelow value key := by
  obtain ⟨inner, fields, hinner, hfields, hshares⟩ := h
  exact ⟨inner, fields, .inside hfound hpart hinner, hfields, hshares⟩

theorem sharesBelow_iff {key : String} (hfound : options.hooked value = .ok found) :
    options.SharesBelow value key ↔
      (∃ fields, found.fields? = some fields ∧ options.Shares fields key) ∨
        ∃ part ∈ options.parts found, options.SharesBelow part key := by
  constructor
  · rintro ⟨inner, fields, hinner, hfields, hshares⟩
    rcases hinner.eq_or_inside hfound with rfl | ⟨part, hpart, hinner⟩
    · exact .inl ⟨fields, hfields, hshares⟩
    · exact .inr ⟨part, hpart, inner, fields, hinner, hfields, hshares⟩
  · rintro (⟨fields, hfields, hshares⟩ | ⟨part, hpart, hinner⟩)
    · exact ⟨found, fields, .here hfound, hfields, hshares⟩
    · exact hinner.inside hfound hpart

/-! ## Flattening -/

variable (options)

/-- A field is refused only where two fields share its key. -/
def Blames (value : Value) (fault : Fault) : Prop :=
  ∀ key, fault = .fieldsShareKey key → options.SharesBelow value key

/-- No two fields share a key, and nothing is kept exactly of what is formless. -/
def Settles (value : Value) (plain? : Option Value) : Prop :=
  (∀ key, ¬ options.SharesBelow value key) ∧ (plain? = none ↔ options.Formless value)

/-- What flattening ends with, level by level. -/
def EndsAt (levels : Nat) : Prop :=
  ∀ value, Ends (options.Blames value) (options.Settles value) (options.flattenLevels levels value)

variable {options}

theorem not_sharesBelow (hfound : options.hooked value = .ok found)
    (hfields : found.fields? = none)
    (hparts : ∀ part ∈ options.parts found, ∃ plain?, options.Settles part plain?) (key : String) :
    ¬ options.SharesBelow value key := by
  intro hbelow
  rcases (sharesBelow_iff hfound).mp hbelow with ⟨fields, hsome, _⟩ | ⟨part, hpart, hbelow⟩
  · cases hfields.symm.trans hsome
  · obtain ⟨_, hsettles⟩ := hparts part hpart
    exact hsettles.1 key hbelow

theorem settles_some {plain : Value} (hfound : options.hooked value = .ok found)
    (hfields : found.fields? = none)
    (hparts : ∀ part ∈ options.parts found, ∃ plain?, options.Settles part plain?)
    (hformless : ¬ options.Formless value) : options.Settles value (some plain) :=
  ⟨not_sharesBelow hfound hfields hparts, by simp [hformless]⟩

/-- A member of an enumeration is what its value is. -/
theorem settles_member {type name : String} {plain? : Option Value}
    (hfound : options.hooked value = .ok (.enum type name false inner))
    (h : options.Settles inner plain?) : options.Settles value plain? := by
  refine ⟨not_sharesBelow hfound rfl (List.forall_mem_singleton.mpr ⟨plain?, h⟩), h.2.trans ?_⟩
  rw [formless_iff hfound]
  constructor
  · exact fun hinner => .inr ⟨type, name, inner, rfl, hinner⟩
  · rintro (hformless | ⟨_, _, _, heq, hinner⟩)
    · cases hformless
    · cases heq
      exact hinner

theorem blames_of_part {fault : Fault} (hfound : options.hooked value = .ok found)
    (hpart : part ∈ options.parts found) (h : options.Blames part fault) :
    options.Blames value fault :=
  fun key heq => (h key heq).inside hfound hpart

theorem EndsAt.settles {levels : Nat} (h : options.EndsAt levels) {plain? : Option Value}
    (hplain : options.flattenLevels levels part = .ok plain?) : options.Settles part plain? :=
  (hplain ▸ h part).of_ok

theorem EndsAt.blames {levels : Nat} (h : options.EndsAt levels) {fault : Fault}
    (hfault : options.flattenLevels levels part = .error fault) : options.Blames part fault :=
  (hfault ▸ h part).of_error

theorem EndsAt.not_formless {levels : Nat} (h : options.EndsAt levels) {plain : Value}
    (hplain : options.flattenLevels levels part = .ok (some plain)) : ¬ options.Formless part :=
  fun hformless => nomatch (h.settles hplain).2.mpr hformless

section Step

variable {levels : Nat} (h : options.EndsAt levels) (hfound : options.hooked value = .ok found)
  (hformless : ¬ options.Formless value)

include h hfound hformless

/-- The fields of an instance share no key if all of them are flattened. -/
theorem EndsAt.instance {fields : List (FieldName × Value)} (hfields : found.fields? = some fields)
    (hparts : options.parts found = (options.keyed fields).map (·.2)) (owner : String) :
    Ends (options.Blames value) (options.Settles value)
      ((options.fields owner (options.flattenLevels levels) [] fields).bind fun kept =>
        .ok (some (.ofEntries kept))) := by
  have hmem {row : String × Value} (hrow : row ∈ options.keyed fields) :
      row.2 ∈ options.parts found := hparts ▸ List.mem_map_of_mem hrow
  cases hkept : options.fields owner (options.flattenLevels levels) [] fields with
  | ok kept =>
      obtain ⟨hrows, hpairs⟩ := of_fields_eq_ok hkept
      refine .answer ⟨fun key hbelow => ?_, by simp [hformless]⟩
      rcases (sharesBelow_iff hfound).mp hbelow with ⟨_, hsome, hshares⟩ | ⟨part, hpart, hbelow⟩
      · cases hfields.symm.trans hsome
        obtain ⟨first, second, hpair, hfirst⟩ := hshares
        have hnone := h.settles (hpairs.forall_sublist hpair rfl)
        exact hfirst (hnone.2.mp rfl)
      · rw [hparts] at hpart
        obtain ⟨row, hrow, rfl⟩ := List.mem_map.mp hpart
        obtain ⟨_, hplain⟩ := (hrows row hrow).2
        exact (h.settles hplain).1 key hbelow
  | error fault =>
      refine .fault ?_
      rintro key rfl
      rcases of_fields_eq_fieldsShareKey hkept with ⟨row, hrow, hfault⟩ | ⟨_, _, _, htaken⟩ |
        ⟨first, second, plain, hpair, hplain⟩
      · exact (h.blames hfault key rfl).inside hfound (hmem hrow)
      · exact (List.not_mem_nil htaken).elim
      · have hfirst := h.not_formless hplain
        exact (sharesBelow_iff hfound).mpr (.inl ⟨fields, hfields, first, second, hpair, hfirst⟩)

theorem EndsAt.dictionary {pairs : List (Value × Value)} (hfields : found.fields? = none)
    (hparts : options.parts found = pairs.map (·.2)) :
    Ends (options.Blames value) (options.Settles value)
      ((entries (options.flattenLevels levels) [] pairs).bind fun kept =>
        .ok (some (.ofEntries kept))) := by
  refine Ends.bind ((ends_entries_each [] pairs).mono ?_ fun _ hall => hall) fun kept hall => ?_
  · rintro fault ⟨pair, hpair, hfault⟩
    exact blames_of_part hfound (hparts ▸ List.mem_map_of_mem hpair) (h.blames hfault)
  · refine .answer (settles_some hfound hfields ?_ hformless)
    rw [hparts]
    intro part hpart
    obtain ⟨pair, hpair, rfl⟩ := List.mem_map.mp hpart
    obtain ⟨plain?, hplain⟩ := hall pair hpair
    exact ⟨plain?, h.settles hplain⟩

theorem EndsAt.sequence {items : List Value} (hfields : found.fields? = none)
    (hparts : options.parts found = items) :
    Ends (options.Blames value) (options.Settles value)
      ((items.filterMapM (options.flattenLevels levels)).bind fun kept =>
        .ok (some (.list kept))) := by
  refine Ends.bind ((ends_filterMapM_each items).mono ?_ fun _ hall => hall) fun kept hall => ?_
  · rintro fault ⟨item, hitem, hfault⟩
    exact blames_of_part hfound (hparts ▸ hitem) (h.blames hfault)
  · refine .answer (settles_some hfound hfields ?_ hformless)
    rw [hparts]
    intro item hitem
    obtain ⟨plain?, hplain⟩ := hall item hitem
    exact ⟨plain?, h.settles hplain⟩

end Step

theorem endsAt (levels : Nat) : options.EndsAt levels := by
  induction levels with
  | zero => exact fun value => .fault nofun
  | succ levels ih =>
      intro value
      rw [flattenLevels]
      cases hfound : options.hooked value with
      | error fault =>
          refine .fault ?_
          rintro key rfl
          exact (hooked_ne_fieldsShareKey value key hfound).elim
      | ok found =>
          change Ends _ _ (if !options.weak && found.isConverted then _ else _)
          by_cases hconverted : (!options.weak && found.isConverted) = true
          · rw [if_pos hconverted]
            exact .fault nofun
          rw [if_neg hconverted]
          have hformless (h : found.isFormless = false)
              (hmember : ∀ type name inner, found ≠ .enum type name false inner) :
              ¬ options.Formless value := by
            rw [formless_iff hfound, h]
            rintro (h | ⟨type, name, inner, heq, _⟩)
            · cases h
            · exact hmember type name inner heq
          cases found with
          | enum type name integral inner =>
              cases integral with
              | true =>
                  exact .answer (settles_some hfound rfl
                    (fun _ hpart => (List.not_mem_nil hpart).elim) (hformless rfl nofun))
              | false =>
                  exact (ih inner).mono (fun _ => blames_of_part hfound (List.mem_singleton_self _))
                    fun _ => settles_member hfound
          | record type fields => exact ih.instance hfound (hformless rfl nofun) rfl rfl _
          | tree node => exact ih.instance hfound (hformless rfl nofun) rfl rfl _
          | dict pairs => exact ih.dictionary hfound (hformless rfl nofun) rfl rfl
          | list items => exact ih.sequence hfound (hformless rfl nofun) rfl rfl
          | tuple items => exact ih.sequence hfound (hformless rfl nofun) rfl rfl
          | bytes | set | object | typeItself =>
              change Ends _ _ (if options.strict then _ else _)
              split
              · exact .fault nofun
              · have hnone := not_sharesBelow hfound rfl fun _ hpart =>
                  (List.not_mem_nil hpart).elim
                exact .answer ⟨hnone, fun _ => .here hfound rfl, fun _ => rfl⟩
          | _ =>
              exact .answer (settles_some hfound rfl
                (fun _ hpart => (List.not_mem_nil hpart).elim) (hformless rfl nofun))

/-- Two fields do not share a key unless nothing is kept of the first. If a value is flattened, no
instance that is come upon has such fields, and if one has, flattening fails; it refuses a key for
no other reason. In the instance itself the second field is refused, unless a field before it fails
earlier. -/
theorem flatten_shared_keys (options : FlattenOptions) (value : Value) :
    (∀ plain?, options.flatten value = .ok plain? → ∀ key, ¬ options.SharesBelow value key) ∧
      (∀ key, options.SharesBelow value key → ∃ fault, options.flatten value = .error fault) ∧
      (∀ key, options.flatten value = .error (.fieldsShareKey key) →
        options.SharesBelow value key) ∧
      ∀ owner levels key before first plain second after,
        (key, first) ∈ options.keyed before →
        options.flattenLevels levels first = .ok (some plain) →
        second.1.key? options.mappers options.tag = some key →
        options.fields owner (options.flattenLevels levels) [] (before ++ second :: after) =
          (options.fields owner (options.flattenLevels levels) [] before).bind fun _ =>
            .error (.fieldsShareKey key) := by
  have hends : options.EndsAt (value.depth + maxAddedLevels) := endsAt _
  refine ⟨fun plain? hplain => (hends.settles hplain).1, fun key hbelow => ?_,
    fun key hfault => hends.blames hfault key rfl,
    fun owner levels key before first plain second after hfirst hplain hsecond =>
      fields_shared hfirst hplain hsecond⟩
  cases hplain : options.flatten value with
  | error fault => exact ⟨fault, rfl⟩
  | ok plain? => exact ((hends.settles hplain).1 key hbelow).elim

/-- The second of two numbers that are mapped to one key is refused, also in a list. -/
theorem flatten_shared_keys_numbers :
    let options : FlattenOptions := { mappers := [.ofTable [("a", "k"), ("b", "k")]] }
    let pair : Value := .record ⟨.tagged, "Pair"⟩ [(.bare "a", .int 1), (.bare "b", .int 2)]
    let single : Value := .record ⟨.tagged, "Single"⟩ [(.bare "a", .int 1)]
    options.flatten (.list [single]) = .ok (some (.list [.ofEntries [("k", .int 1)]])) ∧
      (∀ key, ¬ options.SharesBelow (.list [single]) key) ∧
      options.flatten (.list [pair]) = .error (.fieldsShareKey "k") ∧
      options.SharesBelow (.list [pair]) "k" ∧
      (∃ fault, options.flatten (.list [pair]) = .error fault) ∧
      options.fields "Pair" (options.flattenLevels 1) []
          ([(.bare "a", .int 1)] ++ (.bare "b", .int 2) :: []) =
        (options.fields "Pair" (options.flattenLevels 1) [] [(.bare "a", .int 1)]).bind fun _ =>
          .error (.fieldsShareKey "k") := by
  intro options pair single
  have hplain : options.flatten (.list [single]) =
      .ok (some (.list [.ofEntries [("k", .int 1)]])) := rfl
  have hfault : options.flatten (.list [pair]) = .error (.fieldsShareKey "k") := rfl
  obtain ⟨-, hfails, hblames, hlocal⟩ := flatten_shared_keys options (.list [pair])
  have hbelow := hblames "k" hfault
  exact ⟨hplain, (flatten_shared_keys options (.list [single])).1 _ hplain, hfault, hbelow,
    hfails "k" hbelow, hlocal "Pair" 1 "k" _ (.int 1) (.int 1) _ _ List.mem_cons_self rfl rfl⟩

/-- A field of which nothing is kept leaves its key to the next one. -/
theorem flatten_key_of_dropped_field :
    let options : FlattenOptions := { mappers := [.ofTable [("a", "k"), ("b", "k")]] }
    let fields : List (FieldName × Value) :=
      [(.bare "a", .object "Handle"), (.bare "b", .int 1)]
    options.keyed fields = [("k", .object "Handle"), ("k", .int 1)] ∧
      options.flatten (.record ⟨.tagged, "Pair"⟩ fields) =
        .ok (some (.ofEntries [("k", .int 1)])) :=
  ⟨rfl, rfl⟩

end FlattenOptions

end LayeredConfig
