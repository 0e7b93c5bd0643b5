import LayeredConfig.Proofs.Record.Levels

/-! # Strict flattening

Flattening that refuses what has no form as configuration answers exactly where flattening that
leaves such values out answers without having left one out, and it answers the same. So sources that
are no longer strict add up to the configuration that was accepted before. -/

namespace LayeredConfig

namespace FlattenOptions

/-- The same options, strict or not. -/
def withStrict (options : FlattenOptions) (strict : Bool) : FlattenOptions :=
  { options with strict }

/-- Flattening comes upon a value that has no form as configuration. -/
def Drops (options : FlattenOptions) (value : Value) : Prop :=
  ∃ found, options.Reaches value found ∧ found.isFormless = true

variable {options : FlattenOptions} {flatten other : Value → Except Fault (Option Value)}
  {value found part : Value} {plain? : Option Value} {levels : Nat} {strict : Bool}

/-! ## Steps alike -/

theorem fields_withStrict (owner : String) (kept : Entries Value)
    {rows : List (FieldName × Value)}
    (h : ∀ part ∈ (options.keyed rows).map (·.2), flatten part = other part) :
    (options.withStrict strict).fields owner flatten kept rows =
      options.fields owner other kept rows := by
  induction rows generalizing kept with
  | nil => rw [fields, fields]
  | cons row rest ih =>
      obtain ⟨field, value⟩ := row
      cases hkey : field.key? options.mappers options.tag with
      | none =>
          have hsame : field.key? (options.withStrict strict).mappers
              (options.withStrict strict).tag = none := hkey
          rw [keyed_cons_none hkey] at h
          rw [fields_cons_none hkey, fields_cons_none hsame, ih kept h]
      | some key =>
          have hsame : field.key? (options.withStrict strict).mappers
              (options.withStrict strict).tag = some key := hkey
          rw [keyed_cons_some hkey, List.map_cons, List.forall_mem_cons] at h
          rw [fields_cons_some hkey, fields_cons_some hsame, h.1]
          simp only [ih _ h.2]
          rfl

theorem entries_congr (kept : Entries Value) {pairs : List (Value × Value)}
    (h : ∀ part ∈ pairs.map (·.2), flatten part = other part) :
    entries flatten kept pairs = entries other kept pairs := by
  induction pairs generalizing kept with
  | nil => rfl
  | cons pair rest ih =>
      rw [List.map_cons, List.forall_mem_cons] at h
      rw [entries, entries, h.1]
      simp only [ih _ h.2]

theorem filterMapM_congr {items : List Value} (h : ∀ item ∈ items, flatten item = other item) :
    items.filterMapM flatten = items.filterMapM other := by
  induction items with
  | nil => rfl
  | cons item rest ih =>
      rw [List.forall_mem_cons] at h
      rw [List.filterMapM_cons, List.filterMapM_cons, h.1, ih h.2]

/-- Apart from a value without a form, a step does the same where the same becomes of the parts. -/
theorem step_withStrict (hform : found.isFormless = false)
    (h : ∀ part ∈ options.parts found, flatten part = other part) :
    (options.withStrict strict).step flatten found = options.step other found := by
  unfold step
  split
  · next hconverted => exact (if_pos hconverted).symm
  next hconverted =>
  refine Eq.trans ?_ (if_neg hconverted).symm
  cases found with
  | enum type name integral inner =>
      cases integral with
      | true => rfl
      | false => exact h inner (List.mem_singleton_self inner)
  | record type fields => exact congrArg (· >>= _) (fields_withStrict _ _ h)
  | tree node => exact congrArg (· >>= _) (fields_withStrict _ _ h)
  | dict pairs => exact congrArg (· >>= _) (entries_congr _ h)
  | list items | tuple items => exact congrArg (· >>= _) (filterMapM_congr h)
  | bytes | set | object | typeItself => cases hform
  | _ => rfl

/-! ## All levels -/

theorem flattenLevels_withStrict (strict : Bool) (h : ¬ options.Drops value) (levels : Nat) :
    (options.withStrict strict).flattenLevels levels value =
      options.flattenLevels levels value := by
  induction levels generalizing value with
  | zero => rfl
  | succ levels ih =>
      rw [flattenLevels_succ, flattenLevels_succ]
      change (options.hooked value).bind _ = _
      cases hfound : options.hooked value with
      | error fault => rfl
      | ok found =>
          -- What the value comes upon is the answer of the hooks and what its parts come upon.
          refine step_withStrict ?_ fun part hpart => ih ?_
          · exact Bool.eq_false_iff.mpr fun hformless => h ⟨found, .here hfound, hformless⟩
          · rintro ⟨inner, hinner, hformless⟩
            exact h ⟨inner, .inside hfound hpart hinner, hformless⟩

/-- A strict step has no answer for a value without a form. -/
theorem isFormless_eq_false_of_step (hstrict : options.strict = true)
    (h : options.step flatten found = .ok plain?) : found.isFormless = false := by
  unfold step at h
  split at h
  · cases h
  cases found with
  | bytes | set | object | typeItself => cases h
  | _ => rfl

/-- Strict flattening that comes to an end has not come upon a value without a form. -/
theorem Reaches.isFormless_eq_false (hreaches : options.Reaches value found)
    (hstrict : options.strict = true) (h : options.flattenLevels levels value = .ok plain?) :
    found.isFormless = false := by
  induction hreaches generalizing levels plain? with
  | here hfound =>
      cases levels with
      | zero => cases h
      | succ levels =>
          rw [flattenLevels_succ, hfound] at h
          exact isFormless_eq_false_of_step hstrict h
  | inside hfound hpart _ ih =>
      cases levels with
      | zero => cases h
      | succ levels =>
          obtain ⟨_, hplain⟩ := exists_of_flattenLevels_eq_ok h hfound hpart
          exact ih hplain

theorem not_drops (hstrict : options.strict = true)
    (h : options.flattenLevels levels value = .ok plain?) : ¬ options.Drops value := by
  rintro ⟨found, hreaches, hformless⟩
  rw [hreaches.isFormless_eq_false hstrict h] at hformless
  cases hformless

theorem Formless.drops (h : options.Formless value) : options.Drops value := by
  induction h with
  | here hfound hformless => exact ⟨_, .here hfound, hformless⟩
  | member hfound _ ih =>
      obtain ⟨found, hreaches, hformless⟩ := ih
      exact ⟨found, .inside hfound (List.mem_singleton_self _) hreaches, hformless⟩

theorem Reaches.withStrict (strict : Bool) (h : options.Reaches value found) :
    (options.withStrict strict).Reaches value found := by
  induction h with
  | here hfound => exact .here hfound
  | inside hfound hpart _ ih => exact .inside hfound hpart ih

theorem drops_withStrict : (options.withStrict strict).Drops value ↔ options.Drops value := by
  constructor
  · rintro ⟨found, hreaches, hformless⟩
    exact ⟨found, hreaches.withStrict options.strict, hformless⟩
  · rintro ⟨found, hreaches, hformless⟩
    exact ⟨found, hreaches.withStrict strict, hformless⟩

/-- Strict flattening answers where the other one answers and has left nothing out. -/
theorem flatten_strict_iff :
    (options.withStrict true).flatten value = .ok plain? ↔
      (options.withStrict false).flatten value = .ok plain? ∧ ¬ options.Drops value := by
  constructor
  · intro h
    have hdrops := not_drops rfl h
    refine ⟨?_, drops_withStrict.not.mp hdrops⟩
    exact (flattenLevels_withStrict false hdrops _).trans h
  · rintro ⟨h, hdrops⟩
    have hlenient : ¬ (options.withStrict false).Drops value := drops_withStrict.not.mpr hdrops
    exact (flattenLevels_withStrict true hlenient _).trans h

theorem ne_none_of_flatten_strict (h : (options.withStrict true).flatten value = .ok plain?) :
    plain? ≠ none := by
  rintro rfl
  have hformless := ((endsAt _).settles h).2.mp rfl
  exact not_drops rfl h hformless.drops

end FlattenOptions

end LayeredConfig
