import LayeredConfig.Proofs.Record.SharedKeys

/-! # Flattening level by level

One step of flattening takes what the hooks answer for a value and what becomes of the parts inside
it. A step succeeds only if all parts are flattened, it does the same where the same becomes of the
parts, and parts have fewer levels than the value. -/

namespace LayeredConfig

/-! ## Levels -/

namespace Value

end Value

namespace Tree

end Tree

namespace FlattenOptions

variable {options : FlattenOptions} {flatten other : Value → Except Fault (Option Value)}
  {value found part : Value} {plain? : Option Value} {levels : Nat}

variable (options) in
/-- What becomes of a value that the hooks answer with, its parts flattened by `flatten`. -/
def step (flatten : Value → Except Fault (Option Value)) (value : Value) :
    Except Fault (Option Value) :=
  if !options.weak && value.isConverted then .error (.conversionNeedsHook value.typeName)
  else
    match value with
    | .enum _ _ false inner => flatten inner
    | .record type fields => return some (.ofEntries (← options.fields type.name flatten [] fields))
    | .tree node =>
      return some (.ofEntries (← options.fields value.typeName flatten [] node.fieldValues))
    | .dict pairs => return some (.ofEntries (← entries flatten [] pairs))
    | .list items | .tuple items => return some (.list (← items.filterMapM flatten))
    | .bytes _ | .set _ | .object _ | .typeItself _ =>
      if options.strict then .error (.notConfiguration value.typeName) else .ok none
    | value => .ok (some value)

theorem flattenLevels_succ (levels : Nat) (value : Value) :
    options.flattenLevels (levels + 1) value =
      (options.hooked value).bind (options.step (options.flattenLevels levels)) := by
  rw [flattenLevels]
  cases options.hooked value with
  | error fault => rfl
  | ok found =>
      change (if !options.weak && found.isConverted then _ else _) = step _ _ found
      unfold step
      split
      · rfl
      · cases found with
        | enum type name integral inner => cases integral <;> rfl
        | _ => rfl

/-- Where a step succeeds, every part has been flattened. -/
theorem exists_of_step_eq_ok (h : options.step flatten found = .ok plain?)
    (hpart : part ∈ options.parts found) : ∃ plain?, flatten part = .ok plain? := by
  unfold step at h
  split at h
  · cases h
  cases found with
  | enum type name integral inner =>
      cases integral with
      | true => cases hpart
      | false =>
          cases List.mem_singleton.mp hpart
          exact ⟨plain?, h⟩
  | record type fields =>
      obtain ⟨kept, hkept, -⟩ := exists_of_bind_eq_ok h
      obtain ⟨row, hrow, rfl⟩ := List.mem_map.mp hpart
      exact ((of_fields_eq_ok hkept).1 row hrow).2
  | tree node =>
      obtain ⟨kept, hkept, -⟩ := exists_of_bind_eq_ok h
      obtain ⟨row, hrow, rfl⟩ := List.mem_map.mp hpart
      exact ((of_fields_eq_ok hkept).1 row hrow).2
  | dict pairs =>
      obtain ⟨kept, hkept, -⟩ := exists_of_bind_eq_ok h
      obtain ⟨pair, hpair, rfl⟩ := List.mem_map.mp hpart
      exact (hkept ▸ ends_entries_each [] pairs).of_ok pair hpair
  | list items | tuple items =>
      obtain ⟨kept, hkept, -⟩ := exists_of_bind_eq_ok h
      exact (hkept ▸ ends_filterMapM_each items).of_ok part hpart
  | _ => cases hpart

theorem exists_of_flattenLevels_eq_ok (h : options.flattenLevels (levels + 1) value = .ok plain?)
    (hfound : options.hooked value = .ok found) (hpart : part ∈ options.parts found) :
    ∃ plain?, options.flattenLevels levels part = .ok plain? := by
  rw [flattenLevels_succ, hfound] at h
  exact exists_of_step_eq_ok h hpart

end FlattenOptions

end LayeredConfig
