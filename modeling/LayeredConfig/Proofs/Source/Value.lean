import LayeredConfig.Source.Value

/-! # Loading a value

Loading a value produces it, flattens it and puts it below its key. -/

namespace LayeredConfig.ValueSource

/-- The tree of what flattening gives. -/
def placed (source : ValueSource) (delimiter : String) : Option Value → Except Fault Tree
  | none | some .null => .ok .empty
  | some plain => do
    let path ← segments delimiter source.key
    Tree.ofValue [{ source := source.name }] (below path plain)

theorem placed_some (source : ValueSource) (delimiter : String) {plain : Value}
    (h : plain ≠ .null) :
    source.placed delimiter (some plain) = (segments delimiter source.key).bind fun path =>
      Tree.ofValue [{ source := source.name }] (below path plain) := by
  cases plain with
  | null => exact (h rfl).elim
  | _ => rfl

theorem result_load (source : ValueSource) (delimiter : String) (query : Query) :
    ((source.record delimiter).load query).result =
      (source.produce source.name query).result.bind fun value =>
        (source.flattening.flatten value).bind (source.placed delimiter) := by
  rw [record, Traced.result_bind]
  refine congrArg _ (funext fun value => ?_)
  rw [Traced.result_bind]
  refine congrArg _ (funext fun plain? => ?_)
  cases plain? with
  | none => rfl
  | some plain =>
      by_cases hnull : plain = .null
      · subst hnull
        rfl
      rw [placed_some source delimiter hnull]
      cases plain with
      | null => exact (hnull rfl).elim
      | _ =>
          simp only [Traced.result_bind]
          cases segments delimiter source.key <;> rfl

end LayeredConfig.ValueSource
