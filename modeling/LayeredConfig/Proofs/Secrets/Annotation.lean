import LayeredConfig.Tree.Secret

/-! # Annotated keys

A key that ends in the annotation spells the name in front of it, and any other key spells
itself. -/

namespace LayeredConfig

/-- What a key spells: a name with the annotation behind it, or itself where there is none. -/
def Spells (key name : String) (annotated : Bool) : Prop :=
  if annotated then key = name ++ secretEnding
  else key = name ∧ ∀ front, key ≠ front ++ secretEnding

theorem splitSecret_append_secretEnding (name : String) :
    splitSecret (name ++ secretEnding) = (name, true) := by
  have hchars : (name ++ secretEnding).toList = name.toList ++ secretEnding.toList :=
    String.toList_append
  have hname : Text.dropEnd? secretEnding.toList (name ++ secretEnding).toList =
      some name.toList := by
    rw [hchars, Text.dropEnd?, if_pos (List.isSuffixOf_iff_suffix.mpr (List.suffix_append _ _))]
    simp
  rw [splitSecret, hname]
  simp

theorem splitSecret_eq {key : String} (h : (splitSecret key).2 = false) :
    splitSecret key = (key, false) := by
  unfold splitSecret at h ⊢
  split at h
  · exact nomatch h
  · rfl

theorem exists_of_splitSecret {key : String} (h : (splitSecret key).2 = true) :
    ∃ front, key = front ++ secretEnding := by
  unfold splitSecret at h
  split at h
  · next name hname =>
    rw [Text.dropEnd?] at hname
    split at hname
    · next hsuffix =>
      obtain ⟨front, hfront⟩ := List.isSuffixOf_iff_suffix.mp hsuffix
      refine ⟨String.ofList front, String.toList_inj.mp ?_⟩
      rw [String.toList_append, String.toList_ofList, hfront]
    · exact nomatch hname
  · exact nomatch h

theorem ne_append_of_splitSecret {key : String} (h : (splitSecret key).2 = false)
    (front : String) : key ≠ front ++ secretEnding := by
  rintro rfl
  rw [splitSecret_append_secretEnding] at h
  exact nomatch h

theorem spells_splitSecret (key : String) :
    Spells key (splitSecret key).1 (splitSecret key).2 := by
  cases h : (splitSecret key).2 with
  | true =>
      obtain ⟨front, rfl⟩ := exists_of_splitSecret h
      rw [splitSecret_append_secretEnding]
      rfl
  | false => exact ⟨congrArg Prod.fst (splitSecret_eq h).symm, ne_append_of_splitSecret h⟩

/-- A key spells one name only. -/
theorem Spells.eq {key name : String} {annotated : Bool} (h : Spells key name annotated) :
    splitSecret key = (name, annotated) := by
  cases annotated with
  | true =>
      obtain rfl : key = name ++ secretEnding := h
      exact splitSecret_append_secretEnding name
  | false =>
      obtain ⟨rfl, hends⟩ : key = name ∧ ∀ front, key ≠ front ++ secretEnding := h
      refine splitSecret_eq (Bool.eq_false_iff.mpr fun hsecret => ?_)
      obtain ⟨front, hfront⟩ := exists_of_splitSecret hsecret
      exact hends front hfront

@[simp] theorem isSecret_markSecret (secret : Bool) (tree : Tree) :
    (markSecret secret tree).isSecret = (secret || tree.isSecret) := by
  cases secret <;> cases tree <;> rfl

end LayeredConfig
