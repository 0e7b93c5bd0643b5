import LayeredConfig.Entries

/-! # Look-up in entries

Two lists of entries with distinct keys are equal when they have the same keys in the same order
and answer every look-up alike. -/

namespace LayeredConfig.Entries

variable {α : Type}

/-! ## Keys and look-up -/

theorem lookup_isSome_iff (key : String) (entries : Entries α) :
    (entries.lookup key).isSome ↔ key ∈ entries.keys := by
  simp [keys]

theorem mem_keys_of_lookup {key : String} {value : α} {entries : Entries α}
    (h : entries.lookup key = some value) : key ∈ entries.keys := by
  rw [← lookup_isSome_iff, h]
  rfl

theorem lookup_eq_none_of_not_mem {key : String} {entries : Entries α}
    (h : key ∉ entries.keys) : entries.lookup key = none := by
  rw [← Option.not_isSome_iff_eq_none, lookup_isSome_iff]
  exact h

theorem mem_of_lookup {key : String} {value : α} {entries : Entries α}
    (h : entries.lookup key = some value) : (key, value) ∈ entries := by
  obtain ⟨before, after, hsplit, _⟩ := List.lookup_eq_some_iff.mp h
  rw [hsplit]
  simp

theorem lookup_cons (key other : String) (value : α) (entries : Entries α) :
    List.lookup key ((other, value) :: entries) =
      if key = other then some value else entries.lookup key := by
  by_cases h : key = other
  · subst h
    simp
  · have hbeq : (key == other) = false := beq_false_of_ne h
    simp [List.lookup_cons, hbeq, h]

/-- An entry is found if no other one has its key. -/
theorem lookup_of_mem {key : String} {value : α} {entries : Entries α}
    (hnodup : entries.keys.Nodup) (h : (key, value) ∈ entries) :
    entries.lookup key = some value := by
  induction entries with
  | nil => cases h
  | cons entry rest ih =>
      obtain ⟨hkey, hrest⟩ := List.nodup_cons.mp hnodup
      rcases List.mem_cons.mp h with rfl | h
      · simp
      · have hne : key ≠ entry.1 := by
          rintro rfl
          exact hkey (List.mem_map.mpr ⟨_, h, rfl⟩)
        rw [lookup_cons, if_neg hne]
        exact ih hrest h

/-- Entries with distinct keys are determined by their keys and their look-ups. -/
theorem ext_lookup {xs ys : Entries α} (hnodup : xs.keys.Nodup) (hkeys : xs.keys = ys.keys)
    (hlookup : ∀ key, xs.lookup key = ys.lookup key) : xs = ys := by
  induction xs generalizing ys with
  | nil =>
      cases ys with
      | nil => rfl
      | cons y ys => simp [keys] at hkeys
  | cons x xs ih =>
      cases ys with
      | nil => simp [keys] at hkeys
      | cons y ys =>
          obtain ⟨key, value⟩ := x
          obtain ⟨key', value'⟩ := y
          simp only [keys, List.map_cons, List.cons.injEq] at hkeys
          simp only [keys, List.map_cons, List.nodup_cons] at hnodup
          obtain ⟨rfl, hkeys⟩ := hkeys
          have hvalue : value = value' := by simpa [lookup_cons] using hlookup key
          have hrest : xs = ys := by
            apply ih hnodup.2 hkeys
            intro other
            by_cases hother : key = other
            · subst hother
              have hys : key ∉ keys ys := by
                rw [← show keys xs = keys ys from hkeys]
                exact hnodup.1
              rw [lookup_eq_none_of_not_mem hnodup.1, lookup_eq_none_of_not_mem hys]
            · simpa only [lookup_cons, Ne.symm hother, if_false] using hlookup other
          rw [hvalue, hrest]

/-- Values that are exchanged leave every key where it is. -/
theorem lookup_map {β : Type} (f : α → β) (key : String) (entries : Entries α) :
    List.lookup key (entries.map fun entry => (entry.1, f entry.2)) =
      (entries.lookup key).map f := by
  induction entries with
  | nil => rfl
  | cons entry rest ih =>
      obtain ⟨other, value⟩ := entry
      rw [List.map_cons, lookup_cons, lookup_cons, ih]
      split <;> rfl

/-! ## Setting a key -/

/-- A key that is set is found; all other keys answer as before. -/
theorem lookup_set (key other : String) (value : α) (entries : Entries α) :
    (set key value entries).lookup other =
      if other = key then some value else entries.lookup other := by
  induction entries with
  | nil => rw [set, lookup_cons]
  | cons entry rest ih =>
      obtain ⟨k, v⟩ := entry
      by_cases hk : k = key
      · subst hk
        simp only [set, if_true, lookup_cons]
        split <;> rfl
      · simp only [set, hk, if_false, lookup_cons, ih]
        by_cases hother : other = k
        · have hne : ¬ other = key := fun h => hk (hother.symm.trans h)
          simp only [hother, hk, if_true, if_false]
        · simp only [hother, if_false]

/-- Setting a key keeps its place, or puts it behind all others. -/
theorem keys_set (key : String) (value : α) (entries : Entries α) :
    (set key value entries).keys =
      if key ∈ entries.keys then entries.keys else entries.keys ++ [key] := by
  induction entries with
  | nil => simp [set, keys]
  | cons entry rest ih =>
      obtain ⟨k, v⟩ := entry
      by_cases hk : k = key
      · simp [set, keys, hk]
      · have hk' : ¬ key = k := fun h => hk h.symm
        simp only [keys] at ih
        simp only [set, hk, if_false, keys, List.map_cons, List.mem_cons, hk', false_or, ih]
        by_cases hmem : key ∈ rest.map (·.1) <;> simp [hmem]

/-- A new key is put behind all others. -/
theorem set_of_not_mem {key : String} {entries : Entries α} (h : key ∉ entries.keys) (value : α) :
    set key value entries = entries ++ [(key, value)] := by
  induction entries with
  | nil => rfl
  | cons entry rest ih =>
      obtain ⟨k, v⟩ := entry
      simp only [keys, List.map_cons, List.mem_cons, not_or] at h
      rw [set, if_neg (Ne.symm h.1), ih h.2, List.cons_append]

/-- Pairs without repeated keys are entries as they are. -/
theorem ofPairs_of_nodup {pairs : List (String × α)} (h : (keys pairs).Nodup) :
    ofPairs pairs = pairs := by
  suffices ∀ passed : Entries α, (keys (passed ++ pairs)).Nodup →
      pairs.foldl (fun entries pair => entries.set pair.1 pair.2) passed = passed ++ pairs from
    this [] h
  clear h
  induction pairs with
  | nil => exact fun passed _ => (List.append_nil passed).symm
  | cons pair rest ih =>
      intro passed hnodup
      have hkey : pair.1 ∉ keys passed := by
        rw [keys, List.map_append, List.map_cons] at hnodup
        exact fun hmem => (List.nodup_append.mp hnodup).2.2 _ hmem _ List.mem_cons_self rfl
      rw [List.foldl_cons, set_of_not_mem hkey, ih, List.append_assoc, List.singleton_append]
      rwa [List.append_assoc, List.singleton_append]

theorem mem_keys_set {key other : String} {value : α} {entries : Entries α} :
    other ∈ (set key value entries).keys ↔ other ∈ entries.keys ∨ other = key := by
  rw [keys_set]
  split
  · next hmem =>
    refine ⟨.inl, fun h => h.elim id ?_⟩
    rintro rfl
    exact hmem
  · rw [List.mem_append, List.mem_singleton]

theorem mem_keys_ofPairs {key : String} {pairs : List (String × α)} :
    key ∈ (ofPairs pairs).keys ↔ key ∈ keys pairs := by
  suffices ∀ passed : Entries α,
      key ∈ keys (pairs.foldl (fun entries pair => entries.set pair.1 pair.2) passed) ↔
        key ∈ passed.keys ∨ key ∈ keys pairs from
    (this []).trans (or_iff_right List.not_mem_nil)
  induction pairs with
  | nil => exact fun passed => (or_iff_left List.not_mem_nil).symm
  | cons pair rest ih =>
      intro passed
      rw [List.foldl_cons, ih, mem_keys_set, or_assoc]
      exact or_congr_right List.mem_cons.symm

/-- Pairs of other keys may be left out. -/
theorem lookup_ofPairs_filter {keep : String → Bool} {key : String} (h : keep key = true)
    (pairs : List (String × α)) :
    (ofPairs (pairs.filter fun pair => keep pair.1)).lookup key = (ofPairs pairs).lookup key := by
  suffices ∀ passed others : Entries α, passed.lookup key = others.lookup key →
      ((pairs.filter fun pair => keep pair.1).foldl (fun entries pair =>
        entries.set pair.1 pair.2) passed).lookup key =
        (pairs.foldl (fun entries pair => entries.set pair.1 pair.2) others).lookup key from
    this [] [] rfl
  induction pairs with
  | nil => exact fun passed others hsame => hsame
  | cons pair rest ih =>
      intro passed others hsame
      cases hkeep : keep pair.1 with
      | false =>
          have hne : key ≠ pair.1 := by
            rintro rfl
            exact Bool.false_ne_true (hkeep.symm.trans h)
          rw [List.filter_cons, if_neg (by simp [hkeep]), List.foldl_cons]
          exact ih _ _ (by rw [lookup_set, if_neg hne, hsame])
      | true =>
          rw [List.filter_cons, if_pos hkeep, List.foldl_cons, List.foldl_cons]
          exact ih _ _ (by rw [lookup_set, lookup_set, hsame])

/-! ## Keys of a union -/

/-- Keys of two lists, those of the first in front, each once. -/
def unionKeys (xs ys : List String) : List String := xs ++ ys.filter fun key => !xs.contains key

@[simp] theorem unionKeys_nil (xs : List String) : unionKeys xs [] = xs := by
  simp [unionKeys]

theorem mem_unionKeys {key : String} {xs ys : List String} :
    key ∈ unionKeys xs ys ↔ key ∈ xs ∨ key ∈ ys := by
  by_cases h : key ∈ xs <;> simp [unionKeys, h]

theorem unionKeys_self (xs : List String) : unionKeys xs xs = xs := by
  simp [unionKeys]

theorem nodup_unionKeys {xs ys : List String} (hx : xs.Nodup) (hy : ys.Nodup) :
    (unionKeys xs ys).Nodup := by
  rw [unionKeys, List.nodup_append]
  refine ⟨hx, hy.filter _, ?_⟩
  intro x hx y hy hxy
  simp only [List.mem_filter, Bool.not_eq_true', List.contains_eq_mem] at hy
  subst hxy
  simp [hx] at hy

theorem unionKeys_assoc (xs ys zs : List String) :
    unionKeys (unionKeys xs ys) zs = unionKeys xs (unionKeys ys zs) := by
  have hfilter : zs.filter (fun key => !(unionKeys xs ys).contains key) =
      (zs.filter fun key => !ys.contains key).filter fun key => !xs.contains key := by
    rw [List.filter_filter]
    apply List.filter_congr
    intro key _
    by_cases hx : key ∈ xs <;> by_cases hy : key ∈ ys <;> simp [mem_unionKeys, hx, hy]
  rw [unionKeys, hfilter]
  simp [unionKeys, List.append_assoc]

/-- Taking the first key of the second list over, as setting it does. -/
theorem unionKeys_cons (xs ys : List String) (key : String) (hkey : key ∉ ys) :
    unionKeys xs (key :: ys) =
      unionKeys (if key ∈ xs then xs else xs ++ [key]) ys := by
  by_cases hx : key ∈ xs
  · simp [unionKeys, hx]
  · have hfilter : ys.filter (fun k => !(xs ++ [key]).contains k) =
        ys.filter fun k => !xs.contains k := by
      apply List.filter_congr
      intro k hk
      have hne : k ≠ key := fun h => hkey (h ▸ hk)
      simp [hne]
    rw [if_neg hx, unionKeys, unionKeys, hfilter]
    simp [hx]

/-! ## Another order -/

section Shuffled

variable {β γ : Type}

/-- The same keys, each once, in whatever order, with related values. -/
structure Shuffled (R : α → β → Prop) (xs : Entries α) (ys : Entries β) : Prop where
  nodup : xs.keys.Nodup
  keys_perm : xs.keys.Perm ys.keys
  related : ∀ key x y, (key, x) ∈ xs → (key, y) ∈ ys → R x y

variable {R : α → β → Prop} {xs : Entries α} {ys : Entries β}

namespace Shuffled

theorem symm (h : Shuffled R xs ys) : Shuffled (fun y x => R x y) ys xs where
  nodup := h.keys_perm.nodup_iff.mp h.nodup
  keys_perm := h.keys_perm.symm
  related key y x hy hx := h.related key x y hx hy

theorem exists_of_mem (h : Shuffled R xs ys) {key : String} {x : α} (hx : (key, x) ∈ xs) :
    ∃ y, (key, y) ∈ ys ∧ R x y := by
  have hkey : key ∈ ys.keys := h.keys_perm.mem_iff.mp (List.mem_map_of_mem hx)
  obtain ⟨⟨_, y⟩, hy, rfl⟩ := List.mem_map.mp hkey
  exact ⟨y, hy, h.related _ x y hx hy⟩

/-- A key is found on both sides or on neither. -/
theorem lookup (h : Shuffled R xs ys) (key : String) :
    Option.Rel R (xs.lookup key) (ys.lookup key) := by
  cases hx : xs.lookup key with
  | some x =>
      obtain ⟨y, hy, hrelated⟩ := h.exists_of_mem (mem_of_lookup hx)
      rw [lookup_of_mem h.symm.nodup hy]
      exact .some hrelated
  | none =>
      cases hy : ys.lookup key with
      | none => exact .none
      | some y =>
          obtain ⟨x, hmem, -⟩ := h.symm.exists_of_mem (mem_of_lookup hy)
          rw [lookup_of_mem h.nodup hmem] at hx
          cases hx

theorem filter (h : Shuffled R xs ys) (keep : String → Bool) :
    Shuffled R (xs.filter fun entry => keep entry.1) (ys.filter fun entry => keep entry.1) where
  nodup := h.nodup.sublist (List.filter_sublist.map _)
  keys_perm := by
    have hkeys := h.keys_perm.filter keep
    rwa [keys, keys, List.filter_map, List.filter_map] at hkeys
  related key x y hx hy :=
    h.related key x y (List.mem_filter.mp hx).1 (List.mem_filter.mp hy).1

end Shuffled

end Shuffled

end LayeredConfig.Entries
