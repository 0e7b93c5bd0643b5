import LayeredConfig.Merge
import LayeredConfig.Proofs.Tree.Layers

/-! # How two trees merge

Two nodes that both count merge in one of three ways, one for each shape. For maps the keys and the
look-ups of the result are given, which determine it: a key of one side keeps its child, and the
children of a shared key are merged. -/

namespace LayeredConfig.Tree

variable {delimiter : String} {path : List String}

/-! ## Children of one key -/

/-- The child of a key that either side may have or lack. -/
def mergeChild (delimiter : String) (path : List String) :
    (base incoming : Option Tree) → Except Fault (Option Tree)
  | none, incoming => .ok incoming
  | some base, none => .ok (some base)
  | some base, some incoming => (mergeAt delimiter path base incoming).map some

@[simp] theorem mergeChild_none_left (incoming : Option Tree) :
    mergeChild delimiter path none incoming = .ok incoming := rfl

@[simp] theorem mergeChild_none_right (base : Option Tree) :
    mergeChild delimiter path base none = .ok base := by
  cases base <;> rfl

theorem mergeChild_some_eq_ok_iff {base incoming : Tree} {merged? : Option Tree} :
    mergeChild delimiter path (some base) (some incoming) = .ok merged? ↔
      ∃ merged, mergeAt delimiter path base incoming = .ok merged ∧ merged? = some merged := by
  rw [mergeChild]
  cases mergeAt delimiter path base incoming with
  | error fault => simp [Except.map]
  | ok merged => simp [Except.map, eq_comm]

/-! ## Children of maps -/

/-- What merging the entries of two maps yields, by its keys and its look-ups. -/
theorem mergeEntries_spec {base incoming merged : List (String × Tree)}
    (hnodup : (Entries.keys incoming).Nodup)
    (h : mergeEntries delimiter path base incoming = .ok merged) :
    Entries.keys merged = Entries.unionKeys (Entries.keys base) (Entries.keys incoming) ∧
      ∀ key, mergeChild delimiter (path ++ [key]) (base.lookup key) (incoming.lookup key) =
        .ok (merged.lookup key) := by
  induction incoming generalizing base with
  | nil =>
      simp only [mergeEntries, Except.ok.injEq] at h
      subst h
      simp [Entries.keys]
  | cons entry rest ih =>
      obtain ⟨key, child⟩ := entry
      obtain ⟨hkey, hrest⟩ := List.nodup_cons.mp hnodup
      have hlast : rest.lookup key = none := Entries.lookup_eq_none_of_not_mem hkey
      -- Both branches set the key to some child, and that child is what the key has in the end.
      have step : ∀ value, mergeChild delimiter (path ++ [key]) (base.lookup key) (some child) =
            .ok (some value) →
          mergeEntries delimiter path (Entries.set key value base) rest = .ok merged →
          Entries.keys merged =
              Entries.unionKeys (Entries.keys base) (Entries.keys ((key, child) :: rest)) ∧
            ∀ other, mergeChild delimiter (path ++ [other]) (base.lookup other)
              (List.lookup other ((key, child) :: rest)) = .ok (merged.lookup other) := by
        intro value hvalue hmerged
        obtain ⟨hkeys, hlookup⟩ := ih hrest hmerged
        constructor
        · rw [hkeys, Entries.keys_set]
          exact (Entries.unionKeys_cons _ _ _ hkey).symm
        · intro other
          have hother := hlookup other
          rw [Entries.lookup_set] at hother
          rw [Entries.lookup_cons]
          by_cases heq : other = key
          · subst heq
            rw [if_pos rfl, hlast, mergeChild_none_right] at hother
            rw [if_pos rfl, hvalue, hother]
          · rwa [if_neg heq] at hother ⊢
      rw [mergeEntries] at h
      cases hbase : base.lookup key with
      | none =>
          rw [hbase] at h step
          exact step child rfl h
      | some existing =>
          rw [hbase] at h step
          cases hchild : mergeAt delimiter (path ++ [key]) existing child with
          | error fault => simp [hchild] at h
          | ok value =>
              simp only [hchild] at h
              exact step value (by rw [mergeChild, hchild]; rfl) h

/-- The entries of two maps merge as soon as the children of every key do. -/
theorem exists_mergeEntries {base incoming : List (String × Tree)}
    (hnodup : (Entries.keys incoming).Nodup)
    (h : ∀ key, ∃ child?, mergeChild delimiter (path ++ [key]) (base.lookup key)
      (incoming.lookup key) = .ok child?) :
    ∃ merged, mergeEntries delimiter path base incoming = .ok merged := by
  induction incoming generalizing base with
  | nil => exact ⟨base, by rw [mergeEntries]⟩
  | cons entry rest ih =>
      obtain ⟨key, child⟩ := entry
      obtain ⟨hkey, hrest⟩ := List.nodup_cons.mp hnodup
      have step : ∀ value, ∃ merged,
          mergeEntries delimiter path (Entries.set key value base) rest = .ok merged := by
        intro value
        apply ih hrest
        intro other
        rw [Entries.lookup_set]
        by_cases heq : other = key
        · subst heq
          rw [Entries.lookup_eq_none_of_not_mem hkey]
          exact ⟨_, mergeChild_none_right _⟩
        · have hother := h other
          rw [Entries.lookup_cons, if_neg heq] at hother
          rwa [if_neg heq]
      rw [mergeEntries]
      cases hbase : base.lookup key with
      | none => exact step child
      | some existing =>
          obtain ⟨child?, hchild⟩ := h key
          rw [hbase, Entries.lookup_cons, if_pos rfl, mergeChild_some_eq_ok_iff] at hchild
          obtain ⟨value, hvalue, _⟩ := hchild
          simp only [hvalue]
          exact step value

/-- Maps with distinct keys merge into the entries whose keys are the union of both, and whose
children are the merged children of each key. -/
theorem mergeEntries_eq_ok_iff {base incoming merged : List (String × Tree)}
    (hbase : (Entries.keys base).Nodup) (hincoming : (Entries.keys incoming).Nodup) :
    mergeEntries delimiter path base incoming = .ok merged ↔
      Entries.keys merged = Entries.unionKeys (Entries.keys base) (Entries.keys incoming) ∧
        ∀ key, mergeChild delimiter (path ++ [key]) (base.lookup key) (incoming.lookup key) =
          .ok (merged.lookup key) := by
  refine ⟨mergeEntries_spec hincoming, ?_⟩
  rintro ⟨hkeys, hlookup⟩
  obtain ⟨found, hfound⟩ := exists_mergeEntries hincoming fun key => ⟨_, hlookup key⟩
  obtain ⟨hfoundKeys, hfoundLookup⟩ := mergeEntries_spec hincoming hfound
  have heq : merged = found := by
    apply Entries.ext_lookup
    · rw [hkeys]
      exact Entries.nodup_unionKeys hbase hincoming
    · rw [hkeys, hfoundKeys]
    · intro key
      exact Except.ok.inj ((hlookup key).symm.trans (hfoundLookup key))
  rw [hfound, heq]

/-- A failure among the entries is a failure of the two children of some key. -/
theorem exists_mergeAt_error {base incoming : List (String × Tree)} {fault : Fault}
    (hnodup : (Entries.keys incoming).Nodup)
    (h : mergeEntries delimiter path base incoming = .error fault) :
    ∃ key existing child, base.lookup key = some existing ∧ incoming.lookup key = some child ∧
      mergeAt delimiter (path ++ [key]) existing child = .error fault := by
  induction incoming generalizing base with
  | nil => simp [mergeEntries] at h
  | cons entry rest ih =>
      obtain ⟨key, child⟩ := entry
      obtain ⟨hkey, hrest⟩ := List.nodup_cons.mp hnodup
      -- A later key is another one, so its child in the base has not been touched yet.
      have step : ∀ value,
          mergeEntries delimiter path (Entries.set key value base) rest = .error fault →
          ∃ other existing child', base.lookup other = some existing ∧
            List.lookup other ((key, child) :: rest) = some child' ∧
            mergeAt delimiter (path ++ [other]) existing child' = .error fault := by
        intro value hvalue
        obtain ⟨other, existing, child', hexisting, hchild, hfault⟩ := ih hrest hvalue
        have hne : other ≠ key := by
          rintro rfl
          exact hkey (Entries.mem_keys_of_lookup hchild)
        rw [Entries.lookup_set, if_neg hne] at hexisting
        exact ⟨other, existing, child', hexisting, by rwa [Entries.lookup_cons, if_neg hne], hfault⟩
      rw [mergeEntries] at h
      cases hbase : base.lookup key with
      | none =>
          simp only [hbase] at h
          exact step child h
      | some existing =>
          simp only [hbase] at h
          cases hchild : mergeAt delimiter (path ++ [key]) existing child with
          | error cause =>
              simp only [hchild, Except.error.injEq] at h
              exact ⟨key, existing, child, hbase, by simp, by rw [hchild, h]⟩
          | ok value =>
              simp only [hchild] at h
              exact step value h

/-! ## Nodes -/

theorem mergeAt_of_isEmpty_right {base incoming : Tree} (h : incoming.isEmpty) :
    mergeAt delimiter path base incoming = .ok base := by
  cases incoming <;> simp [mergeAt, h]

theorem mergeAt_of_isEmpty_left {base incoming : Tree} (hbase : base.isEmpty)
    (hincoming : incoming.isEmpty = false) :
    mergeAt delimiter path base incoming = .ok incoming := by
  cases incoming <;> simp [mergeAt, hbase, hincoming]

/-- How a node with something in it is laid over another one. -/
inductive Overlay (delimiter : String) (path : List String) : Tree → Tree → Tree → Prop where
  | leaf (below value : Option Scalar) (under mark : Mark) :
      Overlay delimiter path (leaf below under) (leaf value mark) (leaf value (under.merge mark))
  | array (below items : List Tree) (under mark : Mark) :
      Overlay delimiter path (array below under) (array items mark)
        (array items (under.replace mark))
  | map {below entries merged : List (String × Tree)} (under mark : Mark)
      (h : mergeEntries delimiter path below entries = .ok merged) :
      Overlay delimiter path (map below under) (map entries mark) (map merged (under.merge mark))

/-- Nodes that are not empty merge as the overlay of one over the other. -/
theorem mergeAt_eq_ok_iff_overlay {base incoming merged : Tree} (hbase : base.isEmpty = false)
    (hincoming : incoming.isEmpty = false) :
    mergeAt delimiter path base incoming = .ok merged ↔
      Overlay delimiter path base incoming merged := by
  constructor
  · intro h
    cases incoming <;> cases base <;>
      simp only [mergeAt, hbase, hincoming, Bool.false_eq_true, if_false, reduceCtorEq,
        Except.ok.injEq] at h
    case leaf.leaf => exact h ▸ .leaf ..
    case array.array => exact h ▸ .array ..
    case map.map entries mark below under =>
        cases hentries : mergeEntries delimiter path below entries with
        | error fault => simp [hentries] at h
        | ok children =>
            simp only [hentries, Except.ok.injEq] at h
            exact h ▸ .map under mark hentries
  · intro h
    cases h with
    | leaf => simp [mergeAt, hbase, hincoming]
    | array => simp [mergeAt, hbase, hincoming]
    | map under mark hentries => simp [mergeAt, hbase, hincoming, hentries]

/-- What merges either takes one side over or lays one node over the other. -/
theorem mergeAt_cases {base incoming merged : Tree}
    (h : mergeAt delimiter path base incoming = .ok merged) :
    (incoming.isEmpty = true ∧ merged = base) ∨
      (incoming.isEmpty = false ∧ base.isEmpty = true ∧ merged = incoming) ∨
      incoming.isEmpty = false ∧ base.isEmpty = false ∧
        Overlay delimiter path base incoming merged := by
  cases hincoming : incoming.isEmpty with
  | true =>
      rw [mergeAt_of_isEmpty_right hincoming, Except.ok.injEq] at h
      exact .inl ⟨rfl, h.symm⟩
  | false =>
      cases hbase : base.isEmpty with
      | true =>
          rw [mergeAt_of_isEmpty_left hbase hincoming, Except.ok.injEq] at h
          exact .inr (.inl ⟨rfl, rfl, h.symm⟩)
      | false => exact .inr (.inr ⟨rfl, rfl, (mergeAt_eq_ok_iff_overlay hbase hincoming).mp h⟩)

/-- Two nodes fail to merge because of their shapes or because of their children, and only when
neither is empty. -/
theorem mergeAt_error_cases {base incoming : Tree} {fault : Fault}
    (h : mergeAt delimiter path base incoming = .error fault) :
    base.isEmpty = false ∧ incoming.isEmpty = false ∧
      ((base.shape ≠ incoming.shape ∧ fault = collision delimiter path base incoming) ∨
        ∃ below under entries mark, base = map below under ∧ incoming = map entries mark ∧
          mergeEntries delimiter path below entries = .error fault) := by
  cases hincoming : incoming.isEmpty with
  | true => simp [mergeAt_of_isEmpty_right hincoming] at h
  | false =>
      cases hbase : base.isEmpty with
      | true => simp [mergeAt_of_isEmpty_left hbase hincoming] at h
      | false =>
          refine ⟨rfl, rfl, ?_⟩
          cases incoming <;> cases base <;>
            simp only [mergeAt, hbase, hincoming, Bool.false_eq_true, if_false, reduceCtorEq,
              Except.error.injEq] at h
          case map.map entries mark below under =>
              cases hentries : mergeEntries delimiter path below entries with
              | error cause =>
                  simp only [hentries, Except.error.injEq] at h
                  exact .inr ⟨below, under, entries, mark, rfl, rfl, by rw [hentries, h]⟩
              | ok children => simp [hentries] at h
          all_goals exact .inl ⟨by simp [shape], h.symm⟩

/-! ## What an overlay holds -/

theorem Overlay.shape_eq {base incoming merged : Tree}
    (h : Overlay delimiter path base incoming merged) :
    base.shape = incoming.shape ∧ merged.shape = incoming.shape := by
  cases h <;> exact ⟨rfl, rfl⟩

theorem Overlay.scalar?_eq {base incoming merged : Tree}
    (h : Overlay delimiter path base incoming merged) : merged.scalar? = incoming.scalar? := by
  cases h <;> rfl

theorem Overlay.items_eq {base incoming merged : Tree}
    (h : Overlay delimiter path base incoming merged) : merged.items = incoming.items := by
  cases h <;> rfl

/-- The origins of both sides, except that an array has those of the later side alone. -/
theorem Overlay.origins_eq {base incoming merged : Tree}
    (h : Overlay delimiter path base incoming merged) :
    merged.origins =
      if merged.shape = .array then incoming.origins else base.origins ++ incoming.origins := by
  cases h <;> rfl

theorem Overlay.isSecret_eq {base incoming merged : Tree}
    (h : Overlay delimiter path base incoming merged) :
    merged.isSecret = (base.isSecret || incoming.isSecret) := by
  cases h <;> rfl

theorem Overlay.mem_keys {base incoming merged : Tree}
    (h : Overlay delimiter path base incoming merged) (hkeys : incoming.DistinctKeys)
    (key : String) :
    key ∈ Entries.keys merged.entries ↔
      key ∈ Entries.keys base.entries ∨ key ∈ Entries.keys incoming.entries := by
  cases h with
  | leaf => simp [Tree.entries, Entries.keys]
  | array => simp [Tree.entries, Entries.keys]
  | map under mark hentries =>
      simp only [Tree.entries]
      rw [(mergeEntries_spec hkeys.keys_nodup hentries).1, Entries.mem_unionKeys]

/-- A node without data is empty as soon as it has no origins. -/
theorem isEmpty_iff {tree : Tree} :
    tree.isEmpty ↔ tree.origins = [] ∧ tree.scalar? = none ∧
      Entries.keys tree.entries = [] ∧ tree.items = [] := by
  cases tree <;> simp [isEmpty, scalar?, Tree.entries, Tree.items, Entries.keys]

/-- What is laid over another node does not become empty. -/
theorem Overlay.isEmpty_eq_false {base incoming merged : Tree}
    (h : Overlay delimiter path base incoming merged) (hkeys : incoming.DistinctKeys)
    (hincoming : incoming.isEmpty = false) : merged.isEmpty = false := by
  rw [← Bool.not_eq_true, isEmpty_iff] at hincoming ⊢
  rintro ⟨horigins, hscalar, hentries, hitems⟩
  refine hincoming ⟨?_, h.scalar?_eq ▸ hscalar, ?_, h.items_eq ▸ hitems⟩
  · rw [h.origins_eq] at horigins
    split at horigins
    · exact horigins
    · exact (List.append_eq_nil_iff.mp horigins).2
  · apply List.eq_nil_iff_forall_not_mem.mpr
    intro key hkey
    have hmem := (h.mem_keys hkeys key).mpr (.inr hkey)
    rw [hentries] at hmem
    cases hmem

end LayeredConfig.Tree
