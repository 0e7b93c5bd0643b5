import LayeredConfig.Proofs.Merge.Equations
import LayeredConfig.Value.OfTree

/-! # Merging as an operation

Merging is a partial operation on trees with distinct keys. The brackets around three trees decide
neither whether they merge nor what they merge to, the empty tree adds nothing, and a tree that is
laid over itself gains origins at most. -/

namespace LayeredConfig

namespace Mark

theorem merge_assoc (a b c : Mark) : (a.merge b).merge c = a.merge (b.merge c) := by
  simp [merge, List.append_assoc, Bool.or_assoc]

theorem replace_assoc (a b c : Mark) : (a.replace b).replace c = a.replace (b.replace c) := by
  simp [replace, Bool.or_assoc]

end Mark

namespace Tree

variable {delimiter : String} {path : List String}

/-! ## Closure -/

theorem mergeChild_distinctKeys {base incoming : Option Tree} {merged : Tree}
    (hbase : ∀ tree ∈ base, tree.DistinctKeys) (hincoming : ∀ tree ∈ incoming, tree.DistinctKeys)
    (hmerge : ∀ lower ∈ base, ∀ upper ∈ incoming, ∀ merged,
      mergeAt delimiter path lower upper = .ok merged → merged.DistinctKeys)
    (h : mergeChild delimiter path base incoming = .ok (some merged)) : merged.DistinctKeys := by
  cases base with
  | none =>
      rw [mergeChild_none_left, Except.ok.injEq] at h
      exact hincoming merged h
  | some lower =>
      cases incoming with
      | none =>
          rw [mergeChild_none_right, Except.ok.injEq] at h
          exact hbase merged h
      | some upper =>
          obtain ⟨tree, htree, heq⟩ := mergeChild_some_eq_ok_iff.mp h
          cases heq
          exact hmerge lower rfl upper rfl merged htree

/-- Trees with distinct keys merge to a tree with distinct keys. -/
theorem mergeAt_distinctKeys {base incoming merged : Tree} (hbase : base.DistinctKeys)
    (hincoming : incoming.DistinctKeys)
    (h : mergeAt delimiter path base incoming = .ok merged) : merged.DistinctKeys := by
  induction incoming using Tree.induction generalizing path base merged with
  | leaf value mark | array items mark ih =>
      rcases mergeAt_cases h with ⟨_, rfl⟩ | ⟨_, _, rfl⟩ | ⟨_, _, hover⟩
      · exact hbase
      · exact hincoming
      · cases hover
        exact hincoming
  | map entries mark ih =>
      rcases mergeAt_cases h with ⟨_, rfl⟩ | ⟨_, _, rfl⟩ | ⟨_, _, hover⟩
      · exact hbase
      · exact hincoming
      · cases hover with
        | @map below _ children under _ hentries =>
            obtain ⟨hkeys, hlookup⟩ := mergeEntries_spec hincoming.keys_nodup hentries
            have hnodup : (Entries.keys children).Nodup :=
              hkeys ▸ Entries.nodup_unionKeys hbase.keys_nodup hincoming.keys_nodup
            refine distinctKeys_map_iff.mpr ⟨hnodup, fun key child hmem => ?_⟩
            have hchild := hlookup key
            rw [Entries.lookup_of_mem hnodup hmem] at hchild
            refine mergeChild_distinctKeys ?_ ?_ ?_ hchild
            · exact fun tree htree => hbase.child (Entries.mem_of_lookup htree)
            · exact fun tree htree => hincoming.child (Entries.mem_of_lookup htree)
            · intro lower hlower upper hupper merged hmerged
              have hmem := Entries.mem_of_lookup hupper
              exact ih key upper hmem (hbase.child (Entries.mem_of_lookup hlower))
                (hincoming.child hmem) hmerged

/-! ## Brackets -/

/-- Both ways to put brackets around three operands succeed together, and agree. -/
def Associate {α : Type} (op : α → α → Except Fault α) (a b c : α) : Prop :=
  ∀ merged, (∃ ab, op a b = .ok ab ∧ op ab c = .ok merged) ↔
    ∃ bc, op b c = .ok bc ∧ op a bc = .ok merged

theorem mergeChild_associate {a b c : Option Tree}
    (h : ∀ x ∈ a, ∀ y ∈ b, ∀ z ∈ c, Associate (mergeAt delimiter path) x y z) :
    Associate (mergeChild delimiter path) a b c := by
  intro merged
  cases b with
  | none => simp
  | some y =>
      cases a with
      | none => simp
      | some x =>
          cases c with
          | none => simp
          | some z =>
              simp only [mergeChild_some_eq_ok_iff]
              constructor
              · rintro ⟨_, ⟨xy, hxy, rfl⟩, hmerged⟩
                obtain ⟨tree, htree, rfl⟩ := mergeChild_some_eq_ok_iff.mp hmerged
                obtain ⟨yz, hyz, hx⟩ := (h x rfl y rfl z rfl tree).mp ⟨xy, hxy, htree⟩
                exact ⟨some yz, ⟨yz, hyz, rfl⟩, mergeChild_some_eq_ok_iff.mpr ⟨tree, hx, rfl⟩⟩
              · rintro ⟨_, ⟨yz, hyz, rfl⟩, hmerged⟩
                obtain ⟨tree, htree, rfl⟩ := mergeChild_some_eq_ok_iff.mp hmerged
                obtain ⟨xy, hxy, hz⟩ := (h x rfl y rfl z rfl tree).mpr ⟨yz, hyz, htree⟩
                exact ⟨some xy, ⟨xy, hxy, rfl⟩, mergeChild_some_eq_ok_iff.mpr ⟨tree, hz, rfl⟩⟩

/-- Entries associate as soon as the children of every key do. -/
theorem mergeEntries_associate {xs ys zs : List (String × Tree)}
    (hx : (Entries.keys xs).Nodup) (hy : (Entries.keys ys).Nodup) (hz : (Entries.keys zs).Nodup)
    (h : ∀ key, Associate (mergeChild delimiter (path ++ [key])) (xs.lookup key) (ys.lookup key)
      (zs.lookup key)) :
    Associate (mergeEntries delimiter path) xs ys zs := by
  intro merged
  constructor
  · rintro ⟨xy, hxy, hmerged⟩
    obtain ⟨hxyKeys, hxyLookup⟩ := mergeEntries_spec hy hxy
    obtain ⟨hkeys, hlookup⟩ := mergeEntries_spec hz hmerged
    have hchildren := fun key => (h key _).mp ⟨_, hxyLookup key, hlookup key⟩
    obtain ⟨yz, hyz⟩ := exists_mergeEntries hz fun key => (hchildren key).imp fun _ h => h.1
    obtain ⟨hyzKeys, hyzLookup⟩ := mergeEntries_spec hz hyz
    have hnodup : (Entries.keys yz).Nodup := hyzKeys ▸ Entries.nodup_unionKeys hy hz
    refine ⟨yz, hyz, (mergeEntries_eq_ok_iff hx hnodup).mpr ⟨?_, ?_⟩⟩
    · rw [hkeys, hxyKeys, hyzKeys, Entries.unionKeys_assoc]
    · intro key
      obtain ⟨child, hchild, hresult⟩ := hchildren key
      rw [Except.ok.inj ((hyzLookup key).symm.trans hchild)]
      exact hresult
  · rintro ⟨yz, hyz, hmerged⟩
    have hnodup : (Entries.keys yz).Nodup :=
      (mergeEntries_spec hz hyz).1 ▸ Entries.nodup_unionKeys hy hz
    obtain ⟨hyzKeys, hyzLookup⟩ := mergeEntries_spec hz hyz
    obtain ⟨hkeys, hlookup⟩ := mergeEntries_spec hnodup hmerged
    have hchildren := fun key => (h key _).mpr ⟨_, hyzLookup key, hlookup key⟩
    obtain ⟨xy, hxy⟩ := exists_mergeEntries hy fun key => (hchildren key).imp fun _ h => h.1
    obtain ⟨hxyKeys, hxyLookup⟩ := mergeEntries_spec hy hxy
    have hnodup' : (Entries.keys xy).Nodup := hxyKeys ▸ Entries.nodup_unionKeys hx hy
    refine ⟨xy, hxy, (mergeEntries_eq_ok_iff hnodup' hz).mpr ⟨?_, ?_⟩⟩
    · rw [hkeys, hxyKeys, hyzKeys, Entries.unionKeys_assoc]
    · intro key
      obtain ⟨child, hchild, hresult⟩ := hchildren key
      rw [Except.ok.inj ((hxyLookup key).symm.trans hchild)]
      exact hresult

/-- Empty nodes aside, trees associate as their overlays do. -/
theorem associate_of_overlay {a b c : Tree} (hb : b.DistinctKeys) (hc : c.DistinctKeys)
    (h : ∀ merged, (∃ ab, Overlay delimiter path a b ab ∧ Overlay delimiter path ab c merged) ↔
      ∃ bc, Overlay delimiter path b c bc ∧ Overlay delimiter path a bc merged) :
    Associate (mergeAt delimiter path) a b c := by
  intro merged
  cases hce : c.isEmpty with
  | true => simp [mergeAt_of_isEmpty_right hce]
  | false =>
      cases hbe : b.isEmpty with
      | true => simp [mergeAt_of_isEmpty_right hbe, mergeAt_of_isEmpty_left hbe hce]
      | false =>
          cases hae : a.isEmpty with
          | true =>
              simp only [mergeAt_of_isEmpty_left hae hbe, Except.ok.injEq, exists_eq_left']
              constructor
              · intro hmerged
                have hne := ((mergeAt_eq_ok_iff_overlay hbe hce).mp hmerged).isEmpty_eq_false hc hce
                exact ⟨merged, hmerged, mergeAt_of_isEmpty_left hae hne⟩
              · rintro ⟨bc, hbc, hmerged⟩
                have hne := ((mergeAt_eq_ok_iff_overlay hbe hce).mp hbc).isEmpty_eq_false hc hce
                rw [mergeAt_of_isEmpty_left hae hne, Except.ok.injEq] at hmerged
                rw [← hmerged]
                exact hbc
          | false =>
              simp only [mergeAt_eq_ok_iff_overlay hae hbe, mergeAt_eq_ok_iff_overlay hbe hce]
              constructor
              · rintro ⟨ab, hab, hmerged⟩
                have hne := hab.isEmpty_eq_false hb hbe
                obtain ⟨bc, hbc, hresult⟩ :=
                  (h merged).mp ⟨ab, hab, (mergeAt_eq_ok_iff_overlay hne hce).mp hmerged⟩
                exact ⟨bc, hbc,
                  (mergeAt_eq_ok_iff_overlay hae (hbc.isEmpty_eq_false hc hce)).mpr hresult⟩
              · rintro ⟨bc, hbc, hmerged⟩
                have hne := hbc.isEmpty_eq_false hc hce
                obtain ⟨ab, hab, hresult⟩ :=
                  (h merged).mpr ⟨bc, hbc, (mergeAt_eq_ok_iff_overlay hae hne).mp hmerged⟩
                exact ⟨ab, hab,
                  (mergeAt_eq_ok_iff_overlay (hab.isEmpty_eq_false hb hbe) hce).mpr hresult⟩

/-- Merging is associative. -/
theorem mergeAt_associate {a b c : Tree} (ha : a.DistinctKeys) (hb : b.DistinctKeys)
    (hc : c.DistinctKeys) : Associate (mergeAt delimiter path) a b c := by
  induction b using Tree.induction generalizing path a c with
  | leaf value mark =>
      refine associate_of_overlay hb hc fun merged => ⟨?_, ?_⟩
      · rintro ⟨_, ⟨⟩, ⟨⟩⟩
        exact ⟨_, .leaf .., Mark.merge_assoc .. ▸ .leaf ..⟩
      · rintro ⟨_, ⟨⟩, ⟨⟩⟩
        exact ⟨_, .leaf .., (Mark.merge_assoc ..).symm ▸ .leaf ..⟩
  | array items mark =>
      refine associate_of_overlay hb hc fun merged => ⟨?_, ?_⟩
      · rintro ⟨_, ⟨⟩, ⟨⟩⟩
        exact ⟨_, .array .., Mark.replace_assoc .. ▸ .array ..⟩
      · rintro ⟨_, ⟨⟩, ⟨⟩⟩
        exact ⟨_, .array .., (Mark.replace_assoc ..).symm ▸ .array ..⟩
  | map entries mark ih =>
      have hentries : ∀ {xs zs : List (String × Tree)} {under above : Mark},
          (map xs under).DistinctKeys → (map zs above).DistinctKeys →
          Associate (mergeEntries delimiter path) xs entries zs := by
        intro xs zs under above hx hz
        apply mergeEntries_associate hx.keys_nodup hb.keys_nodup hz.keys_nodup
        intro key
        apply mergeChild_associate
        intro x hlower y hchild z hupper
        have hmem := Entries.mem_of_lookup hchild
        exact ih key y hmem (hx.child (Entries.mem_of_lookup hlower)) (hb.child hmem)
          (hz.child (Entries.mem_of_lookup hupper))
      refine associate_of_overlay hb hc fun merged => ⟨?_, ?_⟩
      · rintro ⟨_, hab, hmerged⟩
        cases hab with
        | @map xs _ xy under _ hxy =>
            cases hmerged with
            | @map _ zs children _ above hchildren =>
                obtain ⟨yz, hyz, hx⟩ := (hentries ha hc children).mp ⟨xy, hxy, hchildren⟩
                exact ⟨_, .map mark above hyz, Mark.merge_assoc .. ▸ .map under _ hx⟩
      · rintro ⟨_, hbc, hmerged⟩
        cases hbc with
        | @map _ zs yz _ above hyz =>
            cases hmerged with
            | @map xs _ children under _ hchildren =>
                obtain ⟨xy, hxy, hz⟩ := (hentries ha hc children).mpr ⟨yz, hyz, hchildren⟩
                exact ⟨_, .map under mark hxy, (Mark.merge_assoc ..).symm ▸ .map _ above hz⟩

/-! ## A tree over itself -/

mutual

/-- The tree without origins and without secrets. -/
def unmarked : Tree → Tree
  | leaf value _ => leaf value {}
  | map entries _ => map (unmarkedEntries entries) {}
  | array items _ => array (unmarkedItems items) {}

def unmarkedEntries : List (String × Tree) → List (String × Tree)
  | [] => []
  | (key, child) :: rest => (key, unmarked child) :: unmarkedEntries rest

def unmarkedItems : List Tree → List Tree
  | [] => []
  | item :: rest => unmarked item :: unmarkedItems rest

end

theorem keys_unmarkedEntries (entries : List (String × Tree)) :
    Entries.keys (unmarkedEntries entries) = Entries.keys entries := by
  induction entries with
  | nil => rfl
  | cons entry rest ih =>
      simp only [Entries.keys] at ih
      simp [unmarkedEntries, Entries.keys, ih]

theorem lookup_unmarkedEntries (key : String) (entries : List (String × Tree)) :
    (unmarkedEntries entries).lookup key = (entries.lookup key).map unmarked := by
  induction entries with
  | nil => rfl
  | cons entry rest ih =>
      obtain ⟨other, child⟩ := entry
      rw [unmarkedEntries, Entries.lookup_cons, Entries.lookup_cons, ih]
      split <;> rfl

mutual

/-- The data of a tree does not depend on its marks. -/
theorem toValue_unmarked : (tree : Tree) → tree.unmarked.toValue = tree.toValue
  | leaf none _ => rfl
  | leaf (some _) _ => rfl
  | map entries _ => by simp [unmarked, toValue, entriesToValues_unmarked entries]
  | array items _ => by simp [unmarked, toValue, itemsToValues_unmarked items]

theorem entriesToValues_unmarked : (entries : List (String × Tree)) →
    entriesToValues (unmarkedEntries entries) = entriesToValues entries
  | [] => rfl
  | (key, child) :: rest => by
    simp [unmarkedEntries, entriesToValues, toValue_unmarked child, entriesToValues_unmarked rest]

theorem itemsToValues_unmarked : (items : List Tree) →
    itemsToValues (unmarkedItems items) = itemsToValues items
  | [] => rfl
  | item :: rest => by
    simp [unmarkedItems, itemsToValues, toValue_unmarked item, itemsToValues_unmarked rest]

end

mutual

/-- Neither does its data with binary numbers. -/
theorem toRounded_unmarked : (tree : Tree) → tree.unmarked.toRounded = tree.toRounded
  | leaf none _ => rfl
  | leaf (some _) _ => rfl
  | map entries _ => by simp [unmarked, toRounded, entriesToRounded_unmarked entries]
  | array items _ => by simp [unmarked, toRounded, itemsToRounded_unmarked items]

theorem entriesToRounded_unmarked : (entries : List (String × Tree)) →
    entriesToRounded (unmarkedEntries entries) = entriesToRounded entries
  | [] => rfl
  | (key, child) :: rest => by
    simp [unmarkedEntries, entriesToRounded, toRounded_unmarked child,
      entriesToRounded_unmarked rest]

theorem itemsToRounded_unmarked : (items : List Tree) →
    itemsToRounded (unmarkedItems items) = itemsToRounded items
  | [] => rfl
  | item :: rest => by
    simp [unmarkedItems, itemsToRounded, toRounded_unmarked item, itemsToRounded_unmarked rest]

end

theorem exists_mergeEntries_self {entries : List (String × Tree)}
    (hnodup : (Entries.keys entries).Nodup)
    (h : ∀ key child, (key, child) ∈ entries → ∃ merged,
      mergeAt delimiter (path ++ [key]) child child = .ok merged ∧
        merged.unmarked = child.unmarked) :
    ∃ merged, mergeEntries delimiter path entries entries = .ok merged ∧
      unmarkedEntries merged = unmarkedEntries entries := by
  have hchildren : ∀ key, ∃ child?,
      mergeChild delimiter (path ++ [key]) (entries.lookup key) (entries.lookup key) = .ok child? ∧
        child?.map unmarked = (entries.lookup key).map unmarked := by
    intro key
    cases hchild : entries.lookup key with
    | none => exact ⟨none, rfl, rfl⟩
    | some child =>
        obtain ⟨merged, hmerged, heq⟩ := h key child (Entries.mem_of_lookup hchild)
        exact ⟨some merged, mergeChild_some_eq_ok_iff.mpr ⟨merged, hmerged, rfl⟩,
          congrArg some heq⟩
  obtain ⟨merged, hmerged⟩ := exists_mergeEntries hnodup fun key =>
    (hchildren key).imp fun _ hchild => hchild.1
  obtain ⟨hkeys, hlookup⟩ := mergeEntries_spec hnodup hmerged
  rw [Entries.unionKeys_self] at hkeys
  refine ⟨merged, hmerged, Entries.ext_lookup ?_ ?_ ?_⟩
  · rw [keys_unmarkedEntries, hkeys]
    exact hnodup
  · rw [keys_unmarkedEntries, keys_unmarkedEntries, hkeys]
  · intro key
    obtain ⟨child?, hchild, heq⟩ := hchildren key
    rw [lookup_unmarkedEntries, lookup_unmarkedEntries, ← heq]
    rw [Except.ok.inj ((hlookup key).symm.trans hchild)]

/-- A tree merges with itself, and only the marks of the result may differ. -/
theorem exists_mergeAt_self {tree : Tree} (hkeys : tree.DistinctKeys) :
    ∃ merged, mergeAt delimiter path tree tree = .ok merged ∧ merged.unmarked = tree.unmarked := by
  induction tree using Tree.induction generalizing path with
  | leaf value mark =>
      cases hempty : (leaf value mark).isEmpty with
      | true => exact ⟨_, mergeAt_of_isEmpty_right hempty, rfl⟩
      | false => exact ⟨_, (mergeAt_eq_ok_iff_overlay hempty hempty).mpr (.leaf ..), rfl⟩
  | array items mark ih =>
      cases hempty : (array items mark).isEmpty with
      | true => exact ⟨_, mergeAt_of_isEmpty_right hempty, rfl⟩
      | false => exact ⟨_, (mergeAt_eq_ok_iff_overlay hempty hempty).mpr (.array ..), rfl⟩
  | map entries mark ih =>
      cases hempty : (map entries mark).isEmpty with
      | true => exact ⟨_, mergeAt_of_isEmpty_right hempty, rfl⟩
      | false =>
          obtain ⟨merged, hmerged, heq⟩ := exists_mergeEntries_self hkeys.keys_nodup
            fun key child hmem => ih key child hmem (hkeys.child hmem)
          refine ⟨_, (mergeAt_eq_ok_iff_overlay hempty hempty).mpr (.map _ _ hmerged), ?_⟩
          rw [unmarked, unmarked, heq]

/-! ## The laws -/

/-- Merging is an associative partial operation on trees with distinct keys. The empty tree is
neutral on the right, and on the left of every tree that is not empty itself, and a tree over itself
has the data that it had before. -/
theorem mergeAt_laws {a b c : Tree} (ha : a.DistinctKeys) (hb : b.DistinctKeys)
    (hc : c.DistinctKeys) :
    (∀ merged, (∃ ab, mergeAt delimiter path a b = .ok ab ∧
          mergeAt delimiter path ab c = .ok merged) ↔
        ∃ bc, mergeAt delimiter path b c = .ok bc ∧ mergeAt delimiter path a bc = .ok merged) ∧
      (∀ ab, mergeAt delimiter path a b = .ok ab → ab.DistinctKeys) ∧
      (∀ tree, mergeAt delimiter path tree empty = .ok tree) ∧
      (∀ tree, tree.isEmpty = false → mergeAt delimiter path empty tree = .ok tree) ∧
      ∃ aa, mergeAt delimiter path a a = .ok aa ∧ aa.toValue = a.toValue ∧
        aa.toRounded = a.toRounded := by
  refine ⟨mergeAt_associate ha hb hc, ?_, ?_, ?_, ?_⟩
  · intro ab hab
    exact mergeAt_distinctKeys ha hb hab
  · intro tree
    exact mergeAt_of_isEmpty_right rfl
  · intro tree hne
    exact mergeAt_of_isEmpty_left rfl hne
  · obtain ⟨aa, haa, heq⟩ := @exists_mergeAt_self delimiter path a ha
    refine ⟨aa, haa, ?_, ?_⟩
    · rw [← toValue_unmarked aa, heq, toValue_unmarked]
    · rw [← toRounded_unmarked aa, heq, toRounded_unmarked]

/-- Brackets around an empty array, a list of hosts and a leaf without a value. -/
theorem mergeAt_laws_hosts :
    let hosts (node : Tree) : Tree := map [("hosts", node)] {}
    let item : Tree := leaf (some (.text "a")) { secret := true }
    let a := hosts (array [] { origins := [⟨"a", 1, 1⟩], secret := true })
    let b := hosts (array [item] { origins := [⟨"b", 1, 1⟩] })
    let c := hosts (leaf none {})
    let merged := hosts (array [item] { origins := [⟨"b", 1, 1⟩], secret := true })
    (a.DistinctKeys ∧ b.DistinctKeys ∧ c.DistinctKeys) ∧
      (∃ bc, mergeAt "." [] b c = .ok bc ∧ mergeAt "." [] a bc = .ok merged) ∧
      ∃ aa, mergeAt "." [] a a = .ok aa ∧ aa.toValue = a.toValue := by
  intro hosts item a b c merged
  have ha : a.DistinctKeys := by decide
  have hb : b.DistinctKeys := by decide
  have hc : c.DistinctKeys := by decide
  obtain ⟨hassoc, _, _, _, aa, haa, hvalue, _⟩ := @mergeAt_laws "." [] a b c ha hb hc
  exact ⟨⟨ha, hb, hc⟩, (hassoc merged).mp ⟨merged, rfl, rfl⟩, aa, haa, hvalue⟩

end Tree

end LayeredConfig
