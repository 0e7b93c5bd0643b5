import LayeredConfig.Proofs.Outcomes
import LayeredConfig.Proofs.Secrets.Annotation
import LayeredConfig.Proofs.Tree.Layers
import LayeredConfig.Proofs.Tree.Nodes
import LayeredConfig.Value.OfTree

/-! # Plain data as trees

Plain data becomes a tree that keeps all of it: every scalar, every item and every entry in its
place, under keys from which the annotations are gone. What they said is kept in the marks of the
nodes, beside the origins that all nodes share. Both ways lead over one relation between data and
trees, which says what a tree built from data is. -/

namespace LayeredConfig

/-! ## Plain data -/

theorem Scalar.toValue_injective {scalar other : Scalar} (h : scalar.toValue = other.toValue) :
    scalar = other := by
  cases scalar <;> cases other <;> cases h <;> rfl

namespace Value

/-- Scalars, lists, and dictionaries under texts, no two of which spell one name. -/
inductive Buildable : Value → Prop
  | scalar (scalar : Scalar) : Buildable scalar.toValue
  | list {items : List Value} (h : ∀ item ∈ items, Buildable item) : Buildable (list items)
  | dict {entries : List (String × Value)}
      (hnames : (entries.map fun entry => (splitSecret entry.1).1).Nodup)
      (h : ∀ entry ∈ entries, Buildable entry.2) : Buildable (ofEntries entries)

mutual

/-- Data without the annotations of its keys. -/
def stripped : Value → Value
  | dict entries => dict (strippedEntries entries)
  | list items => list (strippedItems items)
  | value => value

def strippedEntries : List (Value × Value) → List (Value × Value)
  | [] => []
  | (text key, value) :: rest =>
    (text (splitSecret key).1, stripped value) :: strippedEntries rest
  | (key, value) :: rest => (key, stripped value) :: strippedEntries rest

def strippedItems : List Value → List Value
  | [] => []
  | item :: rest => stripped item :: strippedItems rest

end

theorem ofEntries_injective {entries others : List (String × Value)}
    (h : ofEntries entries = ofEntries others) : entries = others := by
  refine List.map_injective_iff.mpr (fun first second heq => ?_) (Value.dict.inj h)
  obtain ⟨hkey, hvalue⟩ := Prod.mk.inj heq
  exact Prod.ext (Value.text.inj hkey) hvalue

theorem stripped_ofEntries (entries : List (String × Value)) :
    (ofEntries entries).stripped =
      ofEntries (entries.map fun entry => ((splitSecret entry.1).1, entry.2.stripped)) := by
  rw [ofEntries, stripped, ofEntries, Value.dict.injEq]
  induction entries with
  | nil => rfl
  | cons entry rest ih => exact congrArg (_ :: ·) ih

theorem stripped_list (items : List Value) : (list items).stripped = list (items.map stripped) := by
  rw [stripped, Value.list.injEq]
  induction items with
  | nil => rfl
  | cons item rest ih => exact congrArg (_ :: ·) ih

end Value

namespace Tree

theorem toValue_map (entries : List (String × Tree)) (mark : Mark) :
    (map entries mark).toValue =
      .ofEntries (entries.map fun entry => (entry.1, entry.2.toValue)) := by
  rw [toValue, Value.ofEntries, Value.dict.injEq]
  induction entries with
  | nil => rfl
  | cons entry rest ih => exact congrArg (_ :: ·) ih

theorem toValue_array (items : List Tree) (mark : Mark) :
    (array items mark).toValue = .list (items.map toValue) := by
  rw [toValue, Value.list.injEq]
  induction items with
  | nil => rfl
  | cons item rest ih => exact congrArg (_ :: ·) ih

theorem entriesWithoutOrigins_eq (entries : List (String × Tree)) :
    entriesWithoutOrigins entries = entries.map fun entry => (entry.1, entry.2.withoutOrigins) := by
  induction entries with
  | nil => rfl
  | cons entry rest ih => exact congrArg (_ :: ·) ih

theorem itemsWithoutOrigins_eq (items : List Tree) :
    itemsWithoutOrigins items = items.map withoutOrigins := by
  induction items with
  | nil => rfl
  | cons item rest ih => exact congrArg (_ :: ·) ih

/-! ## The tree of data -/

/-- A tree that was built from data: every node has the origins, and those that are secret are those
whose own key is annotated. An item has no key; the root is left open. -/
inductive BuiltFrom (origins : List Origin) : Value → Tree → Prop
  | leaf (scalar : Scalar) (secret : Bool) :
      BuiltFrom origins scalar.toValue (leaf (some scalar) { origins, secret })
  | map {entries : List (String × Value)} {children : List (String × Tree)} (secret : Bool)
      (hlength : entries.length = children.length)
      (hkeys : ∀ pair ∈ entries.zip children, Spells pair.1.1 pair.2.1 pair.2.2.isSecret)
      (h : ∀ pair ∈ entries.zip children, BuiltFrom origins pair.1.2 pair.2.2) :
      BuiltFrom origins (.ofEntries entries) (map children { origins, secret })
  | array {values : List Value} {items : List Tree} (secret : Bool)
      (hlength : values.length = items.length) (hopen : ∀ item ∈ items, item.isSecret = false)
      (h : ∀ pair ∈ values.zip items, BuiltFrom origins pair.1 pair.2) :
      BuiltFrom origins (.list values) (array items { origins, secret })

namespace BuiltFrom

variable {origins : List Origin} {data : Value} {tree : Tree}

theorem markSecret (h : BuiltFrom origins data tree) (secret : Bool) :
    BuiltFrom origins data (markSecret secret tree) := by
  cases secret with
  | false => exact h
  | true =>
      cases h with
      | leaf scalar secret => exact .leaf scalar true
      | map secret hlength hkeys h => exact .map true hlength hkeys h
      | array secret hlength hopen h => exact .array true hlength hopen h

theorem origins_eq (h : BuiltFrom origins data tree) :
    ∀ node ∈ tree.nodes, node.origins = origins := by
  induction h with
  | leaf scalar secret =>
      intro node hnode
      rw [List.mem_singleton.mp hnode]
      rfl
  | map secret hlength hkeys _ ih =>
      intro node hnode
      rcases mem_nodes_map_iff.mp hnode with rfl | ⟨child, hchild, hnode⟩
      · rfl
      · obtain ⟨entry, hpair⟩ := exists_mem_zip_right hlength hchild
        exact ih _ hpair node hnode
  | array secret hlength hopen _ ih =>
      intro node hnode
      rcases mem_nodes_array_iff.mp hnode with rfl | ⟨item, hitem, hnode⟩
      · rfl
      · obtain ⟨value, hpair⟩ := exists_mem_zip_right hlength hitem
        exact ih _ hpair node hnode

/-- The data comes back without its annotations. -/
theorem toValue_eq (h : BuiltFrom origins data tree) : tree.toValue = data.stripped := by
  induction h with
  | leaf scalar secret => cases scalar <;> rfl
  | map secret hlength hkeys _ ih =>
      rw [toValue_map, Value.stripped_ofEntries]
      refine congrArg Value.ofEntries (map_eq_map_iff_zip.mpr ⟨hlength, fun pair hpair => ?_⟩).symm
      rw [(hkeys pair hpair).eq, ih pair hpair]
  | array secret hlength hopen _ ih =>
      rw [toValue_array, Value.stripped_list]
      exact congrArg Value.list
        (map_eq_map_iff_zip.mpr ⟨hlength, fun pair hpair => (ih pair hpair).symm⟩).symm

end BuiltFrom

/-! ## Building -/

/-- Building from the data succeeds, with a tree of the data that is not secret itself. -/
def Builds (origins : List Origin) (data : Value) : Prop :=
  ∃ tree, ofValue origins data = .ok tree ∧ tree.isSecret = false ∧ BuiltFrom origins data tree

variable {origins : List Origin}

theorem exists_ofItems {values : List Value} (h : ∀ value ∈ values, Builds origins value) :
    ∃ items, ofItems origins values = .ok items ∧
      List.Forall₂ (fun value item => item.isSecret = false ∧ BuiltFrom origins value item)
        values items := by
  induction values with
  | nil => exact ⟨[], rfl, .nil⟩
  | cons value rest ih =>
      obtain ⟨item, hitem, hbuilt⟩ := h value List.mem_cons_self
      obtain ⟨items, hitems, hall⟩ := ih fun value hvalue => h value (List.mem_cons_of_mem _ hvalue)
      refine ⟨item :: items, ?_, .cons hbuilt hall⟩
      rw [ofItems, hitem, hitems]
      rfl

/-- Entries whose names are not set yet become the next children in order. -/
theorem exists_ofEntries {entries : List (String × Value)} (built : Entries Tree)
    (hnames : (built.keys ++ entries.map fun entry => (splitSecret entry.1).1).Nodup)
    (h : ∀ entry ∈ entries, Builds origins entry.2) :
    ∃ children,
      ofEntries origins built (entries.map fun (key, value) => (.text key, value)) =
        .ok (built ++ children) ∧
      List.Forall₂ (fun entry child => Spells entry.1 child.1 child.2.isSecret ∧
        BuiltFrom origins entry.2 child.2) entries children := by
  induction entries generalizing built with
  | nil => exact ⟨[], congrArg Except.ok (List.append_nil built).symm, .nil⟩
  | cons entry rest ih =>
      obtain ⟨key, value⟩ := entry
      obtain ⟨child, hchild, hopen, hbuilt⟩ := h _ List.mem_cons_self
      have hname : (splitSecret key).1 ∉ built.keys := fun hmem =>
        (List.nodup_append.mp hnames).2.2 _ hmem _ List.mem_cons_self rfl
      have hmarked : (markSecret (splitSecret key).2 child).isSecret = (splitSecret key).2 := by
        rw [isSecret_markSecret, hopen, Bool.or_false]
      obtain ⟨children, hchildren, hall⟩ :=
        ih (built ++ [((splitSecret key).1, markSecret (splitSecret key).2 child)])
          (by simpa [Entries.keys] using hnames)
          fun entry hentry => h entry (List.mem_cons_of_mem _ hentry)
      refine ⟨((splitSecret key).1, markSecret (splitSecret key).2 child) :: children, ?_,
        .cons ⟨?_, hbuilt.markSecret (splitSecret key).2⟩ hall⟩
      · rw [List.map_cons, ofEntries, hchild]
        simp only [bind, Except.bind, Value.toText]
        rw [Entries.set_of_not_mem hname, hchildren, List.append_assoc]
        rfl
      · rw [hmarked]
        exact spells_splitSecret key

theorem builds (origins : List Origin) {data : Value} (h : data.Buildable) :
    Builds origins data := by
  induction h with
  | scalar scalar =>
      exact ⟨.leaf (some scalar) { origins }, by cases scalar <;> rfl, rfl, .leaf scalar false⟩
  | list _ ih =>
      obtain ⟨items, hitems, hall⟩ := exists_ofItems ih
      obtain ⟨hlength, hall⟩ := List.forall₂_iff_zip.mp hall
      refine ⟨.array items { origins }, by rw [ofValue, hitems]; rfl, rfl,
        .array false hlength ?_ fun pair hpair => (hall hpair).2⟩
      intro item hitem
      obtain ⟨value, hpair⟩ := exists_mem_zip_right hlength hitem
      exact (hall hpair).1
  | dict hnames _ ih =>
      obtain ⟨children, hchildren, hall⟩ := exists_ofEntries [] hnames ih
      obtain ⟨hlength, hall⟩ := List.forall₂_iff_zip.mp hall
      refine ⟨.map children { origins }, ?_, rfl,
        .map false hlength (fun pair hpair => (hall hpair).1) fun pair hpair => (hall hpair).2⟩
      rw [Value.ofEntries, ofValue, hchildren]
      rfl

/-! ## Trees that are their data -/

/-- There is nothing to a tree but its data: every leaf holds a scalar, no node is secret, and no
key is annotated or held twice. -/
structure Bare (tree : Tree) : Prop where
  distinctKeys : tree.DistinctKeys
  leaves : ∀ node ∈ tree.nodes, node.shape = .scalar → node.scalar?.isSome = true
  isSecret : ∀ node ∈ tree.nodes, node.isSecret = false
  keys : ∀ node ∈ tree.nodes, ∀ key ∈ node.entries.keys, ∀ front, key ≠ front ++ secretEnding

namespace Bare

variable {mark : Mark}

theorem child {entries : List (String × Tree)} (h : (map entries mark).Bare)
    {entry : String × Tree} (hentry : entry ∈ entries) : entry.2.Bare where
  distinctKeys := h.distinctKeys.child hentry
  leaves node hnode := h.leaves node (mem_nodes_child hentry hnode)
  isSecret node hnode := h.isSecret node (mem_nodes_child hentry hnode)
  keys node hnode := h.keys node (mem_nodes_child hentry hnode)

theorem item {items : List Tree} (h : (array items mark).Bare) {item : Tree}
    (hitem : item ∈ items) : item.Bare where
  distinctKeys := distinctKeys_array_iff.mp h.distinctKeys item hitem
  leaves node hnode := h.leaves node (mem_nodes_item hitem hnode)
  isSecret node hnode := h.isSecret node (mem_nodes_item hitem hnode)
  keys node hnode := h.keys node (mem_nodes_item hitem hnode)

theorem spells {entries : List (String × Tree)} (h : (map entries mark).Bare)
    {entry : String × Tree} (hentry : entry ∈ entries) : Spells entry.1 entry.1 false :=
  ⟨rfl, h.keys _ (mem_nodes_self _) entry.1 (List.mem_map_of_mem hentry)⟩

theorem buildable {tree : Tree} (h : tree.Bare) : tree.toValue.Buildable := by
  induction tree using Tree.induction with
  | leaf value mark =>
      obtain ⟨scalar, rfl⟩ := Option.isSome_iff_exists.mp (h.leaves _ (mem_nodes_self _) rfl)
      exact .scalar scalar
  | map entries mark ih =>
      rw [toValue_map]
      refine .dict ?_ ?_
      · have hnames : entries.map (fun entry => (splitSecret entry.1).1) = Entries.keys entries :=
          List.map_congr_left fun entry hentry => by rw [(h.spells hentry).eq]
        rw [List.map_map]
        exact hnames ▸ h.distinctKeys.keys_nodup
      · intro entry hentry
        obtain ⟨child, hchild, rfl⟩ := List.mem_map.mp hentry
        exact ih child.1 child.2 hchild (h.child hchild)
  | array items mark ih =>
      rw [toValue_array]
      refine .list fun value hvalue => ?_
      obtain ⟨item, hitem, rfl⟩ := List.mem_map.mp hvalue
      exact ih item hitem (h.item hitem)

theorem secret_eq {tree : Tree} (h : tree.Bare) : tree.mark.secret = false :=
  h.isSecret tree (mem_nodes_self tree)

/-- What is built from the data of a tree is that tree, apart from the origins. -/
theorem withoutOrigins_eq {origins : List Origin} {tree found : Tree} (h : tree.Bare)
    (hbuilt : BuiltFrom origins tree.toValue found) (hopen : found.isSecret = false) :
    found.withoutOrigins = tree.withoutOrigins := by
  induction tree using Tree.induction generalizing found with
  | leaf value mark =>
      obtain ⟨scalar, rfl⟩ := Option.isSome_iff_exists.mp (h.leaves _ (mem_nodes_self _) rfl)
      have hmark : mark.secret = false := h.secret_eq
      generalize hdata : (leaf (some scalar) mark).toValue = data at hbuilt
      cases hbuilt with
      | leaf other secret =>
          obtain rfl : secret = false := hopen
          obtain rfl : scalar = other := Scalar.toValue_injective hdata
          rw [withoutOrigins, withoutOrigins, hmark]
      | map => cases scalar <;> cases hdata
      | array => cases scalar <;> cases hdata
  | map entries mark ih =>
      have hmark : mark.secret = false := h.secret_eq
      rw [toValue_map] at hbuilt
      generalize hdata : Value.ofEntries _ = data at hbuilt
      cases hbuilt with
      | leaf scalar => cases scalar <;> cases hdata
      | array => cases hdata
      | @map others children secret hlength hkeys hbuilt =>
          obtain rfl : secret = false := hopen
          obtain rfl := Value.ofEntries_injective hdata
          rw [withoutOrigins, withoutOrigins, hmark, entriesWithoutOrigins_eq,
            entriesWithoutOrigins_eq]
          refine congrArg (Tree.map · _) (map_eq_map_iff_zip.mpr ⟨?_, fun pair hpair => ?_⟩).symm
          · simpa using hlength
          · have hrow : ((pair.1.1, pair.1.2.toValue), pair.2) ∈
                (entries.map fun entry => (entry.1, entry.2.toValue)).zip children := by
              rw [List.zip_map_left]
              exact List.mem_map_of_mem hpair
            have hentry := (List.of_mem_zip hpair).1
            have hsplit := (hkeys _ hrow).eq.symm.trans (h.spells hentry).eq
            obtain ⟨hname, hsecret⟩ := Prod.mk.inj hsplit
            exact Prod.ext hname.symm
              (ih pair.1.1 pair.1.2 hentry (h.child hentry) (hbuilt _ hrow) hsecret).symm
  | array items mark ih =>
      have hmark : mark.secret = false := h.secret_eq
      rw [toValue_array] at hbuilt
      generalize hdata : Value.list _ = data at hbuilt
      cases hbuilt with
      | leaf scalar => cases scalar <;> cases hdata
      | map => cases hdata
      | @array values others secret hlength hnone hbuilt =>
          obtain rfl : secret = false := hopen
          obtain rfl := Value.list.inj hdata
          rw [withoutOrigins, withoutOrigins, hmark, itemsWithoutOrigins_eq,
            itemsWithoutOrigins_eq]
          refine congrArg (Tree.array · _) (map_eq_map_iff_zip.mpr ⟨?_, fun pair hpair => ?_⟩).symm
          · simpa using hlength
          · have hrow : (pair.1.toValue, pair.2) ∈ (items.map toValue).zip others := by
              rw [List.zip_map_left]
              exact List.mem_map_of_mem hpair
            obtain ⟨hitem, hother⟩ := List.of_mem_zip hpair
            exact (ih pair.1 hitem (h.item hitem) (hbuilt _ hrow) (hnone _ hother)).symm

end Bare

/-! ## Equality -/

theorem sameEntries_of_forall {entries others : List (String × Tree)}
    (h : ∀ entry ∈ entries, ∃ other, others.lookup entry.1 = some other ∧
      entry.2.same other = true) : sameEntries entries others = true := by
  induction entries with
  | nil => rfl
  | cons entry rest ih =>
      obtain ⟨other, hlookup, hsame⟩ := h entry List.mem_cons_self
      rw [sameEntries, hlookup]
      simp only [hsame, Bool.true_and]
      exact ih fun entry hentry => h entry (List.mem_cons_of_mem _ hentry)

theorem sameItems_of_forall₂ {items others : List Tree}
    (h : List.Forall₂ (fun item other => item.same other = true) items others) :
    sameItems items others = true := by
  induction h with
  | nil => rfl
  | cons hsame _ ih => rw [sameItems, hsame, ih, Bool.and_self]

/-- Trees that differ in origins alone are equal, if their numbers equal themselves. -/
theorem same_of_withoutOrigins_eq {tree found : Tree} (hdistinct : tree.DistinctKeys)
    (hself : tree.SelfSame) (h : found.withoutOrigins = tree.withoutOrigins) :
    found.same tree = true := by
  induction tree using Tree.induction generalizing found with
  | leaf value mark =>
      cases found with
      | leaf other mark' =>
          obtain ⟨rfl, hmark⟩ := Tree.leaf.inj h
          have hsecret : mark'.secret = mark.secret := (Mark.mk.inj hmark).2
          cases other with
          | none => rw [same, hsecret, beq_self_eq_true]
          | some scalar =>
              have hscalar := hself _ (mem_nodes_self _) scalar rfl
              rw [same, hscalar, hsecret, beq_self_eq_true, Bool.and_self]
      | map => cases h
      | array => cases h
  | map entries mark ih =>
      cases found with
      | leaf => cases h
      | map others mark' =>
          obtain ⟨hentries, hmark⟩ := Tree.map.inj h
          have hsecret : mark'.secret = mark.secret := (Mark.mk.inj hmark).2
          rw [entriesWithoutOrigins_eq, entriesWithoutOrigins_eq, eq_comm, map_eq_map_iff_zip]
            at hentries
          obtain ⟨hlength, hpairs⟩ := hentries
          have hsame : sameEntries others entries = true := by
            refine sameEntries_of_forall fun other hother => ?_
            obtain ⟨entry, hpair⟩ := exists_mem_zip_right hlength hother
            obtain ⟨hkey, hvalue⟩ := Prod.mk.inj (hpairs _ hpair)
            have hentry : (entry.1, entry.2) ∈ entries := (List.of_mem_zip hpair).1
            refine ⟨entry.2, ?_, ih entry.1 entry.2 hentry (hdistinct.child hentry)
              (hself.child hentry) hvalue.symm⟩
            rw [← hkey]
            exact Entries.lookup_of_mem hdistinct.keys_nodup hentry
          rw [same, hlength, hsame, hsecret, beq_self_eq_true, beq_self_eq_true]
          rfl
      | array => cases h
  | array items mark ih =>
      cases found with
      | leaf => cases h
      | map => cases h
      | array others mark' =>
          obtain ⟨hitems, hmark⟩ := Tree.array.inj h
          have hsecret : mark'.secret = mark.secret := (Mark.mk.inj hmark).2
          rw [itemsWithoutOrigins_eq, itemsWithoutOrigins_eq, map_eq_map_iff_zip] at hitems
          obtain ⟨hlength, hpairs⟩ := hitems
          have hsame : sameItems others items = true := by
            refine sameItems_of_forall₂ (List.forall₂_iff_zip.mpr ⟨hlength, fun hpair => ?_⟩)
            have hitem := (List.of_mem_zip hpair).2
            exact ih _ hitem (distinctKeys_array_iff.mp hdistinct _ hitem) (hself.item hitem)
              (hpairs _ hpair)
          rw [same, hsame, hsecret, beq_self_eq_true]
          rfl

/-! ## There and back -/

/-- Nothing is lost between plain data and trees. The tree of data gives back the data in the same
order, without the annotations of its keys; all its nodes have the origins that were given, and
secret are those whose own key is annotated. A tree without secrets is built again from its data,
and equals what is built wherever its numbers equal themselves. -/
theorem lossless (origins : List Origin) :
    (∀ data : Value, data.Buildable →
      ∃ tree, ofValue origins data = .ok tree ∧ tree.toValue = data.stripped ∧
        (∀ node ∈ tree.nodes, node.origins = origins) ∧ tree.isSecret = false ∧
        BuiltFrom origins data tree) ∧
      ∀ tree : Tree, tree.Bare →
        ∃ found, ofValue origins tree.toValue = .ok found ∧
          found.withoutOrigins = tree.withoutOrigins ∧
          (tree.SelfSame → found.same tree = true) := by
  constructor
  · intro data hdata
    obtain ⟨tree, htree, hopen, hbuilt⟩ := builds origins hdata
    exact ⟨tree, htree, hbuilt.toValue_eq, hbuilt.origins_eq, hopen, hbuilt⟩
  · intro tree hbare
    obtain ⟨found, hfound, hopen, hbuilt⟩ := builds origins hbare.buildable
    have heq := hbare.withoutOrigins_eq hbuilt hopen
    exact ⟨found, hfound, heq, fun hself => same_of_withoutOrigins_eq hbare.distinctKeys hself heq⟩

/-- A secret list comes back under its name, with an annotation that was written twice left once;
a tree of a number and an empty list is built again. -/
theorem lossless_credentials :
    let origin : Origin := ⟨"app.yaml", 1, 1⟩
    let inner : Value := .ofEntries [("key((secret))((secret))", .text "x"), ("size", .int 1)]
    let data : Value := .ofEntries [("db((secret))", .list [inner, .null]), ("db2", .bool true)]
    let tree : Tree := .map [("port", .leaf (some (.int 80)) {}), ("hosts", .array [] {})] {}
    data.Buildable ∧
      data.stripped = .ofEntries
        [("db", .list [.ofEntries [("key((secret))", .text "x"), ("size", .int 1)], .null]),
          ("db2", .bool true)] ∧
      (∃ found, ofValue [origin] data = .ok found ∧ found.toValue = data.stripped) ∧
      tree.Bare ∧ tree.SelfSame ∧
      ∃ found, ofValue [origin] tree.toValue = .ok found ∧ found.same tree = true := by
  intro origin inner data tree
  have hinner : inner.Buildable :=
    .dict (by decide) (List.forall_mem_cons.mpr ⟨.scalar (.text "x"),
      List.forall_mem_singleton.mpr (.scalar (.int 1))⟩)
  have hlist : (Value.list [inner, .null]).Buildable :=
    .list (List.forall_mem_cons.mpr ⟨hinner, List.forall_mem_singleton.mpr (.scalar .null)⟩)
  have hdata : data.Buildable :=
    .dict (by decide) (List.forall_mem_cons.mpr ⟨hlist,
      List.forall_mem_singleton.mpr (.scalar (.bool true))⟩)
  have hplain : ∀ node ∈ tree.nodes, ∀ key ∈ node.entries.keys, (splitSecret key).2 = false := by
    decide
  have hbare : tree.Bare := {
    distinctKeys := by decide
    leaves := by decide
    isSecret := by decide
    keys := fun node hnode key hkey => ne_append_of_splitSecret (hplain node hnode key hkey) }
  have hself : tree.SelfSame := by
    simp [SelfSame, tree, nodes, nodesOfEntries, nodesOfItems, scalar?, Scalar.same]
  obtain ⟨found, hfound, hvalue, -⟩ := (lossless [origin]).1 data hdata
  obtain ⟨again, hagain, -, hsame⟩ := (lossless [origin]).2 tree hbare
  exact ⟨hdata, by rfl, ⟨found, hfound, hvalue⟩, hbare, hself, again, hagain, hsame hself⟩

end Tree

end LayeredConfig
