import LayeredConfig.Config.Output
import LayeredConfig.Proofs.Secrets.Printing

/-! # Documents without secrets

A document with remarks on changed defaults is made of two trees, and each is redacted by its own
marks. Live values at a secret node never show. A default shows if it stands where the live tree is
redacted and the defaults are not. -/

namespace LayeredConfig

namespace Tree

/-! ## Values at a path -/

/-- The tree without the values at a path of keys and below it. -/
def blankAt : List String → Tree → Tree
  | [], tree => tree.blank true
  | key :: rest, map entries mark =>
    map (entries.map fun entry =>
      (entry.1, if entry.1 = key then blankAt rest entry.2 else entry.2)) mark
  | _ :: _, tree => tree

theorem mark_blankAt (path : List String) (tree : Tree) : (tree.blankAt path).mark = tree.mark := by
  cases path <;> cases tree <;> rfl

theorem mark_eq_of_blankAt_eq {path : List String} {first second : Tree}
    (h : first.blankAt path = second.blankAt path) : first.mark = second.mark := by
  rw [← mark_blankAt path, h, mark_blankAt]

theorem isSecret_blankAt (path : List String) (tree : Tree) :
    (tree.blankAt path).isSecret = tree.isSecret := by
  rw [isSecret, isSecret, mark_blankAt]

theorem isSecret_eq_of_blankAt_eq {path : List String} {first second : Tree}
    (h : first.blankAt path = second.blankAt path) : first.isSecret = second.isSecret := by
  rw [← isSecret_blankAt path, h, isSecret_blankAt]

/-- Where there was a scalar there is one. -/
theorem isSome_scalar?_blankAt (path : List String) (tree : Tree) :
    (tree.blankAt path).scalar?.isSome = tree.scalar?.isSome := by
  cases path with
  | nil =>
      cases tree with
      | leaf value mark => simp [blankAt, blank, scalar?]
      | map entries mark => rfl
      | array items mark => rfl
  | cons key rest => cases tree <;> rfl

theorem lookup_blankAt (key : String) (rest : List String) (tree : Tree) (name : String) :
    (tree.blankAt (key :: rest)).entries.lookup name =
      (tree.entries.lookup name).map fun child =>
        if name = key then child.blankAt rest else child := by
  cases tree with
  | leaf value mark => rfl
  | array items mark => rfl
  | map entries mark =>
      simp only [blankAt, Tree.entries]
      induction entries with
      | nil => rfl
      | cons entry others ih =>
          rw [List.map_cons, Entries.lookup_cons, Entries.lookup_cons, ih]
          split
          · next h => rw [h, Option.map_some]
          · rfl

section Lookup

variable {first second : Tree} {key : String} {rest : List String}

/-- Beside the path the children are the same. -/
theorem lookup_of_blankAt_eq (h : first.blankAt (key :: rest) = second.blankAt (key :: rest))
    {other : String} (hother : other ≠ key) :
    first.entries.lookup other = second.entries.lookup other := by
  have hlookup := congrArg (fun tree => tree.entries.lookup other) h
  simpa only [lookup_blankAt, if_neg hother, Option.map_id'] using hlookup

theorem map_lookup_of_blankAt_eq
    (h : first.blankAt (key :: rest) = second.blankAt (key :: rest)) :
    (first.entries.lookup key).map (blankAt rest) =
      (second.entries.lookup key).map (blankAt rest) := by
  have hlookup := congrArg (fun tree => tree.entries.lookup key) h
  simpa only [lookup_blankAt, if_true] using hlookup

end Lookup

theorem node?_blankAt (path : List String) (tree : Tree) :
    (tree.blankAt path).node? path = (tree.node? path).map (blank true) := by
  induction path generalizing tree with
  | nil => rfl
  | cons key rest ih =>
      rw [node?, node?, lookup_blankAt]
      cases tree.entries.lookup key with
      | none => rfl
      | some child =>
          simp only [Option.map_some, if_true, Option.bind_some]
          exact ih child

/-- Redaction does not depend on the values at a secret node and below it. -/
theorem redacted_blankAt {tree node : Tree} {path : List String} (hdistinct : tree.DistinctKeys)
    (hnode : tree.node? path = some node) (hsecret : node.isSecret = true) :
    (tree.blankAt path).redacted = tree.redacted := by
  induction path generalizing tree with
  | nil =>
      have hroot : tree.isSecret = true := by
        cases hnode
        exact hsecret
      exact (redacted_eq_of_isSecret (mark_blankAt [] tree).symm hroot).symm
  | cons key rest ih =>
      cases tree with
      | leaf value mark => rfl
      | array items mark => rfl
      | map entries mark =>
          cases hroot : (map entries mark).isSecret with
          | true => exact (redacted_eq_of_isSecret (mark_blankAt _ _).symm hroot).symm
          | false =>
              obtain ⟨child, hchild, hnode⟩ := Option.bind_eq_some_iff.mp hnode
              have hblank : ((map entries mark).blankAt (key :: rest)).isSecret = false := by
                rw [isSecret_blankAt, hroot]
              rw [blankAt] at hblank ⊢
              rw [redacted_map hblank, redacted_map hroot, List.map_map]
              congr 1
              refine List.map_congr_left fun entry hentry => ?_
              simp only [Function.comp_apply]
              split
              · next hkey =>
                -- The entry is the one on the path, since no other has its key.
                have hfound := Entries.lookup_of_mem hdistinct.keys_nodup hentry
                rw [hkey] at hfound
                cases Option.some.inj (hfound.symm.trans hchild)
                rw [ih (hdistinct.child hentry) hnode]
              · rfl

theorem redacted_eq_of_blankAt_eq {first second node : Tree} {path : List String}
    (hfirst : first.DistinctKeys) (hsecond : second.DistinctKeys)
    (hnode : first.node? path = some node) (hsecret : node.isSecret = true)
    (h : first.blankAt path = second.blankAt path) : first.redacted = second.redacted := by
  have hblank : (second.node? path).map (blank true) = some (node.blank true) := by
    rw [← node?_blankAt, ← h, node?_blankAt, hnode, Option.map_some]
  obtain ⟨node', hnode', hsame⟩ := Option.map_eq_some_iff.mp hblank
  have hmark : node'.mark = node.mark := @mark_eq_of_blankAt_eq [] node' node hsame
  have hsecret' : node'.isSecret = true := by
    rw [isSecret, hmark]
    exact hsecret
  rw [← redacted_blankAt hfirst hnode hsecret, h, redacted_blankAt hsecond hnode' hsecret']

theorem distinctKeys_redacted {tree : Tree} (h : tree.DistinctKeys) :
    tree.redacted.DistinctKeys := by
  induction tree using Tree.induction with
  | leaf value mark =>
      rw [redacted]
      split <;> trivial
  | map entries mark ih =>
      cases hsecret : (map entries mark).isSecret with
      | true =>
          rw [redacted_of_isSecret hsecret]
          trivial
      | false =>
          rw [redacted_map hsecret, distinctKeys_map_iff]
          refine ⟨?_, fun key child hmem => ?_⟩
          · simpa [Entries.keys, Function.comp_def] using h.keys_nodup
          · obtain ⟨entry, hentry, heq⟩ := List.mem_map.mp hmem
            cases heq
            exact ih entry.1 entry.2 hentry (h.child hentry)
  | array items mark ih =>
      cases hsecret : (array items mark).isSecret with
      | true =>
          rw [redacted_of_isSecret hsecret]
          trivial
      | false =>
          rw [redacted_array hsecret, distinctKeys_array_iff]
          intro item hmem
          obtain ⟨original, horiginal, rfl⟩ := List.mem_map.mp hmem
          exact ih original horiginal (distinctKeys_array_iff.mp h original horiginal)

/-- What scalar a tree has at a path is kept back: it is secret, or something above it is. -/
def HidesScalar (path : List String) (tree : Tree) : Prop :=
  ∀ scalar mark, tree.node? path = some (leaf (some scalar) mark) →
    ∃ above node, above <+: path ∧ tree.node? above = some node ∧ node.isSecret = true

/-! ## Defaults at a path -/

/-- Two trees, if there are any, with the same scalar at a path, and with the same beside it. -/
def AgreeAt : List String → Option Tree → Option Tree → Prop
  | [], first, second => first.bind scalar? = second.bind scalar?
  | key :: rest, first, second =>
    (∀ other, other ≠ key →
      first.bind (·.entries.lookup other) = second.bind (·.entries.lookup other)) ∧
    AgreeAt rest (first.bind (·.entries.lookup key)) (second.bind (·.entries.lookup key))

theorem AgreeAt.refl (path : List String) (tree : Option Tree) : AgreeAt path tree tree := by
  induction path generalizing tree with
  | nil => rfl
  | cons key rest ih => exact ⟨fun _ _ => rfl, ih _⟩

theorem scalar?_redacted {tree : Tree} (h : tree.isSecret = false) :
    tree.redacted.scalar? = tree.scalar? := by
  cases tree with
  | leaf value mark => rw [redacted_leaf h]
  | map entries mark =>
      rw [redacted_map h]
      rfl
  | array items mark =>
      rw [redacted_array h]
      rfl

theorem HidesScalar.scalar?_eq_none {tree : Tree} (h : tree.HidesScalar [])
    (hsecret : tree.isSecret = false) : tree.scalar? = none := by
  cases tree with
  | map entries mark => rfl
  | array items mark => rfl
  | leaf value mark =>
      cases value with
      | none => rfl
      | some scalar =>
          obtain ⟨above, node, habove, hnode, hmarked⟩ := h scalar mark rfl
          cases List.prefix_nil.mp habove
          cases hnode
          rw [hsecret] at hmarked
          cases hmarked

theorem HidesScalar.child {tree child : Tree} {key : String} {rest : List String}
    (h : tree.HidesScalar (key :: rest)) (hsecret : tree.isSecret = false)
    (hchild : tree.entries.lookup key = some child) : child.HidesScalar rest := by
  intro scalar mark hleaf
  obtain ⟨above, node, habove, hnode, hmarked⟩ := h scalar mark (by rw [node?, hchild]; exact hleaf)
  cases above with
  | nil =>
      cases hnode
      rw [hsecret] at hmarked
      cases hmarked
  | cons head tail =>
      obtain ⟨rfl, htail⟩ := List.cons_prefix_cons.mp habove
      rw [node?, hchild] at hnode
      exact ⟨tail, node, htail, hnode, hmarked⟩

/-- Trees that differ below a path alone agree at any place on the way to it once they are redacted,
if they hide the scalar there. -/
theorem agreeAt_redacted {first second : Tree} {path before : List String}
    (hbefore : before <+: path) (hblank : first.blankAt path = second.blankAt path)
    (hhides : first.HidesScalar before) :
    AgreeAt before (some first.redacted) (some second.redacted) := by
  -- Above the first mark of the defaults there is nothing to hide, and below it nothing to see.
  induction before generalizing first second path with
  | nil =>
      cases hsecret : first.isSecret with
      | true =>
          rw [redacted_eq_of_isSecret (mark_eq_of_blankAt_eq hblank) hsecret]
          exact .refl _ _
      | false =>
          have hsecond : second.isSecret = false := by
            rw [← isSecret_eq_of_blankAt_eq hblank, hsecret]
          have hnone : first.scalar? = none := hhides.scalar?_eq_none hsecret
          have hnone' : second.scalar? = none := by
            rw [← Option.not_isSome_iff_eq_none, ← isSome_scalar?_blankAt path, ← hblank,
              isSome_scalar?_blankAt, hnone]
            exact nofun
          rw [AgreeAt, Option.bind_some, Option.bind_some, scalar?_redacted hsecret,
            scalar?_redacted hsecond, hnone, hnone']
  | cons key rest ih =>
      cases hsecret : first.isSecret with
      | true =>
          rw [redacted_eq_of_isSecret (mark_eq_of_blankAt_eq hblank) hsecret]
          exact .refl _ _
      | false =>
          have hsecond : second.isSecret = false := by
            rw [← isSecret_eq_of_blankAt_eq hblank, hsecret]
          obtain ⟨further, rfl⟩ := hbefore
          have hchildren := map_lookup_of_blankAt_eq hblank
          rw [AgreeAt]
          simp only [Option.bind_some, childwise_redacted.lookup hsecret,
            childwise_redacted.lookup hsecond]
          refine ⟨fun other hother => by rw [lookup_of_blankAt_eq hblank hother], ?_⟩
          cases hfirst : first.entries.lookup key with
          | none =>
              rw [hfirst, Option.map_none, eq_comm, Option.map_eq_none_iff] at hchildren
              rw [hchildren]
              exact .refl _ _
          | some child =>
              rw [hfirst, Option.map_some, eq_comm, Option.map_eq_some_iff] at hchildren
              obtain ⟨child', hchild', hblank'⟩ := hchildren
              rw [hchild']
              exact ih (List.prefix_append rest further) hblank'.symm (hhides.child hsecret hfirst)

end Tree

/-! ## Documents -/

namespace Documented

theorem ofEntries_congr {first second : Option Tree} {entries : List (String × Tree)}
    (h : ∀ name child, (name, child) ∈ entries → ∀ level documentation,
      ofTree level (some name) documentation (first.bind (·.entries.get? name)) child =
        ofTree level (some name) documentation (second.bind (·.entries.get? name)) child)
    (level : Int) (documentation : Option Documentation) :
    ofEntries level documentation first entries = ofEntries level documentation second entries := by
  induction entries with
  | nil => rfl
  | cons entry rest ih =>
      obtain ⟨name, child⟩ := entry
      rw [ofEntries, ofEntries, h name child List.mem_cons_self,
        ih fun other child hmem => h other child (List.mem_cons_of_mem _ hmem)]

/-- Defaults at a leaf are read there, and nowhere below. -/
theorem ofTree_congr {tree : Tree} {path : List String} {value : Option Scalar} {mark : Mark}
    {first second : Option Tree} (hdistinct : tree.DistinctKeys)
    (hleaf : tree.node? path = some (.leaf value mark)) (hagree : Tree.AgreeAt path first second)
    (level : Int) (name : Option String) (documentation : Option Documentation) :
    ofTree level name documentation first tree = ofTree level name documentation second tree := by
  induction path generalizing tree first second level name documentation with
  | nil =>
      cases hleaf
      have hscalar : first.bind Tree.scalar? = second.bind Tree.scalar? := hagree
      simp only [ofTree, presetOf, hscalar]
  | cons key rest ih =>
      cases tree with
      | leaf value mark => cases hleaf
      | array items mark => cases hleaf
      | map entries mark =>
          obtain ⟨child, hchild, hbelow⟩ := Option.bind_eq_some_iff.mp hleaf
          have hentries : entries.isEmpty = false := by
            cases entries with
            | nil => cases hchild
            | cons => rfl
          have hsame : ∀ level documentation,
              ofEntries level documentation first entries =
                ofEntries level documentation second entries := by
            refine ofEntries_congr fun other found hmem level documentation => ?_
            -- A child has its own defaults; only on the path may they differ.
            by_cases hkey : other = key
            · subst hkey
              have hfound := Entries.lookup_of_mem hdistinct.keys_nodup hmem
              cases Option.some.inj (hfound.symm.trans hchild)
              exact ih (hdistinct.child hmem) hbelow hagree.2 level _ documentation
            · have hpreset : first.bind (·.entries.get? other) = second.bind (·.entries.get? other) :=
                hagree.1 other hkey
              rw [hpreset]
          simp only [ofTree, hentries, hsame, Bool.false_and, Bool.false_eq_true, if_false]

/-- The document of a tree with its documentation and its defaults, each without its secrets. -/
def redactedDocument (layout : Commented.Layout) (documentation : Option Documentation)
    (tree presets : Tree) : Except Fault String :=
  (build documentation (some tree.redacted) (some presets.redacted)).map fun documented =>
    layout.render documented.toEntry

/-- It is what a configuration writes with documentation and without secrets. -/
theorem result_documentedText {settings : ConfigSettings} {output : OutputSettings}
    {documentation : Option Documentation} {defaults : Compiled} (tree : Tree)
    (hredact : output.redact = true) (honly : output.onlyDefaults = false)
    (hdefaults : settings.buildDefaults.result = .ok defaults)
    (hdocumentation : Config.renamedDocumentation settings = .ok documentation) :
    (Config.documentedText settings output (Config.concealed output tree)).result =
      redactedDocument output.layout documentation tree defaults.tree := by
  simp only [Config.documentedText, Config.concealed, honly, hredact, Bool.false_eq_true, if_false,
    if_true, Traced.result_bind, hdefaults, hdocumentation, Except.bind, Traced.pure,
    Traced.ofExcept, redactedDocument]
  cases build documentation (some tree.redacted) (some defaults.tree.redacted) <;> rfl

/-- Documents do not depend on the values at a secret node and below it: not on live values, and not
on defaults either, as long as the defaults hide what they have where the live tree is redacted. -/
theorem redactedDocument_eq_of_blankAt_eq {layout : Commented.Layout}
    {documentation : Option Documentation} {tree other presets presets' node : Tree}
    {path : List String} (htree : tree.DistinctKeys) (hother : other.DistinctKeys)
    (hnode : tree.node? path = some node) (hsecret : node.isSecret = true)
    (hlive : tree.blankAt path = other.blankAt path)
    (hpresets : presets.blankAt path = presets'.blankAt path) :
    redactedDocument layout documentation other presets =
        redactedDocument layout documentation tree presets ∧
      ((∀ before found, tree.FirstSecret path before found → presets.HidesScalar before) →
        redactedDocument layout documentation other presets' =
          redactedDocument layout documentation tree presets) := by
  have hredacted : other.redacted = tree.redacted :=
    (Tree.redacted_eq_of_blankAt_eq htree hother hnode hsecret hlive).symm
  refine ⟨by rw [redactedDocument, redactedDocument, hredacted], fun hhides => ?_⟩
  obtain ⟨before, found, hfirst⟩ := Tree.exists_firstSecret hnode hsecret
  have hagree := Tree.agreeAt_redacted hfirst.onPath hpresets (hhides before found hfirst)
  have hbuild := ofTree_congr (Tree.distinctKeys_redacted htree) hfirst.node?_redacted hagree
    (-1) none documentation
  simp only [redactedDocument, build, hredacted, hbuild]

/-- Below a map that is secret, defaults without a mark do not show. -/
theorem redactedDocument_eq_secret_map :
    let database (password : String) (secret : Bool) : Tree :=
      .map [("db", .map [("password", .leaf (some (.text password)) {})] { secret })] {}
    redactedDocument {} none (database "two" true) (database "two" false) =
      redactedDocument {} none (database "one" true) (database "one" false) := by
  intro database
  have hdistinct : ∀ password, (database password true).DistinctKeys := by
    intro password
    simp [database, Tree.DistinctKeys, Tree.DistinctKeysEntries, Entries.keys]
  have hhides : ∀ before found, (database "one" true).FirstSecret ["db"] before found →
      (database "one" false).HidesScalar before := by
    intro before found hfirst scalar mark hleaf
    rcases List.prefix_cons_iff.mp hfirst.onPath with rfl | ⟨rest, rfl, hrest⟩
    · cases hleaf
    · cases List.prefix_nil.mp hrest
      cases hleaf
  have hnode : (database "one" true).node? ["db"] =
      some (.map [("password", .leaf (some (.text "one")) {})] { secret := true }) := rfl
  have hlive : (database "one" true).blankAt ["db"] = (database "two" true).blankAt ["db"] := rfl
  have hpresets : (database "one" false).blankAt ["db"] = (database "two" false).blankAt ["db"] :=
    rfl
  exact (redactedDocument_eq_of_blankAt_eq (hdistinct "one") (hdistinct "two") hnode rfl hlive
    hpresets).2 hhides

/-- A default without a mark shows, though the live value at its key is secret. -/
theorem redactedDocument_unmarked_default :
    let defaults (password : String) : Tree :=
      .map [("password", .leaf (some (.text password)) { origins := [⟨"defaults", 0, 0⟩] })]
        { origins := [⟨"defaults", 0, 0⟩] }
    let override : Tree :=
      .map [("password", .leaf (some (.text "y"))
        { origins := [⟨"override", 0, 0⟩], secret := true })] { origins := [⟨"override", 0, 0⟩] }
    let live : Tree :=
      .map [("password", .leaf (some (.text "y"))
        { origins := [⟨"defaults", 0, 0⟩, ⟨"override", 0, 0⟩], secret := true })]
        { origins := [⟨"defaults", 0, 0⟩, ⟨"override", 0, 0⟩] }
    (∀ password, Tree.mergeAll "." [defaults password] = .ok (defaults password) ∧
      Tree.mergeAll "." [defaults password, override] = .ok live) ∧
    (live.node? ["password"]).any Tree.isSecret = true ∧
    (defaults "one").blankAt ["password"] = (defaults "two").blankAt ["password"] ∧
    redactedDocument {} none live (defaults "one") =
      .ok "---\n# default: one\npassword: REDACTED\n\n" ∧
    redactedDocument {} none live (defaults "two") =
      .ok "---\n# default: two\npassword: REDACTED\n\n" := by
  intro defaults override live
  let documented (password : String) : Documented :=
    .node {} [("password", .node
      { name := some "password", scalar := some (.text "REDACTED"),
        preset := some (.text password), level := 0 } [])]
  have hone : build none (some live.redacted) (some (defaults "one").redacted) =
      .ok (documented "one") := by cbv
  have htwo : build none (some live.redacted) (some (defaults "two").redacted) =
      .ok (documented "two") := by cbv
  have hone' : ({} : Commented.Layout).render (documented "one").toEntry =
      "---\n# default: one\npassword: REDACTED\n\n" := by decide +kernel
  have htwo' : ({} : Commented.Layout).render (documented "two").toEntry =
      "---\n# default: two\npassword: REDACTED\n\n" := by decide +kernel
  refine ⟨fun password => ⟨rfl, rfl⟩, rfl, rfl, ?_, ?_⟩
  · rw [redactedDocument, hone, Except.map, hone']
  · rw [redactedDocument, htwo, Except.map, htwo']

end Documented

end LayeredConfig
