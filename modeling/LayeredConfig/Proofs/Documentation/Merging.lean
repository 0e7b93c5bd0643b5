import LayeredConfig.Proofs.Documentation.Nodes
import LayeredConfig.Proofs.Options.Sources
import LayeredConfig.Proofs.Outcomes
import Mathlib.Data.List.Induction

/-! # Merging documentation

Documentation whose nodes have children of distinct names is a monoid under merging, in which every
element is idempotent. What is said at a path is the last that either side says there, and marks are
kept. So it does not matter how documentation is grouped before a configuration is told of it. -/

namespace LayeredConfig

/-! ## Notes -/

namespace DocNote

theorem orElse_empty (text : String) : orElse text "" = text := by
  rw [orElse]
  split
  · next hempty => exact (String.isEmpty_iff.mp hempty).symm
  · rfl

theorem orElse_assoc (a b c : String) : orElse a (orElse b c) = orElse (orElse a b) c := by
  by_cases ha : a.isEmpty <;> simp [orElse, ha]

theorem overlay_assoc (a b c : DocNote) :
    (a.overlay b).overlay c = a.overlay (b.overlay c) := by
  simp only [overlay, orElse_assoc, Bool.or_assoc, mk.injEq, true_and, and_true]
  by_cases hc : c.type = .unspecified <;> simp [hc]

@[simp] theorem empty_overlay (note : DocNote) : overlay {} note = note := by
  obtain ⟨name, text, tag, type, deprecated, isOptional⟩ := note
  simp only [overlay, orElse_empty, Bool.false_or, mk.injEq, true_and, and_true]
  by_cases htype : type = .unspecified <;> simp [htype]

@[simp] theorem overlay_empty (note : DocNote) : note.overlay {} = note := by
  simp [overlay, orElse]

@[simp] theorem overlay_self (note : DocNote) : note.overlay note = note := by
  simp [overlay, orElse]

/-- The last of some values that says something, or the one that says nothing. -/
def lastSaid {α : Type} [DecidableEq α] (nothing : α) (values : List α) : α :=
  (values.filter fun value => value ≠ nothing).getLastD nothing

/-- A note that sums up others: the last text and type that one of them gives, and every mark. -/
structure SumsUp (note : DocNote) (notes : List DocNote) : Prop where
  name : note.name = lastSaid "" (notes.map DocNote.name)
  text : note.text = lastSaid "" (notes.map DocNote.text)
  tag : note.tag = lastSaid "" (notes.map DocNote.tag)
  type : note.type = lastSaid .unspecified (notes.map DocNote.type)
  deprecated : note.deprecated = true ↔ ∃ other ∈ notes, other.deprecated = true
  optional : note.optional = true ↔ ∃ other ∈ notes, other.optional = true

theorem lastSaid_singleton {α : Type} [DecidableEq α] (nothing value : α) :
    lastSaid nothing [value] = value := by
  by_cases h : value = nothing <;> simp [lastSaid, h]

theorem lastSaid_pair {α : Type} [DecidableEq α] (nothing first second : α) :
    lastSaid nothing [first, second] = if second = nothing then first else second := by
  by_cases hfirst : first = nothing <;> by_cases hsecond : second = nothing <;>
    simp [lastSaid, hfirst, hsecond]

theorem sumsUp_singleton (note : DocNote) : note.SumsUp [note] where
  name := (lastSaid_singleton "" note.name).symm
  text := (lastSaid_singleton "" note.text).symm
  tag := (lastSaid_singleton "" note.tag).symm
  type := (lastSaid_singleton _ note.type).symm
  deprecated := by simp
  optional := by simp

theorem sumsUp_overlay (base other : DocNote) : (base.overlay other).SumsUp [base, other] := by
  have htext : ∀ first second : String,
      orElse second first = lastSaid "" [first, second] := by
    intro first second
    simp only [lastSaid_pair, orElse, String.isEmpty_iff]
  exact {
    name := htext base.name other.name
    text := htext base.text other.text
    tag := htext base.tag other.tag
    type := (lastSaid_pair _ base.type other.type).symm
    deprecated := by simp [overlay]
    optional := by simp [overlay] }

end DocNote

namespace Documentation

variable {a b c : Documentation}

/-! ## Children -/

theorem note_merge (base other : Documentation) :
    (base.merge other).note = base.note.overlay other.note := by
  cases other
  rw [merge]
  rfl

theorem children_merge (base other : Documentation) :
    (base.merge other).children = mergeChildren base.children other.children := by
  cases other
  rw [merge]
  rfl

theorem ext {a b : Documentation} (hnote : a.note = b.note) (hchildren : a.children = b.children) :
    a = b := by
  cases a
  cases b
  exact congr (congrArg node hnote) hchildren

/-- What merging the children of two nodes yields, by their names and their look-ups. -/
theorem mergeChildren_spec (base : List (String × Documentation))
    {other : List (String × Documentation)} (hnodup : (Entries.keys other).Nodup) :
    Entries.keys (mergeChildren base other) =
        Entries.unionKeys (Entries.keys base) (Entries.keys other) ∧
      ∀ name, (mergeChildren base other).lookup name =
        Option.merge merge (base.lookup name) (other.lookup name) := by
  induction other generalizing base with
  | nil => exact ⟨(Entries.unionKeys_nil _).symm, fun _ => Option.merge_none_right.symm⟩
  | cons entry rest ih =>
      obtain ⟨name, child⟩ := entry
      obtain ⟨hname, hrest⟩ := List.nodup_cons.mp hnodup
      have hlast : rest.lookup name = none := Entries.lookup_eq_none_of_not_mem hname
      -- Either way the name gets some child, and no later one has that name.
      obtain ⟨merged, hmerged, hstep⟩ : ∃ merged,
          Option.merge merge (base.lookup name) (some child) = some merged ∧
            mergeChildren base ((name, child) :: rest) =
              mergeChildren (Entries.set name merged base) rest := by
        rw [mergeChildren]
        cases base.lookup name with
        | none => exact ⟨child, rfl, rfl⟩
        | some existing => exact ⟨existing.merge child, rfl, rfl⟩
      obtain ⟨hkeys, hlookup⟩ := ih (Entries.set name merged base) hrest
      rw [hstep]
      constructor
      · rw [hkeys, Entries.keys_set]
        exact (Entries.unionKeys_cons _ _ _ hname).symm
      · intro other
        rw [hlookup, Entries.lookup_set, Entries.lookup_cons]
        by_cases hother : other = name
        · subst hother
          rw [if_pos rfl, if_pos rfl, hlast, hmerged, Option.merge_none_right]
        · rw [if_neg hother, if_neg hother]

theorem keys_children_merge (base : Documentation) {other : Documentation}
    (hother : other.DistinctNames) :
    (base.merge other).children.keys =
      Entries.unionKeys base.children.keys other.children.keys := by
  rw [children_merge]
  exact (mergeChildren_spec base.children hother.keys_nodup).1

theorem lookup_children_merge (base : Documentation) {other : Documentation}
    (hother : other.DistinctNames) (name : String) :
    (base.merge other).children.lookup name =
      Option.merge merge (base.children.lookup name) (other.children.lookup name) := by
  rw [children_merge]
  exact (mergeChildren_spec base.children hother.keys_nodup).2 name

/-- Documentation is determined by its note, the names of its children and the look-ups of them. -/
theorem ext_lookup {a b : Documentation} (ha : a.DistinctNames) (hnote : a.note = b.note)
    (hkeys : a.children.keys = b.children.keys)
    (hlookup : ∀ name, a.children.lookup name = b.children.lookup name) : a = b :=
  ext hnote (Entries.ext_lookup ha.keys_nodup hkeys hlookup)

/-! ## The laws of merging -/

theorem distinctNames_merge (ha : a.DistinctNames) (hb : b.DistinctNames) :
    (a.merge b).DistinctNames := by
  induction b using Documentation.induction generalizing a with
  | node note children ih =>
      obtain ⟨hkeys, hlookup⟩ := mergeChildren_spec a.children (show (Entries.keys children).Nodup
        from hb.keys_nodup)
      have hnodup : (Entries.keys (mergeChildren a.children children)).Nodup := by
        rw [hkeys]
        exact Entries.nodup_unionKeys ha.keys_nodup hb.keys_nodup
      rw [merge]
      refine .node _ hnodup fun name child hmem => ?_
      have hchild := hlookup name
      rw [Entries.lookup_of_mem hnodup hmem] at hchild
      cases hbase : a.children.lookup name with
      | none =>
          rw [hbase, Option.merge_none_left] at hchild
          exact hb.of_lookup hchild.symm
      | some base =>
          cases hupper : children.lookup name with
          | none =>
              rw [hbase, hupper, Option.merge_none_right] at hchild
              cases hchild
              exact ha.of_lookup hbase
          | some upper =>
              rw [hbase, hupper] at hchild
              cases hchild
              exact ih name upper (Entries.mem_of_lookup hupper) (ha.of_lookup hbase)
                (hb.of_lookup hupper)

theorem merge_assoc (ha : a.DistinctNames) (hb : b.DistinctNames) (hc : c.DistinctNames) :
    (a.merge b).merge c = a.merge (b.merge c) := by
  induction a using Documentation.induction generalizing b c with
  | node note children ih =>
      have hab := distinctNames_merge ha hb
      have hbc := distinctNames_merge hb hc
      refine ext_lookup (distinctNames_merge hab hc) ?_ ?_ fun name => ?_
      · simp only [note_merge, DocNote.overlay_assoc]
      · rw [keys_children_merge _ hc, keys_children_merge _ hb, keys_children_merge _ hbc,
          keys_children_merge _ hc, Entries.unionKeys_assoc]
      · rw [lookup_children_merge _ hc, lookup_children_merge _ hb, lookup_children_merge _ hbc,
          lookup_children_merge _ hc]
        cases hx : (node note children).children.lookup name with
        | none => simp only [Option.merge_none_left]
        | some x =>
            cases hy : b.children.lookup name with
            | none => simp only [Option.merge_none_left, Option.merge_none_right]
            | some y =>
                cases hz : c.children.lookup name with
                | none => simp only [Option.merge_none_right]
                | some z =>
                    exact congrArg some (ih name x (Entries.mem_of_lookup hx) (ha.of_lookup hx)
                      (hb.of_lookup hy) (hc.of_lookup hz))

theorem empty_merge (ha : a.DistinctNames) : empty.merge a = a := by
  refine ext_lookup (distinctNames_merge .empty ha) ?_ ?_ fun name => ?_
  · rw [note_merge]
    exact DocNote.empty_overlay a.note
  · rw [keys_children_merge _ ha]
    simp [empty, children, Entries.keys, Entries.unionKeys]
  · rw [lookup_children_merge _ ha]
    exact Option.merge_none_left

theorem merge_empty (a : Documentation) : a.merge empty = a := by
  refine ext ?_ ?_
  · rw [note_merge]
    exact DocNote.overlay_empty a.note
  · rw [children_merge]
    rfl

theorem merge_self (ha : a.DistinctNames) : a.merge a = a := by
  induction a using Documentation.induction with
  | node note children ih =>
      refine ext_lookup (distinctNames_merge ha ha) ?_ ?_ fun name => ?_
      · rw [note_merge, DocNote.overlay_self]
      · rw [keys_children_merge _ ha, Entries.unionKeys_self]
      · rw [lookup_children_merge _ ha]
        cases hchild : (node note children).children.lookup name with
        | none => rfl
        | some child =>
            exact congrArg some (ih name child (Entries.mem_of_lookup hchild) (ha.of_lookup hchild))

/-! ## Nodes at a path -/

/-- The node of a merge at a path is the merge of what either side has there. -/
theorem node?_merge (hb : b.DistinctNames) (path : List String) :
    (a.merge b).node? path = Option.merge merge (a.node? path) (b.node? path) := by
  induction path generalizing a b with
  | nil => rfl
  | cons name rest ih =>
      simp only [node?, child?, Entries.get?]
      rw [lookup_children_merge _ hb]
      cases a.children.lookup name with
      | none => simp only [Option.merge_none_left, Option.bind_none]
      | some base =>
          cases hupper : b.children.lookup name with
          | none => simp only [Option.merge_none_right, Option.bind_none]
          | some upper => exact ih (hb.of_lookup hupper)

/-- What some documentation says at a path, from the first to the last. -/
def notesAt (path : List String) (documentations : List Documentation) : List DocNote :=
  documentations.filterMap fun documentation => (documentation.node? path).map note

theorem sumsUp_of_node?_merge (hb : b.DistinctNames) {path : List String} {merged : Documentation}
    (h : (a.merge b).node? path = some merged) : merged.note.SumsUp (notesAt path [a, b]) := by
  rw [node?_merge hb] at h
  simp only [notesAt, List.filterMap_cons, List.filterMap_nil]
  cases hbase : a.node? path with
  | none =>
      cases hupper : b.node? path with
      | none =>
          rw [hbase, hupper] at h
          exact nomatch h
      | some upper =>
          rw [hbase, hupper] at h
          cases h
          exact DocNote.sumsUp_singleton merged.note
  | some base =>
      cases hupper : b.node? path with
      | none =>
          rw [hbase, hupper] at h
          cases h
          exact DocNote.sumsUp_singleton merged.note
      | some upper =>
          rw [hbase, hupper] at h
          cases h
          rw [note_merge]
          exact DocNote.sumsUp_overlay base.note upper.note

/-! ## Rows of documentation -/

/-- Documentation laid on top of one another, the first at the bottom. -/
def mergeAll (documentations : List Documentation) : Documentation :=
  documentations.foldl merge empty

variable {documentations : List Documentation}

theorem distinctNames_foldl (ha : a.DistinctNames)
    (h : ∀ documentation ∈ documentations, documentation.DistinctNames) :
    (documentations.foldl merge a).DistinctNames := by
  induction documentations generalizing a with
  | nil => exact ha
  | cons first rest ih =>
      obtain ⟨hfirst, hrest⟩ := List.forall_mem_cons.mp h
      exact ih (distinctNames_merge ha hfirst) hrest

/-- A row on top of some base can be merged before it is put there. -/
theorem foldl_merge (ha : a.DistinctNames)
    (h : ∀ documentation ∈ documentations, documentation.DistinctNames) :
    documentations.foldl merge a = a.merge (mergeAll documentations) := by
  rw [mergeAll]
  induction documentations using List.reverseRecOn with
  | nil => exact (merge_empty a).symm
  | append_singleton front last ih =>
      have hfront : ∀ documentation ∈ front, documentation.DistinctNames :=
        fun documentation hmem => h documentation (List.mem_append_left _ hmem)
      have hlast : last.DistinctNames := h last (by simp)
      simp only [List.foldl_append, List.foldl_cons, List.foldl_nil]
      rw [ih hfront, merge_assoc ha (distinctNames_foldl .empty hfront) hlast]

/-- A row may be cut into groups that are merged first. -/
theorem mergeAll_map_mergeAll {groups : List (List Documentation)}
    (h : ∀ group ∈ groups, ∀ documentation ∈ group, documentation.DistinctNames) :
    mergeAll (groups.map mergeAll) = mergeAll groups.flatten := by
  suffices ∀ a : Documentation, a.DistinctNames →
      (groups.map mergeAll).foldl merge a = groups.flatten.foldl merge a from this empty .empty
  induction groups with
  | nil => exact fun _ _ => rfl
  | cons first rest ih =>
      intro a ha
      obtain ⟨hfirst, hrest⟩ := List.forall_mem_cons.mp h
      rw [List.map_cons, List.foldl_cons, List.flatten_cons, List.foldl_append,
        ← foldl_merge ha hfirst]
      exact ih hrest _ (distinctNames_foldl ha hfirst)

/-- What a row adds up to, if there is anything in it. -/
def mergeAll? : List Documentation → Option Documentation
  | [] => none
  | documentations => some (mergeAll documentations)

theorem mergeAll?_concat (ha : a.DistinctNames) (documentations : List Documentation) :
    mergeAll? (documentations ++ [a]) = some ((mergeAll? documentations).elim a (·.merge a)) := by
  cases documentations with
  | nil => exact congrArg some (empty_merge ha)
  | cons first rest =>
      refine congrArg some ?_
      rw [mergeAll, List.foldl_append]
      rfl

end Documentation

/-! ## Documentation among options -/

namespace ConfigOption

/-- The documentation that is offered, if it is one. -/
def documentation? : Offered ConfigOption → Option Documentation
  | .option (.documentation added) _ => some added
  | _ => none

/-- The documentation among the options, in order, with all bundles opened. -/
def documentationAmong (options : List (Offered ConfigOption)) : List Documentation :=
  (openedAll options).filterMap documentation?

end ConfigOption

namespace ConfigSettings

open ConfigOption

theorem documentation_of_applyOffered {settings applied : ConfigSettings}
    {offer : Offered ConfigOption} (hplain : IsPlain offer)
    (h : settings.applyOffered offer = .ok applied) :
    applied.documentation = (documentation? offer).elim settings.documentation fun added =>
      some (settings.documentation.elim added (·.merge added)) := by
  cases offer with
  | other => exact nomatch h
  | option option =>
      cases option with
      | bundle => cases hplain
      | _ =>
          cases h
          rfl

/-- The documentation of settings is what all documentation among the options adds up to. -/
theorem documentation_of_applyAll {settings applied : ConfigSettings}
    {options : List (Offered ConfigOption)} {before : List Documentation}
    (hsettings : settings.documentation = Documentation.mergeAll? before)
    (hnames : ∀ documentation ∈ before ++ documentationAmong options, documentation.DistinctNames)
    (h : settings.applyAll options = .ok applied) :
    applied.documentation = Documentation.mergeAll? (before ++ documentationAmong options) := by
  rw [← applyAll_openedAll] at h
  rw [documentationAmong] at hnames ⊢
  have hplain := isPlain_openedAll options
  generalize openedAll options = parts at h hnames hplain
  induction parts generalizing settings before with
  | nil =>
      cases h
      rw [List.filterMap_nil, List.append_nil, hsettings]
  | cons offer rest ih =>
      rw [applyAll_cons] at h
      obtain ⟨next, hnext, h⟩ := exists_of_bind_eq_ok h
      have hnext := documentation_of_applyOffered (hplain offer List.mem_cons_self) hnext
      have hrest : ∀ part ∈ rest, IsPlain part :=
        fun part hpart => hplain part (List.mem_cons_of_mem _ hpart)
      cases hoffer : documentation? offer with
      | none =>
          rw [hoffer, Option.elim_none] at hnext
          rw [List.filterMap_cons_none hoffer] at hnames ⊢
          exact ih (hnext.trans hsettings) h hnames hrest
      | some added =>
          rw [hoffer, Option.elim_some] at hnext
          rw [List.filterMap_cons_some hoffer, List.append_cons] at hnames ⊢
          refine ih ?_ h hnames hrest
          rw [Documentation.mergeAll?_concat (hnames added (by simp)), hnext, hsettings]

end ConfigSettings

namespace Documentation

open ConfigOption

/-- Merging documentation is associative, with empty documentation as its neutral element, and
changes nothing where both sides are the same. A merge has a node at each path at which a side has
one, with the last texts and the last type that are given there and with all marks. So the options
of a configuration may be grouped in any way: its documentation is what all that is offered adds up
to, whichever parts of it are merged first. -/
theorem merge_monoid {a b c : Documentation} (ha : a.DistinctNames) (hb : b.DistinctNames)
    (hc : c.DistinctNames) :
    (a.merge b).merge c = a.merge (b.merge c) ∧ empty.merge a = a ∧ a.merge empty = a ∧
      a.merge a = a ∧ (a.merge b).DistinctNames ∧
      (∀ path, (((a.merge b).node? path).isSome ↔ (a.node? path).isSome ∨ (b.node? path).isSome) ∧
        ∀ merged, (a.merge b).node? path = some merged →
          merged.note.SumsUp (notesAt path [a, b])) ∧
      (∀ groups : List (List Documentation),
        (∀ group ∈ groups, ∀ documentation ∈ group, documentation.DistinctNames) →
          mergeAll (groups.map mergeAll) = mergeAll groups.flatten) ∧
      ∀ registry options settings,
        (∀ documentation ∈ documentationAmong options, documentation.DistinctNames) →
          ConfigSettings.applyAll { registry } options = .ok settings →
            settings.documentation = mergeAll? (documentationAmong options) := by
  refine ⟨merge_assoc ha hb hc, empty_merge ha, merge_empty a, merge_self ha,
    distinctNames_merge ha hb, fun path => ⟨?_, fun merged hmerged => ?_⟩,
    fun groups hgroups => mergeAll_map_mergeAll hgroups, fun registry options settings hnames h => ?_⟩
  · rw [node?_merge hb, Option.isSome_merge, Bool.or_eq_true]
  · exact sumsUp_of_node?_merge hb hmerged
  · exact @ConfigSettings.documentation_of_applyAll _ _ _ [] rfl hnames h

/-- A port is described first, then deprecated, and gets another text at last. -/
theorem merge_monoid_port :
    let root (note : DocNote) : Documentation := node { type := .root } [("port", node note [])]
    let a := root { name := "port", text := "listens", type := .int }
    let b := root { name := "port", deprecated := true }
    let c := root { name := "port", text := "accepts", optional := true }
    (a.DistinctNames ∧ b.DistinctNames ∧ c.DistinctNames) ∧
      (a.merge b).merge c = a.merge (b.merge c) ∧ (a.merge b).DistinctNames ∧
      ∃ port, (a.merge b).node? ["port"] = some port ∧
        port.note.SumsUp [{ name := "port", text := "listens", type := .int },
          { name := "port", deprecated := true }] := by
  intro root a b c
  have hroot : ∀ note, (root note).DistinctNames := by
    intro note
    refine .node _ (by simp [Entries.keys]) fun name child hmem => ?_
    cases List.mem_singleton.mp hmem
    exact .leaf note
  obtain ⟨hassoc, -, -, -, hmerge, hpaths, -⟩ :=
    merge_monoid (hroot { name := "port", text := "listens", type := .int })
      (hroot { name := "port", deprecated := true })
      (hroot { name := "port", text := "accepts", optional := true })
  exact ⟨⟨hroot _, hroot _, hroot _⟩, hassoc, hmerge, _, rfl, (hpaths ["port"]).2 _ rfl⟩

end Documentation

end LayeredConfig
