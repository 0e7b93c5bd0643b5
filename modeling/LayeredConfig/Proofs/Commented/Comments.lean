import LayeredConfig.Documentation.Documented
import LayeredConfig.Proofs.Documentation.Overlay
import LayeredConfig.Proofs.Text.Lines

/-! # Comments and data

Comments above an entry stand on lines of their own, each behind a hash, as long as none of them has
a line break inside. A document then holds the same data with its comments and without them. -/

namespace LayeredConfig

open Text

/-- A comment without a line break, except that it may end with one. -/
def Text.OneLine (text : String) : Prop := '\n' ∉ text.toList.dropLast

instance (text : String) : Decidable (OneLine text) := inferInstanceAs (Decidable (¬_))

theorem Text.oneLine_of_not_mem {text : String} (h : '\n' ∉ text.toList) : OneLine text :=
  fun hmem => h (List.dropLast_subset _ hmem)

theorem Text.OneLine.not_mem_dropEnd? {text : String} (h : OneLine text) :
    '\n' ∉ (dropEnd? ['\n'] text.toList).getD text.toList := by
  rw [dropEnd?]
  split
  · rwa [Option.getD_some, List.length_singleton, ← List.dropLast_eq_take]
  · next hend =>
    rw [Option.getD_none]
    intro hmem
    obtain ⟨front, last, htext⟩ :=
      (List.eq_nil_or_concat' text.toList).resolve_left (List.ne_nil_of_mem hmem)
    rw [OneLine, htext, List.dropLast_concat] at h
    rw [htext, List.mem_append, List.mem_singleton] at hmem
    refine hend (List.isSuffixOf_iff_suffix.mpr ⟨front, ?_⟩)
    rw [htext, hmem.resolve_left h]

theorem Text.oneLine_of_mem_split {text piece : String} (h : piece ∈ split "\n" text) :
    OneLine piece := by
  obtain ⟨line, hline, rfl⟩ := List.mem_map.mp h
  refine oneLine_of_not_mem ?_
  rw [String.toList_ofList]
  exact not_mem_of_mem_lines hline

theorem Text.OneLine.append {start text : String} (hstart : '\n' ∉ start.toList)
    (htext : OneLine text) : OneLine (start ++ text) := by
  rw [OneLine, String.toList_append]
  by_cases hnil : text.toList = []
  · rw [hnil, List.append_nil]
    exact fun hmem => hstart (List.dropLast_subset _ hmem)
  · rw [List.dropLast_append_of_ne_nil hnil, List.mem_append, not_or]
    exact ⟨hstart, htext⟩

namespace Commented

/-! ## Entries without comments -/

namespace Entry

@[elab_as_elim]
theorem induction {motive : Entry → Prop}
    (entry : ∀ level key value above behind below,
      (∀ entry ∈ below.getD [], motive entry) →
        motive (.entry level key value above behind below)) : ∀ entry, motive entry
  | .entry level key value above behind none => entry level key value above behind none nofun
  | .entry level key value above behind (some entries) =>
    entry level key value above behind (some entries) fun other hother =>
      have : sizeOf other < sizeOf entries := List.sizeOf_lt_of_mem hother
      induction entry other
decreasing_by
  simp only [Entry.entry.sizeOf_spec, Option.some.sizeOf_spec]
  omega

mutual

/-- An entry without the comments above it and above what is below it. -/
def uncommented : Entry → Entry
  | .entry level key value _ behind none => .entry level key value [] behind none
  | .entry level key value _ behind (some entries) =>
    .entry level key value [] behind (some (allUncommented entries))

def allUncommented : List Entry → List Entry
  | [] => []
  | first :: rest => uncommented first :: allUncommented rest

end

mutual

/-- All comments above an entry and above what is below it. -/
def comments : Entry → List String
  | .entry _ _ _ above _ none => above
  | .entry _ _ _ above _ (some entries) => above ++ commentsOfAll entries

def commentsOfAll : List Entry → List String
  | [] => []
  | first :: rest => comments first ++ commentsOfAll rest

end

theorem allUncommented_eq (entries : List Entry) :
    allUncommented entries = entries.map uncommented := by
  induction entries with
  | nil => rfl
  | cons first rest ih => rw [allUncommented, ih, List.map_cons]

theorem commentsOfAll_eq (entries : List Entry) :
    commentsOfAll entries = entries.flatMap comments := by
  induction entries with
  | nil => rfl
  | cons first rest ih => rw [commentsOfAll, ih, List.flatMap_cons]

theorem uncommented_entry (level : Int) (key value : Option String) (above behind : List String)
    (below : Option (List Entry)) :
    (entry level key value above behind below).uncommented =
      entry level key value [] behind (below.map (·.map uncommented)) := by
  cases below with
  | none => rfl
  | some entries => rw [uncommented, allUncommented_eq, Option.map_some]

theorem comments_entry (level : Int) (key value : Option String) (above behind : List String)
    (below : Option (List Entry)) :
    (entry level key value above behind below).comments =
      above ++ (below.getD []).flatMap comments := by
  cases below with
  | none => exact (List.append_nil above).symm
  | some entries => rw [comments, commentsOfAll_eq, Option.getD_some]

theorem inOrder_uncommented (a b : Entry) :
    a.uncommented.inOrder b.uncommented = a.inOrder b := by
  obtain ⟨_, _, _, _, _, _⟩ := a
  obtain ⟨_, _, _, _, _, _⟩ := b
  rw [uncommented_entry, uncommented_entry]
  rfl

end Entry

/-! ## Lines of an entry -/

namespace Layout

variable (layout : Layout)

/-- Comments above an entry are lines behind a blank one, or none at all. -/
theorem toList_above (level : Int) (comments : List String) :
    (layout.above level comments).toList = [] ∨
      ∃ (count : Nat) (texts : List (List Char)),
        texts.Sublist (comments.map fun comment =>
          (dropEnd? ['\n'] comment.toList).getD comment.toList) ∧
        (layout.above level comments).toList =
          '\n' :: texts.flatMap fun text =>
            (List.replicate count ' ' ++ '#' :: ' ' :: text) ++ ['\n'] := by
  rw [above]
  split
  · exact .inl rfl
  dsimp only
  generalize htexts : List.dropWhile _ _ = texts
  cases texts with
  | nil => exact .inl rfl
  | cons first rest =>
      obtain ⟨count, hindent⟩ :
          ∃ count, (layout.indent level).toList = List.replicate count ' ' :=
        ⟨_, String.toList_ofList⟩
      refine .inr ⟨count, first :: rest, htexts ▸ List.dropWhile_sublist _, ?_⟩
      simp only [String.toList_append, String.toList_join, List.flatMap_map, hindent,
        String.toList_ofList, String.reduceToList, List.append_assoc, List.cons_append,
        List.nil_append]

theorem ended_above (level : Int) (comments : List String) :
    Ended (layout.above level comments).toList := by
  rcases layout.toList_above level comments with hnone | ⟨_, _, -, htext⟩
  · exact .inl hnone
  · rw [htext, ← List.singleton_append]
    exact Ended.append (.inr ⟨[], rfl⟩) (Ended.flatMap fun _ _ => .inr ⟨_, rfl⟩)

theorem ended_body (level : Int) (key value : Option String) (behind : List String)
    (isParent : Bool) : Ended (layout.body level key value behind isParent).toList := by
  have hite : ∀ {p : Prop} [Decidable p] {text : String}, Ended text.toList →
      Ended (if p then "" else text).toList := by
    intro p _ text htext
    split
    · exact .inl rfl
    · exact htext
  have hmain : ∀ form, Ended (layout.mainLine (layout.opening level key) behind form).toList :=
    fun _ => .inr ⟨_, String.toList_append⟩
  have hbelow : ∀ form, Ended
      (String.join (layout.linesBelow level behind form value)).toList := by
    intro form
    rw [String.toList_join]
    refine Ended.flatMap fun line hline => ?_
    rw [linesBelow] at hline
    obtain ⟨text, -, rfl⟩ := List.mem_map.mp hline
    exact .inr ⟨_, String.toList_append⟩
  rw [body]
  refine hite ?_
  rw [String.toList_append]
  exact (hite (hmain _)).append (hbelow _)

variable {layout}

/-- Every line of comments is blank, or spaces and a hash in front of a text. -/
theorem lines_above {level : Int} {comments : List String}
    (h : ∀ comment ∈ comments, OneLine comment) {line : List Char}
    (hline : line ∈ lines (layout.above level comments).toList) :
    line = [] ∨ ∃ count text, line = List.replicate count ' ' ++ '#' :: ' ' :: text := by
  rcases layout.toList_above level comments with hnone | ⟨count, texts, hsublist, htext⟩
  · rw [hnone, lines_of_not_mem List.not_mem_nil, List.mem_singleton] at hline
    exact .inl hline
  · have hbreak : ∀ text ∈ texts, '\n' ∉ List.replicate count ' ' ++ '#' :: ' ' :: text := by
      intro text hmem
      obtain ⟨comment, hcomment, rfl⟩ := List.mem_map.mp (hsublist.subset hmem)
      have := (h comment hcomment).not_mem_dropEnd?
      simpa [List.mem_replicate] using this
    rw [htext, ← List.nil_append ('\n' :: _), lines_cons List.not_mem_nil,
      lines_flatMap hbreak] at hline
    rcases List.mem_cons.mp hline with hnil | hline
    · exact .inl hnil
    rcases List.mem_append.mp hline with hmem | hnil
    · obtain ⟨text, -, rfl⟩ := List.mem_map.mp hmem
      exact .inr ⟨count, text, rfl⟩
    · exact .inl (List.mem_singleton.mp hnil)

theorem dataLines_above (level : Int) {comments : List String}
    (h : ∀ comment ∈ comments, OneLine comment) :
    dataLines (layout.above level comments).toList = [] := by
  refine List.filter_eq_nil_iff.mpr fun line hline => ?_
  rcases lines_above h hline with rfl | ⟨count, text, rfl⟩
  · decide
  · exact not_carriesData_comment count _

/-! ## Documents -/

variable (layout)

theorem entryTexts_eq (entries : List Entry) :
    layout.entryTexts entries = entries.map fun entry => (entry, layout.entryText entry) := by
  induction entries with
  | nil => rfl
  | cons first rest ih => rw [entryTexts, ih, List.map_cons]

/-- The entries below an entry follow it in their order. -/
theorem toList_entryText (level : Int) (key value : Option String) (comments behind : List String)
    (below : Option (List Entry)) :
    (layout.entryText (.entry level key value comments behind below)).toList =
      (layout.above level comments).toList ++
        ((layout.body level key value behind below.isSome).toList ++
          ((below.getD []).mergeSort Entry.inOrder).flatMap fun entry =>
            (layout.entryText entry).toList) := by
  have hbelow : ∀ entries : List Entry,
      ((layout.entryTexts entries).mergeSort fun a b => a.1.inOrder b.1).map (·.2) =
        (entries.mergeSort Entry.inOrder).map layout.entryText := by
    intro entries
    rw [entryTexts_eq, ← List.map_mergeSort (r := Entry.inOrder)
      (f := fun entry => (entry, layout.entryText entry)) fun _ _ _ _ => rfl, List.map_map]
    rfl
  cases below with
  | none =>
      rw [entryText.eq_def, String.toList_append, String.toList_append, List.append_assoc,
        Option.getD_none, List.mergeSort_nil, List.flatMap_nil]
      rfl
  | some entries =>
      rw [entryText.eq_def, String.toList_append, String.toList_append, List.append_assoc]
      dsimp only
      rw [hbelow, String.toList_join, List.flatMap_map, Option.getD_some]

theorem ended_entryText (entry : Entry) : Ended (layout.entryText entry).toList := by
  induction entry using Entry.induction with
  | entry level key value above behind below ih =>
      rw [toList_entryText]
      refine (layout.ended_above level above).append
        ((layout.ended_body level key value behind below.isSome).append
          (Ended.flatMap fun other hother => ?_))
      exact ih other (List.mem_mergeSort.mp hother)

theorem dataLines_entryText_uncommented (entry : Entry)
    (h : ∀ comment ∈ entry.comments, OneLine comment) :
    dataLines (layout.entryText entry.uncommented).toList =
      dataLines (layout.entryText entry).toList := by
  induction entry using Entry.induction with
  | entry level key value above behind below ih =>
      rw [Entry.comments_entry] at h
      have habove : ∀ comment ∈ above, OneLine comment :=
        fun comment hmem => h comment (List.mem_append_left _ hmem)
      have hbelow : ∀ other ∈ below.getD [],
          dataLines (layout.entryText other.uncommented).toList =
            dataLines (layout.entryText other).toList := by
        refine fun other hother => ih other hother fun comment hmem => ?_
        exact h comment (List.mem_append_right _ (List.mem_flatMap.mpr ⟨other, hother, hmem⟩))
      -- The order of siblings depends on their keys alone.
      have hsorted : ((below.map (·.map Entry.uncommented)).getD []).mergeSort Entry.inOrder =
          ((below.getD []).mergeSort Entry.inOrder).map Entry.uncommented := by
        rw [List.map_mergeSort (s := Entry.inOrder)
          fun a _ b _ => (Entry.inOrder_uncommented a b).symm]
        cases below <;> rfl
      -- Every part ends with a line break, so the lines with data are those of the parts.
      have hbody := layout.ended_body level key value behind below.isSome
      rw [Entry.uncommented_entry, toList_entryText, toList_entryText, hsorted, Option.isSome_map,
        (layout.ended_above level []).dataLines_append,
        layout.dataLines_above level (List.forall_mem_nil OneLine),
        (layout.ended_above level above).dataLines_append, layout.dataLines_above level habove,
        hbody.dataLines_append, hbody.dataLines_append,
        List.flatMap_map, Ended.dataLines_flatMap fun _ _ => layout.ended_entryText _,
        Ended.dataLines_flatMap fun _ _ => layout.ended_entryText _]
      congr 2
      refine List.flatMap_congr fun other hother => ?_
      exact hbelow other (List.mem_mergeSort.mp hother)

theorem dataLines_render (entry : Entry) :
    dataLines (layout.render entry).toList =
      ['-', '-', '-'] :: dataLines (layout.entryText entry).toList := by
  have hbreak : ∀ rest : List Char, dataLines ('\n' :: rest) = dataLines rest := fun rest => by
    rw [← List.nil_append ('\n' :: rest), dataLines_append, dataLines_nil, List.nil_append]
  have hmark : dataLines ['-', '-', '-'] = [['-', '-', '-']] := by
    rw [dataLines, lines_of_not_mem (by decide)]
    decide
  have hopened : ∀ rest : List Char, dataLines (['-', '-', '-', '\n'] ++ rest) =
      ['-', '-', '-'] :: dataLines rest := fun rest => by
    refine (dataLines_append ['-', '-', '-'] rest).trans ?_
    rw [hmark, List.singleton_append]
  have hclosed : dataLines (layout.entryText entry ++ "\n").toList =
      dataLines (layout.entryText entry).toList := by
    simp only [String.toList_append, String.reduceToList, dataLines_append, dataLines_nil,
      List.append_nil]
  rw [render, String.toList_append, String.toList_ofList, String.toList_ofList, hopened, ← hclosed]
  split
  · next rest hrest => rw [hrest, hbreak]
  · rfl

end Layout

end Commented

/-! ## Documented trees -/

namespace Documented

open Commented

@[elab_as_elim]
theorem induction {motive : Documented → Prop}
    (node : ∀ note children, (∀ name child, (name, child) ∈ children → motive child) →
      motive (node note children)) : ∀ documented, motive documented
  | .node note children => node note children fun name child hmem =>
    have : sizeOf child < sizeOf children := by
      have hpair := List.sizeOf_lt_of_mem hmem
      simp only [Prod.mk.sizeOf_spec] at hpair
      omega
    induction node child

mutual

/-- A documented tree without its documentation and defaults. -/
def undocumented : Documented → Documented
  | node note children =>
    node
      { note with
        documentation := none
        preset := none
        keyDocumentation := none
        valueDocumentation := none }
      (undocumentedChildren children)

def undocumentedChildren : List (String × Documented) → List (String × Documented)
  | [] => []
  | (name, child) :: rest => (name, undocumented child) :: undocumentedChildren rest

end

theorem undocumentedChildren_eq (children : List (String × Documented)) :
    undocumentedChildren children =
      children.map fun child => (child.1, child.2.undocumented) := by
  induction children with
  | nil => rfl
  | cons first rest ih => rw [undocumentedChildren, ih, List.map_cons]

theorem childEntries_eq (children : List (String × Documented)) :
    childEntries children = children.map fun child => (child.1, child.2.toEntry) := by
  induction children with
  | nil => rfl
  | cons first rest ih => rw [childEntries, ih, List.map_cons]

theorem inOrder_map_snd {α β : Type} (f : α → β) (children : Entries α) :
    inOrder (children.map fun child => (child.1, f child.2)) =
      (inOrder children).map fun child => (child.1, f child.2) :=
  (List.map_mergeSort (f := fun child : String × α => (child.1, f child.2))
    fun _ _ _ _ => rfl).symm

theorem toEntry_undocumented (documented : Documented) :
    documented.undocumented.toEntry = documented.toEntry.uncommented := by
  induction documented using Documented.induction with
  | node note children ih =>
      have hchildren : childEntries (undocumentedChildren children) =
          (childEntries children).map fun child => (child.1, child.2.uncommented) := by
        rw [undocumentedChildren_eq, childEntries_eq, childEntries_eq, List.map_map, List.map_map]
        exact List.map_congr_left fun child hchild => congrArg _ (ih child.1 child.2 hchild)
      rw [undocumented, toEntry, toEntry, hchildren, Entry.uncommented_entry, inOrder_map_snd]
      cases children with
      | nil => rfl
      | cons first rest =>
          rw [if_neg (by simp [undocumentedChildren_eq]), if_neg (by simp), Option.map_some,
            List.map_map, List.map_map]
          rfl

theorem exists_at_of_mem_comments {documented : Documented} {comment : String}
    (h : comment ∈ documented.toEntry.comments) :
    ∃ path node, At path documented node ∧ comment ∈ comments node.note := by
  induction documented using Documented.induction with
  | node note children ih =>
      rw [toEntry, Entry.comments_entry, List.mem_append] at h
      rcases h with hhere | hbelow
      · exact ⟨[], .node note children, .here _, hhere⟩
      · have : comment ∈ (inOrder (childEntries children)).flatMap (·.2.comments) := by
          split at hbelow
          · exact nomatch hbelow
          · rwa [Option.getD_some, List.flatMap_map] at hbelow
        obtain ⟨entry, hentry, hcomment⟩ := List.mem_flatMap.mp this
        rw [inOrder, List.mem_mergeSort, childEntries_eq] at hentry
        obtain ⟨⟨name, child⟩, hchild, rfl⟩ := List.mem_map.mp hentry
        obtain ⟨path, node, hnode, hcomment⟩ := ih name child hchild hcomment
        exact ⟨name :: path, node, .child hchild hnode, hcomment⟩

/-- Every comment of a note is on one line if the text of its default is. -/
theorem oneLine_of_mem_comments {note : DocumentedNote}
    (h : ∀ preset ∈ note.preset, OneLine preset.toText) {comment : String}
    (hcomment : comment ∈ comments note) : OneLine comment := by
  have htexts : ∀ documentation : Documentation, ∀ text ∈
      (if documentation.note.text.isEmpty then [] else split "\n" documentation.note.text) ++
        if documentation.typeText.isEmpty || documentation.typeText == DocType.root.tag then []
        else split "\n" ("type: " ++ documentation.typeText), OneLine text := by
    intro documentation text htext
    rcases List.mem_append.mp htext with hpiece | hpiece
    all_goals
      split at hpiece
      · exact (List.not_mem_nil hpiece).elim
      · exact oneLine_of_mem_split hpiece
  have hpreset : ∀ text ∈ note.preset.toList.map fun preset => s!"default: {preset}",
      OneLine text := by
    intro text htext
    obtain ⟨preset, hmem, rfl⟩ := List.mem_map.mp htext
    exact OneLine.append (by decide) (h preset (Option.mem_toList.mp hmem))
  have hnotice : OneLine deprecationNotice := by decide
  rw [comments] at hcomment
  cases hdocumentation : note.documentation with
  | none =>
      rw [hdocumentation] at hcomment
      exact hpreset comment hcomment
  | some documentation =>
      rw [hdocumentation] at hcomment
      have hlines := List.forall_mem_append.mpr ⟨htexts documentation, hpreset⟩
      dsimp only at hcomment
      by_cases hdeprecated : documentation.note.deprecated
      · rw [Option.any_some, if_pos hdeprecated, List.mem_append, List.mem_cons,
          List.mem_singleton] at hcomment
        rcases hcomment with (rfl | hmem) | rfl
        · exact hnotice
        · exact hlines comment hmem
        · exact hnotice
      · rw [Option.any_some, if_neg hdeprecated] at hcomment
        exact hlines comment hcomment

/-- Comments never become data: where no default has a line break inside, every line of comments is
blank, or spaces and a hash in front of a text, and a document has the data that it has without
documentation and defaults. -/
theorem dataLines_render_undocumented {documented : Documented}
    (h : ∀ path node, At path documented node →
      ∀ preset ∈ node.note.preset, OneLine preset.toText) (layout : Layout) :
    (∀ path node, At path documented node → ∀ level,
      ∀ line ∈ lines (layout.above level (comments node.note)).toList,
        line = [] ∨ ∃ count text, line = List.replicate count ' ' ++ '#' :: ' ' :: text) ∧
    dataLines (layout.render documented.toEntry).toList =
      dataLines (layout.render documented.undocumented.toEntry).toList := by
  have hcomments : ∀ path node, At path documented node →
      ∀ comment ∈ comments node.note, OneLine comment :=
    fun path node hnode comment => oneLine_of_mem_comments (h path node hnode)
  refine ⟨fun path node hnode level line => Layout.lines_above (hcomments path node hnode), ?_⟩
  rw [toEntry_undocumented, Layout.dataLines_render, Layout.dataLines_render,
    Layout.dataLines_entryText_uncommented]
  intro comment hcomment
  obtain ⟨path, node, hnode, hcomment⟩ := exists_at_of_mem_comments hcomment
  exact hcomments path node hnode comment hcomment

/-- Documentation of two lines and a default of one line leave the data as it is. -/
theorem dataLines_render_undocumented_type :
    let described : Documentation := .node { text := "first\nsecond", type := .string } []
    let documented : Documented := .node {} [("a", .node
      { documentation := some described, name := some "a", level := 0
        scalar := some (.text "x"), preset := some (.text "y") } [])]
    dataLines (({} : Layout).render documented.toEntry).toList =
      dataLines (({} : Layout).render documented.undocumented.toEntry).toList := by
  intro described documented
  refine (dataLines_render_undocumented (fun path node hnode preset hpreset => ?_) {}).2
  cases hnode with
  | here => exact nomatch hpreset
  | child hchild hnode =>
      cases List.mem_singleton.mp hchild
      cases hnode with
      | here =>
          cases hpreset
          decide
      | child hchild => exact nomatch hchild

/-- A default of several lines shows where the value is another one: its further lines are data. -/
theorem dataLines_render_undocumented_break :
    let tree (value : String) : Tree := .map [("a", .leaf (some (.text value)) {})] {}
    ∃ documented, build none (some (tree "x")) (some (tree "y\nevil: 1")) = .ok documented ∧
      dataLines (({} : Layout).render documented.toEntry).toList =
        ["---".toList, "evil: 1".toList, "a: x".toList] ∧
      dataLines (({} : Layout).render documented.undocumented.toEntry).toList =
        ["---".toList, "a: x".toList] := by
  intro tree
  refine ⟨.node {} [("a", .node
    { name := some "a", level := 0, scalar := some (.text "x")
      preset := some (.text "y\nevil: 1") } [])], by cbv, ?_, ?_⟩
  · decide +kernel
  · decide +kernel

end Documented

end LayeredConfig
