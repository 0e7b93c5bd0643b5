import LayeredConfig.Proofs.Config.Declaration
import LayeredConfig.Proofs.Expansion.Convergence
import LayeredConfig.Proofs.Merge.Equations

/-! # What producers see

A producer is handed a query. What the query answers is what a configuration answers that has only
the sources merged before: leaving out the later sources neither changes the order of the earlier
ones nor what they add up to. -/

namespace LayeredConfig

namespace ConfigSettings

variable {settings : ConfigSettings}

/-! ## Queries handed out -/

/-- While records are merged onto a tree, the one at a position is handed a query. -/
inductive Handed (settings : ConfigSettings) : Tree → List Record → Nat → Query → Prop where
  | here {merged : Tree} {record : Record} {rest : List Record} :
      Handed settings merged (record :: rest) 0 (settings.queryOn merged)
  | later {merged tree next : Tree} {record : Record} {rest : List Record} {k : Nat} {query : Query}
      (hload : (record.load (settings.queryOn merged)).result = .ok tree)
      (hmerge : merged.merge settings.delimiter tree = .ok next)
      (hrest : Handed settings next rest k query) :
      Handed settings merged (record :: rest) (k + 1) query

theorem mergeRecords_cons_eq_ok_iff {merged final : Tree} {record : Record} {rest : List Record} :
    (settings.mergeRecords merged (record :: rest)).result = .ok final ↔
      ∃ tree next, (record.load (settings.queryOn merged)).result = .ok tree ∧
        merged.merge settings.delimiter tree = .ok next ∧
        (settings.mergeRecords next rest).result = .ok final := by
  rw [mergeRecords, Traced.result_bind]
  cases hload : (record.load (settings.queryOn merged)).result with
  | error fault => simp [Except.bind]
  | ok tree =>
      simp only [Except.bind, Traced.result_bind, Traced.ofExcept]
      cases hmerge : merged.merge settings.delimiter tree with
      | error fault => simp [hmerge]
      | ok next => simp [hmerge]

/-- A query is handed out once the records in front have been merged, and goes to what they add up
to. -/
theorem handed_iff {merged : Tree} {records : List Record} {k : Nat} {query : Query} :
    settings.Handed merged records k query ↔
      k < records.length ∧ ∃ before,
        (settings.mergeRecords merged (records.take k)).result = .ok before ∧
        query = settings.queryOn before := by
  constructor
  · intro h
    induction h with
    | here => exact ⟨Nat.zero_lt_succ _, _, rfl, rfl⟩
    | later hload hmerge _ ih =>
        obtain ⟨hlength, before, hbefore, hquery⟩ := ih
        refine ⟨Nat.succ_lt_succ hlength, before, ?_, hquery⟩
        rw [List.take_succ_cons]
        exact mergeRecords_cons_eq_ok_iff.mpr ⟨_, _, hload, hmerge, hbefore⟩
  · rintro ⟨hlength, before, hbefore, rfl⟩
    induction records generalizing merged k with
    | nil => cases hlength
    | cons record rest ih =>
        cases k with
        | zero =>
            cases hbefore
            exact .here
        | succ k =>
            rw [List.take_succ_cons] at hbefore
            obtain ⟨tree, next, hload, hmerge, hrest⟩ := mergeRecords_cons_eq_ok_iff.mp hbefore
            exact .later hload hmerge (ih (Nat.lt_of_succ_lt_succ hlength) hrest)

/-! ## The order of merging -/

section Order

variable (settings) {α β : Type} (source : α → Source)

/-- Items that stand for sources, in the order in which these are merged: defaults as they are
declared, then the others by their names. -/
def inMergeOrder (items : List α) : List α :=
  (items.filter fun item => (source item).isDefault) ++
    settings.sorter.sort (fun item => (source item).name)
      (items.filter fun item => !(source item).isDefault)

theorem inMergeOrder_map (f : β → α) (items : List β) :
    settings.inMergeOrder source (items.map f) =
      (settings.inMergeOrder (fun item => source (f item)) items).map f := by
  rw [inMergeOrder, inMergeOrder, List.map_append, List.filter_map, List.filter_map,
    RecordSorter.sort_map]
  rfl

theorem inMergeOrder_perm (items : List α) : (settings.inMergeOrder source items).Perm items := by
  have hsorted := settings.sorter.sort_perm (fun item => (source item).name)
    (items.filter fun item => !(source item).isDefault)
  exact (hsorted.append_left _).trans (List.filter_append_perm _ items)

/-- Leaving sources out does not change the order of the others. -/
theorem inMergeOrder_filter [IsStrictWeakOrder String settings.sorter.Precedes] (keep : α → Bool)
    (items : List α) :
    settings.inMergeOrder source (items.filter keep) =
      (settings.inMergeOrder source items).filter keep := by
  rw [inMergeOrder, inMergeOrder, List.filter_append, List.filter_comm, List.filter_comm _ keep,
    RecordSorter.sort_filter]

/-- Without files the records are those of the sources. -/
theorem orderedRecords_of_no_groups (disk : Disk) (h : settings.groups = []) :
    (settings.orderedRecords disk).result =
      .ok ((settings.inMergeOrder id settings.sources).map settings.sourceRecord) := by
  have hsorted : settings.sorter.sort Record.name settings.otherRecords =
      (settings.sorter.sort Source.name
        (settings.sources.filter fun source => !source.isDefault)).map settings.sourceRecord := by
    rw [otherRecords_eq, RecordSorter.sort_map]
    simp only [sourceRecord_name]
  have hresult : (settings.orderedRecords disk).result =
      .ok (settings.defaultRecords ++ settings.sorter.sort Record.name settings.otherRecords) := by
    rw [orderedRecords, h]
    rfl
  rw [hresult, hsorted, defaultRecords_eq, inMergeOrder, List.map_append]
  rfl

end Order

/-! ## The sources before a position -/

/-- In a list without duplicates, what is among the first items is one of them. -/
theorem filter_mem_take {α : Type} (f : α → Nat) (items : List α) (k : Nat)
    (h : (items.map f).Nodup) :
    items.filter (fun item => f item ∈ (items.take k).map f) = items.take k := by
  have hsplit : items = items.take k ++ items.drop k := (List.take_append_drop k items).symm
  have hapart : ∀ item ∈ items.drop k, f item ∉ (items.take k).map f := by
    intro item hitem hmem
    rw [hsplit, List.map_append] at h
    exact List.disjoint_of_nodup_append h hmem (List.mem_map_of_mem hitem)
  generalize (items.take k) = front at *
  generalize (items.drop k) = rest at *
  subst hsplit
  rw [List.filter_append, List.filter_eq_self.mpr, List.filter_eq_nil_iff.mpr, List.append_nil]
  · intro item hitem
    simpa using hapart item hitem
  · intro item hitem
    simpa using ⟨item, hitem, rfl⟩

/-- The sources in the order in which they are merged, each with its place among those declared. -/
def mergeOrder (settings : ConfigSettings) : List (Source × Nat) :=
  settings.inMergeOrder Prod.fst settings.sources.zipIdx

/-- The sources that are merged before a position, in the order in which they are declared. -/
def sourcesBefore (settings : ConfigSettings) (k : Nat) : List Source :=
  (settings.sources.zipIdx.filter fun placed =>
    placed.2 ∈ (settings.mergeOrder.take k).map Prod.snd).map Prod.fst

theorem nodup_mergeOrder (settings : ConfigSettings) :
    (settings.mergeOrder.map Prod.snd).Nodup := by
  have hperm := (settings.inMergeOrder_perm Prod.fst settings.sources.zipIdx).map Prod.snd
  rw [mergeOrder, hperm.nodup_iff, List.zipIdx_map_snd]
  exact List.nodup_range'

theorem map_mergeOrder (settings : ConfigSettings) :
    settings.mergeOrder.map Prod.fst = settings.inMergeOrder id settings.sources := by
  have hmap := settings.inMergeOrder_map id Prod.fst settings.sources.zipIdx
  rw [List.zipIdx_map_fst] at hmap
  exact hmap.symm

/-- The sources merged before a position are merged among themselves as they are among all. -/
theorem inMergeOrder_sourcesBefore [IsStrictWeakOrder String settings.sorter.Precedes] (k : Nat) :
    settings.inMergeOrder id (settings.sourcesBefore k) =
      (settings.inMergeOrder id settings.sources).take k := by
  -- Sources are kept by their places, so that one of two equal sources may be kept alone.
  have hbefore : settings.inMergeOrder Prod.fst (settings.sources.zipIdx.filter fun placed =>
      placed.2 ∈ (settings.mergeOrder.take k).map Prod.snd) = settings.mergeOrder.take k := by
    rw [inMergeOrder_filter]
    exact filter_mem_take Prod.snd settings.mergeOrder k settings.nodup_mergeOrder
  calc settings.inMergeOrder id (settings.sourcesBefore k)
      _ = (settings.inMergeOrder Prod.fst (settings.sources.zipIdx.filter fun placed =>
            placed.2 ∈ (settings.mergeOrder.take k).map Prod.snd)).map Prod.fst :=
          settings.inMergeOrder_map id Prod.fst _
      _ = (settings.mergeOrder.take k).map Prod.fst := by rw [hbefore]
      _ = (settings.mergeOrder.map Prod.fst).take k := List.map_take
      _ = (settings.inMergeOrder id settings.sources).take k := by rw [map_mergeOrder]

/-- Without the later sources the records are those in front of the position. -/
theorem orderedRecords_before [IsStrictWeakOrder String settings.sorter.Precedes] {disk : Disk}
    {records : List Record} (k : Nat) (hgroups : settings.groups = [])
    (hrecords : (settings.orderedRecords disk).result = .ok records) :
    ((settings.withSources (settings.sourcesBefore k)).orderedRecords disk).result =
      .ok (records.take k) := by
  rw [orderedRecords_of_no_groups settings disk hgroups] at hrecords
  cases hrecords
  have hbefore := orderedRecords_of_no_groups (settings.withSources (settings.sourcesBefore k)) disk
    hgroups
  rw [hbefore, sourceRecord_withSources, ← List.map_take, ← inMergeOrder_sourcesBefore]
  rfl

/-! ## What the query answers -/

theorem result_build {disk : Disk} {records : List Record} {merged : Tree}
    (hrecords : (settings.orderedRecords disk).result = .ok records)
    (hmerged : (settings.mergeRecords .empty records).result = .ok merged) :
    (settings.build disk).result = (merged.expand settings.directives).result.map fun tree =>
      { tree, records := records.map Record.name } := by
  rw [build, Traced.result_bind, hrecords]
  simp only [Except.bind, assemble, Traced.result_bind, hmerged]
  cases (merged.expand settings.directives).result <;> rfl

/-- Without files and directives a single source is all there is. -/
theorem build_single {source : Source} {tree : Tree}
    (hsources : settings.sources = [source]) (hgroups : settings.groups = [])
    (hdirectives : settings.directives = []) (disk : Disk)
    (hload : ((settings.sourceRecord source).load (settings.queryOn .empty)).result = .ok tree)
    (htree : tree.isEmpty = false) :
    (settings.build disk).result = .ok { tree, records := [source.name] } := by
  have horder : settings.inMergeOrder id settings.sources = [source] := by
    have hperm := settings.inMergeOrder_perm id settings.sources
    rw [hsources] at hperm ⊢
    exact List.perm_singleton.mp hperm
  have hrecords := orderedRecords_of_no_groups settings disk hgroups
  rw [horder] at hrecords
  have hmerged : (settings.mergeRecords .empty [settings.sourceRecord source]).result = .ok tree :=
    mergeRecords_cons_eq_ok_iff.mpr
      ⟨tree, tree, hload, Tree.mergeAt_of_isEmpty_left rfl htree, rfl⟩
  rw [result_build hrecords hmerged, hdirectives]
  simp only [List.map_singleton, sourceRecord_name]
  rfl

theorem result_queryOn (merged : Tree) (key : String) (type : Schema)
    (options : List (Offered QueryOption)) :
    (settings.queryOn merged key type options).result =
      (merged.expand settings.directives).result.bind fun tree =>
        settings.queryTree tree key type options := by
  rw [queryOn, Traced.result_bind]
  rfl

/-- A query answers like a configuration: it has the same values and the same faults, and where that
cannot be compiled, because its placeholders do not come to an end, every call fails likewise. -/
def Answers (query : Query) (attempt : Config × Traced Unit) : Prop :=
  match attempt.2.result with
  | .ok () => ∀ key type options,
      (query key type options).result = attempt.1.query key type options
  | .error fault => fault.category = .expansionNotConverged ∧
      ∀ key type options, (query key type options).result = .error fault

/-- A query handed out is answered like a configuration of the sources merged before. -/
theorem Handed.answers [IsStrictWeakOrder String settings.sorter.Precedes] {disk : Disk}
    {records : List Record} {k : Nat} {query : Query} (hgroups : settings.groups = [])
    (hrecords : (settings.orderedRecords disk).result = .ok records)
    (hhanded : settings.Handed .empty records k query) (now : Moment) :
    Answers query
      (Config.compile disk { settings := settings.withSources (settings.sourcesBefore k) } now) := by
  obtain ⟨-, before, hbefore, rfl⟩ := handed_iff.mp hhanded
  have hmerged : ((settings.withSources (settings.sourcesBefore k)).mergeRecords .empty
      (records.take k)).result = .ok before := by
    rw [mergeRecords_withSources, hbefore]
  have hbuild := result_build (orderedRecords_before k hgroups hrecords) hmerged
  rw [withSources_directives] at hbuild
  cases hexpand : (before.expand settings.directives).result with
  | ok tree =>
      rw [hexpand] at hbuild
      simp only [Answers, Config.compile, hbuild, Except.map]
      intro key type options
      rw [result_queryOn, hexpand]
      rfl
  | error fault =>
      rw [hexpand] at hbuild
      simp only [Answers, Config.compile, hbuild, Except.map]
      obtain ⟨directive, -, rfl⟩ := Expansion.expand_error hexpand
      refine ⟨rfl, fun key type options => ?_⟩
      rw [result_queryOn, hexpand]
      rfl

end ConfigSettings

namespace Config

open ConfigOption ConfigSettings

/-- A producer sees the configuration that the same options make when they bring, of the sources,
only those that are merged before its own. -/
theorem handed_query_answers {registry : Registry} {options fewer : List (Offered ConfigOption)}
    {settings : ConfigSettings} {disk : Disk} {records : List Record} {k : Nat} {query : Query}
    (happly : applyAll { registry } options = .ok settings) (hgroups : settings.groups = [])
    (hsorter : settings.sorter = .natural ∨ settings.sorter = .lexical ∨
      IsStrictWeakOrder String settings.sorter.Precedes)
    (hrecords : (settings.orderedRecords disk).result = .ok records)
    (hhanded : settings.Handed .empty records k query)
    (hrest : othersAmong fewer = othersAmong options)
    (hsources : sourcesAmong fewer = settings.sourcesBefore k) (now : Moment) :
    ∃ before, applyAll { registry } fewer = .ok before ∧
      Answers query (compile disk { settings := before } now) := by
  have hweak : IsStrictWeakOrder String settings.sorter.Precedes := by
    rcases hsorter with hnatural | hlexical | hcustom
    · exact (RecordSorter.orders_of_standard (.inl hnatural)).1
    · exact (RecordSorter.orders_of_standard (.inr hlexical)).1
    · exact hcustom
  refine ⟨settings.withSources (settings.sourcesBefore k), ?_, hhanded.answers hgroups hrecords now⟩
  rw [applyAll_of_othersAmong_eq _ hrest, happly, hsources]
  rfl

/-- A value copied from the defaults: its producer sees a configuration of the defaults alone. -/
theorem handed_query_answers_copy :
    let base : Source :=
      .value { name := "b", key := "port", produce := fun _ _ => .pure (.int 80), isDefault := true }
    let copy : Source :=
      .value { name := "a", key := "copy", produce := fun _ query => query "port" .any [] }
    let offer (source : Source) : Offered ConfigOption := .option (.source source) source.name
    let settings : ConfigSettings := { registry := {}, sources := [copy, base] }
    let records := [settings.sourceRecord base, settings.sourceRecord copy]
    let mark : Mark := { origins := [⟨"b", 0, 0⟩] }
    let query := settings.queryOn (.map [("port", .leaf (some (.int 80)) mark)] mark)
    settings.Handed .empty records 1 query ∧
      ∃ before, applyAll { registry := {} } [offer base] = .ok before ∧
        Answers query (compile {} { settings := before }) := by
  intro base copy offer settings records mark query
  have hsources : settings.sourcesBefore 1 = [base] := by
    simp [sourcesBefore, mergeOrder, inMergeOrder, RecordSorter.sort, settings, base, copy,
      Source.isDefault]
  have hrecords : (settings.orderedRecords {}).result = .ok records := by
    rw [orderedRecords_of_no_groups settings {} rfl]
    simp [inMergeOrder, RecordSorter.sort, settings, records, base, copy, Source.isDefault]
  have hload : ((settings.sourceRecord base).load (settings.queryOn .empty)).result =
      .ok (.map [("port", .leaf (some (.int 80)) mark)] mark) := by cbv
  have hhanded : settings.Handed .empty records 1 query := .later hload rfl .here
  have happly : applyAll { registry := {} } [offer copy, offer base] = .ok settings := rfl
  have hrest : othersAmong [offer base] = othersAmong [offer copy, offer base] := rfl
  have hfewer : sourcesAmong [offer base] = settings.sourcesBefore 1 := hsources.symm
  exact ⟨hhanded,
    handed_query_answers happly rfl (.inl rfl) hrecords hhanded hrest hfewer .epoch⟩

end Config

end LayeredConfig
