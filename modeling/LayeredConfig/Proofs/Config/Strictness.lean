import LayeredConfig.Proofs.Config.Producers
import LayeredConfig.Proofs.Record.Strictness
import LayeredConfig.Proofs.Source.Value

/-! # Sources that are no longer strict

A strict source loads what it loads when it is not strict, or it fails. So a configuration that
builds from strict sources is built from the same sources as well where some of them are no longer
strict. -/

namespace LayeredConfig

/-- The second source is the first one, or the first one no longer strict. -/
inductive Source.Relaxes : Source → Source → Prop
  | same (source : Source) : Relaxes source source
  | value (source : ValueSource) :
      Relaxes (.value { source with flattening := source.flattening.withStrict true })
        (.value { source with flattening := source.flattening.withStrict false })

/-- The second record loads whatever the first one loads. -/
structure Record.Relaxes (first second : Record) : Prop where
  name : second.name = first.name
  isDefault : second.isDefault = first.isDefault
  load : ∀ query tree, (first.load query).result = .ok tree →
    (second.load query).result = .ok tree

/-! ## Loading -/

theorem ValueSource.load_withStrict {source : ValueSource} {delimiter : String} {query : Query}
    {tree : Tree}
    (h : ((ValueSource.record { source with flattening := source.flattening.withStrict true }
      delimiter).load query).result = .ok tree) :
    ((ValueSource.record { source with flattening := source.flattening.withStrict false }
      delimiter).load query).result = .ok tree := by
  rw [result_load] at h ⊢
  obtain ⟨value, hvalue, h⟩ := exists_of_bind_eq_ok h
  obtain ⟨plain?, hplain, h⟩ := exists_of_bind_eq_ok h
  rw [show source.produce source.name query = _ from rfl, hvalue, Except.bind,
    (FlattenOptions.flatten_strict_iff.mp hplain).1]
  exact h

namespace ConfigSettings

variable {settings : ConfigSettings} {others : List Source}

theorem relaxes_sourceRecord {first second : Source} (h : first.Relaxes second) :
    (settings.sourceRecord first).Relaxes (settings.sourceRecord second) := by
  cases h with
  | same => exact ⟨rfl, rfl, fun _ _ h => h⟩
  | value => exact ⟨rfl, rfl, fun _ _ h => ValueSource.load_withStrict h⟩

/-! ## Merging -/

theorem mergeRecords_relaxed {merged final : Tree} {records relaxed : List Record}
    (hrecords : List.Forall₂ Record.Relaxes records relaxed)
    (h : (settings.mergeRecords merged records).result = .ok final) :
    (settings.mergeRecords merged relaxed).result = .ok final := by
  induction hrecords generalizing merged with
  | nil => exact h
  | cons hfirst _ ih =>
      obtain ⟨tree, next, hload, hmerge, hrest⟩ := mergeRecords_cons_eq_ok_iff.mp h
      exact mergeRecords_cons_eq_ok_iff.mpr ⟨tree, next, hfirst.load _ _ hload, hmerge, ih hrest⟩

end ConfigSettings

/-- Rows in step that are named alike are sorted alike. -/
theorem RecordSorter.forall₂_sort {α : Type} {R : α → α → Prop} (sorter : RecordSorter)
    {name : α → String} (hname : ∀ x y, R x y → name y = name x) {xs ys : List α}
    (h : List.Forall₂ R xs ys) :
    List.Forall₂ R (sorter.sort name xs) (sorter.sort name ys) := by
  obtain ⟨pairs, rfl, rfl, hpairs⟩ := exists_pairs h
  -- Each pair is sorted once, by the name that both of its sides have.
  have hsides : sorter.sort name (pairs.map (·.2)) =
      (sorter.sort (fun pair : { pair // pair ∈ pairs } => name pair.1.1) pairs.attach).map
        (·.1.2) := by
    have hnames : (fun pair : { pair // pair ∈ pairs } => name pair.1.1) =
        fun pair => name pair.1.2 := funext fun pair => (hname _ _ (hpairs pair.1 pair.2)).symm
    rw [hnames, ← sort_map]
    exact congrArg (sorter.sort name) List.attach_map_val.symm
  have hfirst : sorter.sort name (pairs.map (·.1)) =
      (sorter.sort (fun pair : { pair // pair ∈ pairs } => name pair.1.1) pairs.attach).map
        (·.1.1) := by
    rw [← sort_map]
    exact congrArg (sorter.sort name) List.attach_map_val.symm
  rw [hfirst, hsides, List.forall₂_map_left_iff, List.forall₂_map_right_iff, List.forall₂_same]
  exact fun pair _ => hpairs pair.1 pair.2

namespace ConfigSettings

/-! ## Building -/

variable {settings : ConfigSettings} {others : List Source}

theorem result_orderedRecords (settings : ConfigSettings) (disk : Disk) :
    (settings.orderedRecords disk).result =
      (FileGroup.collect disk settings.registry settings.delimiter 0 settings.groups).result.map
        fun found => settings.defaultRecords ++
          settings.sorter.sort Record.name (found ++ settings.otherRecords) := by
  rw [orderedRecords, Traced.result_bind]
  cases (FileGroup.collect disk settings.registry settings.delimiter 0 settings.groups).result <;>
    rfl

theorem orderedRecords_relaxed {disk : Disk} {records : List Record}
    (hsources : List.Forall₂ Source.Relaxes settings.sources others)
    (h : (settings.orderedRecords disk).result = .ok records) :
    ∃ relaxed, ((settings.withSources others).orderedRecords disk).result = .ok relaxed ∧
      List.Forall₂ Record.Relaxes records relaxed := by
  have hrecords : List.Forall₂ Record.Relaxes (settings.sources.map settings.sourceRecord)
      (others.map settings.sourceRecord) := by
    rw [List.forall₂_map_left_iff, List.forall₂_map_right_iff]
    exact hsources.imp fun _ _ => relaxes_sourceRecord
  have hdefaults : List.Forall₂ Record.Relaxes settings.defaultRecords
      (settings.withSources others).defaultRecords := by
    rw [defaultRecords, defaultRecords, sourceRecord_withSources]
    exact List.rel_filter (fun _ _ h => iff_of_eq (congrArg (· = true) h.isDefault.symm)) hrecords
  have hothers : List.Forall₂ Record.Relaxes settings.otherRecords
      (settings.withSources others).otherRecords := by
    rw [otherRecords, otherRecords, sourceRecord_withSources]
    exact List.rel_filter
      (fun _ _ h => iff_of_eq (congrArg (fun flag => (!flag) = true) h.isDefault.symm)) hrecords
  rw [result_orderedRecords] at h ⊢
  obtain ⟨found, hfound, rfl⟩ := exists_of_map_eq_ok h
  refine ⟨_, congrArg (Except.map _) hfound, ?_⟩
  have hfiles : List.Forall₂ Record.Relaxes found found :=
    List.forall₂_same.mpr fun _ _ => ⟨rfl, rfl, fun _ _ h => h⟩
  exact List.rel_append hdefaults
    (settings.sorter.forall₂_sort (fun _ _ h => h.name) (List.rel_append hfiles hothers))

theorem build_relaxed {disk : Disk} {compiled : Compiled}
    (hsources : List.Forall₂ Source.Relaxes settings.sources others)
    (h : (settings.build disk).result = .ok compiled) :
    ((settings.withSources others).build disk).result = .ok compiled := by
  rw [build, Traced.result_bind] at h
  obtain ⟨records, hrecords, hassemble⟩ := exists_of_bind_eq_ok h
  rw [assemble, Traced.result_bind] at hassemble
  obtain ⟨merged, hmerged, -⟩ := exists_of_bind_eq_ok hassemble
  obtain ⟨relaxed, hrelaxed, hrelaxes⟩ := orderedRecords_relaxed hsources hrecords
  have hnames : relaxed.map Record.name = records.map Record.name := by
    rw [← List.forall₂_eq_eq_eq, List.forall₂_map_left_iff, List.forall₂_map_right_iff]
    exact hrelaxes.flip.imp fun _ _ h => Record.Relaxes.name h
  have hmerged' : ((settings.withSources others).mergeRecords .empty relaxed).result =
      .ok merged := by
    rw [mergeRecords_withSources]
    exact mergeRecords_relaxed hrelaxes hmerged
  rw [result_build hrelaxed hmerged', hnames, withSources_directives,
    ← result_build hrecords hmerged, build, Traced.result_bind]
  exact h

end ConfigSettings

namespace FlattenOptions

/-- Strictness turns values that would be left out into refusals, and does nothing else. Strict
flattening has a result exactly where the other one has this result and comes upon nothing to leave
out, and the result is a value. So what a configuration builds from strict sources it builds also
where any of them are no longer strict. -/
theorem strict_only_refuses (options : FlattenOptions) (value : Value) :
    (∀ plain?, (options.withStrict true).flatten value = .ok plain? ↔
        (options.withStrict false).flatten value = .ok plain? ∧ ¬ options.Drops value) ∧
      (∀ plain?, (options.withStrict true).flatten value = .ok plain? → plain? ≠ none) ∧
      ∀ (settings : ConfigSettings) (others : List Source) (disk : Disk) (compiled : Compiled),
        List.Forall₂ Source.Relaxes settings.sources others →
        (settings.build disk).result = .ok compiled →
        ((settings.withSources others).build disk).result = .ok compiled :=
  ⟨fun _ => flatten_strict_iff, fun _ => ne_none_of_flatten_strict,
    fun _ _ _ _ hsources hbuild => ConfigSettings.build_relaxed hsources hbuild⟩

/-- A member of an enumeration is flattened alike, and a handle in its place is left out or
refused. -/
theorem strict_only_refuses_member :
    let options : FlattenOptions := { mappers := [.ofTable [("port", "listen")]] }
    let server (port : Value) : Value := .record ⟨.tagged, "Server"⟩ [(.bare "port", port)]
    let ports : Value := .enum "Ports" "HTTP" false (.tuple [.int 80, .text "81"])
    let plain : Value := .ofEntries [("listen", .list [.int 80, .text "81"])]
    let handed : ValueSource :=
      { name := "a", key := "", produce := fun _ _ => .pure (server ports), isDefault := true
        flattening := options }
    let source (strict : Bool) : Source :=
      .value { handed with flattening := handed.flattening.withStrict strict }
    let settings : ConfigSettings := { registry := {}, sources := [source true] }
    let mark : Mark := { origins := [⟨"a", 0, 0⟩] }
    let tree : Tree := .map [("listen", .array [.leaf (some (.int 80)) mark,
      .leaf (some (.text "81")) mark] mark)] mark
    (options.withStrict true).flatten (server ports) = .ok (some plain) ∧
      (options.withStrict false).flatten (server ports) = .ok (some plain) ∧
      ¬ options.Drops (server ports) ∧ some plain ≠ none ∧
      (settings.build {}).result = .ok ⟨tree, ["a"]⟩ ∧
      ((settings.withSources [source false]).build {}).result = .ok ⟨tree, ["a"]⟩ ∧
      (options.withStrict false).flatten (server (.object "Handle")) = .ok (some (.ofEntries [])) ∧
      (options.withStrict true).flatten (server (.object "Handle")) =
        .error (.notConfiguration "Handle") := by
  intro options server ports plain handed source settings mark tree
  have hstrict : (options.withStrict true).flatten (server ports) = .ok (some plain) := rfl
  have hload : ((settings.sourceRecord (source true)).load (settings.queryOn .empty)).result =
      .ok tree := rfl
  have hbuild : (settings.build {}).result = .ok ⟨tree, ["a"]⟩ :=
    ConfigSettings.build_single rfl rfl rfl {} hload rfl
  obtain ⟨hiff, hsome, hrelaxed⟩ := strict_only_refuses options (server ports)
  obtain ⟨hlenient, hdrops⟩ := (hiff _).mp hstrict
  exact ⟨hstrict, hlenient, hdrops, hsome _ hstrict, hbuild,
    hrelaxed settings _ {} _ (.cons (.value handed) .nil) hbuild, rfl, rfl⟩

end FlattenOptions

end LayeredConfig
