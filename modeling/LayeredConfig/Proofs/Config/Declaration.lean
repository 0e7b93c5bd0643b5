import LayeredConfig.Proofs.Config.History
import LayeredConfig.Proofs.Options.Sources
import LayeredConfig.Proofs.Order.Sorting

/-! # The order of declaration

Sources become records, and records are told apart by their names. Where the names of all sources
besides the defaults differ, nothing of the order in which they are declared is left in a compiled
configuration: neither in its tree, nor in the list of its records, nor in a failure. -/

namespace LayeredConfig

/-! ## Records of sources -/

namespace ConfigSettings

variable (settings : ConfigSettings)

theorem sourceRecord_name (source : Source) :
    (settings.sourceRecord source).name = source.name := by
  cases source <;> rfl

theorem sourceRecord_isDefault (source : Source) :
    (settings.sourceRecord source).isDefault = source.isDefault := by
  cases source <;> rfl

theorem defaultRecords_eq :
    settings.defaultRecords =
      (settings.sources.filter Source.isDefault).map settings.sourceRecord := by
  rw [defaultRecords, List.filter_map]
  simp only [Function.comp_def, sourceRecord_isDefault]

theorem otherRecords_eq :
    settings.otherRecords =
      (settings.sources.filter fun source => !source.isDefault).map settings.sourceRecord := by
  rw [otherRecords, List.filter_map]
  simp only [Function.comp_def, sourceRecord_isDefault]

/-! ## What does not depend on the sources -/

variable (sources : List Source)

theorem queryOn_withSources : (settings.withSources sources).queryOn = settings.queryOn := rfl

theorem sourceRecord_withSources :
    (settings.withSources sources).sourceRecord = settings.sourceRecord := by
  funext source
  cases source <;> rfl

/-- What records add up to depends on the settings by the queries that producers put, and by what
stands between the segments of keys. -/
theorem mergeRecords_congr {settings other : ConfigSettings}
    (hquery : other.queryOn = settings.queryOn) (hdelimiter : other.delimiter = settings.delimiter)
    (merged : Tree) (records : List Record) :
    other.mergeRecords merged records = settings.mergeRecords merged records := by
  induction records generalizing merged with
  | nil => rfl
  | cons record rest ih => simp only [mergeRecords, hquery, hdelimiter, ih]

theorem mergeRecords_withSources (merged : Tree) (records : List Record) :
    (settings.withSources sources).mergeRecords merged records =
      settings.mergeRecords merged records :=
  mergeRecords_congr (settings.queryOn_withSources sources) rfl merged records

theorem assemble_withSources (records : List Record) :
    (settings.withSources sources).assemble records = settings.assemble records := by
  rw [assemble, assemble, mergeRecords_withSources, withSources_directives]

/-- A build goes by the records of the sources, wherever they come from. -/
theorem build_withSources (disk : Disk)
    (hdefaults : (settings.withSources sources).defaultRecords = settings.defaultRecords)
    (hlength : (settings.withSources sources).otherRecords.length = settings.otherRecords.length)
    (hsorted : ∀ found, settings.sorter.sort Record.name
        (found ++ (settings.withSources sources).otherRecords) =
      settings.sorter.sort Record.name (found ++ settings.otherRecords)) :
    (settings.withSources sources).build disk = settings.build disk := by
  have hrecords : (settings.withSources sources).orderedRecords disk =
      settings.orderedRecords disk := by
    simp only [orderedRecords, hdefaults, hsorted, List.length_append, hlength,
      withSources_registry, withSources_delimiter, withSources_groups, withSources_sorter]
  have hassemble := settings.assemble_withSources sources
  simp only [build, hrecords, funext hassemble]

/-! ## Sources in another order -/

/-- The second sources are the first in another order, in which defaults stay one behind the other.
The names of the others differ. -/
structure Reorders (sources others : List Source) : Prop where
  defaults : others.filter Source.isDefault = sources.filter Source.isDefault
  perm : (others.filter fun source => !source.isDefault).Perm
    (sources.filter fun source => !source.isDefault)
  names : ((sources.filter fun source => !source.isDefault).map Source.name).Nodup

/-- Settings whose sorter tells names apart build the same from sources in any order. -/
theorem build_reordered (disk : Disk) {others : List Source}
    (hreorders : Reorders settings.sources others) [IsStrictWeakOrder String settings.sorter.Precedes]
    (htells : settings.sorter.TellsApart) :
    (settings.withSources others).build disk = settings.build disk := by
  have hdefaults : (settings.withSources others).defaultRecords = settings.defaultRecords := by
    rw [defaultRecords_eq, defaultRecords_eq, sourceRecord_withSources, withSources,
      hreorders.defaults]
  have hperm : (settings.withSources others).otherRecords.Perm settings.otherRecords := by
    rw [otherRecords_eq, otherRecords_eq, sourceRecord_withSources]
    exact hreorders.perm.map _
  have hnames : (settings.otherRecords.map Record.name).Nodup := by
    rw [otherRecords_eq, List.map_map, Function.comp_def]
    simpa only [sourceRecord_name] using hreorders.names
  refine settings.build_withSources others disk hdefaults hperm.length_eq fun found => ?_
  exact (settings.sorter.sort_append_eq_of_perm Record.name htells found hnames hperm.symm).symm

end ConfigSettings

/-! ## Options in another order -/

namespace ConfigOption

/-- The second options bring the sources of the first in another order, and otherwise the same. -/
structure Reordered (options others : List (Offered ConfigOption)) : Prop where
  rest : othersAmong others = othersAmong options
  sources : ConfigSettings.Reorders (sourcesAmong options) (sourcesAmong others)

end ConfigOption

namespace Config

open ConfigOption ConfigSettings

/-- Two configurations have published the same and build the same. -/
structure Alike (config other : Config) : Prop where
  published : other.published = config.published
  build : ∀ disk, other.settings.build disk = config.settings.build disk

theorem Alike.compile {config other : Config} (h : Alike config other) (disk : Disk)
    (now : Moment) :
    Alike (config.compile disk now).1 (other.compile disk now).1 ∧
      (other.compile disk now).2 = (config.compile disk now).2 := by
  rw [Config.compile, Config.compile, h.build disk]
  cases (config.settings.build disk).result with
  | ok compiled => exact ⟨⟨rfl, h.build⟩, rfl⟩
  | error fault => exact ⟨h, rfl⟩

variable {disk : Disk} {registry : Registry} {options others : List (Offered ConfigOption)}
  {now : Moment}

theorem alike_withOptions (hreordered : Reordered options others)
    (hsorter : ∀ settings, applyAll { registry } options = .ok settings →
      settings.sorter = .natural ∨ settings.sorter = .lexical) :
    let blank : Config := { settings := { registry } }
    Alike (blank.withOptions disk options now).1 (blank.withOptions disk others now).1 ∧
      (blank.withOptions disk others now).2 = (blank.withOptions disk options now).2 := by
  intro blank
  have hothers := applyAll_of_othersAmong_eq { registry } hreordered.rest
  cases happly : applyAll { registry } options with
  | error fault =>
      rw [happly] at hothers
      rw [withOptions_of_error happly, withOptions_of_error hothers]
      exact ⟨⟨rfl, fun _ => rfl⟩, rfl⟩
  | ok settings =>
      have hothers : applyAll { registry } others =
          .ok (settings.withSources (sourcesAmong others)) := by
        rw [hothers, happly]
        rfl
      have hsources : settings.sources = sourcesAmong options := sources_of_applyAll happly
      have hreorders : Reorders settings.sources (sourcesAmong others) := by
        rw [hsources]
        exact hreordered.sources
      have hbuild : ∀ disk, (settings.withSources (sourcesAmong others)).build disk =
          settings.build disk := by
        intro disk
        obtain ⟨hweak, htells⟩ := RecordSorter.orders_of_standard (hsorter settings happly)
        exact settings.build_reordered disk hreorders htells
      have halike : Alike { settings } { settings := settings.withSources (sourcesAmong others) } :=
        ⟨rfl, hbuild⟩
      rw [withOptions_of_ok happly, withOptions_of_ok hothers, withSources_autoCompile]
      split
      · exact halike.compile disk now
      · exact ⟨halike, rfl⟩

/-- The order in which sources are declared, defaults apart, does not matter when their names
differ: it shows neither when a configuration is made, nor whenever that is compiled. -/
theorem create_reordered (hreordered : Reordered options others)
    (hsorter : ∀ settings, applyAll { registry } options = .ok settings →
      settings.sorter = .natural ∨ settings.sorter = .lexical) :
    let first := create disk registry options now
    let second := create disk registry others now
    second.events = first.events ∧ second.result.map published = first.result.map published ∧
      ∀ config other, first.result = .ok config → second.result = .ok other → ∀ disk now,
        (other.compile disk now).1.published = (config.compile disk now).1.published ∧
          (other.compile disk now).2 = (config.compile disk now).2 := by
  intro first second
  obtain ⟨halike, hdone⟩ :=
    @alike_withOptions disk registry options others now hreordered hsorter
  refine ⟨?_, ?_, fun config other hfirst hsecond disk now => ?_⟩
  · simp only [first, second, create, hdone]
  · simp only [first, second, create, hdone]
    cases (withOptions disk options { settings := { registry } } now).2.result with
    | error fault => rfl
    | ok done => exact congrArg Except.ok halike.published
  · have hconfig := after_of_create hfirst
    have hother := after_of_create hsecond
    simp only [Turn.after, perform] at hconfig hother
    rw [hconfig, hother] at halike
    obtain ⟨hcompiled, hanswer⟩ := halike.compile disk now
    exact ⟨hcompiled.published, hanswer⟩

/-- A second value reads what the first one has put at its key, whichever is declared first. -/
theorem create_reordered_values :
    let number : Source :=
      .value { name := "1", key := "port", produce := fun _ _ => .pure (.int 80) }
    let copy : Source :=
      .value { name := "2", key := "copy", produce := fun _ query => query "port" .any [] }
    let slash : Offered ConfigOption := .option (.delimiter "/") "set_key_delimiter('/')"
    let options := [.option (.source copy) "copy", slash, .option (.source number) "number"]
    let others := [.option (.source number) "number", slash, .option (.source copy) "copy"]
    let settings : ConfigSettings := { registry := {}, delimiter := "/" }
    let config : Config := { settings := settings.withSources [copy, number] }
    let other : Config := { settings := settings.withSources [number, copy] }
    (create {} {} options).result = .ok config ∧ (create {} {} others).result = .ok other ∧
      (other.compile {}).1.published = (config.compile {}).1.published := by
  intro number copy slash options others settings config other
  have hreordered : Reordered options others := by
    refine ⟨rfl, rfl, .swap copy number [], ?_⟩
    decide
  have hsorter : ∀ settings, applyAll { registry := {} } options = .ok settings →
      settings.sorter = .natural ∨ settings.sorter = .lexical := by
    intro settings h
    cases h
    exact .inl rfl
  have hfirst : (create {} {} options).result = .ok config := rfl
  have hsecond : (create {} {} others).result = .ok other := rfl
  have hcreate := @create_reordered {} {} options others .epoch hreordered hsorter
  exact ⟨hfirst, hsecond, (hcreate.2.2 config other hfirst hsecond {} .epoch).1⟩

end Config

end LayeredConfig
