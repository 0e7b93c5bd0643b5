import LayeredConfig.Proofs.Config.Declaration
import LayeredConfig.Proofs.Secrets.Defaults
import LayeredConfig.Proofs.Secrets.Printing
import LayeredConfig.Proofs.Tree.Nodes

/-! # Documents of the defaults

The defaults of a configuration can be written by themselves. What is written is what a
configuration without any other source writes, provided that every default equals itself. -/

namespace LayeredConfig

/-! ## Defaults that equal the values -/

namespace Documented

/-- A default is not noted beside an equal value. -/
theorem presetOf_leaf {value : Option Scalar} {mark : Mark} (h : (Tree.leaf value mark).SelfSame) :
    presetOf (some (.leaf value mark)) (proper? value) = none := by
  rw [presetOf, Option.bind_some, Tree.scalar?]
  cases hvalue : proper? value with
  | none => rfl
  | some scalar =>
      have hmem : scalar ∈ value := (Option.filter_eq_some_iff.mp hvalue).1
      have hsame := h _ (Tree.mem_nodes_self _) scalar hmem
      simp [Option.filter, hsame]

theorem ofItems_self {items : List Tree}
    (h : ∀ item ∈ items, ∀ level name documentation,
      ofTree level name documentation (some item) item = ofTree level name documentation none item)
    (level : Int) (index : Nat) (element : Option Documentation) :
    ofItems level index element items items = ofItems level index element [] items := by
  induction items generalizing index element with
  | nil => rfl
  | cons item rest ih =>
      have hrest := ih (fun other hmem => h other (List.mem_cons_of_mem _ hmem)) (index + 1) none
      rw [ofItems, ofItems, List.head?_cons, List.head?_nil, h item List.mem_cons_self,
        List.tail_cons, List.tail_nil, hrest]

/-- Beside itself, a tree has no defaults that differ. -/
theorem ofTree_self {tree : Tree} (hdistinct : tree.DistinctKeys) (hself : tree.SelfSame)
    (level : Int) (name : Option String) (documentation : Option Documentation) :
    ofTree level name documentation (some tree) tree =
      ofTree level name documentation none tree := by
  induction tree using Tree.induction generalizing level name documentation with
  | leaf value mark =>
      simp only [ofTree, presetOf_leaf hself]
      rfl
  | map entries mark ih =>
      have hentries : ∀ level documentation,
          ofEntries level documentation (some (.map entries mark)) entries =
            ofEntries level documentation none entries := by
        refine ofEntries_congr fun key child hchild level documentation => ?_
        -- No other child has this name, so the default of the child is the child itself.
        have hfound : Entries.get? key entries = some child :=
          Entries.lookup_of_mem hdistinct.keys_nodup hchild
        rw [Option.bind_some, Tree.entries, hfound]
        exact ih key child hchild (hdistinct.child hchild) (hself.child hchild) _ _ _
      simp only [ofTree, hentries]
      rfl
  | array items mark ih =>
      have hitems : ∀ level element,
          ofItems level 0 element items items = ofItems level 0 element [] items := by
        intro level element
        refine ofItems_self (fun item hitem => ?_) level 0 element
        exact ih item hitem (Tree.distinctKeys_array_iff.mp hdistinct item hitem) (hself.item hitem)
      simp only [ofTree, Option.map_some, Option.getD_some, Option.map_none, Option.getD_none,
        Tree.items, hitems]
      rfl

end Documented

/-! ## Settings without other sources -/

namespace ConfigSettings

/-- The settings without files and with no sources besides the defaults. -/
def defaultsOnly (settings : ConfigSettings) : ConfigSettings :=
  { settings with groups := [], sources := settings.sources.filter Source.isDefault }

variable (settings : ConfigSettings)

theorem sourceRecord_defaultsOnly : settings.defaultsOnly.sourceRecord = settings.sourceRecord := by
  funext source
  cases source <;> rfl

theorem defaultRecords_defaultsOnly :
    settings.defaultsOnly.defaultRecords = settings.defaultRecords := by
  rw [defaultRecords_eq, defaultRecords_eq, sourceRecord_defaultsOnly, defaultsOnly,
    List.filter_filter]
  simp only [Bool.and_self]

theorem otherRecords_defaultsOnly : settings.defaultsOnly.otherRecords = [] := by
  rw [otherRecords_eq, defaultsOnly, List.filter_filter]
  simp

theorem queryOn_defaultsOnly : settings.defaultsOnly.queryOn = settings.queryOn := rfl

theorem assemble_defaultsOnly (records : List Record) :
    settings.defaultsOnly.assemble records = settings.assemble records := by
  have hmerge : ∀ merged, settings.defaultsOnly.mergeRecords merged records =
      settings.mergeRecords merged records :=
    fun merged => mergeRecords_congr settings.queryOn_defaultsOnly rfl merged records
  rw [assemble, assemble, hmerge]
  rfl

theorem buildDefaults_defaultsOnly :
    settings.defaultsOnly.buildDefaults = settings.buildDefaults := by
  rw [buildDefaults, buildDefaults, defaultRecords_defaultsOnly, assemble_defaultsOnly]

/-- Without files and other sources, all records are those of the defaults. -/
theorem result_build_defaultsOnly (disk : Disk) :
    (settings.defaultsOnly.build disk).result = settings.buildDefaults.result := by
  have hrecords : (settings.defaultsOnly.orderedRecords disk).result =
      .ok settings.defaultRecords := by
    rw [← defaultRecords_defaultsOnly]
    have hfound : FileGroup.collect disk settings.defaultsOnly.registry
        settings.defaultsOnly.delimiter 0 settings.defaultsOnly.groups = pure [] := rfl
    have hsorted : settings.defaultsOnly.sorter.sort Record.name [] = [] := List.mergeSort_nil
    simp only [orderedRecords, otherRecords_defaultsOnly, hfound, Traced.result_bind, pure,
      Traced.pure, Except.bind, List.append_nil, hsorted]
    rfl
  rw [build, Traced.result_bind, hrecords, buildDefaults, ← assemble_defaultsOnly]
  rfl

end ConfigSettings

/-! ## Documents -/

namespace Config

theorem concealed_distinctKeys {tree : Tree} (h : tree.DistinctKeys) (output : OutputSettings) :
    (concealed output tree).DistinctKeys := by
  rw [concealed]
  split
  · exact Tree.distinctKeys_redacted h
  · exact h

/-- The last option decides whether the defaults alone are written. -/
theorem ofOptions_onlyDefaults (options : List (Offered OutputOption)) (flag : Bool) :
    OutputSettings.ofOptions (options ++ [Options.onlyDefaults (.bool flag)]) =
      (OutputSettings.ofOptions options).map fun output =>
        { output with onlyDefaults := flag } := by
  rw [OutputSettings.ofOptions, Offered.foldAll_append, OutputSettings.ofOptions]
  cases Offered.foldAll .notMarshalOption OutputSettings.apply {} options <;> rfl

/-- The defaults as they are and the defaults with themselves as defaults have one text. -/
theorem result_documentedText_self {settings : ConfigSettings} {output : OutputSettings}
    {defaults : Compiled} (hdefaults : settings.buildDefaults.result = .ok defaults)
    (hdistinct : defaults.tree.DistinctKeys)
    (hself : (concealed output defaults.tree).SelfSame) :
    (documentedText settings { output with onlyDefaults := true }
        (concealed output defaults.tree)).result =
      (documentedText settings.defaultsOnly { output with onlyDefaults := false }
        (concealed output defaults.tree)).result := by
  have hbuild : ∀ documentation,
      Documented.build documentation (some (concealed output defaults.tree))
          (some (concealed output defaults.tree)) =
        Documented.build documentation (some (concealed output defaults.tree)) none :=
    fun documentation => Documented.ofTree_self (concealed_distinctKeys hdistinct output) hself
      (-1) none documentation
  have hconcealed : concealed { output with onlyDefaults := false } defaults.tree =
      concealed output defaults.tree := rfl
  have hdocumentation : renamedDocumentation settings.defaultsOnly =
      renamedDocumentation settings := rfl
  simp only [documentedText, Traced.result_bind, settings.buildDefaults_defaultsOnly, hdefaults,
    hconcealed, hdocumentation, if_true, Bool.false_eq_true, if_false, Traced.pure, Except.bind,
    Traced.ofExcept, hbuild]

theorem result_treeText_self {settings : ConfigSettings} {output : OutputSettings}
    {defaults : Compiled} (hdefaults : settings.buildDefaults.result = .ok defaults)
    (hdistinct : defaults.tree.DistinctKeys)
    (hself : output.documentation = true → (concealed output defaults.tree).SelfSame) :
    (treeText settings { output with onlyDefaults := true } defaults.tree).result =
      (treeText settings.defaultsOnly { output with onlyDefaults := false }
        defaults.tree).result := by
  by_cases hdocumentation : output.documentation = true
  · have htext := result_documentedText_self hdefaults hdistinct (hself hdocumentation)
    simp only [treeText, hdocumentation, if_true, Traced.result_bind]
    exact congrArg (Except.bind · _) htext
  · simp only [treeText, hdocumentation, Bool.false_eq_true, if_false]
    rfl

/-- A configuration with the same settings that is compiled from the defaults alone. -/
def ofDefaults (disk : Disk) (now : Moment) (config : Config) : Config :=
  (compile disk { settings := config.settings.defaultsOnly } now).1

theorem settings_compile (disk : Disk) (config : Config) (now : Moment) :
    (config.compile disk now).1.settings = config.settings := by
  rw [compile]
  split <;> rfl

theorem tree_ofDefaults_eq_some_iff {disk : Disk} {now : Moment} {config : Config} {tree : Tree} :
    (config.ofDefaults disk now).tree = some tree ↔
      ∃ defaults, config.settings.buildDefaults.result = .ok defaults ∧ defaults.tree = tree := by
  rw [← config.settings.result_build_defaultsOnly disk, ofDefaults, compile]
  cases (config.settings.defaultsOnly.build disk).result with
  | ok compiled =>
      constructor
      · exact fun h => ⟨compiled, rfl, Option.some.inj h⟩
      · rintro ⟨defaults, hdefaults, rfl⟩
        exact congrArg (fun compiled => some compiled.tree) (Except.ok.inj hdefaults)
  | error fault =>
      constructor
      · intro h
        cases h
      · rintro ⟨defaults, ⟨⟩, -⟩

/-- What is written of the defaults of a compiled configuration, in whatever form, is what a
configuration writes that has the same settings and no other sources. Where documentation is
included, every default that shows has to equal itself, or else it is noted beside itself. -/
theorem output_onlyDefaults {disk : Disk} {now : Moment} {config : Config} {tree : Tree}
    (hcompiled : config.tree.isSome = true) (hfresh : (config.ofDefaults disk now).tree = some tree)
    (hdistinct : tree.DistinctKeys) (options : List (Offered OutputOption))
    (hself : ∀ output, OutputSettings.ofOptions (config.settings.outputDefaults ++ options) =
      .ok output → output.documentation = true → (concealed output tree).SelfSame) :
    (config.output (options ++ [Options.onlyDefaults (.bool true)])).result =
      ((config.ofDefaults disk now).output
        (options ++ [Options.onlyDefaults (.bool false)])).result := by
  obtain ⟨compiled, hcompiled⟩ := Option.isSome_iff_exists.mp hcompiled
  obtain ⟨defaults, hdefaults, rfl⟩ := tree_ofDefaults_eq_some_iff.mp hfresh
  have hsettings : (config.ofDefaults disk now).settings = config.settings.defaultsOnly :=
    settings_compile disk _ now
  have houtput : config.settings.defaultsOnly.outputDefaults = config.settings.outputDefaults :=
    rfl
  simp only [output, requireTree, hcompiled, hfresh, hsettings, houtput, Traced.result_bind,
    ← List.append_assoc, ofOptions_onlyDefaults, Traced.ofExcept]
  cases hoptions : OutputSettings.ofOptions (config.settings.outputDefaults ++ options) with
  | error fault => rfl
  | ok output =>
      have htext := result_treeText_self hdefaults hdistinct (hself output hoptions)
      simp only [Except.map, Except.bind, if_true, Bool.false_eq_true, if_false,
        Traced.result_bind, Traced.result_map, hdefaults, pure, Traced.pure]
      cases defaults.tree.isEmpty with
      | true => rfl
      | false => exact htext

/-- A default that is an integer equals itself. -/
theorem output_onlyDefaults_int :
    let two : Source :=
      .value { name := "d", key := "x", produce := fun _ _ => .pure (.int 2), isDefault := true }
    let settings : ConfigSettings := { registry := {}, delimiter := "/", sources := [two] }
    let config := (compile {} { settings }).1
    let options := [Options.includeDocumentation (.bool true)]
    config.tree.isSome = true ∧
      (config.output (options ++ [Options.onlyDefaults (.bool true)])).result =
        ((config.ofDefaults {} .epoch).output
          (options ++ [Options.onlyDefaults (.bool false)])).result := by
  intro two settings config options
  let tree : Tree := .map [("x", .leaf (some (.int 2)) { origins := [⟨"d", 0, 0⟩] })]
    { origins := [⟨"d", 0, 0⟩] }
  have hdefaults : config.settings.buildDefaults.result = .ok ⟨tree, ["d"]⟩ := by
    rw [settings_compile]
    simp only [settings, two]
    cbv
  have hfresh : (config.ofDefaults {} .epoch).tree = some tree :=
    tree_ofDefaults_eq_some_iff.mpr ⟨_, hdefaults, rfl⟩
  have hself : tree.SelfSame := by
    simp [Tree.SelfSame, tree, Tree.nodes, Tree.nodesOfEntries, Tree.scalar?, Scalar.same]
  have hcompiled : config.tree.isSome = true := by decide +kernel
  refine ⟨hcompiled, output_onlyDefaults hcompiled hfresh (by decide) options
    fun output houtput _ => ?_⟩
  rw [concealed]
  split
  · exact hself
  · exact hself

/-- A default that is not a number is noted beside itself, unless the defaults are asked for. -/
theorem output_onlyDefaults_nan :
    let nan : Source :=
      .value
        { name := "d", key := "x", produce := fun _ _ => .pure (.float .nan), isDefault := true }
    let settings : ConfigSettings := { registry := {}, delimiter := "/", sources := [nan] }
    let config := (compile {} { settings }).1
    let options := [Options.includeDocumentation (.bool true)]
    (config.output (options ++ [Options.onlyDefaults (.bool true)])).result.toOption =
        some "---\nx: NaN\n\n" ∧
      ((config.ofDefaults {} .epoch).output
          (options ++ [Options.onlyDefaults (.bool false)])).result.toOption =
        some "---\n# default: NaN\nx: NaN\n\n" := by
  intro nan settings config options
  constructor
  · decide +kernel
  · decide +kernel

end Config

end LayeredConfig
