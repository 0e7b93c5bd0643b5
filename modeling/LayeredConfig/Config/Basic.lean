import LayeredConfig.Calendar
import LayeredConfig.Expansion.Expand
import LayeredConfig.Merge
import LayeredConfig.Options.Config
import LayeredConfig.Source.Files
import LayeredConfig.Tree.Fetch

/-!
# Configurations

A configuration is told where its sources are and compiles them into one tree. Defaults come first,
in the order in which they were declared; all other records follow in the order of their names.
Each record is merged onto those before it, and its producer can query what they add up to. At the
end placeholders are expanded. A failing compile leaves the last compiled state as it was.
-/

namespace LayeredConfig

/-- What records add up to. -/
structure Compiled where
  tree : Tree
  /-- The names of the records in the order in which they were merged. -/
  records : List String
  deriving Repr

/-- Settings, and what the last successful compile left behind. -/
structure Config where
  settings : ConfigSettings := {}
  tree : Option Tree := none
  /-- The names of the merged records; none before the first compile. -/
  records : List String := []
  compiledAt : Option Moment := none

namespace ConfigSettings

/-! ## Queries -/

/-- The value at a key of a tree, converted to a type and validated. -/
def queryTree (settings : ConfigSettings) (tree : Tree) (key : String) (type : Schema)
    (options : List (Offered QueryOption)) : Except Fault Value := do
  let query ← QuerySettings.ofOptions (settings.queryDefaults ++ options)
  match tree.fetch settings.delimiter (keyPath settings.delimiter key) with
  | .error fault =>
    if query.optional && fault.category = .notFound then return .null else .error fault
  | .ok node =>
    let value ← query.extraction.extract key type (← node.toRounded)
    match query.validator with
    | none => return value
    | some check =>
      match check value with
      | .ok () => return value
      | .error cause => .error (if cause.category.isOwn then cause else .validationFailed key cause)

/-- The query that a producer can put to what was merged before. -/
def queryOn (settings : ConfigSettings) (merged : Tree) : Query := fun key type options => do
  let tree ← merged.expand settings.directives
  Traced.ofExcept (settings.queryTree tree key type options)

/-! ## Building -/

/-- An event about the configuration as a whole. -/
def event (level : Level) (message : String) (details : Entries Value) : Event :=
  .about level message "config" none details

def sourceRecord (settings : ConfigSettings) : Source → Record
  | .buffer source => source.record settings.registry settings.delimiter
  | .value source => source.record settings.delimiter

/-- Records of default sources, in the order of declaration. -/
def defaultRecords (settings : ConfigSettings) : List Record :=
  (settings.sources.map settings.sourceRecord).filter (·.isDefault)

/-- Records of all other sources, in the order of declaration. -/
def otherRecords (settings : ConfigSettings) : List Record :=
  (settings.sources.map settings.sourceRecord).filter (!·.isDefault)

/-- All records in the order in which they are merged. -/
def orderedRecords (settings : ConfigSettings) (disk : Disk) : Traced (List Record) := do
  let found ← FileGroup.collect disk settings.registry settings.delimiter 0 settings.groups
  let records := found ++ settings.otherRecords
  let sorted := settings.sorter.sort Record.name records
  Traced.emit (event .debug "records_sorted"
    [("sorter", .text settings.sorter.label), ("records", .int records.length)])
  return settings.defaultRecords ++ sorted

/-- Records merged onto a tree, one after the other. -/
def mergeRecords (settings : ConfigSettings) (merged : Tree) : List Record → Traced Tree
  | [] => return merged
  | record :: rest => do
    let tree ← record.load (settings.queryOn merged)
    let merged ← Traced.ofExcept (merged.merge settings.delimiter tree)
    mergeRecords settings merged rest

/-- Records merged from nothing, and expanded. -/
def assemble (settings : ConfigSettings) (records : List Record) : Traced Compiled := do
  let merged ← settings.mergeRecords .empty records
  return { tree := ← merged.expand settings.directives, records := records.map Record.name }

def build (settings : ConfigSettings) (disk : Disk) : Traced Compiled := do
  settings.assemble (← settings.orderedRecords disk)

/-- What the defaults alone add up to. -/
def buildDefaults (settings : ConfigSettings) : Traced Compiled :=
  settings.assemble settings.defaultRecords

end ConfigSettings

namespace Config

def isCompiled (config : Config) : Bool := config.compiledAt.isSome

/-- The compiled tree, for an operation that needs one. -/
def requireTree (operation : String) (config : Config) : Except Fault Tree :=
  match config.tree with
  | some tree => .ok tree
  | none => .error (.notCompiledYet operation)

/-- Compiles the sources as they are now. -/
def compile (disk : Disk) (config : Config) (now : Moment := .epoch) : Config × Traced Unit :=
  let built := config.settings.build disk
  match built.result with
  | .ok compiled =>
    ({ config with
        tree := some compiled.tree
        records := compiled.records
        compiledAt := some now },
      { events := built.events ++
          [ConfigSettings.event .info "config_compiled" [("records", .int compiled.records.length)]]
        result := .ok () })
  | .error fault =>
    (config,
      { events := built.events ++
          [ConfigSettings.event .error "compile_failed" [("error", .text fault.text)]]
        result := .error fault })

/-- Applies more options; compiles at once where that is wanted. -/
def withOptions (disk : Disk) (options : List (Offered ConfigOption)) (config : Config)
    (now : Moment := .epoch) : Config × Traced Unit :=
  match config.settings.applyAll options with
  | .error fault => (config, .fail fault)
  | .ok settings =>
    let config := { config with settings }
    if settings.autoCompile then config.compile disk now else (config, .pure ())

/-- A configuration from a registry and options. -/
def create (disk : Disk) (registry : Registry) (options : List (Offered ConfigOption))
    (now : Moment := .epoch) : Traced Config :=
  let (config, done) := withOptions disk options { settings := { registry } } now
  ⟨done.events, done.result.map fun _ => config⟩

/-- The node at a key. -/
def fetch (key : String) (config : Config) : Except Fault Tree := do
  let tree ← config.requireTree "fetch"
  let delimiter := config.settings.delimiter
  tree.fetch delimiter (keyPath delimiter key)

/-- The value at a key as a value of a type. -/
def query (key : String) (type : Schema) (options : List (Offered QueryOption)) (config : Config) :
    Except Fault Value := do
  config.settings.queryTree (← config.requireTree "unmarshal") key type options

end Config

end LayeredConfig
