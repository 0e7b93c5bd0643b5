import LayeredConfig.Documentation.Reader
import LayeredConfig.Expansion.Directive
import LayeredConfig.Layout.Standard
import LayeredConfig.Options.Output
import LayeredConfig.Options.Source
import LayeredConfig.Order.RecordSorter
import LayeredConfig.Source.Value

/-!
# Configuration options

Everything that a configuration can be told: where its sources are, how they are ordered and
expanded, which codecs and what documentation there is, and what later calls start from. Options are
applied in order, and those of a bundle as if they stood in its place. A single refused option
refuses them all.
-/

namespace LayeredConfig

inductive ConfigOption
  | files (groups : List FileGroup)
  | source (source : Source)
  | expand (directive : Directive)
  | sort (sorter : RecordSorter)
  | delimiter (delimiter : String)
  | decoder (decoder : Option Decoder)
  | encoder (encoder : Option Encoder)
  | documentation (documentation : Documentation)
  | outputDefaults (options : List (Offered OutputOption))
  | queryDefaults (options : List (Offered QueryOption))
  | autoCompile (enabled : Bool)
  | bundle (options : List (Offered ConfigOption))

structure ConfigSettings where
  registry : Registry := .standard
  groups : List FileGroup := []
  sources : List Source := []
  directives : List Directive := []
  sorter : RecordSorter := .natural
  delimiter : String := "."
  documentation : Option Documentation := none
  outputDefaults : List (Offered OutputOption) := []
  queryDefaults : List (Offered QueryOption) := []
  autoCompile : Bool := false

namespace ConfigSettings

/-- The settings with more documentation laid over what there is. -/
def addDocumentation (documentation : Documentation) (settings : ConfigSettings) : ConfigSettings :=
  { settings with
    documentation := some (settings.documentation.elim documentation (·.merge documentation)) }

mutual

/-- The settings with one option applied. -/
def apply (settings : ConfigSettings) : ConfigOption → Except Fault ConfigSettings
  | .files groups => .ok { settings with groups := settings.groups ++ groups }
  | .source source => .ok { settings with sources := settings.sources ++ [source] }
  | .expand directive => .ok { settings with directives := settings.directives ++ [directive] }
  | .sort sorter => .ok { settings with sorter }
  | .delimiter delimiter => .ok { settings with delimiter }
  | .decoder decoder =>
    .ok { settings with
      registry := decoder.elim settings.registry (settings.registry.addDecoder ·) }
  | .encoder encoder =>
    .ok { settings with
      registry := encoder.elim settings.registry (settings.registry.addEncoder ·) }
  | .documentation documentation => .ok (settings.addDocumentation documentation)
  | .outputDefaults options =>
    .ok { settings with outputDefaults := settings.outputDefaults ++ options }
  | .queryDefaults options =>
    .ok { settings with queryDefaults := settings.queryDefaults ++ options }
  | .autoCompile enabled => .ok { settings with autoCompile := enabled }
  | .bundle options => applyAll settings options

/-- The settings with what was offered applied, if it is an option at all. -/
def applyOffered (settings : ConfigSettings) : Offered ConfigOption → Except Fault ConfigSettings
  | .option option _ => apply settings option
  | .other _ shown => .error (.notConfigOption shown)

/-- The settings with all options applied in order. -/
def applyAll (settings : ConfigSettings) : List (Offered ConfigOption) → Except Fault ConfigSettings
  | [] => .ok settings
  | offer :: rest =>
    match applyOffered settings offer with
    | .ok settings => applyAll settings rest
    | .error fault => .error fault

end

end ConfigSettings

/-! ## Options out of place -/

/-- Several things in parentheses, a single one followed by a comma. -/
def shownTuple : List String → String
  | [item] => "(" ++ item ++ ",)"
  | items => "(" ++ ", ".intercalate items ++ ")"

namespace ConfigOption

/-- The kind of an option where it is shown. -/
def kind : ConfigOption → String × String
  | files _ => ("FILE_GROUPS", "file_groups")
  | source _ => ("SOURCE", "source")
  | expand _ => ("EXPAND", "expand")
  | sort _ => ("SORT", "sort")
  | delimiter _ => ("DELIMITER", "delimiter")
  | decoder _ => ("DECODER", "decoder")
  | encoder _ => ("ENCODER", "encoder")
  | documentation _ => ("DOCS", "docs")
  | outputDefaults _ => ("DEFAULT_MARSHAL", "default_marshal")
  | queryDefaults _ => ("DEFAULT_UNMARSHAL", "default_unmarshal")
  | autoCompile _ => ("AUTO_COMPILE", "auto_compile")
  | bundle _ => ("GROUP", "group")

/-- An option of a known kind where it is shown. -/
def shownOf {α : Type} (shown : α → String → String) : Offered α → String
  | .option option label => shown option label
  | .other _ shown => shown

/-- What is shown of something that has no text of its own and may be missing. -/
def shownUnless {α : Type} : Option α → String
  | none => Value.null.literal
  | some _ => shownFunction

mutual

def payload : ConfigOption → String
  | files groups => shownTuple (groups.map FileGroup.shown)
  | source _ | expand _ | sort _ | documentation _ => shownFunction
  | decoder d => shownUnless d
  | encoder e => shownUnless e
  | delimiter text => Text.quoted text
  | outputDefaults options => shownTuple (options.map (shownOf OutputOption.shown))
  | queryDefaults options => shownTuple (options.map (shownOf QueryOption.shown))
  | autoCompile enabled => (Value.bool enabled).literal
  | bundle options => shownTuple (payloads options)

def shownOffer : Offered ConfigOption → String
  | .option option label => ShownOption.text ⟨"Config", kind option, payload option, label⟩
  | .other _ shown => shown

def payloads : List (Offered ConfigOption) → List String
  | [] => []
  | offer :: rest => shownOffer offer :: payloads rest

end

end ConfigOption

/-! ## Options by name -/

namespace Options

/-- The label of an option that takes paths. -/
def pathsLabel (name : String) (paths : List String) : String :=
  let quoted := paths.map fun path => s!"'{path}'"
  name ++ "(" ++ ", ".intercalate quoted ++ ")"

/-- Checked groups as an option. -/
def files (label : String) (groups : List FileGroup) : Except Fault (Offered ConfigOption) :=
  return .option (.files (← groups.mapM FileGroup.checked)) label

/-- One group at a place that has to be given. -/
def filesAt (label : String) (place : Option Place) (group : Place → FileGroup) :
    Except Fault (Offered ConfigOption) := do
  files label [group (← FileGroup.requirePlace place)]

/-- A file that has to be there. -/
def addFile (place : Option Place) (path : String) : Except Fault (Offered ConfigOption) :=
  filesAt (textLabel "add_file" path) place fun place => { place, paths := [path], exact := true }

def addFiles (place : Option Place) (paths : List String) : Except Fault (Offered ConfigOption) :=
  filesAt (pathsLabel "add_files" paths) place fun place => { place, paths }

def addDirectory (place : Option Place) (path : String) : Except Fault (Offered ConfigOption) :=
  filesAt (textLabel "add_dir" path) place fun place => { place, paths := [path] }

def addDirectories (place : Option Place) (paths : List String) :
    Except Fault (Offered ConfigOption) :=
  filesAt (pathsLabel "add_dirs" paths) place fun place => { place, paths }

def addTree (place : Option Place) (path : String) : Except Fault (Offered ConfigOption) :=
  filesAt (textLabel "add_tree" path) place fun place => { place, paths := [path], recurse := true }

def addTrees (place : Option Place) (paths : List String) : Except Fault (Offered ConfigOption) :=
  filesAt (pathsLabel "add_trees" paths) place fun place => { place, paths, recurse := true }

/-- Absolute and relative paths, each kind at its own place. -/
def addMixed (root here : Option Place) (paths : List String) :
    Except Fault (Offered ConfigOption) := do
  files (pathsLabel "add_jumbled" paths)
    (StandardLayout.mixedGroups (← FileGroup.requirePlace root) (← FileGroup.requirePlace here)
      paths)

/-- The standard places of an application, or the given files among them. -/
def standardLayout (layout : StandardLayout) (name : String) (paths : List String) :
    Traced (Offered ConfigOption) := do
  Traced.emit layout.resolvedEvent
  Traced.ofExcept (files (textLabel "std_cfg_layout" name) (layout.groups paths))

/-- Bytes produced when they are needed. -/
def addBufferProducer (name : String) (produce : Option BufferProducer)
    (options : List (Offered SourceOption)) : Except Fault (Offered ConfigOption) := do
  let settings ← SourceSettings.ofOptions options
  let source ← BufferSource.make name produce settings.isDefault
  return .option (.source (.buffer source)) (textLabel "add_buffer" name)

def addBuffer (name : String) (bytes : Option (List UInt8))
    (options : List (Offered SourceOption)) :
    Except Fault (Offered ConfigOption) :=
  match bytes with
  | some bytes => addBufferProducer name (some fun _ _ => .pure bytes) options
  | none => .error (.bufferWithoutData name)

/-- A value produced when it is needed. -/
def addValueProducer (name key : String) (produce : Option ValueProducer)
    (options : List (Offered SourceOption)) : Except Fault (Offered ConfigOption) := do
  let settings ← SourceSettings.ofOptions options
  let source ← ValueSource.make name key produce settings.isDefault settings.flattening
  return .option (.source (.value source)) s!"add_value('{name}', '{key}')"

def addValue (name key : String) (value : Value) (options : List (Offered SourceOption)) :
    Except Fault (Offered ConfigOption) :=
  addValueProducer name key (some fun _ _ => .pure value) options

def expand (provider : Option Provider) (origin opening closing : String) (maximum : Int) :
    Except Fault (Offered ConfigOption) := do
  return .option (.expand (← Directive.make provider origin opening closing maximum))
    s!"expand(origin='{origin}')"

def expandVariables (environment : List (String × String)) (origin opening closing : String)
    (maximum : Int) : Except Fault (Offered ConfigOption) := do
  let provider := some (Provider.environment environment)
  return .option (.expand (← Directive.make provider origin opening closing maximum)) "expand_env()"

def sortLexically : Offered ConfigOption := .option (.sort .lexical) "sort_records_lexically()"

def sortNaturally : Offered ConfigOption := .option (.sort .natural) "sort_records_naturally()"

def sortBy (less : Option (String → String → Bool)) : Except Fault (Offered ConfigOption) := do
  return .option (.sort (← RecordSorter.custom less)) "sort_records_custom()"

def keyDelimiter (delimiter : String) : Except Fault (Offered ConfigOption) :=
  if delimiter.isEmpty then .error .keyDelimiterEmpty
  else .ok (.option (.delimiter delimiter) (textLabel "set_key_delimiter" delimiter))

def withDecoder (decoder : Option Decoder) : Offered ConfigOption :=
  .option (.decoder decoder) "with_decoder()"

def withEncoder (encoder : Option Encoder) : Offered ConfigOption :=
  .option (.encoder encoder) "with_encoder()"

def addDocumentation (documentation : Option Documentation) : Except Fault (Offered ConfigOption) :=
  match documentation with
  | some documentation => .ok (.option (.documentation documentation) "add_docs()")
  | none => .error .documentationMissing

def addDocumentationJson (bytes : List UInt8) : Except Fault (Offered ConfigOption) := do
  return .option (.documentation (← Documentation.ofJson bytes)) "add_docs_json()"

def outputDefaults (options : List (Offered OutputOption)) : Offered ConfigOption :=
  .option (.outputDefaults options) "default_marshal_options()"

def queryDefaults (options : List (Offered QueryOption)) : Offered ConfigOption :=
  .option (.queryDefaults options) "default_unmarshal_options()"

def autoCompile (flag : Value) : Offered ConfigOption :=
  .option (.autoCompile flag.isTruthy) (flagLabel "auto_compile" flag)

def bundle (options : List (Offered ConfigOption)) : Offered ConfigOption :=
  .option (.bundle options) ("options(" ++ ", ".intercalate (options.map Offered.label) ++ ")")

end Options

end LayeredConfig
