import LayeredConfig.Config.Basic
import LayeredConfig.Documentation.Documented

/-!
# Writing configurations

The compiled tree as a document: as plain data, with origins, or with documentation and remarks on
changed defaults. Secrets are kept back unless they are asked for.
-/

namespace LayeredConfig.Config

/-- The documentation under the names that keys have in the configuration. -/
def renamedDocumentation (settings : ConfigSettings) : Except Fault (Option Documentation) :=
  settings.documentation.mapM fun documentation => do
    let query ← QuerySettings.ofOptions settings.queryDefaults
    return documentation.rename fun name =>
      (mapName query.extraction.mappers none name).getD name

/-- A tree with secrets kept back where that is wanted. -/
def concealed (output : OutputSettings) (tree : Tree) : Tree :=
  if output.redact then tree.redacted else tree

/-- A tree with its documentation. The defaults have no remarks on defaults. -/
def documentedText (settings : ConfigSettings) (output : OutputSettings) (tree : Tree) :
    Traced String := do
  let presets ←
    if output.onlyDefaults then Traced.pure none
    else do
      let defaults ← settings.buildDefaults
      Traced.pure (some (concealed output defaults.tree))
  let documentation ← Traced.ofExcept (renamedDocumentation settings)
  let documented ← Traced.ofExcept (Documented.build documentation (some tree) presets)
  return output.layout.render documented.toEntry

/-- A tree as the encoder of a format writes it. -/
def encodedText (registry : Registry) (format : String) (withOrigins : Bool) (tree : Tree) :
    Except Fault String := do
  let encoder ← registry.encoder format
  if withOrigins then encoder.encodeOrigins tree else encoder.encode tree.toValue

/-- The event that something was written. -/
def writtenEvent (format text : String) : Event :=
  ConfigSettings.event .debug "config_marshalled"
    [("format", .text format), ("size", .int (Text.toBytes text).length)]

/-- The format of documents that ask for none. -/
def defaultFormat (registry : Registry) : String := registry.encoders.keys.headD ""

/-- A tree that is not empty as a document. -/
def treeText (settings : ConfigSettings) (output : OutputSettings) (tree : Tree) :
    Traced String := do
  let tree := concealed output tree
  if output.documentation then
    let text ← documentedText settings output tree
    Traced.emit (writtenEvent "yaml" text)
    return text
  else
    let format := if output.format.isEmpty then defaultFormat settings.registry else output.format
    let text ← Traced.ofExcept (encodedText settings.registry format output.origins tree)
    Traced.emit (writtenEvent format text)
    return text

/-- The compiled tree, or what the defaults add up to, as a document; nothing becomes no text. -/
def output (options : List (Offered OutputOption)) (config : Config) : Traced String := do
  let tree ← Traced.ofExcept (config.requireTree "marshal")
  let output ←
    Traced.ofExcept (OutputSettings.ofOptions (config.settings.outputDefaults ++ options))
  let tree ←
    if output.onlyDefaults then Compiled.tree <$> config.settings.buildDefaults else pure tree
  if tree.isEmpty then return "" else treeText config.settings output tree

end LayeredConfig.Config
