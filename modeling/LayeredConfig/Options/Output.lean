import LayeredConfig.Codec.Registry
import LayeredConfig.Commented.Document
import LayeredConfig.Options.Offered

/-!
# Output options

How a configuration is written: in which format, with which remarks, and whether secrets are kept
back.
-/

namespace LayeredConfig

inductive OutputOption
  | redact (enabled : Bool)
  | origins (enabled : Bool)
  | format (extension : String)
  | documentation (enabled : Bool)
  | onlyDefaults (enabled : Bool)
  | layout (layout : Commented.Layout)
  deriving Repr, Inhabited

structure OutputSettings where
  redact : Bool := true
  origins : Bool := false
  /-- The extension of the format, or nothing for the first one that is known. -/
  format : String := ""
  documentation : Bool := false
  onlyDefaults : Bool := false
  layout : Commented.Layout := {}
  deriving Repr, Inhabited

namespace OutputSettings

/-- The settings with one option applied. -/
def apply (settings : OutputSettings) : OutputOption → OutputSettings
  | .redact enabled => { settings with redact := enabled }
  | .origins enabled => { settings with origins := enabled }
  | .format extension => { settings with format := extension }
  | .documentation enabled => { settings with documentation := enabled }
  | .onlyDefaults enabled => { settings with onlyDefaults := enabled }
  | .layout layout => { settings with format := "yaml", layout }

def ofOptions (options : List (Offered OutputOption)) : Except Fault OutputSettings :=
  Offered.foldAll .notMarshalOption apply {} options

end OutputSettings

namespace OutputOption

/-- The kind of an option where it is shown. -/
def kind : OutputOption → String × String
  | redact _ => ("REDACT", "redact")
  | origins _ => ("ORIGINS", "origins")
  | format _ => ("FORMAT", "format")
  | documentation _ => ("DOCUMENTATION", "documentation")
  | onlyDefaults _ => ("ONLY_DEFAULTS", "only_defaults")
  | layout _ => ("YAML", "yaml")

def payload : OutputOption → String
  | redact enabled | origins enabled | documentation enabled | onlyDefaults enabled =>
    (Value.bool enabled).literal
  | format extension => Text.quoted extension
  | layout widths =>
    s!"Renderer(max_line_length={widths.maxLineLength}, " ++
      s!"trailing_comment_column={widths.commentColumn}, spaces_per_indent={widths.indentWidth})"

/-- The option where it is out of place. -/
def shown (option : OutputOption) (label : String) : String :=
  ShownOption.text ⟨"Marshal", option.kind, option.payload, label⟩

end OutputOption

/-! ## Options by name -/

namespace Options

def redactSecrets (flag : Value) : Offered OutputOption :=
  .option (.redact flag.isTruthy) (flagLabel "redact_secrets" flag)

def includeOrigins (flag : Value) : Offered OutputOption :=
  .option (.origins flag.isTruthy) (flagLabel "include_origins" flag)

def formatAs (extension : String) : Offered OutputOption :=
  .option (.format (Registry.normal extension)) (textLabel "format_as" extension)

def includeDocumentation (flag : Value) : Offered OutputOption :=
  .option (.documentation flag.isTruthy) (flagLabel "include_documentation" flag)

def onlyDefaults (flag : Value) : Offered OutputOption :=
  .option (.onlyDefaults flag.isTruthy) (flagLabel "only_defaults" flag)

/-- The widths that stand for numbers below one. -/
def defaultLayout : Commented.Layout := ⟨80, 80, 2⟩

def formatAsYaml (maxLineLength commentColumn indentWidth : Int) : Offered OutputOption :=
  let positive (n default : Int) := if 1 ≤ n then n else default
  .option (.layout
      { maxLineLength := positive maxLineLength defaultLayout.maxLineLength
        commentColumn := positive commentColumn defaultLayout.commentColumn
        indentWidth := positive indentWidth defaultLayout.indentWidth })
    "format_as_yaml()"

end Options

end LayeredConfig
