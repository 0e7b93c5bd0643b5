import LayeredConfig.CommandLine.Arguments
import LayeredConfig.Config.Output

/-!
# Running commands

What a command prints, and the code it exits with: zero for success, one for a failure, and two for
arguments that make no sense.
-/

namespace LayeredConfig.CommandLine

structure Outcome where
  exitCode : Nat
  output : String
  deriving DecidableEq, Repr

namespace Outcome

def misuse : Outcome := ⟨2, ""⟩

def ofResult : Except Fault String → Outcome
  | .ok text => ⟨0, text⟩
  | .error _ => ⟨1, ""⟩

end Outcome

/-- The surroundings of a command. -/
structure Surroundings where
  disk : Disk := .empty "/"
  environment : List (String × String) := []
  /-- The headers that describe the installed package, if there is one. -/
  metadata : Option (List (String × String)) := none

/-! ## Compiling -/

/-- Whether a path exists; an empty one does not. -/
def kind? (disk : Disk) (path : String) : Option Bool :=
  if path.isEmpty then none else (disk.isDirectory path).toOption

/-- The option for a path that exists. -/
def pathOption (disk : Disk) (recurse : Bool) (path : String) :
    Except Fault (Offered ConfigOption) := do
  let location := "/" ++ (← disk.locate path)
  if ← disk.isDirectory path then
    let place := some (Place.directory location)
    if recurse then Options.addTree place "." else Options.addDirectory place "."
  else Options.addFile (some (.directory (Path.parent location ++ "/"))) (Path.basename location)

/-- The options of a request. -/
def configOptions (around : Surroundings) (request : CompileRequest) :
    Except Fault (List (Offered ConfigOption)) := do
  let paths ← request.paths.mapM (pathOption around.disk request.recurse)
  let order := if request.natural then Options.sortNaturally else Options.sortLexically
  let expansion ←
    if request.expand then
      List.singleton <$> Options.expandVariables around.environment "environment"
        Directive.defaultOpening Directive.defaultClosing 0
    else pure []
  let documentation ←
    match request.documentation with
    | some path => List.singleton <$> (around.disk.read path >>= Options.addDocumentationJson)
    | none => pure []
  return paths ++ order :: expansion ++ documentation

/-- A part of a configuration as a document. -/
def partText (request : CompileRequest) (config : Config) : Except Fault String := do
  let node ← config.fetch request.key
  Config.encodedText .standard request.format request.origins
    (if request.redact then node.redacted else node)

/-- A whole configuration as a document. -/
def wholeText (request : CompileRequest) (config : Config) : Except Fault String :=
  (config.output
    [Options.formatAs request.format, Options.includeOrigins (.bool request.origins),
      Options.redactSecrets (.bool request.redact),
      Options.includeDocumentation (.bool request.documentation.isSome)]).result

/-- The part of a configuration that a request asks for, or all of it. -/
def documentText (request : CompileRequest) (config : Config) : Except Fault String :=
  if request.key.isEmpty then wholeText request config else partText request config

/-- What a request prints: the text, with a single end of line behind it. -/
def compileText (around : Surroundings) (request : CompileRequest) : Except Fault String := do
  let options ← configOptions around request
  let config ← (Config.create around.disk .standard options).result
  let (config, compiled) := config.compile around.disk
  compiled.result
  let text ← documentText request config
  return String.ofList (Text.trimRight (· == '\n') text.toList) ++ "\n"

/-- Whether all paths of a request are there: files and directories, and a file of documentation. -/
def pathsExist (disk : Disk) (request : CompileRequest) : Bool :=
  request.paths.all (fun path => (kind? disk path).isSome) &&
    request.documentation.all fun path => kind? disk path == some false

/-! ## Information -/

/-- The name of the package. -/
def packageName : String := "lib_compiled_config"

/-- All headers of a name, whose case does not matter. -/
def headers (name : String) (metadata : List (String × String)) : List String :=
  (metadata.filter fun header => Text.lower header.1 == Text.lower name).map (·.2)

/-- The lines about a package; those without a default are there only if a header gives them. -/
def infoLines (metadata : List (String × String)) : List String :=
  let header (name default : String) := (headers name metadata).headD default
  ["Info for " ++ header "Name" packageName ++ ":",
    "  Version         : " ++ header "Version" "0.0.0",
    "  Requires-Python : " ++ header "Requires-Python" ">=3.10"] ++
  (match header "Summary" "" with
    | "" => []
    | summary => ["  Summary         : " ++ summary]) ++
  (headers "Project-URL" metadata).map ("  " ++ ·)

def infoText (metadata : Option (List (String × String))) : String :=
  match metadata with
  | none => packageName ++ " (metadata unavailable)\n"
  | some metadata => String.join ((infoLines metadata).map (· ++ "\n"))

/-! ## Commands -/

/-- Runs a command line. -/
def run (around : Surroundings) (words : List String) : Outcome :=
  match Command.read? words with
  | none => .misuse
  | some .info => ⟨0, infoText around.metadata⟩
  | some (.compile request) =>
    if pathsExist around.disk request then .ofResult (compileText around request) else .misuse

end LayeredConfig.CommandLine
