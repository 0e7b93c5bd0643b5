import LayeredConfig.Files.Group

/-!
# Standard places

Where the files of an application are looked for when nobody names a place: the working directory,
then the directory of the user, then that of the system.
-/

namespace LayeredConfig

/-- An application and its surroundings. -/
structure StandardLayout where
  application : String
  workingDirectory : String
  environment : List (String × String)
  platform : String
  deriving Repr

namespace StandardLayout

/-- Whether a name can be part of a path. -/
def isValidName (name : String) : Bool :=
  !name.isEmpty && !name.startsWith "." && !name.contains '/' && !name.contains '\\'

def make (application workingDirectory : String) (environment : List (String × String))
    (platform : String) : Except Fault StandardLayout :=
  if isValidName application then .ok { application, workingDirectory, environment, platform }
  else .error (.invalidApplication application)

def isWindows (layout : StandardLayout) : Bool := layout.platform.startsWith "win"

/-- A variable that is set to something. -/
def variableSet? (layout : StandardLayout) (name : String) : Option String :=
  (layout.environment.lookup name).filter (· != "")

def localPlace (layout : StandardLayout) : Place := .directory layout.workingDirectory

/-- The place of absolute paths. -/
def rootPlace (layout : StandardLayout) : Place :=
  .directory (if (Path.anchorLength layout.workingDirectory) = 2 then "//" else "/")

/-- The place of the user; none if nothing tells where it is. -/
def homePlace? (layout : StandardLayout) : Option Place :=
  match layout.variableSet? "LIB_COMPILED_CONFIG_HOME" with
  | some root => some (.directory (Path.resolve root s!".{layout.application}"))
  | none =>
    if layout.isWindows then
      (layout.variableSet? "APPDATA").map fun root =>
        .directory (Path.resolve root layout.application)
    else
      (layout.variableSet? "HOME").map fun root =>
        .directory (Path.resolve root s!".{layout.application}")

/-- The place of the system. -/
def systemPlace (layout : StandardLayout) : Place :=
  let root :=
    match layout.variableSet? "LIB_COMPILED_CONFIG_ETC" with
    | some root => root
    | none =>
      if layout.isWindows then (layout.environment.lookup "ProgramData").getD "C:\\ProgramData"
      else "/etc"
  .directory (Path.resolve root layout.application)

/-- How a place is shown that may be missing. -/
def shownPlace (place : Option Place) : String := (place.map Place.shown).getD Value.null.literal

/-- The event that tells the places. -/
def resolvedEvent (layout : StandardLayout) : Event where
  level := .debug
  message := "layout_resolved"
  fields :=
    [("source", .text "layout"), ("name", .text layout.application),
      ("local", .text (Path.tidy layout.workingDirectory)),
      ("home", .text (shownPlace layout.homePlace?)), ("etc", .text layout.systemPlace.shown)]

/-- Paths of both kinds as groups: absolute ones at `root`, relative ones at `here`. -/
def mixedGroups (root here : Place) (paths : List String) : List FileGroup :=
  let paths := paths.filter (· != "")
  let absolute := (paths.filter Path.isAbsolute).map Path.withoutAnchor
  let relative := paths.filter (!Path.isAbsolute ·)
  (if absolute.isEmpty then [] else [{ place := root, paths := absolute }]) ++
    (if relative.isEmpty then [] else [{ place := here, paths := relative }])

/-- The groups, of which the last one halts. -/
def haltingAtEnd : List FileGroup → List FileGroup
  | [] => []
  | [last] => [{ last with halt := true }]
  | group :: rest => group :: haltingAtEnd rest

/-- The groups of an application: the files that are asked for, or the first place that has any. -/
def groups (layout : StandardLayout) (files : List String) : List FileGroup :=
  let wanted := files.filter (· != "")
  if wanted.isEmpty then
    let places := [some layout.localPlace, layout.homePlace?, some layout.systemPlace].filterMap id
    places.map fun place =>
      { place, paths := [s!"{layout.application}.*", "conf.d"], recurse := true, halt := true }
  else haltingAtEnd (mixedGroups layout.rootPlace layout.localPlace wanted)

end StandardLayout

end LayeredConfig
