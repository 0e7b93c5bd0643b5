import LayeredConfig.Log

/-!
# Arguments

The words of a command line. Options start with a hyphen; those that take a value have it behind an
equals sign or in the next word. Behind two hyphens nothing is an option any more. The last one of
repeated options counts.
-/

namespace LayeredConfig.CommandLine

/-- What an option does to what was read before. -/
inductive Switch (σ : Type)
  | flag (set : σ → σ)
  | valued (set : String → σ → σ)

/-- Options by their names. -/
abbrev Switches (σ : Type) := List (String × Switch σ)

/-- Whether a word is an option. -/
def isOption (word : String) : Bool := word.startsWith "-" && word != "-"

/-- The name of an option, and the value that is attached to it. -/
def splitValue (word : String) : String × Option String :=
  match Text.cut? ['='] word.toList with
  | some (name, value) => (String.ofList name, some (String.ofList value))
  | none => (word, none)

/-- Reads options up to the end, or up to the first other word unless they may be `mixed`. The
other words come back in order. -/
def readOptions {σ : Type} (switches : Switches σ) (mixed : Bool) (state : σ)
    (plain : List String) :
    List String → Option (σ × List String)
  | [] => some (state, plain)
  | word :: rest =>
    if word == "--" then some (state, plain ++ rest)
    else if !isOption word then
      if mixed then readOptions switches mixed state (plain ++ [word]) rest
      else some (state, plain ++ word :: rest)
    else
      match switches.lookup (splitValue word).1, (splitValue word).2, rest with
      | none, _, _ => none
      | some (.flag _), some _, _ => none
      | some (.flag set), none, rest => readOptions switches mixed (set state) plain rest
      | some (.valued set), some value, rest =>
        readOptions switches mixed (set value state) plain rest
      | some (.valued set), none, value :: rest =>
        readOptions switches mixed (set value state) plain rest
      | some (.valued _), none, [] => none

/-- What is to be compiled, and how it is printed. -/
structure CompileRequest where
  paths : List String := []
  recurse : Bool := false
  /-- Whether records are ordered naturally. -/
  natural : Bool := true
  /-- Whether placeholders are expanded from the environment. -/
  expand : Bool := false
  /-- A file with documentation. -/
  documentation : Option String := none
  format : String := "yaml"
  origins : Bool := false
  redact : Bool := true
  /-- The key of the part that is printed; nothing for all. -/
  key : String := ""
  deriving Repr

namespace CompileRequest

def switches : Switches CompileRequest :=
  [("--recurse", .flag fun r => { r with recurse := true }),
    ("--no-recurse", .flag fun r => { r with recurse := false }),
    ("--natural", .flag fun r => { r with natural := true }),
    ("--lexical", .flag fun r => { r with natural := false }),
    ("--expand-env", .flag fun r => { r with expand := true }),
    ("--docs", .valued fun path r => { r with documentation := some path }),
    ("--format", .valued fun format r => { r with format }),
    ("--origins", .flag fun r => { r with origins := true }),
    ("--no-origins", .flag fun r => { r with origins := false }),
    ("--redact", .flag fun r => { r with redact := true }),
    ("--no-redact", .flag fun r => { r with redact := false }),
    ("--key", .valued fun key r => { r with key })]

/-- The formats that can be asked for, in any case of their letters. -/
def formats : List String := ["yaml", "json"]

/-- A request from its words; at least one path is needed. -/
def read? (words : List String) : Option CompileRequest := do
  let (request, paths) ← readOptions switches true {} [] words
  let format := Text.lower request.format
  if paths.isEmpty || !formats.contains format then none
  else some { request with paths, format }

end CompileRequest

inductive Command
  | info
  | compile (request : CompileRequest)
  deriving Repr

namespace Command

/-- Options in front of the command; they change nothing but how failures are reported. -/
def switches : Switches Unit := [("--traceback", .flag id), ("--no-traceback", .flag id)]

def read? (words : List String) : Option Command := do
  let (_, words) ← readOptions switches false () [] words
  match words with
  | "info" :: rest =>
    let (_, rest) ← readOptions [] true () [] rest
    if rest.isEmpty then some .info else none
  | "compile" :: rest => .compile <$> CompileRequest.read? rest
  | _ => none

end Command

end LayeredConfig.CommandLine
