import LayeredConfig.Fault
import LayeredConfig.Value.Shown

/-!
# Directives

A directive says which placeholders are expanded and where their replacements come from. Its
delimiters are never empty and its budget never zero, which its type says.
-/

namespace LayeredConfig

/-- What a provider answers for a name: a replacement, and whether there is one. -/
abbrev Lookup := String → String × Bool

/-- Where replacements may come from. -/
inductive Provider
  /-- Texts of the values of a table. -/
  | table (entries : List (Value × Value))
  /-- A lookup of its own. -/
  | lookup (find : Lookup)
  /-- A function of the name: nothing, a pair of text and flag, or the replacement. -/
  | function (f : String → Value)
  /-- Anything else, which provides nothing. -/
  | other (value : Value)

namespace Provider

def lookupInTable (entries : List (Value × Value)) : Lookup := fun name =>
  match Value.entry? name entries with
  | some value => (value.toText, true)
  | none => ("", false)

def lookupOfFunction (f : String → Value) : Lookup := fun name =>
  match f name with
  | .null => ("", false)
  | .tuple [text, found] => (text.toText, found.isTruthy)
  | value => (value.toText, true)

def toLookup : Provider → Except Fault Lookup
  | table entries => .ok (lookupInTable entries)
  | lookup find => .ok find
  | function f => .ok (lookupOfFunction f)
  | other (.dict entries) => .ok (lookupInTable entries)
  | other value => .error (.unsupportedProvider value.typeName)

/-- The lookup in an environment of variables. -/
def environment (assignments : List (String × String)) : Provider :=
  lookup fun name =>
    match assignments.lookup name with
    | some value => (value, true)
    | none => ("", false)

end Provider

structure Directive where
  lookup : Lookup
  origin : String
  opening : List Char
  closing : List Char
  maximum : Nat
  opening_ne : opening ≠ []
  closing_ne : closing ≠ []
  maximum_pos : 0 < maximum

namespace Directive

def defaultOpening : String := "$\x7b"

def defaultClosing : String := "\x7d"

def defaultMaximum : Nat := 10000

/-- The number of changing passes that a request allows; below one it is the default. -/
def budget (maximum : Int) : { n : Nat // 0 < n } :=
  if h : 1 ≤ maximum then ⟨maximum.toNat, by omega⟩ else ⟨defaultMaximum, by decide⟩

/-- A directive, if its parts are usable. -/
def make (provider : Option Provider) (origin opening closing : String) (maximum : Int) :
    Except Fault Directive :=
  match provider with
  | none => .error .providerMissing
  | some provider =>
    if h : opening.toList ≠ [] ∧ closing.toList ≠ [] then
      provider.toLookup.map fun lookup =>
        { lookup, origin
          opening := opening.toList
          closing := closing.toList
          maximum := (budget maximum).1
          opening_ne := h.1
          closing_ne := h.2
          maximum_pos := (budget maximum).2 }
    else .error .delimiterEmpty

/-- How a directive is called in messages. -/
def label (directive : Directive) : String :=
  if directive.origin.isEmpty then String.ofList (directive.opening ++ directive.closing)
  else directive.origin

end Directive

end LayeredConfig
