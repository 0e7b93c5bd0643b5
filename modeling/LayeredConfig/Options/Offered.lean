import LayeredConfig.Value.Shown

/-!
# Offered options

Callers hand over options of several kinds. Where one kind is expected, a thing is either such an
option, known under its label, or something else, which is refused by the words it is shown by.
-/

namespace LayeredConfig

inductive Offered (α : Type)
  | option (option : α) (label : String)
  | other (label shown : String)
  deriving Inhabited

namespace Offered

variable {α β : Type}

def label : Offered α → String
  | option _ label | other label _ => label

/-- The option seen as one of another kind. -/
def map (f : α → β) : Offered α → Offered β
  | option o label => option (f o) label
  | other label shown => other label shown

/-- All options in turn; anything else is refused. -/
def foldAll {σ : Type} (refuse : String → Fault) (step : σ → α → σ) (start : σ)
    (offers : List (Offered α)) : Except Fault σ :=
  offers.foldlM (fun state offer =>
      match offer with
      | option o _ => .ok (step state o)
      | other _ shown => .error (refuse shown))
    start

end Offered

/-- The label of an option that is switched by a value. -/
def flagLabel (name : String) (flag : Value) : String := s!"{name}({flag})"

/-- The label of an option that takes a text. -/
def textLabel (name text : String) : String := s!"{name}('{text}')"

/-- How options are shown where they are out of place. -/
structure ShownOption where
  /-- The kind of option, in front of everything. -/
  family : String
  /-- The member of the kind: its name and its text. -/
  kind : String × String
  payload : String
  label : String

def ShownOption.text (o : ShownOption) : String :=
  s!"{o.family}Option(kind=<{o.family}Kind.{o.kind.1}: '{o.kind.2}'>, payload={o.payload}, " ++
    s!"label={Text.quoted o.label})"

/-- How functions are shown. -/
def shownFunction : String := "<function>"

end LayeredConfig
