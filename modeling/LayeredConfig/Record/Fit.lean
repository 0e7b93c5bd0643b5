import LayeredConfig.Number.Lenient
import LayeredConfig.Record.Schema
import LayeredConfig.Text.Encoding
import LayeredConfig.Value.Shown

/-!
# Fitting data into a type

Data becomes a value of a type, scalars by the lenient conversions. How close the data was decides
between the members of a union.
-/

namespace LayeredConfig

/-- How close data is to a type. -/
inductive Closeness
  /-- The data was converted. -/
  | lax
  /-- The data is of the type, but of others as well. -/
  | strict
  | exact
  deriving DecidableEq, Repr, Inhabited

namespace Closeness

def rank : Closeness → Nat
  | lax => 0
  | strict => 1
  | exact => 2

def least (a b : Closeness) : Closeness := if a.rank ≤ b.rank then a else b

end Closeness

/-- A value of the wanted type. -/
structure Fitted where
  value : Value
  closeness : Closeness := .exact
  /-- The number of fields that were given, if records were built. -/
  given : Option Nat := none
  deriving Repr, Inhabited

namespace Fitted

def lax (value : Value) : Fitted := { value, closeness := .lax }

def strict (value : Value) : Fitted := { value, closeness := .strict }

def exact (value : Value) : Fitted := { value }

/-- Fields of two parts together. -/
def sum : Option Nat → Option Nat → Option Nat
  | some a, some b => some (a + b)
  | a, none => a
  | none, b => b

/-- Makes a value from its parts; it is no closer than any of them. -/
def gather (closeness : Closeness) (parts : List Fitted) (build : List Value → Value) : Fitted where
  value := build (parts.map (·.value))
  closeness := parts.foldl (fun least part => least.least part.closeness) closeness
  given := parts.foldl (fun given part => sum given part.given) none

/-- Whether the new candidate is better: more fields count first, then closeness. -/
def isBetter (best new : Fitted) : Bool :=
  match best.given, new.given with
  | some a, some b => if a = b then best.closeness.rank < new.closeness.rank else a < b
  | _, _ => best.closeness.rank < new.closeness.rank

/-- The better of two candidates; the earlier one unless the new one is better. -/
def prefer (best : Option Fitted) (new : Fitted) : Fitted :=
  match best with
  | none => new
  | some best => if isBetter best new then new else best

/-- A candidate that no other one can beat. -/
def isPerfect (fitted : Fitted) : Bool := fitted.closeness = .exact && fitted.given.isNone

/-! ## Scalars -/

def bool? : Value → Option Fitted
  | .bool value => some (exact (.bool value))
  | .text value => (Lenient.boolOfText? value.toList).map fun b => lax (.bool b)
  | .int value => (Lenient.boolOfInt? value).map fun b => lax (.bool b)
  | .float value => do
    let whole ← Lenient.intOfDouble? value
    return lax (.bool (← Lenient.boolOfInt? whole))
  | _ => none

def int? : Value → Option Fitted
  | .int value => some (exact (.int value))
  | .bool value => some (lax (.int (if value then 1 else 0)))
  | .enum _ _ true value => some (strict value)
  | .enum _ _ false value => some (lax value)
  | .text value => (Lenient.intOfText? value.toList).map fun n => lax (.int n)
  | .float value => (Lenient.intOfDouble? value).map fun n => lax (.int n)
  | .decimal value => (Lenient.intOfDecimal? value).map fun n => lax (.int n)
  | _ => none

def float? : Value → Option Fitted
  | .float value => some (exact (.float value))
  | .text value => (Lenient.doubleOfText? value.toList).map fun d => lax (.float d)
  | .bool value => some (lax (.float (.ofInt (if value then 1 else 0))))
  | .int value | .enum _ _ true (.int value) =>
    (Lenient.doubleOfInt? value).map fun d => strict (.float d)
  | .decimal value => if value.isSignaling then none else some (strict (.float (.ofDecimal value)))
  | _ => none

def text? : Value → Option Fitted
  | .text value => some (exact (.text value))
  | .bytes content => (Text.ofBytes? content).map fun text => lax (.text text)
  | .enum _ _ false value => some (lax (.text value.toText))
  | _ => none

/-! ## Containers -/

/-- The items of a container, and how close it is to one of the kind that `isKind` knows. -/
def items? (isKind : Value → Bool) (data : Value) : Option (List Value × Closeness) :=
  match data with
  | .list items | .tuple items | .set items =>
    some (items, if isKind data then .exact else .lax)
  | _ => none

def isList : Value → Bool
  | .list _ => true
  | _ => false

def isTuple : Value → Bool
  | .tuple _ => true
  | _ => false

def isSet : Value → Bool
  | .set _ => true
  | _ => false

mutual

/-- Whether a value may be the member of a set. -/
def isHashable : Value → Bool
  | .list _ | .set _ | .dict _ | .record .. | .tree _ => false
  | .tuple items => areHashable items
  | _ => true

def areHashable : List Value → Bool
  | [] => true
  | item :: rest => isHashable item && areHashable rest

end

/-- A set of the given parts, if all of them may be members. -/
def set? (closeness : Closeness) (parts : List Fitted) : Option Fitted :=
  let fitted := gather closeness parts .setOf
  if parts.all fun part => isHashable part.value then some fitted else none

/-- Items that may be anything take nothing from the closeness of a row. -/
def item (type : Schema) (fitted : Fitted) : Fitted :=
  match type with
  | .any => { fitted with closeness := .exact }
  | _ => fitted

/-! ## Records -/

/-- The name under which a field of a prepared record is given. -/
def givenName (kind : RecordKind) (field : FieldInfo) : String :=
  match kind with
  | .tagged => field.name.name
  | .model => field.name.ownKey ""

/-- What is given for a field. -/
def given? (kind : RecordKind) (field : FieldInfo) (entries : List (Value × Value)) :
    Option Value :=
  if field.settable then Value.entry? (givenName kind field) entries else none

/-- Whether the keys of a dictionary can be names of fields. -/
def areNames (kind : RecordKind) (entries : List (Value × Value)) : Bool :=
  match kind with
  | .tagged => entries.all fun entry => (entry.1 matches .text _)
  | .model => true

end Fitted

namespace Schema

open Fitted

mutual

/-- Data as a value of the type, if it is one or can be converted. -/
def fit : Schema → Value → Option Fitted
  | any, data => some (strict data)
  | null, .null => some (exact .null)
  | bool, data => bool? data
  | int, data => int? data
  | float, data => float? data
  | text, data => text? data
  | anyList, data =>
    (items? isList data).map fun (items, closeness) => { value := .list items, closeness }
  | anyDict, .dict entries => some (exact (.dict entries))
  | list type, data => do
    let (items, closeness) ← items? isList data
    let parts ← items.mapM (fit type)
    return gather closeness (parts.map (item type)) .list
  | set type, data | frozenSet type, data => do
    let (items, closeness) ← items? isSet data
    let parts ← items.mapM (fit type)
    set? closeness (parts.map (item type))
  | variadic type, data => do
    let (items, closeness) ← items? isTuple data
    let parts ← items.mapM (fit type)
    return gather closeness parts .tuple
  | tuple types, data => do
    let (items, closeness) ← items? isTuple data
    return gather closeness (← fitEach types items) .tuple
  | sequence type, .list items => do
    let parts ← items.mapM (fit type)
    return gather .exact parts .list
  | sequence type, .tuple items => do
    let parts ← items.mapM (fit type)
    return gather .exact parts .tuple
  | sequence any, .text value => some (strict (.text value))
  | sequence any, .bytes content => some (strict (.bytes content))
  | dict key type, .dict entries | mapping key type, .dict entries => do
    let keys ← entries.mapM fun entry => fit key entry.1
    let values ← entries.mapM fun entry => fit type entry.2
    let build (_ : List Value) :=
      Value.dictOfPairs ((keys.zip values).map fun (key, value) => (key.value, value.value))
    return gather .exact (keys ++ values) build
  | annotated type, data => fit type data
  | union members, data =>
    if members.any isNull && data matches .null then some (exact .null)
    else fitMember none data members
  | record type fields, .dict entries => do
    if areNames type.kind entries then
      let (values, given) ← fitFields type.kind entries fields
      some { value := .record type values, closeness := .lax, given := some given }
    else none
  | _, _ => none

/-- The items of a tuple, of which each has its own type. -/
def fitEach : List Schema → List Value → Option (List Fitted)
  | [], [] => some []
  | type :: types, data :: rest => do
    let first ← fit type data
    return first :: (← fitEach types rest)
  | _, _ => none

/-- The best of the members that fit; a perfect one is taken at once. -/
def fitMember (best : Option Fitted) (data : Value) : List Schema → Option Fitted
  | [] => best
  | .null :: rest => fitMember best data rest
  | member :: rest =>
    match fit member data with
    | none => fitMember best data rest
    | some fitted =>
      if fitted.isPerfect then some fitted else fitMember (some (prefer best fitted)) data rest

/-- The fields of a record, and how many were given, those of records inside included. -/
def fitFields (kind : RecordKind) (entries : List (Value × Value)) :
    List (FieldInfo × Schema) → Option (List (FieldName × Value) × Nat)
  | [] => some ([], 0)
  | (field, type) :: rest =>
    match given? kind field entries with
    | none => do
      let value ← field.default
      let (others, given) ← fitFields kind entries rest
      return ((field.name, value) :: others, given)
    | some data => do
      let fitted ← fit type data
      let (others, given) ← fitFields kind entries rest
      return ((field.name, fitted.value) :: others, given + 1 + fitted.given.getD 0)

end

end Schema

end LayeredConfig
