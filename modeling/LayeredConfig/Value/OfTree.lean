import LayeredConfig.Fault
import LayeredConfig.Tree.Secret
import LayeredConfig.Value.Shown

/-!
# Between trees and values

A tree is projected into plain values by dropping its marks, either with the digits of decimal
numbers kept or with binary numbers in their place. A plain value becomes a tree whose nodes all
carry one origin, and whose annotated keys mark secrets.
-/

namespace LayeredConfig

namespace Scalar

/-- The scalar as a value, decimal digits kept. -/
def toValue : Scalar → Value
  | null => .null
  | bool value => .bool value
  | int value => .int value
  | float value => .decimal value
  | text value => .text value

/-- The scalar as a value with binary numbers; a signaling not-a-number has none. -/
def toRounded : Scalar → Except Fault Value
  | float value =>
    if value.isSignaling then .error (.foreign .wrongValue) else .ok (.float (.ofDecimal value))
  | scalar => .ok scalar.toValue

/-- The scalar that a value is; points in time and members of enumerations have one, too. -/
def ofValue : Value → Except Fault Scalar
  | .null => .ok null
  | .bool value => .ok (bool value)
  | .int value => .ok (int value)
  | .float value => .ok (float value.toShortestDecimal)
  | .decimal value => .ok (float value)
  | .text value => .ok (text value)
  | .moment _ iso => .ok (text iso)
  | .enum _ _ _ value => ofValue value
  | value => .error (.unsupportedScalar value.typeName)

end Scalar

namespace Tree

mutual

/-- The data of a tree, decimal digits kept. -/
def toValue : Tree → Value
  | leaf none _ => .null
  | leaf (some scalar) _ => scalar.toValue
  | map entries _ => .dict (entriesToValues entries)
  | array items _ => .list (itemsToValues items)

def entriesToValues : List (String × Tree) → List (Value × Value)
  | [] => []
  | (key, child) :: rest => (.text key, toValue child) :: entriesToValues rest

def itemsToValues : List Tree → List Value
  | [] => []
  | item :: rest => toValue item :: itemsToValues rest

end

mutual

/-- The data of a tree with binary numbers. -/
def toRounded : Tree → Except Fault Value
  | leaf none _ => .ok .null
  | leaf (some scalar) _ => scalar.toRounded
  | map entries _ => (entriesToRounded entries).map .dict
  | array items _ => (itemsToRounded items).map .list

def entriesToRounded : List (String × Tree) → Except Fault (List (Value × Value))
  | [] => .ok []
  | (key, child) :: rest => do
    let value ← toRounded child
    let others ← entriesToRounded rest
    .ok ((.text key, value) :: others)

def itemsToRounded : List Tree → Except Fault (List Value)
  | [] => .ok []
  | item :: rest => do
    let value ← toRounded item
    let others ← itemsToRounded rest
    .ok (value :: others)

end

mutual

/-- The tree of plain data, every node with the given origins. -/
def ofValue (origins : List Origin) : Value → Except Fault Tree
  | .tree tree => .ok tree
  | .dict entries => (ofEntries origins [] entries).map fun children => map children { origins }
  | .list items | .tuple items =>
    (ofItems origins items).map fun children => array children { origins }
  | value => (Scalar.ofValue value).map fun scalar => leaf (some scalar) { origins }

/-- Adds the children in order to those that were built before. -/
def ofEntries (origins : List Origin) (built : List (String × Tree)) :
    List (Value × Value) → Except Fault (List (String × Tree))
  | [] => .ok built
  | (key, value) :: rest => do
    let child ← ofValue origins value
    let (name, secret) := splitSecret key.toText
    ofEntries origins (Entries.set name (markSecret secret child) built) rest

def ofItems (origins : List Origin) : List Value → Except Fault (List Tree)
  | [] => .ok []
  | item :: rest => do
    let child ← ofValue origins item
    let others ← ofItems origins rest
    .ok (child :: others)

end

end Tree

end LayeredConfig
