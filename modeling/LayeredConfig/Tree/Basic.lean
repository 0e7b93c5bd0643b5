import LayeredConfig.Entries
import LayeredConfig.Fault
import LayeredConfig.Origin
import LayeredConfig.Scalar
import LayeredConfig.Shape
import LayeredConfig.Text.Split

/-!
# Configuration trees

Every fragment of configuration, whatever format it came from, is a tree: a leaf with or without a
scalar, a map of named children in their order of insertion, or an array. Each node carries a mark:
the origins of every source that contributed to it, and whether its value is secret.
-/

namespace LayeredConfig

/-- What a node carries beside its data. -/
structure Mark where
  origins : List Origin := []
  secret : Bool := false
  deriving DecidableEq, Repr, Inhabited

inductive Tree
  | leaf (value : Option Scalar) (mark : Mark)
  | map (entries : List (String × Tree)) (mark : Mark)
  | array (items : List Tree) (mark : Mark)
  deriving Repr, Inhabited

namespace Tree

/-- The tree without data and without origins. -/
def empty : Tree := leaf none {}

def mark : Tree → Mark
  | leaf _ mark | map _ mark | array _ mark => mark

def withMark (mark : Mark) : Tree → Tree
  | leaf value _ => leaf value mark
  | map entries _ => map entries mark
  | array items _ => array items mark

def origins (tree : Tree) : List Origin := tree.mark.origins

def isSecret (tree : Tree) : Bool := tree.mark.secret

def shape : Tree → Shape
  | leaf .. => .scalar
  | map .. => .map
  | array .. => .array

/-- A node without a scalar, without children and without origins; it adds nothing to a merge. -/
def isEmpty (tree : Tree) : Bool :=
  tree.origins.isEmpty &&
    match tree with
    | leaf value _ => value.isNone
    | map entries _ => entries.isEmpty
    | array items _ => items.isEmpty

/-- The scalar of a leaf. -/
def scalar? : Tree → Option Scalar
  | leaf value _ => value
  | _ => none

/-- The children of a map; no other node has named children. -/
def entries : Tree → Entries Tree
  | map entries _ => entries
  | _ => []

/-- The items of an array; no other node has items. -/
def items : Tree → List Tree
  | array items _ => items
  | _ => []

def secretly (tree : Tree) : Tree := tree.withMark { tree.mark with secret := true }

/-- The tree with more origins at its root. -/
def addOrigins (more : List Origin) (tree : Tree) : Tree :=
  tree.withMark { tree.mark with origins := tree.origins ++ more }

/-- The tree below nested maps of one key each. -/
def nest (path : List String) (origins : List Origin) (tree : Tree) : Tree :=
  path.foldr (fun segment inner => map [(segment, inner)] { origins }) tree

/-- A node of the one shape that is given; a node of several shapes does not exist. -/
def build (value : Option Scalar) (entries : Option (List (String × Tree)))
    (items : Option (List Tree)) (mark : Mark) : Except Fault Tree :=
  match value, entries, items with
  | value, none, none => .ok (leaf value mark)
  | none, some entries, none => .ok (map entries mark)
  | none, none, some items => .ok (array items mark)
  | _, _, _ => .error .severalShapes

/-! ## Equality of data -/

mutual

/-- Equal shape, values and secret marks, whatever the origins and the order of keys. -/
def same : Tree → Tree → Bool
  | leaf none a, leaf none b => a.secret == b.secret
  | leaf (some x) a, leaf (some y) b => x.same y && a.secret == b.secret
  | map xs a, map ys b => xs.length == ys.length && sameEntries xs ys && a.secret == b.secret
  | array xs a, array ys b => sameItems xs ys && a.secret == b.secret
  | _, _ => false

/-- Every key of the first list has an equal child in the second. -/
def sameEntries : List (String × Tree) → List (String × Tree) → Bool
  | [], _ => true
  | (key, child) :: rest, others =>
    (match others.lookup key with
      | some other => same child other
      | none => false) && sameEntries rest others

def sameItems : List Tree → List Tree → Bool
  | [], [] => true
  | x :: xs, y :: ys => same x y && sameItems xs ys
  | _, _ => false

end

end Tree

end LayeredConfig
