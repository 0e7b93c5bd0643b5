import LayeredConfig.Text.Trim
import LayeredConfig.Tree.Secret
import LayeredConfig.Yaml.Merged
import LayeredConfig.Yaml.Scan
import LayeredConfig.Yaml.TaggedScalar

/-!
# YAML documents

The configuration tree of a YAML text. Every node of the tree has the place where it starts as its
origin, lines and columns counted from one. Scalars, maps and arrays are kept by their kind; the
tags of collections mean nothing.
-/

namespace LayeredConfig.Yaml

/-- What can go wrong with a document. -/
inductive DocumentFault
  | unreadable (fault : ReadFault)
  /-- A key is no scalar in the mapping at the given place. -/
  | keyNotScalar (origin : Origin)
  /-- A value of a kind that trees do not hold. -/
  | unsupported (origin : Origin) (tag : String)
  deriving Repr

def DocumentFault.toFault (name : String) : DocumentFault → Fault
  | unreadable fault => fault.toFault name
  | keyNotScalar origin => .keyNotScalar origin
  | unsupported origin tag => .unsupportedTagged origin tag

/-- A position in a file, counted from one. -/
def Position.toOrigin (name : String) (position : Position) : Origin :=
  ⟨name, position.line + 1, position.column + 1⟩

namespace Node

/-- The key that a scalar node spells. -/
def keyText? : Node → Option String
  | scalar _ text _ => some text
  | _ => none

/-- The scalar of a tag and a text. -/
def scalarTree (origin : Origin) (tag text : String) : Except DocumentFault Tree :=
  match TaggedScalar.read tag text with
  | .ok (.scalar value) => .ok (.leaf (some value) { origins := [origin] })
  | .ok .bytes => .error (.unsupported origin tag)
  | .error fault => .error (.unreadable fault)

mutual

/-- The tree of a node whose merges are carried out. -/
def toTree (name : String) : Node → Except DocumentFault Tree
  | scalar tag text start => scalarTree (start.toOrigin name) tag text
  | sequence _ items start =>
    (itemsToTrees name items).map fun items => .array items { origins := [start.toOrigin name] }
  | mapping _ entries start =>
    (entriesToTrees name (start.toOrigin name) [] entries).map fun entries =>
      .map entries { origins := [start.toOrigin name] }
  | broken => .error (.unreadable .malformed)

/-- Adds the entries of the mapping at `origin` to those that were built before. -/
def entriesToTrees (name : String) (origin : Origin) (built : List (String × Tree)) :
    List (Node × Node) → Except DocumentFault (List (String × Tree))
  | [] => .ok built
  | (key, value) :: rest => do
    match key.keyText? with
    | none => .error (.keyNotScalar origin)
    | some key =>
      let (key, secret) := splitSecret key
      let child ← toTree name value
      entriesToTrees name origin (Entries.set key (markSecret secret child) built) rest

def itemsToTrees (name : String) : List Node → Except DocumentFault (List Tree)
  | [] => .ok []
  | item :: rest => do
    let first ← toTree name item
    let others ← itemsToTrees name rest
    .ok (first :: others)

end

end Node

/-- A character that may stand in a text. -/
def isReadable (c : Char) : Bool :=
  c == '\t' || c == '\n' || c == '\r' || (' ' ≤ c && c ≤ '~') || c == '\x85'
    || (0xA0 ≤ c.toNat && c.toNat ≠ 0xFFFE && c.toNat ≠ 0xFFFF)

/-- The node of a text, if there is one. -/
def node? (text : String) : Except ReadFault (Option Node) :=
  if text.toList.all isReadable then do
    Node.ofTokens (← scan text.toList)
  else .error (.noSuchValue .unprintableText)

/-- The tree of a text; a text without any node is empty. -/
def read (name text : String) : Except Fault Tree :=
  if Text.isAllBlank text.toList then .ok .empty
  else
    match node? text with
    | .error fault => .error (fault.toFault name)
    | .ok none => .ok .empty
    | .ok (some node) =>
      match node.merged.toTree name with
      | .ok tree => .ok tree
      | .error fault => .error (fault.toFault name)

end LayeredConfig.Yaml
