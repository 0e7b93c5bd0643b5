import LayeredConfig.Tree.Basic

/-!
# Secrets

A key may be annotated as secret by its ending. Redaction exchanges every secret node for a fixed
text; nothing below such a node is left.
-/

namespace LayeredConfig

/-- The ending of a key that marks its value secret. -/
def secretEnding : String := "((secret))"

/-- The text that stands for a secret value. -/
def redactedText : String := "REDACTED"

/-- A key without its annotation, and whether it had one. -/
def splitSecret (key : String) : String × Bool :=
  match Text.dropEnd? secretEnding.toList key.toList with
  | some name => (String.ofList name, true)
  | none => (key, false)

/-- The child marked secret when its key was annotated. -/
def markSecret (secret : Bool) (tree : Tree) : Tree :=
  if secret then tree.secretly else tree

namespace Tree

mutual

/-- Every secret node exchanged for the redaction text; its origins stay. -/
def redacted : Tree → Tree
  | leaf value mark =>
    if mark.secret then leaf (some (.text redactedText)) mark else leaf value mark
  | map entries mark =>
    if mark.secret then leaf (some (.text redactedText)) mark
    else map (redactedEntries entries) mark
  | array items mark =>
    if mark.secret then leaf (some (.text redactedText)) mark else array (redactedItems items) mark

def redactedEntries : List (String × Tree) → List (String × Tree)
  | [] => []
  | (key, child) :: rest => (key, redacted child) :: redactedEntries rest

def redactedItems : List Tree → List Tree
  | [] => []
  | item :: rest => redacted item :: redactedItems rest

end

end Tree

end LayeredConfig
