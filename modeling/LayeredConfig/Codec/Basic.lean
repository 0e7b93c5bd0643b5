import LayeredConfig.Text.Utf8
import LayeredConfig.Tree.Basic
import LayeredConfig.Value.Basic

/-!
# Codecs

Decoders turn the bytes of a document into a tree, encoders turn the data of a tree into the text of
a document. Both are known by the file extensions that they handle.
-/

namespace LayeredConfig

/-- What a decoder learns about a document beside its bytes. -/
structure DocumentInfo where
  /-- The name under which its nodes have their origin. -/
  name : String
  /-- What stands between the segments of keys. -/
  delimiter : String := "."
  deriving Repr

structure Decoder where
  extensions : List String
  decode : DocumentInfo → List UInt8 → Except Fault Tree

structure Encoder where
  extensions : List String
  encode : Value → Except Fault String
  /-- Writes a tree together with the origins of its nodes. -/
  encodeOrigins : Tree → Except Fault String

namespace Decoder

/-- The text of a document. -/
def textOf (info : DocumentInfo) (bytes : List UInt8) : Except Fault String :=
  match Text.ofBytes? bytes with
  | some text => .ok text
  | none => .error (.notUtf8 info.name)

/-- A document is a map at its root, or nothing at all. -/
def requireMap (info : DocumentInfo) (tree : Tree) : Except Fault Tree :=
  if tree.isEmpty then .ok tree
  else
    match tree with
    | .map .. => .ok tree
    | .leaf (some .null) _ => .ok .empty
    | _ => .error (.rootNotMap info.name)

end Decoder

end LayeredConfig
