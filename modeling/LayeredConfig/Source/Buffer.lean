import LayeredConfig.Codec.Registry
import LayeredConfig.Path.Clean
import LayeredConfig.Source.Record

/-!
# Buffers

Documents that are not files: a name, whose extension picks the decoder, and a function that
produces the bytes.
-/

namespace LayeredConfig

namespace Decoder

/-- Decodes a document of some kind; a failure tells which document it was. -/
def decodeRecord (decoder : Decoder) (info : DocumentInfo) (kind : SourceKind) (extension : String)
    (bytes : List UInt8) : Traced Tree :=
  match decoder.decode info bytes with
  | .ok tree => .pure tree
  | .error cause =>
    { events := [.about .error "codec_decode_failed" kind.text (some info.name)
        [("extension", .text extension), ("error", .text cause.text)]]
      result := .error (.decoderFailed extension kind.text info.name cause) }

/-- What is told about a document that was decoded. -/
def documentDetails (extension : String) (bytes : List UInt8) : Entries Value :=
  [("extension", .text extension), ("size", .int bytes.length)]

end Decoder

/-- Produces the bytes of a buffer of a name. -/
abbrev BufferProducer := String → Query → Traced (List UInt8)

structure BufferSource where
  name : String
  produce : BufferProducer
  isDefault : Bool := false

namespace BufferSource

def make (name : String) (produce : Option BufferProducer) (isDefault : Bool) :
    Except Fault BufferSource :=
  if name.isEmpty then .error .bufferUnnamed
  else
    match produce with
    | some produce => .ok { name, produce, isDefault }
    | none => .error (.bufferWithoutProducer name)

/-- The buffer as a record. -/
def record (source : BufferSource) (registry : Registry) (delimiter : String) : Record where
  name := source.name
  kind := .buffer
  isDefault := source.isDefault
  load query := do
    let extension := Path.extension source.name
    let bytes ← source.produce source.name query
    let decoder ← Traced.ofExcept (registry.decoder extension)
    let tree ← decoder.decodeRecord { name := source.name, delimiter } .buffer extension bytes
    Traced.emit (Record.loadedEvent .buffer source.name (Decoder.documentDetails extension bytes))
    return tree

end BufferSource

end LayeredConfig
