import LayeredConfig.Codec.Formats
import LayeredConfig.Text.Casing

/-!
# Codec registries

Which decoder and which encoder is responsible for an extension. Extensions count without leading
dots and in lower case; the last codec registered for one wins, and the first extension of an
encoder names the format of documents that do not ask for another.
-/

namespace LayeredConfig

structure Registry where
  decoders : Entries Decoder := []
  encoders : Entries Encoder := []

namespace Registry

/-- An extension as it is looked up. -/
def normal (extension : String) : String :=
  Text.lower (String.ofList (extension.toList.dropWhile (· == '.')))

def addDecoder (decoder : Decoder) (registry : Registry) : Registry :=
  { registry with
    decoders :=
      decoder.extensions.foldl (fun known e => known.set (normal e) decoder) registry.decoders }

def addEncoder (encoder : Encoder) (registry : Registry) : Registry :=
  { registry with
    encoders :=
      encoder.extensions.foldl (fun known e => known.set (normal e) encoder) registry.encoders }

def decoder (extension : String) (registry : Registry) : Except Fault Decoder :=
  match registry.decoders.get? (normal extension) with
  | some decoder => .ok decoder
  | none => .error (.noDecoder extension)

def encoder (extension : String) (registry : Registry) : Except Fault Encoder :=
  match registry.encoders.get? (normal extension) with
  | some encoder => .ok encoder
  | none => .error (.noEncoder extension)

/-- The formats of this library. -/
def standard : Registry :=
  let decoding := ((({} : Registry).addDecoder .yaml).addDecoder .json).addDecoder .toml
  (decoding.addEncoder .yaml).addEncoder .json

end Registry

end LayeredConfig
