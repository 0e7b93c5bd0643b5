import LayeredConfig.Text.Classes
import LayeredConfig.Text.Utf8

/-!
# Encodings of text

Bytes of a text in UTF-8, UTF-16 or UTF-32. Which of them it is follows from a byte-order mark, or
else from where the first four bytes are zero, given that the first character is an ASCII one.
-/

namespace LayeredConfig.Text

/-- The number that bytes stand for, the most significant first. -/
def bytesValue (bytes : List UInt8) : Nat :=
  bytes.foldl (fun value byte => 256 * value + byte.toNat) 0

/-- The characters of 32-bit units. -/
def ofUnits32? (littleEndian : Bool) : List UInt8 → Option (List Char)
  | [] => some []
  | a :: b :: c :: d :: rest => do
    let first ← charOfCode? (bytesValue (if littleEndian then [d, c, b, a] else [a, b, c, d]))
    return first :: (← ofUnits32? littleEndian rest)
  | _ => none

/-- The numbers of 16-bit units. -/
def units16? (littleEndian : Bool) : List UInt8 → Option (List Nat)
  | [] => some []
  | a :: b :: rest =>
    (units16? littleEndian rest).map (bytesValue (if littleEndian then [b, a] else [a, b]) :: ·)
  | _ => none

/-- The characters of 16-bit units, of which two may form a pair. -/
def ofUnits16? : List Nat → Option (List Char)
  | [] => some []
  | high :: low :: rest =>
    if 0xD800 ≤ high ∧ high < 0xDC00 ∧ 0xDC00 ≤ low ∧ low < 0xE000 then do
      let first ← charOfCode? (0x10000 + (high - 0xD800) * 0x400 + (low - 0xDC00))
      return first :: (← ofUnits16? rest)
    else do
      let first ← charOfCode? high
      return first :: (← ofUnits16? (low :: rest))
  | [unit] => (charOfCode? unit).map ([·])

inductive Encoding
  | utf8
  | utf16 (littleEndian : Bool)
  | utf32 (littleEndian : Bool)
  deriving DecidableEq, Repr

/-- The encoding of bytes, and the bytes without their byte-order mark. -/
def Encoding.detect (bytes : List UInt8) : Encoding × List UInt8 :=
  match bytes with
  | 0x00 :: 0x00 :: 0xFE :: 0xFF :: rest => (utf32 false, rest)
  | 0xFF :: 0xFE :: 0x00 :: 0x00 :: rest => (utf32 true, rest)
  | 0xFE :: 0xFF :: rest => (utf16 false, rest)
  | 0xFF :: 0xFE :: rest => (utf16 true, rest)
  | 0xEF :: 0xBB :: 0xBF :: rest => (utf8, rest)
  | 0 :: 0 :: _ :: _ :: _ => (utf32 false, bytes)
  | 0 :: _ :: _ :: _ :: _ => (utf16 false, bytes)
  | _ :: 0 :: 0 :: 0 :: _ => (utf32 true, bytes)
  | _ :: 0 :: _ :: _ :: _ => (utf16 true, bytes)
  | [0, _] => (utf16 false, bytes)
  | [_, 0] => (utf16 true, bytes)
  | _ => (utf8, bytes)

/-- The text of bytes in the encoding that they show. -/
def ofEncodedBytes? (bytes : List UInt8) : Option String :=
  match Encoding.detect bytes with
  | (.utf8, rest) => ofBytes? rest
  | (.utf16 littleEndian, rest) => ((units16? littleEndian rest).bind ofUnits16?).map String.ofList
  | (.utf32 littleEndian, rest) => (ofUnits32? littleEndian rest).map String.ofList

end LayeredConfig.Text
