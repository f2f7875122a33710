import Synctick.Codec
import Synctick.Foundation.Reads

/-! # Units, vectors and strings

A collection is its length and its elements. Validation bounds what decoding
allocates: each element takes at least one of the remaining bytes, all collections of a
payload share an allocation budget, and vectors nest to a bounded depth.
-/

namespace Synctick

namespace Codec

/-- The allocation budget of one payload. -/
def maxAllocationBytes : Nat := 4 * 1024 * 1024

/-- The deepest nesting of vectors. -/
def maxDepth : Nat := 32

/-- Read the length of a collection, whose elements are encoded in at least `minSize` bytes each and
take `size` bytes of memory. -/
def Decoder.count (minSize size : Nat) : Effect CodecError Decoder Nat := do
  let count : UInt32 ← Wire.decode
  let reader ← get
  if minSize = 0 ∨ count.toNat > reader.remaining.length / minSize then
    throw ⟨"collection length exceeds remaining payload"⟩
  let allocation := count.toNat * max size 1
  if allocation ≥ 2 ^ 64 then
    throw ⟨"allocation overflow"⟩
  if reader.allocation + allocation ≥ 2 ^ 64 then
    throw ⟨"allocation overflow"⟩
  set { reader with allocation := reader.allocation + allocation }
  if reader.allocation + allocation > maxAllocationBytes then
    throw ⟨"allocation budget exceeded"⟩
  pure count.toNat

def Decoder.enter : Effect CodecError Decoder Unit := do
  modify fun reader => { reader with depth := reader.depth + 1 }
  let reader ← get
  if reader.depth > maxDepth then
    throw ⟨"nesting budget exceeded"⟩

def Decoder.leave : Effect CodecError Decoder Unit :=
  modify fun reader => { reader with depth := reader.depth - 1 }

instance : Wire Int32 :=
  scalar 4 (fun value => (UInt32.ofNat value).toInt32) fun value => value.toUInt32.toNat

instance : Wire Int64 :=
  scalar 8 (fun value => (UInt64.ofNat value).toInt64) fun value => value.toUInt64.toNat

/-- A unit is a byte of its own. -/
def validateUnit : Effect CodecError Decoder Unit := do
  let marker : UInt8 ← Wire.decode
  if marker ≠ 0 then
    throw ⟨"invalid unit"⟩

instance : Wire Unit where
  minSize := 1
  validate := validateUnit
  decode := validateUnit
  encode _ := Wire.encode (0 : UInt8)

/-- The three passes of a vector whose elements take `size` bytes of memory. -/
@[reducible]
def vec {α : Type} (size : Nat) (element : Wire α) : Wire (List α) where
  minSize := 4
  validate := do
    Decoder.enter
    let count ← Decoder.count element.minSize size
    let _ ← Effect.readMany element.validate count
    Decoder.leave
  decode := do
    Decoder.enter
    let count ← Decoder.count element.minSize size
    let values ← Effect.readMany element.decode count
    Decoder.leave
    pure values
  encode values := do
    if values.length ≥ 2 ^ 32 then
      throw ⟨"collection too long"⟩
    Wire.encode (UInt32.ofNat values.length)
    Effect.forEach element.encode values

/-- The UTF-8 form of a text. -/
def utf8 (text : String) : Bytes := text.toByteArray.data.toList

def fromUtf8 (bytes : Bytes) : Effect CodecError Decoder String :=
  match String.fromUTF8? ⟨bytes.toArray⟩ with
  | some text => pure text
  | none => throw ⟨"invalid UTF-8"⟩

instance : Wire String where
  minSize := 4
  validate := do
    let count ← Decoder.count 1 1
    let bytes ← Decoder.take count
    let _ ← fromUtf8 bytes
    pure ()
  decode := do
    let count ← Decoder.count 1 1
    let bytes ← Decoder.take count
    fromUtf8 bytes
  encode text := do
    if (utf8 text).length ≥ 2 ^ 32 then
      throw ⟨"string too long"⟩
    Wire.encode (UInt32.ofNat (utf8 text).length)
    Encoder.write (utf8 text)

end Codec

end Synctick
