import Synctick.Foundation.LittleEndian
import Synctick.Foundation.Ensures

/-! # Bounded game payloads

A command or an initialization travels as a payload of at most 64 KiB. A type
with a wire format has three passes over the same fields: validation traverses
the whole payload without building a value, decoding builds the value and is
only called after validation, and encoding validates what it wrote.
-/

namespace Synctick

/-- An error of the payload codec. -/
structure CodecError where
  reason : String
  deriving DecidableEq, Repr

/-- The text of a codec error. -/
def CodecError.display (error : CodecError) : String := s!"codec: {error.reason}"

namespace Codec

/-- The byte budget of one payload. -/
def maxPayloadBytes : Nat := 64 * 1024

/-- A payload under construction. -/
structure Encoder where
  bytes : Bytes := []

/-- Append bytes to a payload within its budget. -/
def Encoder.write (bytes : Bytes) : Effect CodecError Encoder Unit := do
  let writer ← get
  if bytes.length > maxPayloadBytes - writer.bytes.length then
    throw ⟨"payload byte budget exceeded"⟩
  set ({ bytes := writer.bytes ++ bytes } : Encoder)

/-- A payload being read. `allocation` and `depth` are the budgets spent by its
collections so far. -/
structure Decoder where
  remaining : Bytes
  allocation : Nat := 0
  depth : Nat := 0

/-- Read a fixed number of bytes. -/
def Decoder.take (count : Nat) : Effect CodecError Decoder Bytes := do
  let reader ← get
  if count > reader.remaining.length then
    throw ⟨"truncated field"⟩
  set { reader with remaining := reader.remaining.drop count }
  pure (reader.remaining.take count)

/-- A payload must be read to its end. -/
def Decoder.finish : Effect CodecError Decoder Unit := do
  let reader ← get
  if reader.remaining.isEmpty then pure ()
  else throw ⟨"trailing bytes"⟩

/-- A game-owned wire type. `minSize` is a positive lower bound on the encoded
size of one value. -/
class Wire (α : Type) where
  minSize : Nat
  validate : Effect CodecError Decoder Unit
  decode : Effect CodecError Decoder α
  encode : α → Effect CodecError Encoder Unit

/-- The result of a program run on a fresh state, which is then dropped. -/
def result {σ α : Type} (program : Effect CodecError σ α) (state : σ) : Except CodecError α :=
  match program state with
  | .ok value _ => .ok value
  | .error error _ => .error error

/-- Validate a payload without constructing the value. -/
def validate (α : Type) [Wire α] (bytes : Bytes) : Except CodecError Unit := do
  if bytes.length > maxPayloadBytes then
    throw ⟨"payload byte budget exceeded"⟩
  result (do Wire.validate α; Decoder.finish) { remaining := bytes }

/-- Decode a payload that passes validation. -/
def decode (α : Type) [Wire α] (bytes : Bytes) : Except CodecError α := do
  validate α bytes
  result (do
    let value ← Wire.decode
    Decoder.finish
    pure value) { remaining := bytes }

/-- Encode a value into a payload that validates. -/
def encode {α : Type} [Wire α] (value : α) : Except CodecError Bytes := do
  let bytes ← result (do
    Wire.encode value
    let writer ← get
    pure writer.bytes) {}
  validate α bytes
  pure bytes

/-- The three passes of a fixed-width integer. -/
@[reducible]
def scalar {α : Type} (width : Nat) (ofNat : Nat → α) (toNat : α → Nat) : Wire α where
  minSize := width
  validate := do
    let _ ← Decoder.take width
    pure ()
  decode := do
    let bytes ← Decoder.take width
    pure (ofNat (ofLittleEndian bytes))
  encode value := Encoder.write (littleEndian width (toNat value))

instance : Wire UInt8 := scalar 1 UInt8.ofNat UInt8.toNat

instance : Wire UInt16 := scalar 2 UInt16.ofNat UInt16.toNat

instance : Wire UInt32 := scalar 4 UInt32.ofNat UInt32.toNat

instance : Wire UInt64 := scalar 8 UInt64.ofNat UInt64.toNat

/-- An accepted payload is within the byte budget. -/
theorem length_le_of_validate {α : Type} [Wire α] {bytes : Bytes}
    (accepted : validate α bytes = .ok ()) : bytes.length ≤ maxPayloadBytes := by
  by_contra excess
  have rejected : validate α bytes = .error ⟨"payload byte budget exceeded"⟩ := by
    unfold validate
    simp only [gt_iff_lt, Nat.lt_of_not_le excess, ↓reduceIte]
    rfl
  rw [rejected] at accepted
  cases accepted

/-- An encoded value is a valid payload. -/
theorem validate_of_encode {α : Type} [Wire α] {value : α} {bytes : Bytes}
    (encoded : encode value = .ok bytes) : validate α bytes = .ok () := by
  obtain ⟨output, _, checked⟩ := except_bind_eq_ok.mp encoded
  obtain ⟨_, validated, same⟩ := except_bind_eq_ok.mp checked
  cases same
  exact validated

end Codec

end Synctick
