import Synctick.Foundation.LittleEndian
import Synctick.Foundation.Reads
import Mathlib.Data.Vector.Basic

/-! # The standard configuration of bincode

Unsigned integers of more than one byte are variable-length: a value below 251
is one byte, and a larger one is a marker byte followed by two, four or eight
little-endian bytes, whichever is the least that fits. Bytes and byte arrays are
raw, a length is a 64-bit integer, and the index of an enum variant a 32-bit one.
Decoding accepts a longer form than necessary.

The decoders read from any source of bytes, as bincode's do.
-/

namespace Synctick

/-- The ways a decoder rejects its input. -/
inductive DecodeError
  | unexpectedEnd
  | invalidIntegerType
  | unexpectedVariant
  | other (reason : String)
  deriving DecidableEq, Repr

/-- The text of a decoding error: its kind. What bincode shows beside it (how many bytes are missing,
which integer or variant was found and which were expected) is left out. -/
def DecodeError.display : DecodeError → String
  | .unexpectedEnd => "UnexpectedEnd"
  | .invalidIntegerType => "InvalidIntegerType"
  | .unexpectedVariant => "UnexpectedVariant"
  | .other reason => "Other(" ++ reason.quote ++ ")"

/-- A source that yields a requested number of its remaining bytes, or fails
when fewer are left. -/
class ByteSource (ε : outParam Type) (τ : Type) where
  view : τ → Bytes
  take : Nat → Effect ε τ Bytes
  malformed : DecodeError → ε
  take_ok : ∀ (state : τ) (count : Nat), count ≤ (view state).length →
    ∃ next, take count state = .ok ((view state).take count) next ∧
      view next = (view state).drop count
  take_short : ∀ (state : τ) (count : Nat), (view state).length < count →
    ∃ error next, take count state = .error error next

/-- A slice is a source of bytes. -/
instance : ByteSource DecodeError Bytes where
  view bytes := bytes
  take count := fun bytes =>
    if count ≤ bytes.length then .ok (bytes.take count) (bytes.drop count)
    else .error .unexpectedEnd bytes
  malformed error := error
  take_ok bytes count enough := ⟨bytes.drop count, by simp only [enough, ↓reduceIte], rfl⟩
  take_short bytes count short :=
    ⟨.unexpectedEnd, bytes, by simp only [Nat.not_le.mpr short, ↓reduceIte]⟩

@[simp] theorem view_bytes (bytes : Bytes) : ByteSource.view bytes = bytes := rfl

namespace Bincode

/-- The variable-length form of an unsigned integer. -/
def encodeVarint (value : Nat) : Bytes :=
  if value < 251 then [UInt8.ofNat value]
  else if value < 2 ^ 16 then 251 :: littleEndian 2 value
  else if value < 2 ^ 32 then 252 :: littleEndian 4 value
  else 253 :: littleEndian 8 value

/-- A byte string with its length. -/
def encodeBytes (bytes : Bytes) : Bytes :=
  encodeVarint bytes.length ++ bytes

/-- An integer takes at least one byte. -/
theorem encodeVarint_ne_nil (value : Nat) : encodeVarint value ≠ [] := by
  unfold encodeVarint
  split_ifs <;> exact List.cons_ne_nil _ _

theorem length_encodeVarint_pos (value : Nat) : 0 < (encodeVarint value).length :=
  List.length_pos_iff.mpr (encodeVarint_ne_nil value)

/-- No integer takes more than nine bytes. -/
theorem length_encodeVarint_le (value : Nat) : (encodeVarint value).length ≤ 9 := by
  unfold encodeVarint
  split_ifs <;> simp

/-- A length below 2^32 takes at most five bytes. -/
theorem length_encodeVarint_le_of_lt {value : Nat} (small : value < 2 ^ 32) :
    (encodeVarint value).length ≤ 5 := by
  unfold encodeVarint
  split_ifs <;> simp

section Decoding

variable {ε τ : Type} [ByteSource ε τ]

open ByteSource

/-- Read one raw byte. -/
def readByte : Effect ε τ UInt8 := do
  let bytes ← take 1
  pure (bytes.headD 0)

/-- Read a byte array, which is raw. -/
def readArray (size : Nat) : Effect ε τ (List.Vector UInt8 size) := do
  let bytes ← take size
  if sized : bytes.length = size then pure ⟨bytes, sized⟩
  else throw (malformed τ .unexpectedEnd)

/-- Read a variable-length integer; the eight-byte form is for `wide` types. -/
def readVarint (wide : Bool) : Effect ε τ Nat := do
  let marker ← readByte
  if marker.toNat < 251 then pure marker.toNat
  else if marker = 251 then do
    let bytes ← take 2
    pure (ofLittleEndian bytes)
  else if marker = 252 then do
    let bytes ← take 4
    pure (ofLittleEndian bytes)
  else if marker = 253 ∧ wide then do
    let bytes ← take 8
    pure (ofLittleEndian bytes)
  else throw (malformed τ .invalidIntegerType)

/-- Read a `u64`. -/
def readU64 : Effect ε τ UInt64 := do
  let value ← readVarint true
  pure (UInt64.ofNat value)

/-- Read a `u32`. -/
def readU32 : Effect ε τ UInt32 := do
  let value ← readVarint false
  pure (UInt32.ofNat value)

/-- Any string of bytes is read back raw. -/
theorem reads_take (bytes : Bytes) :
    Effect.Reads (view (τ := τ)) (take bytes.length) bytes bytes := by
  intro state rest input
  obtain ⟨next, returned, left⟩ := take_ok state bytes.length (by
    rw [input, List.length_append]
    exact Nat.le_add_right _ _)
  refine ⟨next, ?_, ?_⟩
  · rw [returned, input, List.take_left]
  · rw [left, input, List.drop_left]

/-- The bytes of a number are read back. -/
theorem reads_littleEndian (width value : Nat) :
    Effect.Reads (view (τ := τ)) (take width) (littleEndian width value)
      (littleEndian width value) := by
  have reads := reads_take (τ := τ) (littleEndian width value)
  rwa [length_littleEndian] at reads

/-- A byte is read back. -/
theorem reads_byte (byte : UInt8) :
    Effect.Reads (view (τ := τ)) readByte [byte] byte := by
  exact (reads_take (τ := τ) [byte]).last fun bytes => bytes.headD 0

/-- So is an array. -/
theorem reads_array {size : Nat} (array : List.Vector UInt8 size) :
    Effect.Reads (view (τ := τ)) (readArray size) array.toList array := by
  have reads := reads_take (τ := τ) array.toList
  rw [List.Vector.toList_length] at reads
  rw [← List.append_nil array.toList]
  refine reads.bind ?_
  simp only [List.Vector.toList_length, ↓reduceDIte]
  exact Effect.Reads.pure array

/-- A number behind a marker is read back. -/
private theorem reads_wide (width : Nat) {value : Nat} (fits : value < 256 ^ width) :
    Effect.Reads (view (τ := τ)) (do
      let bytes ← take width
      pure (ofLittleEndian bytes)) (littleEndian width value) value := by
  have reads := (reads_littleEndian (τ := τ) width value).last ofLittleEndian
  rwa [ofLittleEndian_littleEndian_of_lt fits] at reads

/-- An integer is read back from its variable-length form. -/
theorem reads_varint {value : Nat} (wide : Bool)
    (fits : value < 2 ^ 32 ∨ wide ∧ value < 2 ^ 64) :
    Effect.Reads (view (τ := τ)) (readVarint wide) (encodeVarint value) value := by
  unfold encodeVarint readVarint
  split_ifs with one two four
  · have marker : (UInt8.ofNat value).toNat = value := by
      simp only [UInt8.toNat_ofNat']
      omega
    rw [← List.append_nil [UInt8.ofNat value]]
    refine (reads_byte (UInt8.ofNat value)).bind ?_
    simp only [marker, one, ↓reduceIte]
    exact Effect.Reads.pure value
  · exact (reads_byte 251).bind (reads_wide 2 (by omega))
  · exact (reads_byte 252).bind (reads_wide 4 (by omega))
  · obtain ⟨rfl, bounded⟩ := fits.resolve_left four
    exact (reads_byte 253).bind (reads_wide 8 (by omega))

/-- A `u64` is read back. -/
theorem reads_u64 (value : UInt64) :
    Effect.Reads (view (τ := τ)) readU64 (encodeVarint value.toNat) value := by
  have reads := (reads_varint (τ := τ) true (Or.inr ⟨rfl, value.toNat_lt⟩)).last UInt64.ofNat
  rwa [UInt64.ofNat_toNat] at reads

/-- So is a `u32`. -/
theorem reads_u32 (value : UInt32) :
    Effect.Reads (view (τ := τ)) readU32 (encodeVarint value.toNat) value := by
  have reads := (reads_varint (τ := τ) false (Or.inl value.toNat_lt)).last UInt32.ofNat
  rwa [UInt32.ofNat_toNat] at reads

/-- The long form keeps the low 64 bits of a number. -/
theorem reads_wrapped (value : Nat) :
    Effect.Reads (view (τ := τ)) readU64 (encodeVarint value) (UInt64.ofNat value) := by
  by_cases fits : value < 2 ^ 64
  · have reads := reads_u64 (τ := τ) (UInt64.ofNat value)
    rwa [UInt64.toNat_ofNat_of_lt' fits] at reads
  · have long : encodeVarint value = 253 :: littleEndian 8 value := by
      unfold encodeVarint
      rw [if_neg (by omega), if_neg (by omega), if_neg (by omega)]
    have wide := (reads_littleEndian (τ := τ) 8 value).last ofLittleEndian
    rw [ofLittleEndian_littleEndian] at wide
    have reads : Effect.Reads (view (τ := τ)) (readVarint true) (encodeVarint value)
        (value % 256 ^ 8) := by
      rw [long]
      exact (reads_byte 253).bind wide
    have whole := reads.last UInt64.ofNat
    have same : UInt64.ofNat (value % 256 ^ 8) = UInt64.ofNat value := by
      apply UInt64.toNat_inj.mp
      rw [UInt64.toNat_ofNat', UInt64.toNat_ofNat']
      omega
    rwa [same] at whole

/-- What was there to take still is when more follows. -/
theorem stable_take (count : Nat) :
    Effect.Stable (view (τ := τ)) (take count) := by
  intro state value next returned longer extra input
  by_cases enough : count ≤ (view state).length
  · obtain ⟨next', returned', left⟩ := take_ok state count enough
    rw [returned] at returned'
    cases returned'
    obtain ⟨last, again, rest⟩ := take_ok longer count (by
      rw [input, List.length_append]
      exact Nat.le_add_right_of_le enough)
    rw [input, List.take_append_of_le_length enough] at again
    rw [input, List.drop_append_of_le_length enough] at rest
    exact ⟨last, again, by rw [rest, left]⟩
  · obtain ⟨error, stopped, fails⟩ := take_short state count (Nat.lt_of_not_le enough)
    rw [returned] at fails
    cases fails

/-- Reading a byte does not depend on what follows it. -/
theorem stable_byte : Effect.Stable (view (τ := τ)) readByte :=
  (stable_take 1).bind fun _ => .pure _

theorem stable_array (size : Nat) : Effect.Stable (view (τ := τ)) (readArray size) := by
  apply (stable_take size).bind
  intro bytes
  by_cases sized : bytes.length = size
  · rw [dif_pos sized]
    exact .pure _
  · rw [dif_neg sized]
    exact .throw _

/-- Nor does reading an integer, whose marker tells its width. -/
theorem stable_varint (wide : Bool) : Effect.Stable (view (τ := τ)) (readVarint wide) := by
  have wider (width : Nat) : Effect.Stable (view (τ := τ)) (do
      let bytes ← take width
      pure (ofLittleEndian bytes)) := (stable_take width).bind fun _ => .pure _
  apply stable_byte.bind
  intro marker
  exact .ite (.pure _) (.ite (wider 2) (.ite (wider 4) (.ite (wider 8) (.throw _))))

theorem stable_u64 : Effect.Stable (view (τ := τ)) readU64 :=
  (stable_varint true).bind fun _ => .pure _

theorem stable_u32 : Effect.Stable (view (τ := τ)) readU32 :=
  (stable_varint false).bind fun _ => .pure _

end Decoding

end Bincode

end Synctick
