import Synctick.Codec.Schema
import Synctick.Game

/-! # The passes of a wire type agree

A wire format means a code for each value, the memory that its collections take, and how
deep its vectors nest. Validation is decoding without the value
(`Synctick.Codec.Schema.lawful`), so that it decides decoding, and what is decoded is within
the budgets.
-/

namespace Synctick

namespace Codec

open Effect

/-- What a wire format means: the code of a value, whether its lengths are 32-bit numbers, the
memory of its collections, and the nesting of its vectors. -/
structure Meaning (α : Type) where
  code : α → Bytes
  fits : α → Prop
  footprint : α → Nat
  nesting : α → Nat

namespace Meaning

variable {α β : Type}

/-- A value without collections. -/
def plain (code : α → Bytes) : Meaning α where
  code := code
  fits _ := True
  footprint _ := 0
  nesting _ := 0

def text : Meaning String where
  code text := littleEndian 4 (utf8 text).length ++ utf8 text
  fits text := (utf8 text).length < 2 ^ 32
  footprint text := (utf8 text).length
  nesting _ := 0

/-- A vector takes memory for its elements, and what these take. -/
def vec (size : Nat) (element : Meaning α) : Meaning (List α) where
  code values := littleEndian 4 values.length ++ values.flatMap element.code
  fits values := values.length < 2 ^ 32 ∧ ∀ value ∈ values, element.fits value
  footprint values := values.length * max size 1 + (values.map element.footprint).sum
  nesting values := 1 + (values.map element.nesting).foldr max 0

def field (first : Meaning α) (rest : Meaning β) : Meaning (α × β) where
  code value := first.code value.1 ++ rest.code value.2
  fits value := first.fits value.1 ∧ rest.fits value.2
  footprint value := first.footprint value.1 + rest.footprint value.2
  nesting value := max (first.nesting value.1) (rest.nesting value.2)

def arm (tag : UInt8) (fields : Meaning α) (rest : Meaning β) : Meaning (α ⊕ β) where
  code := Sum.elim (fun values => tag :: fields.code values) rest.code
  fits := Sum.elim fields.fits rest.fits
  footprint := Sum.elim fields.footprint rest.footprint
  nesting := Sum.elim fields.nesting rest.nesting

end Meaning

mutual

/-- The meaning of a schema. -/
def Schema.meaning : (schema : Schema) → Meaning schema.Value
  | .u8 => .plain fun value : UInt8 => littleEndian 1 value.toNat
  | .u16 => .plain fun value : UInt16 => littleEndian 2 value.toNat
  | .u32 => .plain fun value : UInt32 => littleEndian 4 value.toNat
  | .u64 => .plain fun value : UInt64 => littleEndian 8 value.toNat
  | .i32 => .plain fun value : Int32 => littleEndian 4 value.toUInt32.toNat
  | .i64 => .plain fun value : Int64 => littleEndian 8 value.toUInt64.toNat
  | .unit => .plain fun _ : Unit => [0]
  | .string => .text
  | .vec size element => .vec size element.meaning
  | .struct fields => fields.meaning
  | .enum variants => variants.meaning

def Fields.meaning : (fields : Fields) → Meaning fields.Values
  | .nil => .plain fun _ : Unit => []
  | .cons first rest => .field first.meaning rest.meaning

def Variants.meaning : (variants : Variants) → Meaning variants.Value
  | .nil => .plain Empty.elim
  | .cons tag fields rest => .arm tag fields.meaning rest.meaning

end

/-- What reading a value does to a decoder. -/
structure Decoded {α : Type} (meaning : Meaning α) (before : Decoder) (value : α) (after : Decoder) :
    Prop where
  consumed : before.remaining = meaning.code value ++ after.remaining
  allocated : after.allocation = before.allocation + meaning.footprint value
  budget : before.allocation ≤ maxAllocationBytes → after.allocation ≤ maxAllocationBytes
  depth : after.depth = before.depth
  nested : before.depth ≤ maxDepth → before.depth + meaning.nesting value ≤ maxDepth
  fits : meaning.fits value

/-- A writer takes the code of something valid, or has no room for it. -/
def Writes (program : Effect CodecError Encoder Unit) (code : Bytes) (valid : Prop) : Prop :=
  ∀ writer, Ensures program writer
    (fun _ next => next.bytes = writer.bytes ++ code ∧ valid)
    fun _ _ => ¬ (valid ∧ writer.bytes.length + code.length ≤ maxPayloadBytes)

/-- The three passes of a wire type follow one meaning. -/
structure Lawful {α : Type} (wire : Wire α) (meaning : Meaning α) : Prop where
  passes : wire.validate = (fun _ => ()) <$> wire.decode
  decodes : ∀ state, Ensures wire.decode state (Decoded meaning state) fun _ _ => True
  writes : ∀ value, Writes (wire.encode value) (meaning.code value) (meaning.fits value)

/-! ## Scalars and strings -/

/-- Taking bytes takes exactly so many from the front. -/
theorem ensures_decoderTake (count : Nat) (state : Decoder) :
    Ensures (Decoder.take count) state
      (fun bytes next => bytes.length = count ∧
        next = { state with remaining := next.remaining } ∧
        state.remaining = bytes ++ next.remaining) fun _ _ => True := by
  unfold Decoder.take
  by_cases short : count > state.remaining.length
  · simp
  · have enough : count ≤ state.remaining.length := Nat.le_of_not_lt short
    simp [enough]

namespace Writes

/-- Writing appends the bytes. -/
theorem write (bytes : Bytes) : Writes (Encoder.write bytes) bytes True := by
  intro writer
  unfold Encoder.write
  by_cases excess : bytes.length > maxPayloadBytes - writer.bytes.length
  · simp only [ensures_bind, ensures_get, excess, ↓reduceIte, ensures_throw]
    omega
  · simp only [ensures_bind, ensures_get, excess, ↓reduceIte, ensures_set, and_self]

/-- Writing nothing succeeds. -/
theorem nothing : Writes (pure ()) [] True := by
  intro writer
  exact ⟨(List.append_nil _).symm, trivial⟩

/-- Two programs in sequence write one code behind the other. -/
theorem bind {first second : Effect CodecError Encoder Unit} {front back : Bytes}
    {valid also : Prop} (head : Writes first front valid) (tail : Writes second back also) :
    Writes (first >>= fun _ => second) (front ++ back) (valid ∧ also) := by
  intro writer
  rw [ensures_bind]
  apply (head writer).mono
  · intro _ middle outcome
    obtain ⟨wrote, holds⟩ := outcome
    apply (tail middle).mono
    · intro _ next rest
      obtain ⟨wrote', holds'⟩ := rest
      exact ⟨by rw [wrote', wrote, List.append_assoc], holds, holds'⟩
    · intro _ _ full room
      apply full
      rw [wrote, List.length_append, Nat.add_assoc, ← List.length_append]
      exact ⟨room.1.2, room.2⟩
  · intro _ _ full room
    apply full
    have whole := room.2
    rw [List.length_append] at whole
    exact ⟨room.1.1, by omega⟩

/-- Whether a value fits may be said otherwise. -/
theorem mono {program : Effect CodecError Encoder Unit} {code : Bytes} {valid valid' : Prop}
    (writes : Writes program code valid) (same : valid ↔ valid') : Writes program code valid' := by
  rw [same] at writes
  exact writes

end Writes

/-- A number of fixed width is read back from its bytes, and these from it. -/
theorem lawful_scalar {α : Type} {width : Nat} (ofNat : Nat → α) (toNat : α → Nat)
    (kept : ∀ number < 256 ^ width, toNat (ofNat number) = number) :
    Lawful (scalar width ofNat toNat) (.plain fun value => littleEndian width (toNat value)) where
  passes := by
    change (do
      let _ ← Decoder.take width
      pure ()) = (fun _ => ()) <$> (do
      let bytes ← Decoder.take width
      pure (ofNat (ofLittleEndian bytes)))
    rw [map_bind]
    rfl
  decodes state := by
    change Ensures (do
      let bytes ← Decoder.take width
      pure (ofNat (ofLittleEndian bytes))) state _ _
    rw [ensures_bind]
    apply (ensures_decoderTake width state).mono
    · intro bytes next outcome
      obtain ⟨size, same, split⟩ := outcome
      have number := ofLittleEndian_lt bytes
      rw [size] at number
      have code : littleEndian width (toNat (ofNat (ofLittleEndian bytes))) = bytes := by
        rw [kept _ number, ← size, littleEndian_ofLittleEndian]
      rw [ensures_pure]
      constructor
      · rw [split]
        exact congrArg (· ++ next.remaining) code.symm
      · rw [same]
        rfl
      · rw [same]
        exact id
      · rw [same]
      · exact id
      · trivial
    · intro _ _ _
      trivial
  writes value := .write (littleEndian width (toNat value))

/-- A signed integer is written as the unsigned one of its width. -/
theorem lawful_i32 : Lawful (inferInstance : Wire Int32)
    (.plain fun value => littleEndian 4 value.toUInt32.toNat) := by
  apply lawful_scalar (fun number => (UInt32.ofNat number).toInt32) fun value =>
    value.toUInt32.toNat
  intro number fits
  exact UInt32.toNat_ofNat_of_lt' fits

theorem lawful_i64 : Lawful (inferInstance : Wire Int64)
    (.plain fun value => littleEndian 8 value.toUInt64.toNat) := by
  apply lawful_scalar (fun number => (UInt64.ofNat number).toInt64) fun value =>
    value.toUInt64.toNat
  intro number fits
  exact UInt64.toNat_ofNat_of_lt' fits

/-- The unit is a zero byte. -/
theorem lawful_unit : Lawful (inferInstance : Wire Unit) (.plain fun _ => [0]) where
  passes := by
    change validateUnit = (fun _ => ()) <$> validateUnit
    exact (id_map validateUnit).symm
  decodes state := by
    have marker : Lawful (inferInstance : Wire UInt8)
        (.plain fun value => littleEndian 1 value.toNat) := lawful_scalar _ _ (by simp)
    change Ensures validateUnit state _ _
    unfold validateUnit
    rw [ensures_bind]
    apply (marker.decodes state).mono
    · intro found next read
      by_cases zero : found = 0
      · subst zero
        simp only [ne_eq, not_true_eq_false, ↓reduceIte, ensures_pure]
        exact ⟨read.consumed, read.allocated, read.budget, read.depth, read.nested, trivial⟩
      · simp only [ne_eq, zero, not_false_eq_true, ↓reduceIte, ensures_throw]
    · intro _ _ _
      trivial
  writes _ := .write [0]

/-- The length of a collection, with the memory that it takes. -/
theorem ensures_count (minSize size : Nat) (state : Decoder) :
    Ensures (Decoder.count minSize size) state
      (fun count next => state.remaining = littleEndian 4 count ++ next.remaining ∧
        count < 2 ^ 32 ∧ next.allocation = state.allocation + count * max size 1 ∧
        next.allocation ≤ maxAllocationBytes ∧ next.depth = state.depth) fun _ _ => True := by
  have number : Lawful (inferInstance : Wire UInt32)
      (.plain fun value => littleEndian 4 value.toNat) := by
    apply lawful_scalar
    intro value fits
    exact UInt32.toNat_ofNat_of_lt' fits
  unfold Decoder.count
  rw [ensures_bind]
  apply (number.decodes state).mono
  · intro count next read
    have small : count.toNat < 2 ^ 32 := count.toNat_lt
    rw [ensures_bind, ensures_get, ensures_ite]
    constructor
    · intro _
      trivial
    · intro _
      rw [ensures_ite]
      constructor
      · intro _
        trivial
      · intro _
        rw [ensures_ite]
        constructor
        · intro _
          trivial
        · intro _
          rw [ensures_bind, ensures_set, ensures_ite]
          constructor
          · intro _
            trivial
          · intro within
            refine ⟨read.consumed, small, ?_, Nat.le_of_not_lt within, read.depth⟩
            rw [read.allocated]
            rfl
  · intro _ _ _
    trivial

/-- A text that is read has these bytes. -/
theorem ensures_fromUtf8 (bytes : Bytes) (state : Decoder) :
    Ensures (fromUtf8 bytes) state (fun text next => utf8 text = bytes ∧ next = state)
      fun _ _ => True := by
  unfold fromUtf8
  by_cases valid : ByteArray.IsValidUTF8 ⟨bytes.toArray⟩
  · have found : String.fromUTF8? ⟨bytes.toArray⟩ = some (String.fromUTF8 ⟨bytes.toArray⟩ valid) :=
      dif_pos valid
    rw [found]
    exact ⟨rfl, rfl⟩
  · have missing : String.fromUTF8? ⟨bytes.toArray⟩ = none := dif_neg valid
    rw [missing]
    trivial

/-- A length below 2^32 is written in four bytes. -/
theorem writes_length {count : Nat} (small : count < 2 ^ 32) :
    Writes (Wire.encode (UInt32.ofNat count)) (littleEndian 4 count) True := by
  have same : (UInt32.ofNat count).toNat = count := UInt32.toNat_ofNat_of_lt' small
  have writes := Writes.write (littleEndian 4 (UInt32.ofNat count).toNat)
  rw [same] at writes
  change Writes (Encoder.write (littleEndian 4 (UInt32.ofNat count).toNat)) _ _
  rw [same]
  exact writes

/-- A string is its length and its bytes. -/
theorem lawful_string : Lawful (inferInstance : Wire String) .text where
  passes := by
    change (do
      let count ← Decoder.count 1 1
      let bytes ← Decoder.take count
      let _ ← fromUtf8 bytes
      pure ()) = (fun _ => ()) <$> (do
      let count ← Decoder.count 1 1
      let bytes ← Decoder.take count
      fromUtf8 bytes)
    simp only [map_bind]
    rfl
  decodes state := by
    change Ensures (do
      let count ← Decoder.count 1 1
      let bytes ← Decoder.take count
      fromUtf8 bytes) state _ _
    rw [ensures_bind]
    apply (ensures_count 1 1 state).mono
    · intro count middle counted
      obtain ⟨front, small, allocated, budget, depth⟩ := counted
      rw [ensures_bind]
      apply (ensures_decoderTake count middle).mono
      · intro bytes next taken
        obtain ⟨size, same, back⟩ := taken
        apply (ensures_fromUtf8 bytes next).mono
        · intro text last outcome
          obtain ⟨code, kept⟩ := outcome
          subst kept
          have length : (utf8 text).length = count := by rw [code, size]
          have account : last.allocation = middle.allocation := by rw [same]
          constructor
          · change _ = (littleEndian 4 (utf8 text).length ++ utf8 text) ++ _
            rw [front, back, length, code, List.append_assoc]
          · change _ = _ + (utf8 text).length
            rw [account, allocated, length, Nat.max_self, Nat.mul_one]
          · intro _
            rw [account]
            exact budget
          · rw [same]
            exact depth
          · exact id
          · change (utf8 text).length < 2 ^ 32
            rw [length]
            exact small
        · intro _ _ _
          trivial
      · intro _ _ _
        trivial
    · intro _ _ _
      trivial
  writes text := by
    change Writes (do
      if (utf8 text).length ≥ 2 ^ 32 then
        throw ⟨"string too long"⟩
      Wire.encode (UInt32.ofNat (utf8 text).length)
      Encoder.write (utf8 text)) (littleEndian 4 (utf8 text).length ++ utf8 text)
      ((utf8 text).length < 2 ^ 32)
    by_cases long : (utf8 text).length ≥ 2 ^ 32
    · rw [if_pos long]
      intro _ room
      omega
    · have small : (utf8 text).length < 2 ^ 32 := Nat.lt_of_not_le long
      rw [if_neg long]
      apply ((writes_length small).bind (.write (utf8 text))).mono
      exact iff_of_true ⟨trivial, trivial⟩ small

/-! ## Sequences of values -/

/-- What two values read one after the other do. -/
theorem Decoded.join {α β γ : Type} {first : Meaning α} {rest : Meaning β} {whole : Meaning γ}
    {before middle after : Decoder} {value : α} {values : β} {joined : γ}
    (front : Decoded first before value middle) (back : Decoded rest middle values after)
    (code : whole.code joined = first.code value ++ rest.code values)
    (footprint : whole.footprint joined = first.footprint value + rest.footprint values)
    (nesting : whole.nesting joined = max (first.nesting value) (rest.nesting values))
    (fits : whole.fits joined ↔ first.fits value ∧ rest.fits values) :
    Decoded whole before joined after where
  consumed := by rw [front.consumed, back.consumed, code, List.append_assoc]
  allocated := by rw [back.allocated, front.allocated, footprint, Nat.add_assoc]
  budget within := back.budget (front.budget within)
  depth := by rw [back.depth, front.depth]
  nested shallow := by
    have first := front.nested shallow
    have second := back.nested (by rw [front.depth]; exact shallow)
    rw [front.depth] at second
    rw [nesting]
    omega
  fits := fits.mpr ⟨front.fits, back.fits⟩

/-- Nothing is read for a value without a code. -/
theorem Decoded.nothing {α : Type} {meaning : Meaning α} {value : α}
    (code : meaning.code value = []) (footprint : meaning.footprint value = 0)
    (nesting : meaning.nesting value = 0) (fits : meaning.fits value) (state : Decoder) :
    Decoded meaning state value state where
  consumed := by rw [code, List.nil_append]
  allocated := by rw [footprint, Nat.add_zero]
  budget := id
  depth := rfl
  nested shallow := by rwa [nesting, Nat.add_zero]
  fits := fits

/-- The elements of a vector, without its length. -/
def Meaning.elements {α : Type} (element : Meaning α) : Meaning (List α) where
  code values := values.flatMap element.code
  fits values := ∀ value ∈ values, element.fits value
  footprint values := (values.map element.footprint).sum
  nesting values := (values.map element.nesting).foldr max 0

section Vectors

variable {α : Type} {wire : Wire α} {element : Meaning α}

/-- Elements are read one after another, as many as were announced. -/
theorem ensures_elements (lawful : Lawful wire element) (count : Nat) (state : Decoder) :
    Ensures (readMany wire.decode count) state
      (fun values next => values.length = count ∧ Decoded element.elements state values next)
      fun _ _ => True := by
  induction count generalizing state with
  | zero =>
      refine ⟨rfl, Decoded.nothing rfl rfl rfl ?_ state⟩
      intro value member
      cases member
  | succ count ih =>
      rw [readMany, ensures_bind]
      apply (lawful.decodes state).mono
      · intro value middle first
        rw [ensures_bind]
        apply (ih middle).mono
        · intro values next outcome
          obtain ⟨length, rest⟩ := outcome
          refine ⟨congrArg (· + 1) length, first.join rest ?_ ?_ ?_ ?_⟩
          · exact List.flatMap_cons
          · exact List.sum_cons
          · rfl
          · exact List.forall_mem_cons
        · intro _ _ _
          trivial
      · intro _ _ _
        trivial

/-- They are written one after another. -/
theorem writes_elements (lawful : Lawful wire element) (values : List α) :
    Writes (forEach wire.encode values) (element.elements.code values)
      (element.elements.fits values) := by
  induction values with
  | nil =>
      apply Writes.nothing.mono
      apply iff_of_true trivial
      intro value member
      cases member
  | cons value values ih =>
      have joined := (lawful.writes value).bind ih
      have same : element.elements.code (value :: values) =
          element.code value ++ element.elements.code values := List.flatMap_cons
      rw [same]
      exact joined.mono List.forall_mem_cons.symm

/-- A collection is entered where it is not nested too deeply. -/
theorem ensures_enter (state : Decoder) :
    Ensures Decoder.enter state
      (fun _ next => next = { state with depth := state.depth + 1 } ∧ state.depth + 1 ≤ maxDepth)
      fun _ _ => True := by
  unfold Decoder.enter
  rw [ensures_bind, ensures_modify, ensures_bind, ensures_get, ensures_ite]
  constructor
  · intro _
    trivial
  · intro within
    exact ⟨rfl, Nat.le_of_not_lt within⟩

/-- A vector is its length and its elements. -/
theorem lawful_vec (size : Nat) (lawful : Lawful wire element) :
    Lawful (vec size wire) (element.vec size) where
  passes := by
    change (do
      Decoder.enter
      let count ← Decoder.count wire.minSize size
      let _ ← readMany wire.validate count
      Decoder.leave) = (fun _ => ()) <$> (do
      Decoder.enter
      let count ← Decoder.count wire.minSize size
      let values ← readMany wire.decode count
      Decoder.leave
      pure values)
    rw [lawful.passes]
    simp only [readMany_map, map_bind, bind_map_left, bind_pure_comp, Functor.map_map, id_map']
  decodes state := by
    change Ensures (do
      Decoder.enter
      let count ← Decoder.count wire.minSize size
      let values ← readMany wire.decode count
      Decoder.leave
      pure values) state _ _
    rw [ensures_bind]
    apply (ensures_enter state).mono
    · intro _ entered outcome
      obtain ⟨same, shallow⟩ := outcome
      subst same
      rw [ensures_bind]
      apply (ensures_count wire.minSize size _).mono
      · intro count middle counted
        obtain ⟨front, small, allocated, budget, depth⟩ := counted
        rw [ensures_bind]
        apply (ensures_elements lawful count middle).mono
        · intro values next outcome
          obtain ⟨length, rest⟩ := outcome
          rw [ensures_bind]
          subst length
          constructor
          · change _ = (littleEndian 4 values.length ++ element.elements.code values) ++ _
            rw [List.append_assoc, ← rest.consumed]
            exact front
          · change next.allocation = state.allocation +
              (values.length * max size 1 + element.elements.footprint values)
            rw [rest.allocated, allocated, Nat.add_assoc]
          · intro _
            exact rest.budget budget
          · change next.depth - 1 = state.depth
            rw [rest.depth, depth]
            rfl
          · intro _
            have nested := rest.nested (by rw [depth]; exact shallow)
            rw [depth] at nested
            change state.depth + (1 + element.elements.nesting values) ≤ maxDepth
            rw [← Nat.add_assoc]
            exact nested
          · exact ⟨small, rest.fits⟩
        · intro _ _ _
          trivial
      · intro _ _ _
        trivial
    · intro _ _ _
      trivial
  writes values := by
    change Writes (do
      if values.length ≥ 2 ^ 32 then
        throw ⟨"collection too long"⟩
      Wire.encode (UInt32.ofNat values.length)
      forEach wire.encode values) (littleEndian 4 values.length ++ element.elements.code values)
      (values.length < 2 ^ 32 ∧ element.elements.fits values)
    by_cases long : values.length ≥ 2 ^ 32
    · rw [if_pos long]
      intro _ room
      omega
    · have small : values.length < 2 ^ 32 := Nat.lt_of_not_le long
      rw [if_neg long]
      apply ((writes_length small).bind (writes_elements lawful values)).mono
      exact and_congr_left fun _ => iff_of_true trivial small

end Vectors

/-! ## Structs and enums -/

/-- A struct without a field takes no bytes. -/
theorem lawful_noField : Lawful noField (.plain fun _ => []) where
  passes := rfl
  decodes state := Decoded.nothing rfl rfl rfl trivial state
  writes _ := .nothing

/-- The fields of a struct follow one another. -/
theorem lawful_field {α β : Type} {first : Wire α} {rest : Wire β} {head : Meaning α}
    {tail : Meaning β} (lawful : Lawful first head) (others : Lawful rest tail) :
    Lawful (field first rest) (head.field tail) where
  passes := by
    change (do
      first.validate
      rest.validate) = (fun _ => ()) <$> (do
      let value ← first.decode
      let values ← rest.decode
      pure (value, values))
    rw [lawful.passes, others.passes]
    simp only [map_bind, bind_map_left, bind_pure_comp, Functor.map_map]
  decodes state := by
    change Ensures (do
      let value ← first.decode
      let values ← rest.decode
      pure (value, values)) state _ _
    rw [ensures_bind]
    apply (lawful.decodes state).mono
    · intro value middle front
      rw [ensures_bind]
      apply (others.decodes middle).mono
      · intro values next back
        rw [ensures_pure]
        exact front.join back rfl rfl rfl Iff.rfl
      · intro _ _ _
        trivial
    · intro _ _ _
      trivial
  writes value := (lawful.writes value.1).bind (others.writes value.2)

/-- The arms of an enum follow one meaning, of which the tag was read before. -/
structure LawfulArms {α : Type} (arms : Arms α) (meaning : Meaning α) : Prop where
  passes : ∀ tag, arms.validate tag = (fun _ => ()) <$> arms.decode tag
  decodes : ∀ tag state, Ensures (arms.decode tag) state
    (Decoded meaning { state with remaining := tag :: state.remaining }) fun _ _ => True
  writes : ∀ value, Writes (arms.encode value) (meaning.code value) (meaning.fits value)

/-- An enum without a variant has no value. -/
theorem lawful_noArm : LawfulArms noArm (.plain Empty.elim) where
  passes _ := rfl
  decodes _ _ := trivial
  writes value := value.elim

/-- An arm is for its tag; any other tag is that of another arm. -/
theorem lawful_arm {α β : Type} (tag : UInt8) {fields : Wire α} {rest : Arms β} {head : Meaning α}
    {tail : Meaning β} (lawful : Lawful fields head) (others : LawfulArms rest tail) :
    LawfulArms (arm tag fields rest) (head.arm tag tail) where
  passes found := by
    change (if found = tag then fields.validate else rest.validate found) = (fun _ => ()) <$>
      if found = tag then Sum.inl <$> fields.decode else Sum.inr <$> rest.decode found
    by_cases same : found = tag
    · rw [if_pos same, if_pos same, lawful.passes, Functor.map_map]
    · rw [if_neg same, if_neg same, others.passes, Functor.map_map]
  decodes found state := by
    change Ensures (if found = tag then Sum.inl <$> fields.decode
      else Sum.inr <$> rest.decode found) state _ _
    by_cases same : found = tag
    · subst same
      rw [if_pos rfl, ensures_map]
      apply (lawful.decodes state).mono
      · intro values next read
        refine ⟨?_, read.allocated, read.budget, read.depth, read.nested, read.fits⟩
        exact congrArg (found :: ·) read.consumed
      · intro _ _ _
        trivial
    · rw [if_neg same, ensures_map]
      apply (others.decodes found state).mono
      · intro value next read
        exact ⟨read.consumed, read.allocated, read.budget, read.depth, read.nested, read.fits⟩
      · intro _ _ _
        trivial
  writes
    | .inl values => by
        have written : Writes (Wire.encode tag) (littleEndian 1 tag.toNat) True := .write _
        have single : littleEndian 1 tag.toNat = [tag] := by
          change [UInt8.ofNat tag.toNat] = [tag]
          rw [UInt8.ofNat_toNat]
        rw [single] at written
        exact (written.bind (lawful.writes values)).mono (Iff.of_eq (true_and _))
    | .inr value => others.writes value

/-- A value of an enum is its tag and the fields of that variant. -/
theorem lawful_enumeration {α : Type} {arms : Arms α} {meaning : Meaning α}
    (lawful : LawfulArms arms meaning) : Lawful (enumeration arms) meaning where
  passes := by
    change (do
      let tag : UInt8 ← Wire.decode
      arms.validate tag) = (fun _ => ()) <$> (do
      let tag : UInt8 ← Wire.decode
      arms.decode tag)
    simp only [map_bind, lawful.passes]
  decodes state := by
    have marker : Lawful (inferInstance : Wire UInt8)
        (.plain fun value => littleEndian 1 value.toNat) := lawful_scalar _ _ (by simp)
    change Ensures (do
      let tag : UInt8 ← Wire.decode
      arms.decode tag) state _ _
    rw [ensures_bind]
    apply (marker.decodes state).mono
    · intro tag middle front
      have split : state.remaining = tag :: middle.remaining := by
        rw [front.consumed]
        change UInt8.ofNat tag.toNat :: middle.remaining = _
        rw [UInt8.ofNat_toNat]
      apply (lawful.decodes tag middle).mono
      · intro value next read
        constructor
        · rw [split]
          exact read.consumed
        · rw [read.allocated]
          exact congrArg (· + meaning.footprint value) front.allocated
        · exact fun within => read.budget (front.budget within)
        · rw [read.depth]
          exact front.depth
        · intro shallow
          have depth := front.depth
          have nested := read.nested (by
            change middle.depth ≤ maxDepth
            rw [depth]
            exact shallow)
          rw [← depth]
          exact nested
        · exact read.fits
      · intro _ _ _
        trivial
    · intro _ _ _
      trivial
  writes := lawful.writes

mutual

/-- The generated passes of a schema follow its meaning. -/
theorem Schema.lawful : (schema : Schema) → Lawful schema.wire schema.meaning
  | .u8 => lawful_scalar _ _ (by simp)
  | .u16 => lawful_scalar _ _ fun _ fits => UInt16.toNat_ofNat_of_lt' fits
  | .u32 => lawful_scalar _ _ fun _ fits => UInt32.toNat_ofNat_of_lt' fits
  | .u64 => lawful_scalar _ _ fun _ fits => UInt64.toNat_ofNat_of_lt' fits
  | .i32 => lawful_i32
  | .i64 => lawful_i64
  | .unit => lawful_unit
  | .string => lawful_string
  | .vec size element => lawful_vec size element.lawful
  | .struct fields => fields.lawful
  | .enum variants => lawful_enumeration variants.lawful

/-- The passes of the fields of a struct follow their meaning. -/
theorem Fields.lawful : (fields : Fields) → Lawful fields.wire fields.meaning
  | .nil => lawful_noField
  | .cons first rest => lawful_field first.lawful rest.lawful

/-- So do those of the arms of an enum. -/
theorem Variants.lawful : (variants : Variants) → LawfulArms variants.arms variants.meaning
  | .nil => lawful_noArm
  | .cons tag fields rest => lawful_arm tag fields.lawful rest.lawful

end

/-! ## Accepted payloads -/

section Payloads

variable {α : Type} [wire : Wire α] {schema : Schema}

/-- The validation of a derived type is its decoding without the value. -/
theorem Generated.passes (generated : Generated α schema) :
    Wire.validate α = (fun _ => ()) <$> (Wire.decode : Effect CodecError Decoder α) := by
  change wire.validate = (fun _ => ()) <$> wire.decode
  rw [generated.validate, generated.decode, schema.lawful.passes, Functor.map_map]

/-- What a derived type decodes is the code of a value. -/
theorem Generated.decodes (generated : Generated α schema) (state : Decoder) :
    Ensures (Wire.decode : Effect CodecError Decoder α) state
      (fun value next => Decoded schema.meaning state (generated.values value) next)
      fun _ _ => True := by
  rw [generated.decode, ensures_map]
  apply (schema.lawful.decodes state).mono
  · intro value next read
    rw [generated.values.apply_symm_apply]
    exact read
  · intro _ _ _
    trivial

/-- A payload that is read to its end. -/
def ReadsWhole (bytes : Bytes) (value : α) : Prop :=
  bytes.length ≤ maxPayloadBytes ∧ ∃ next,
    (Wire.decode : Effect CodecError Decoder α) { remaining := bytes } = .ok value next ∧
      next.remaining = []

/-- The result of a program is that of its run. -/
theorem result_eq_ok {σ β : Type} {program : Effect CodecError σ β} {state : σ} {value : β} :
    result program state = .ok value ↔ ∃ next, program state = .ok value next := by
  unfold result
  cases program state with
  | ok found next =>
      constructor
      · intro same
        cases same
        exact ⟨next, rfl⟩
      · intro same
        obtain ⟨_, same⟩ := same
        cases same
        rfl
  | error error next =>
      constructor
      · intro impossible
        cases impossible
      · intro impossible
        obtain ⟨_, impossible⟩ := impossible
        cases impossible

/-- A pass that must end with its bytes. -/
theorem ran_finish {β γ : Type} {read : Effect CodecError Decoder β} {value : γ} {f : β → γ}
    {state : Decoder} :
    (∃ next, (do
      let found ← read
      Decoder.finish
      pure (f found) : Effect CodecError Decoder γ) state = .ok value next) ↔
      ∃ found next, read state = .ok found next ∧ next.remaining = [] ∧ f found = value := by
  change (∃ next, EStateM.bind read _ state = _) ↔ _
  unfold EStateM.bind
  cases read state with
  | error error next =>
      constructor
      · intro impossible
        obtain ⟨_, impossible⟩ := impossible
        cases impossible
      · intro impossible
        obtain ⟨_, _, impossible, _⟩ := impossible
        cases impossible
  | ok found next =>
      rcases next with ⟨remaining, allocation, depth⟩
      cases remaining with
      | nil =>
          constructor
          · intro ended
            obtain ⟨_, same⟩ := ended
            cases same
            exact ⟨found, _, rfl, rfl, rfl⟩
          · intro ended
            obtain ⟨_, _, same, _, returned⟩ := ended
            cases same
            rw [← returned]
            exact ⟨_, rfl⟩
      | cons byte remaining =>
          constructor
          · intro impossible
            obtain ⟨_, impossible⟩ := impossible
            cases impossible
          · intro impossible
            obtain ⟨_, _, same, ended, _⟩ := impossible
            cases same
            cases ended

/-- A payload is valid exactly where all of it is read as a value. -/
theorem validate_iff (generated : Generated α schema) (bytes : Bytes) :
    validate α bytes = .ok () ↔ ∃ value : α, ReadsWhole bytes value := by
  have run : (do Wire.validate α; Decoder.finish : Effect CodecError Decoder Unit) = (do
      let _ ← (Wire.decode : Effect CodecError Decoder α)
      Decoder.finish
      pure ()) := by
    rw [generated.passes, bind_map_left]
    apply bind_congr
    intro _
    exact bind_pure_unit.symm
  unfold validate
  by_cases excess : bytes.length > maxPayloadBytes
  · simp only [excess, ↓reduceIte]
    constructor
    · intro impossible
      cases impossible
    · intro impossible
      obtain ⟨_, within, _⟩ := impossible
      omega
  · simp only [excess, ↓reduceIte]
    rw [run, result_eq_ok, ran_finish]
    constructor
    · intro ended
      obtain ⟨value, next, read, last, _⟩ := ended
      exact ⟨value, Nat.le_of_not_lt excess, next, read, last⟩
    · intro reads
      obtain ⟨value, _, next, read, last⟩ := reads
      exact ⟨value, next, read, last, rfl⟩

/-- It is decoded as that value. -/
theorem decode_iff (generated : Generated α schema) (bytes : Bytes) (value : α) :
    decode α bytes = .ok value ↔ ReadsWhole bytes value := by
  unfold decode
  rw [except_bind_eq_ok]
  constructor
  · intro decoded
    obtain ⟨_, validated, read⟩ := decoded
    obtain ⟨found, next, same, last, returned⟩ := ran_finish.mp (result_eq_ok.mp read)
    subst returned
    exact ⟨length_le_of_validate validated, next, same, last⟩
  · intro reads
    refine ⟨(), (validate_iff generated bytes).mpr ⟨value, reads⟩, ?_⟩
    obtain ⟨_, next, read, last⟩ := reads
    exact result_eq_ok.mpr (ran_finish.mpr ⟨value, next, read, last, rfl⟩)

/-- What is read to its end is the code of its value, within the budgets. -/
theorem ReadsWhole.decoded (generated : Generated α schema) {bytes : Bytes} {value : α}
    (reads : ReadsWhole bytes value) :
    bytes = schema.meaning.code (generated.values value) ∧
      schema.meaning.fits (generated.values value) ∧
      schema.meaning.footprint (generated.values value) ≤ maxAllocationBytes ∧
      schema.meaning.nesting (generated.values value) ≤ maxDepth := by
  obtain ⟨_, next, read, last⟩ := reads
  have decoded := ensures_of_ok (generated.decodes { remaining := bytes }) read
  have consumed := decoded.consumed
  have budget := decoded.budget (Nat.zero_le _)
  have nested := decoded.nested (Nat.zero_le _)
  rw [last, List.append_nil] at consumed
  rw [decoded.allocated] at budget
  change 0 + _ ≤ _ at budget nested
  rw [Nat.zero_add] at budget nested
  exact ⟨consumed, decoded.fits, budget, nested⟩

end Payloads

/-- Commands that were accepted decode. -/
theorem decodeInputs_of_validated {G : Game} {commands : Schema}
    (generated : Generated G.Command commands) (inputs : List Command)
    (accepted : ∀ input ∈ inputs, validate G.Command input.payload.bytes = .ok ()) :
    ∃ decoded, Adapter.decodeInputs G inputs = .ok decoded := by
  induction inputs with
  | nil => exact ⟨[], rfl⟩
  | cons input inputs ih =>
      obtain ⟨value, reads⟩ := (validate_iff generated input.payload.bytes).mp
        (accepted input List.mem_cons_self)
      have first := (decode_iff generated input.payload.bytes value).mpr reads
      obtain ⟨rest, decoded⟩ := ih fun other member => accepted other (List.mem_cons_of_mem _ member)
      refine ⟨{ participant := input.participant, command := value } :: rest, ?_⟩
      unfold Adapter.decodeInputs
      rw [first, decoded]
      rfl

/-- Validation decides decoding, from any state of a decoder, and what is decoded is within the
budgets; so a command that was accepted is decoded when its tick is executed. -/
theorem validation_decides {α : Type} [Wire α] {schema : Schema} (generated : Generated α schema) :
    (∀ state, Ensures (Wire.decode : Effect CodecError Decoder α) state
      (fun _ next => Wire.validate α state = .ok () next ∧ next.depth = state.depth)
      fun error next => Wire.validate α state = .error error next) ∧
    (∀ bytes, validate α bytes = .ok () ↔ ∃ value, decode α bytes = .ok value) ∧
    (∀ bytes (value : α), decode α bytes = .ok value →
      schema.meaning.footprint (generated.values value) ≤ maxAllocationBytes ∧
        schema.meaning.nesting (generated.values value) ≤ maxDepth) ∧
    ∀ (G : Game) (commands : Schema), Generated G.Command commands →
      ∀ (adapter : Adapter G) (tick : TickAdvance),
        (∀ input ∈ tick.inputs,
          SessionSimulation.validateCommand adapter input.payload.bytes = .ok ()) →
        ∃ inputs, Adapter.decodeInputs G tick.inputs = .ok inputs := by
  refine ⟨?_, ?_, ?_, ?_⟩
  · intro state
    have passes := generated.passes
    apply ((generated.decodes state).and (ensures_self _ state)).mono
    · intro value next outcome
      obtain ⟨decoded, read⟩ := outcome
      refine ⟨?_, decoded.depth⟩
      rw [passes]
      change EStateM.map _ _ state = _
      unfold EStateM.map
      rw [read]
    · intro error next outcome
      rw [passes]
      change EStateM.map _ _ state = _
      unfold EStateM.map
      rw [outcome.2]
  · intro bytes
    rw [validate_iff generated]
    exact exists_congr fun value => (decode_iff generated bytes value).symm
  · intro bytes value decoded
    obtain ⟨_, _, budget, nested⟩ := ((decode_iff generated bytes value).mp decoded).decoded generated
    exact ⟨budget, nested⟩
  · intro G commands generated' adapter tick accepted
    apply decodeInputs_of_validated generated'
    intro input member
    have validated := accepted input member
    change (validate G.Command input.payload.bytes).mapError SessionError.codec = .ok () at validated
    cases checked : validate G.Command input.payload.bytes with
    | ok _ => rfl
    | error error =>
        rw [checked] at validated
        cases validated

end Codec

end Synctick
