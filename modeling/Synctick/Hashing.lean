import Synctick.Foundation.Fnv
import Synctick.Foundation.Framing
import Synctick.Codec.Collections

/-! # Stable state fingerprints

Hashing streams bytes into a fingerprint, independent of the wire codec. Integers use their
fixed-width little-endian representations, booleans 0 and 1, floats their exact bits. Strings and
sequences have a 64-bit count before their contents; structs and tuples concatenate their fields,
an option has a tag, and a unit contributes no bytes.
-/

namespace Synctick

open Codec (utf8)

/-- A streaming FNV-1a fingerprint. -/
structure StateHasher where
  state : UInt64
  deriving DecidableEq, Repr

/-- A type whose values append their canonical representation to the stream. -/
class StableHash (α : Type) where
  hashInto : α → StateHasher → StateHasher

namespace StateHasher

/-- An empty fingerprint: the standard offset basis. -/
def new : StateHasher := ⟨0xcbf29ce484222325⟩

/-- Append a typed field. -/
def field {α : Type} [StableHash α] (value : α) (hasher : StateHasher) : StateHasher :=
  StableHash.hashInto value hasher

def writeByte (hasher : StateHasher) (byte : UInt8) : StateHasher :=
  ⟨(hasher.state ^^^ byte.toUInt64) * 0x100000001b3⟩

/-- Append raw bytes without framing. -/
def writeBytes (bytes : Bytes) (hasher : StateHasher) : StateHasher :=
  bytes.foldl writeByte hasher

def finish (hasher : StateHasher) : UInt64 := hasher.state

theorem state_writeByte (hasher : StateHasher) (byte : UInt8) :
    (hasher.writeByte byte).state = Fnv.step hasher.state byte := by
  unfold writeByte Fnv.step Fnv.prime
  rfl

/-- Bytes are folded by the steps of the hash. -/
theorem finish_writeBytes (bytes : Bytes) (hasher : StateHasher) :
    (hasher.writeBytes bytes).finish = bytes.foldl Fnv.step hasher.state := by
  unfold writeBytes finish
  induction bytes generalizing hasher with
  | nil => rfl
  | cons byte bytes ih => rw [List.foldl_cons, List.foldl_cons, ih, state_writeByte]

theorem writeBytes_nil (hasher : StateHasher) : hasher.writeBytes [] = hasher := rfl

/-- The boundaries of calls do not affect the fingerprint. -/
theorem writeBytes_append (front back : Bytes) (hasher : StateHasher) :
    hasher.writeBytes (front ++ back) = (hasher.writeBytes front).writeBytes back :=
  List.foldl_append

end StateHasher

/-- The fingerprint of a value. -/
def stableHash {α : Type} [StableHash α] (value : α) : UInt64 :=
  (StateHasher.new.field value).finish

/-! ## The provided types -/

/-- An integer is hashed as its little-endian bytes. -/
@[reducible]
def integer {α : Type} (width : Nat) (toNat : α → Nat) : StableHash α where
  hashInto value hasher := hasher.writeBytes (littleEndian width (toNat value))

/-- The integer types; those of 128 bits are taken as their bits. -/
inductive IntegerType
  | u8
  | u16
  | u32
  | u64
  | u128
  | i8
  | i16
  | i32
  | i64
  | i128
  deriving DecidableEq, Repr

namespace IntegerType

abbrev Value : IntegerType → Type
  | .u8 => UInt8
  | .u16 => UInt16
  | .u32 => UInt32
  | .u64 => UInt64
  | .u128 => BitVec 128
  | .i8 => Int8
  | .i16 => Int16
  | .i32 => Int32
  | .i64 => Int64
  | .i128 => BitVec 128

/-- The number of bytes. -/
def width : IntegerType → Nat
  | .u8 | .i8 => 1
  | .u16 | .i16 => 2
  | .u32 | .i32 => 4
  | .u64 | .i64 => 8
  | .u128 | .i128 => 16

/-- The two's complement bits as a number. -/
def toNat : (type : IntegerType) → type.Value → Nat
  | .u8, value => UInt8.toNat value
  | .u16, value => UInt16.toNat value
  | .u32, value => UInt32.toNat value
  | .u64, value => UInt64.toNat value
  | .u128, value => BitVec.toNat value
  | .i8, value => (Int8.toUInt8 value).toNat
  | .i16, value => (Int16.toUInt16 value).toNat
  | .i32, value => (Int32.toUInt32 value).toNat
  | .i64, value => (Int64.toUInt64 value).toNat
  | .i128, value => BitVec.toNat value

theorem width_pos (type : IntegerType) : 0 < type.width := by
  cases type <;> decide

theorem toNat_lt (type : IntegerType) (value : type.Value) :
    type.toNat value < 256 ^ type.width := by
  cases type with
  | u8 => exact UInt8.toNat_lt value
  | u16 => exact UInt16.toNat_lt value
  | u32 => exact UInt32.toNat_lt value
  | u64 => exact UInt64.toNat_lt value
  | u128 => exact BitVec.isLt value
  | i8 => exact UInt8.toNat_lt (Int8.toUInt8 value)
  | i16 => exact UInt16.toNat_lt (Int16.toUInt16 value)
  | i32 => exact UInt32.toNat_lt (Int32.toUInt32 value)
  | i64 => exact UInt64.toNat_lt (Int64.toUInt64 value)
  | i128 => exact BitVec.isLt value

theorem toNat_injective (type : IntegerType) : Function.Injective type.toNat := by
  intro value other same
  cases type with
  | u8 => exact UInt8.toNat_inj.mp same
  | u16 => exact UInt16.toNat_inj.mp same
  | u32 => exact UInt32.toNat_inj.mp same
  | u64 => exact UInt64.toNat_inj.mp same
  | u128 => exact BitVec.eq_of_toNat_eq same
  | i8 => exact congrArg UInt8.toInt8 (UInt8.toNat_inj.mp same)
  | i16 => exact congrArg UInt16.toInt16 (UInt16.toNat_inj.mp same)
  | i32 => exact congrArg UInt32.toInt32 (UInt32.toNat_inj.mp same)
  | i64 => exact congrArg UInt64.toInt64 (UInt64.toNat_inj.mp same)
  | i128 => exact BitVec.eq_of_toNat_eq same

@[reducible]
def hashing (type : IntegerType) : StableHash type.Value := integer type.width type.toNat

end IntegerType

instance : StableHash UInt8 := IntegerType.u8.hashing

instance : StableHash UInt32 := IntegerType.u32.hashing

instance : StableHash UInt64 := IntegerType.u64.hashing

instance : StableHash Bool where
  hashInto value hasher := hasher.field (if value then 1 else 0 : UInt8)

/-- A single-precision float, as its exact bits. -/
structure F32 where
  toBits : UInt32
  deriving DecidableEq, Repr

/-- A double-precision float, as its exact bits. -/
structure F64 where
  toBits : UInt64
  deriving DecidableEq, Repr

instance : StableHash F32 where
  hashInto value hasher := hasher.field value.toBits

instance : StableHash F64 where
  hashInto value hasher := hasher.field value.toBits

instance : StableHash Unit where
  hashInto _ hasher := hasher

/-- A string; lengths fit 64 bits on every supported target. -/
structure Str where
  text : String
  addressable : (utf8 text).length < 2 ^ 64

instance : StableHash Str where
  hashInto value hasher :=
    (hasher.field (UInt64.ofNat (utf8 value.text).length)).writeBytes (utf8 value.text)

/-- A slice or a vector. -/
abbrev Slice (α : Type) := Sized α (· < 2 ^ 64)

/-- An array. -/
abbrev FixedArray (α : Type) (count : UInt64) := Sized α (· = count.toNat)

def FixedArray.asSlice {α : Type} {count : UInt64} (array : FixedArray α count) : Slice α where
  values := array.values
  admissible := by
    rw [array.admissible]
    exact count.toNat_lt

section Collections

variable {α : Type}

/-- A sequence is hashed as its count and its elements. -/
@[reducible]
def slice (element : StableHash α) : StableHash (Slice α) where
  hashInto sequence hasher :=
    sequence.values.foldl (fun hasher value => hasher.field value)
      (hasher.field (UInt64.ofNat sequence.values.length))

/-- A vector is hashed as the slice of its elements. -/
instance [StableHash α] : StableHash (List α) where
  hashInto values hasher :=
    values.foldl (fun hasher value => hasher.field value)
      (hasher.field (UInt64.ofNat values.length))

@[reducible]
def fixedArray (count : UInt64) (element : StableHash α) : StableHash (FixedArray α count) where
  hashInto array hasher := (slice element).hashInto array.asSlice hasher

@[reducible]
def option (element : StableHash α) : StableHash (Option α) where
  hashInto
    | none, hasher => hasher.field (0 : UInt8)
    | some value, hasher => (hasher.field (1 : UInt8)).field value

/-- A reference is hashed as what it refers to. -/
@[reducible]
def reference (target : StableHash α) : StableHash α where
  hashInto value hasher := target.hashInto value hasher

end Collections

/-! ## Derived types -/

section Derived

variable {α β : Type}

/-- A struct after its last field. -/
@[reducible]
def noHashedField : StableHash Unit where
  hashInto _ hasher := hasher

/-- The fields of a struct or a tuple, in declaration order. -/
@[reducible]
def hashedField (first : StableHash α) (rest : StableHash β) : StableHash (α × β) where
  hashInto value hasher := rest.hashInto value.2 (hasher.field value.1)

/-- A skipped field contributes nothing and need not be hashable. -/
@[reducible]
def skippedField (rest : StableHash β) : StableHash (α × β) where
  hashInto value hasher := rest.hashInto value.2 hasher

@[reducible]
def noHashedArm : StableHash Empty where
  hashInto := Empty.elim

/-- The arm of one variant, before the others: its tag, and then its fields. -/
@[reducible]
def hashedArm (tag : UInt8) (fields : StableHash α) (rest : StableHash β) :
    StableHash (α ⊕ β) where
  hashInto
    | .inl values, hasher => fields.hashInto values (hasher.field tag)
    | .inr value, hasher => rest.hashInto value hasher

end Derived

namespace Hashing

mutual

/-- The types whose hashing is provided, and those for which it is derived. A skipped field is of
any type. -/
inductive Schema : Type 1
  | integer (type : IntegerType)
  | bool
  | f32
  | f64
  | unit
  | str
  | slice (element : Schema)
  | array (count : UInt64) (element : Schema)
  | option (element : Schema)
  | reference (target : Schema)
  | struct (fields : Fields)
  | enum (variants : Variants)

inductive Fields : Type 1
  | nil
  | cons (first : Schema) (rest : Fields)
  | skipped (α : Type) (rest : Fields)

inductive Variants : Type 1
  | nil
  | cons (tag : UInt8) (fields : Fields) (rest : Variants)

end

mutual

/-- The values of a schema; a struct is the tuple of its fields, an enum the sum of its variants. -/
def Schema.Value : Schema → Type
  | .integer type => type.Value
  | .bool => Bool
  | .f32 => F32
  | .f64 => F64
  | .unit => Unit
  | .str => Str
  | .slice element => Slice element.Value
  | .array count element => FixedArray element.Value count
  | .option element => Option element.Value
  | .reference target => target.Value
  | .struct fields => fields.Values
  | .enum variants => variants.Value

def Fields.Values : Fields → Type
  | .nil => Unit
  | .cons first rest => first.Value × rest.Values
  | .skipped α rest => α × rest.Values

def Variants.Value : Variants → Type
  | .nil => Empty
  | .cons _ fields rest => fields.Values ⊕ rest.Value

end

mutual

/-- How the values of a schema are hashed. -/
@[reducible]
def Schema.hashing : (schema : Schema) → StableHash schema.Value
  | .integer type => type.hashing
  | .bool => (inferInstance : StableHash Bool)
  | .f32 => (inferInstance : StableHash F32)
  | .f64 => (inferInstance : StableHash F64)
  | .unit => (inferInstance : StableHash Unit)
  | .str => (inferInstance : StableHash Str)
  | .slice element => Synctick.slice element.hashing
  | .array count element => fixedArray count element.hashing
  | .option element => Synctick.option element.hashing
  | .reference target => Synctick.reference target.hashing
  | .struct fields => fields.hashing
  | .enum variants => variants.hashing

@[reducible]
def Fields.hashing : (fields : Fields) → StableHash fields.Values
  | .nil => noHashedField
  | .cons first rest => hashedField first.hashing rest.hashing
  | .skipped _ rest => skippedField rest.hashing

@[reducible]
def Variants.hashing : (variants : Variants) → StableHash variants.Value
  | .nil => noHashedArm
  | .cons tag fields rest => hashedArm tag fields.hashing rest.hashing

end

instance (schema : Schema) : StableHash schema.Value := schema.hashing

def Variants.tags : Variants → List UInt8
  | .nil => []
  | .cons tag _ rest => tag :: rest.tags

mutual

/-- Every enum has distinct tags, which the derive macro checks. -/
def Schema.distinct : Schema → Bool
  | .slice element => element.distinct
  | .array _ element => element.distinct
  | .option element => element.distinct
  | .reference target => target.distinct
  | .struct fields => fields.distinct
  | .enum variants => decide variants.tags.Nodup && variants.distinct
  | _ => true

def Fields.distinct : Fields → Bool
  | .nil => true
  | .cons first rest => first.distinct && rest.distinct
  | .skipped _ rest => rest.distinct

def Variants.distinct : Variants → Bool
  | .nil => true
  | .cons _ fields rest => fields.distinct && rest.distinct

end

end Hashing

end Synctick
