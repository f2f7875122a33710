import Synctick.Codec.Collections
import Mathlib.Logic.Equiv.Defs

/-! # Derived wire types

The derive macro generates the three passes of a struct from its fields and of an enum
from its tagged variants. A schema is a type that is built this way from the types that
the codec provides, and `Schema.wire` are its generated passes.
-/

namespace Synctick

namespace Codec

/-- A struct after its last field. -/
@[reducible]
def noField : Wire Unit where
  minSize := 0
  validate := pure ()
  decode := pure ()
  encode _ := pure ()

/-- The fields of a struct, in declaration order. -/
@[reducible]
def field {α β : Type} (first : Wire α) (rest : Wire β) : Wire (α × β) where
  minSize := first.minSize + rest.minSize
  validate := do
    first.validate
    rest.validate
  decode := do
    let value ← first.decode
    let values ← rest.decode
    pure (value, values)
  encode value := do
    first.encode value.1
    rest.encode value.2

/-- The arms that an enum generates for its variants: the passes dispatch on a tag. -/
structure Arms (α : Type) where
  minSize : Nat
  validate : UInt8 → Effect CodecError Decoder Unit
  decode : UInt8 → Effect CodecError Decoder α
  encode : α → Effect CodecError Encoder Unit

/-- The arm of an unknown tag. -/
@[reducible]
def noArm : Arms Empty where
  minSize := 2 ^ 64 - 1
  validate _ := throw ⟨"unknown enum tag"⟩
  decode _ := throw ⟨"unknown enum tag"⟩
  encode := Empty.elim

/-- The arm of one variant, before the others. -/
@[reducible]
def arm {α β : Type} (tag : UInt8) (fields : Wire α) (rest : Arms β) : Arms (α ⊕ β) where
  minSize := min (1 + fields.minSize) rest.minSize
  validate found := if found = tag then fields.validate else rest.validate found
  decode found := if found = tag then Sum.inl <$> fields.decode else Sum.inr <$> rest.decode found
  encode
    | .inl values => do
        Wire.encode tag
        fields.encode values
    | .inr value => rest.encode value

/-- An enum reads its tag, and then the fields of the variant. -/
@[reducible]
def enumeration {α : Type} (arms : Arms α) : Wire α where
  minSize := arms.minSize
  validate := do
    let tag : UInt8 ← Wire.decode
    arms.validate tag
  decode := do
    let tag : UInt8 ← Wire.decode
    arms.decode tag
  encode := arms.encode

mutual

/-- The types that have a wire format. A vector knows how much memory one element takes. -/
inductive Schema
  | u8
  | u16
  | u32
  | u64
  | i32
  | i64
  | unit
  | string
  | vec (size : Nat) (element : Schema)
  | struct (fields : Fields)
  | enum (variants : Variants)

inductive Fields
  | nil
  | cons (first : Schema) (rest : Fields)

inductive Variants
  | nil
  | cons (tag : UInt8) (fields : Fields) (rest : Variants)

end

mutual

/-- The values of a schema; a struct is the tuple of its fields, an enum the sum of its variants. -/
def Schema.Value : Schema → Type
  | .u8 => UInt8
  | .u16 => UInt16
  | .u32 => UInt32
  | .u64 => UInt64
  | .i32 => Int32
  | .i64 => Int64
  | .unit => Unit
  | .string => String
  | .vec _ element => List element.Value
  | .struct fields => fields.Values
  | .enum variants => variants.Value

def Fields.Values : Fields → Type
  | .nil => Unit
  | .cons first rest => first.Value × rest.Values

def Variants.Value : Variants → Type
  | .nil => Empty
  | .cons _ fields rest => fields.Values ⊕ rest.Value

end

mutual

/-- The passes of a schema. -/
@[reducible]
def Schema.wire : (schema : Schema) → Wire schema.Value
  | .u8 => (inferInstance : Wire UInt8)
  | .u16 => (inferInstance : Wire UInt16)
  | .u32 => (inferInstance : Wire UInt32)
  | .u64 => (inferInstance : Wire UInt64)
  | .i32 => (inferInstance : Wire Int32)
  | .i64 => (inferInstance : Wire Int64)
  | .unit => (inferInstance : Wire Unit)
  | .string => (inferInstance : Wire String)
  | .vec size element => Codec.vec size element.wire
  | .struct fields => fields.wire
  | .enum variants => enumeration variants.arms

@[reducible]
def Fields.wire : (fields : Fields) → Wire fields.Values
  | .nil => noField
  | .cons first rest => field first.wire rest.wire

def Variants.arms : (variants : Variants) → Arms variants.Value
  | .nil => noArm
  | .cons tag fields rest => arm tag fields.wire rest.arms

end

def Variants.tags : Variants → List UInt8
  | .nil => []
  | .cons tag _ rest => tag :: rest.tags

def Fields.isEmpty : Fields → Bool
  | .nil => true
  | .cons _ _ => false

mutual

/-- What the derive macro accepts: structs with a field, and enums with a variant and with distinct
tags. -/
def Schema.derivable : Schema → Bool
  | .vec _ element => element.derivable
  | .struct fields => !fields.isEmpty && fields.derivable
  | .enum variants => !variants.tags.isEmpty && decide variants.tags.Nodup && variants.derivable
  | _ => true

def Fields.derivable : Fields → Bool
  | .nil => true
  | .cons first rest => first.derivable && rest.derivable

def Variants.derivable : Variants → Bool
  | .nil => true
  | .cons _ fields rest => fields.derivable && rest.derivable

end

instance (schema : Schema) : Wire schema.Value := schema.wire

/-- The wire instance of a type is the generated one: its values are those of the schema, and its
passes are the generated ones. -/
structure Generated (α : Type) [wire : Wire α] (schema : Schema) where
  values : α ≃ schema.Value
  minSize : wire.minSize = schema.wire.minSize
  validate : wire.validate = schema.wire.validate
  decode : wire.decode = values.symm <$> schema.wire.decode
  encode : ∀ value, wire.encode value = schema.wire.encode (values value)

/-- A schema generates its own values. -/
def Generated.self (schema : Schema) : Generated schema.Value schema where
  values := Equiv.refl _
  minSize := rfl
  validate := rfl
  decode := (id_map _).symm
  encode _ := rfl

/-- The wire instance that the macro derives for a type, whose values are those of its schema. -/
@[reducible]
def derived {α : Type} (schema : Schema) (values : α ≃ schema.Value) : Wire α where
  minSize := schema.wire.minSize
  validate := schema.wire.validate
  decode := values.symm <$> schema.wire.decode
  encode value := schema.wire.encode (values value)

/-- A derived instance is the generated one. -/
def Generated.derived {α : Type} (schema : Schema) (values : α ≃ schema.Value) :
    letI := Codec.derived schema values
    Generated α schema :=
  letI := Codec.derived schema values
  { values, minSize := rfl, validate := rfl, decode := rfl, encode := fun _ => rfl }

end Codec

end Synctick
