import Synctick.Codec.Bijection
import Synctick.Hashing

/-! # The canonical representation

What a value appends to the stream is one string of bytes, its representation. It tells all that
is hashed of the value, and where it ends: fingerprints only coincide when the hash collides.
-/

namespace Synctick

namespace Hashing

open Codec (utf8 utf8_injective littleEndian_injective)

mutual

/-- The representation of the values of a schema. A skipped field is not shown. -/
def Schema.framing : (schema : Schema) → Framing schema.Value UInt8
  | .integer type => .full fun value : type.Value => littleEndian type.width (type.toNat value)
  | .bool => .full fun value : Bool => [if value then 1 else 0]
  | .f32 => .full fun value : F32 => littleEndian 4 value.toBits.toNat
  | .f64 => .full fun value : F64 => littleEndian 8 value.toBits.toNat
  | .unit => .silent
  | .str => .full fun value : Str => littleEndian 8 (utf8 value.text).length ++ utf8 value.text
  | .slice element => element.framing.counted _ (littleEndian 8)
  | .array _ element => element.framing.counted _ (littleEndian 8)
  | .option element => element.framing.optional 0 1
  | .reference target => target.framing
  | .struct fields => fields.framing
  | .enum variants => variants.framing

def Fields.framing : (fields : Fields) → Framing fields.Values UInt8
  | .nil => .silent
  | .cons first rest => first.framing.pair rest.framing
  | .skipped _ rest => Framing.silent.pair rest.framing

def Variants.framing : (variants : Variants) → Framing variants.Value UInt8
  | .nil => .noArm
  | .cons tag fields rest => fields.framing.arm tag rest.framing

end

/-! ## Hashing writes the representation -/

/-- Hashing appends the representation. -/
def Writes {α : Type} (hashing : StableHash α) (framing : Framing α UInt8) : Prop :=
  ∀ value hasher, hashing.hashInto value hasher = hasher.writeBytes (framing.repr value)

/-- A tag is hashed as one byte. -/
theorem field_byte (byte : UInt8) (hasher : StateHasher) :
    hasher.field byte = hasher.writeBytes [byte] := by
  change hasher.writeBytes (littleEndian 1 byte.toNat) = _
  rw [littleEndian, littleEndian, UInt8.ofNat_toNat]

/-- A count is hashed as eight bytes. -/
theorem field_count {count : Nat} (addressable : count < 2 ^ 64) (hasher : StateHasher) :
    hasher.field (UInt64.ofNat count) = hasher.writeBytes (littleEndian 8 count) := by
  change hasher.writeBytes (littleEndian 8 (UInt64.ofNat count).toNat) = _
  rw [UInt64.toNat_ofNat_of_lt' addressable]

/-- An integer is hashed as the bytes of its width. -/
theorem writes_integer (type : IntegerType) :
    Writes type.hashing (.full fun value => littleEndian type.width (type.toNat value)) :=
  fun _ _ => rfl

/-- A boolean is hashed as one byte. -/
theorem writes_bool : Writes (inferInstance : StableHash Bool)
    (.full fun value : Bool => [if value then 1 else 0]) :=
  fun value hasher => field_byte (if value then 1 else 0) hasher

/-- A string is hashed with its length. -/
theorem writes_str : Writes (inferInstance : StableHash Str)
    (.full fun value : Str => littleEndian 8 (utf8 value.text).length ++ utf8 value.text) := by
  intro value hasher
  change (hasher.field (UInt64.ofNat (utf8 value.text).length)).writeBytes (utf8 value.text) =
    hasher.writeBytes (littleEndian 8 (utf8 value.text).length ++ utf8 value.text)
  rw [field_count value.addressable, StateHasher.writeBytes_append]

section Collections

variable {α β : Type} {hashing : StableHash α} {framing : Framing α UInt8}

/-- Hashing values one after another is hashing their representations in a row. -/
theorem foldl_field (writes : Writes hashing framing) (values : List α) (hasher : StateHasher) :
    values.foldl (fun hasher value => hasher.field value) hasher =
      hasher.writeBytes (values.flatMap framing.repr) := by
  induction values generalizing hasher with
  | nil => exact (StateHasher.writeBytes_nil hasher).symm
  | cons value values ih =>
      rw [List.foldl_cons, ih, List.flatMap_cons, StateHasher.writeBytes_append]
      exact congrArg (StateHasher.writeBytes _) (writes value hasher)

/-- A slice is hashed as its length and its elements. -/
theorem writes_slice (writes : Writes hashing framing) :
    Writes (slice hashing) (framing.counted _ (littleEndian 8)) := by
  intro sequence hasher
  change sequence.values.foldl (fun hasher value => hasher.field value)
      (hasher.field (UInt64.ofNat sequence.values.length)) =
    hasher.writeBytes (littleEndian 8 sequence.values.length ++
      sequence.values.flatMap framing.repr)
  rw [field_count sequence.admissible, foldl_field writes, StateHasher.writeBytes_append]

/-- So is an array. -/
theorem writes_array {count : UInt64} (writes : Writes hashing framing) :
    Writes (fixedArray count hashing) (framing.counted _ (littleEndian 8)) :=
  fun array hasher => writes_slice writes array.asSlice hasher

/-- An option is hashed as a tag, and its value where it has one. -/
theorem writes_option (writes : Writes hashing framing) :
    Writes (option hashing) (framing.optional 0 1) := by
  intro value hasher
  cases value with
  | none => exact field_byte 0 hasher
  | some value =>
      change hashing.hashInto value (hasher.field (1 : UInt8)) =
        hasher.writeBytes ([1] ++ framing.repr value)
      rw [writes, field_byte, StateHasher.writeBytes_append]

/-- The fields of a struct are hashed one after another. -/
theorem writes_hashedField {rest : StableHash β} {others : Framing β UInt8}
    (writes : Writes hashing framing) (writes' : Writes rest others) :
    Writes (hashedField hashing rest) (framing.pair others) := by
  intro value hasher
  change rest.hashInto value.2 (hashing.hashInto value.1 hasher) =
    hasher.writeBytes (framing.repr value.1 ++ others.repr value.2)
  rw [writes, writes', StateHasher.writeBytes_append]

/-- A skipped field leaves no trace. -/
theorem writes_skippedField {rest : StableHash β} {others : Framing β UInt8}
    (writes : Writes rest others) :
    Writes (skippedField rest : StableHash (α × β)) (Framing.silent.pair others) :=
  fun value hasher => writes value.2 hasher

/-- A variant is hashed as its tag and its fields. -/
theorem writes_hashedArm {tag : UInt8} {rest : StableHash β} {others : Framing β UInt8}
    (writes : Writes hashing framing) (writes' : Writes rest others) :
    Writes (hashedArm tag hashing rest) (framing.arm tag others) := by
  intro value hasher
  cases value with
  | inl values =>
      change hashing.hashInto values (hasher.field tag) =
        hasher.writeBytes ([tag] ++ framing.repr values)
      rw [writes, field_byte, StateHasher.writeBytes_append]
  | inr value => exact writes' value hasher

end Collections

mutual

/-- Every value is hashed by writing its representation. -/
theorem Schema.writes : (schema : Schema) → Writes schema.hashing schema.framing
  | .integer type => writes_integer type
  | .bool => writes_bool
  | .f32 => fun _ _ => rfl
  | .f64 => fun _ _ => rfl
  | .unit => fun _ _ => rfl
  | .str => writes_str
  | .slice element => writes_slice element.writes
  | .array _ element => writes_array element.writes
  | .option element => writes_option element.writes
  | .reference target => target.writes
  | .struct fields => fields.writes
  | .enum variants => variants.writes

/-- The fields of a struct are hashed by writing theirs. -/
theorem Fields.writes : (fields : Fields) → Writes fields.hashing fields.framing
  | .nil => fun _ _ => rfl
  | .cons first rest => writes_hashedField first.writes rest.writes
  | .skipped _ rest => writes_skippedField rest.writes

/-- So are the variants of an enum. -/
theorem Variants.writes : (variants : Variants) → Writes variants.hashing variants.framing
  | .nil => fun value => value.elim
  | .cons _ fields rest => writes_hashedArm fields.writes rest.writes

end

/-- The fingerprint of a value is the hash of its representation. -/
theorem stableHash_eq (schema : Schema) (value : schema.Value) :
    stableHash value = Fnv.hash (schema.framing.repr value) := by
  change (schema.hashing.hashInto value .new).finish = _
  rw [schema.writes value .new, StateHasher.finish_writeBytes]
  rfl

/-! ## The representation is unambiguous -/

/-- Numbers within a width are told apart by their bytes. -/
theorem unambiguous_littleEndian {α : Type} {width : Nat} {toNat : α → Nat}
    (bounded : ∀ value, toNat value < 256 ^ width) (injective : Function.Injective toNat) :
    (Framing.full fun value => littleEndian width (toNat value)).Unambiguous := by
  apply Framing.unambiguous_full
  · intro value other
    rw [length_littleEndian, length_littleEndian]
  · intro value other same
    exact injective (littleEndian_injective (bounded value) (bounded other) same)

/-- A boolean is told by its byte. -/
theorem unambiguous_bool :
    (Framing.full fun value : Bool => [if value then (1 : UInt8) else 0]).Unambiguous := by
  apply Framing.unambiguous_full
  · intro _ _
    rfl
  · decide

/-- A string is told by its length and its bytes. -/
theorem unambiguous_str : (Framing.full fun value : Str =>
    littleEndian 8 (utf8 value.text).length ++ utf8 value.text).Unambiguous := by
  intro value other left more
  constructor
  · intro same
    change (littleEndian 8 _ ++ utf8 value.text) ++ left =
      (littleEndian 8 _ ++ utf8 other.text) ++ more at same
    rw [List.append_assoc, List.append_assoc] at same
    obtain ⟨counts, same⟩ := List.append_inj same (by
      rw [length_littleEndian, length_littleEndian])
    obtain ⟨texts, left⟩ := List.append_inj same
      (littleEndian_injective value.addressable other.addressable counts)
    refine ⟨?_, left⟩
    cases value
    cases other
    cases utf8_injective texts
    rfl
  · rintro ⟨rfl, rfl⟩
    rfl

/-- A count that is addressable frames a sequence. -/
theorem unambiguous_sequence {α : Type} {sized : Nat → Prop} {element : Framing α UInt8}
    (addressable : ∀ count, sized count → count < 2 ^ 64) (sound : element.Unambiguous) :
    (element.counted sized (littleEndian 8)).Unambiguous := by
  refine Framing.unambiguous_counted ?_ ?_ sound
  · intro count other
    rw [length_littleEndian, length_littleEndian]
  · intro count other admissible admissible' same
    exact littleEndian_injective (addressable count admissible) (addressable other admissible') same

/-- The representation of a variant begins with one of the tags. -/
theorem Variants.tagged (variants : Variants) : variants.framing.Tagged variants.tags := by
  cases variants with
  | nil => exact Framing.tagged_noArm
  | cons tag fields rest => exact Framing.tagged_arm tag fields.framing rest.tagged

mutual

/-- A representation tells what is hashed of a value, and where it ends. -/
theorem Schema.unambiguous : (schema : Schema) → schema.distinct = true →
    schema.framing.Unambiguous
  | .integer type, _ => unambiguous_littleEndian type.toNat_lt type.toNat_injective
  | .bool, _ => unambiguous_bool
  | .f32, _ => unambiguous_littleEndian (fun value : F32 => value.toBits.toNat_lt) (by
      rintro ⟨value⟩ ⟨other⟩ same
      exact congrArg F32.mk (UInt32.toNat_inj.mp same))
  | .f64, _ => unambiguous_littleEndian (fun value : F64 => value.toBits.toNat_lt) (by
      rintro ⟨value⟩ ⟨other⟩ same
      exact congrArg F64.mk (UInt64.toNat_inj.mp same))
  | .unit, _ => Framing.unambiguous_silent
  | .str, _ => unambiguous_str
  | .slice element, distinct => unambiguous_sequence (fun _ small => small) (element.unambiguous distinct)
  | .array count element, distinct =>
      unambiguous_sequence (fun _ exact => exact ▸ count.toNat_lt) (element.unambiguous distinct)
  | .option element, distinct =>
      Framing.unambiguous_optional (by decide) (element.unambiguous distinct)
  | .reference target, distinct => target.unambiguous distinct
  | .struct fields, distinct => fields.unambiguous distinct
  | .enum variants, distinct => by
      obtain ⟨tags, sound⟩ := Bool.and_eq_true_iff.mp distinct
      exact variants.unambiguous (of_decide_eq_true tags) sound

/-- So does that of the fields of a struct. -/
theorem Fields.unambiguous : (fields : Fields) → fields.distinct = true →
    fields.framing.Unambiguous
  | .nil, _ => Framing.unambiguous_silent
  | .cons first rest, distinct =>
      Framing.unambiguous_pair (first.unambiguous (Bool.and_eq_true_iff.mp distinct).1)
        (rest.unambiguous (Bool.and_eq_true_iff.mp distinct).2)
  | .skipped _ rest, distinct =>
      Framing.unambiguous_pair Framing.unambiguous_silent (rest.unambiguous distinct)

/-- Distinct tags tell the variants of an enum apart. -/
theorem Variants.unambiguous : (variants : Variants) → variants.tags.Nodup →
    variants.distinct = true → variants.framing.Unambiguous
  | .nil, _, _ => Framing.unambiguous_noArm
  | .cons _ fields rest, tags, distinct =>
      Framing.unambiguous_arm (fields.unambiguous (Bool.and_eq_true_iff.mp distinct).1)
        (rest.unambiguous (List.nodup_cons.mp tags).2 (Bool.and_eq_true_iff.mp distinct).2)
        rest.tagged (List.nodup_cons.mp tags).1

end

/-! ## What the representation shows -/

mutual

/-- No field is skipped. -/
def Schema.whole : Schema → Bool
  | .slice element => element.whole
  | .array _ element => element.whole
  | .option element => element.whole
  | .reference target => target.whole
  | .struct fields => fields.whole
  | .enum variants => variants.whole
  | _ => true

def Fields.whole : Fields → Bool
  | .nil => true
  | .cons first rest => first.whole && rest.whole
  | .skipped _ _ => false

def Variants.whole : Variants → Bool
  | .nil => true
  | .cons _ fields rest => fields.whole && rest.whole

end

mutual

/-- Where nothing is skipped, only equal values agree. -/
theorem Schema.faithful : (schema : Schema) → schema.whole = true →
    schema.framing.Faithful
  | .integer _, _ => fun _ _ => Iff.rfl
  | .bool, _ => fun _ _ => Iff.rfl
  | .f32, _ => fun _ _ => Iff.rfl
  | .f64, _ => fun _ _ => Iff.rfl
  | .unit, _ => fun _ _ => iff_of_true trivial rfl
  | .str, _ => fun _ _ => Iff.rfl
  | .slice element, whole => Framing.faithful_counted (element.faithful whole)
  | .array _ element, whole => Framing.faithful_counted (element.faithful whole)
  | .option element, whole => Framing.faithful_optional (element.faithful whole)
  | .reference target, whole => target.faithful whole
  | .struct fields, whole => fields.faithful whole
  | .enum variants, whole => variants.faithful whole

theorem Fields.faithful : (fields : Fields) → fields.whole = true →
    fields.framing.Faithful
  | .nil, _ => fun _ _ => iff_of_true trivial rfl
  | .cons first rest, whole =>
      Framing.faithful_pair (first.faithful (Bool.and_eq_true_iff.mp whole).1)
        (rest.faithful (Bool.and_eq_true_iff.mp whole).2)

theorem Variants.faithful : (variants : Variants) → variants.whole = true →
    variants.framing.Faithful
  | .nil, _ => fun value => value.elim
  | .cons _ fields rest, whole =>
      Framing.faithful_arm (fields.faithful (Bool.and_eq_true_iff.mp whole).1)
        (rest.faithful (Bool.and_eq_true_iff.mp whole).2)

end

/-! ## Fingerprints -/

/-- The fields of a struct that are hashed, each with its type. -/
def Fields.parts : (fields : Fields) → fields.Values → List (Σ schema : Schema, schema.Value)
  | .nil, _ => []
  | .cons first rest, (value, values) => ⟨first, value⟩ :: rest.parts values
  | .skipped _ rest, (_, values) => rest.parts values

/-- A struct or a tuple is hashed as its fields one by one. -/
theorem Fields.hashInto_eq (fields : Fields) (values : fields.Values) (hasher : StateHasher) :
    fields.hashing.hashInto values hasher =
      (fields.parts values).foldl (fun hasher part => hasher.field part.2) hasher := by
  match fields, values with
  | .nil, _ => rfl
  | .cons first rest, (value, values) => exact rest.hashInto_eq values (hasher.field value)
  | .skipped _ rest, (_, values) => exact rest.hashInto_eq values hasher

/-- Bytes that are written in pieces are written at once. -/
theorem foldl_writeBytes (pieces : List Bytes) (hasher : StateHasher) :
    pieces.foldl (fun hasher bytes => hasher.writeBytes bytes) hasher =
      hasher.writeBytes pieces.flatten := by
  induction pieces generalizing hasher with
  | nil => exact (StateHasher.writeBytes_nil hasher).symm
  | cons bytes pieces ih =>
      rw [List.foldl_cons, ih, List.flatten_cons, StateHasher.writeBytes_append]

/-- The fingerprint of a value is the hash of its representation, however the writes of it are
split; a struct is hashed as its fields one by one; and the representation tells all that is hashed
of a value and where it ends. Values share a fingerprint only when they agree on all that is hashed,
or when the hash of two different strings collides. -/
theorem hashing_canonical (schema : Schema) (distinct : schema.distinct = true) :
    (∀ value : schema.Value, stableHash value = Fnv.hash (schema.framing.repr value)) ∧
    (∀ (value : schema.Value) (pieces : List Bytes),
      pieces.flatten = schema.framing.repr value → stableHash value =
        (pieces.foldl (fun hasher bytes => hasher.writeBytes bytes) StateHasher.new).finish) ∧
    (∀ (fields : Fields) (values : (Schema.struct fields).Value),
      stableHash values = ((fields.parts values).foldl (fun hasher part => hasher.field part.2)
        StateHasher.new).finish) ∧
    (∀ (value other : schema.Value) (left more : Bytes),
      schema.framing.repr value ++ left = schema.framing.repr other ++ more ↔
        schema.framing.Agrees value other ∧ left = more) ∧
    (schema.whole = true → ∀ value other : schema.Value,
      schema.framing.Agrees value other ↔ value = other) ∧
    (∀ value other : schema.Value, stableHash value = stableHash other →
      schema.framing.Agrees value other ∨
        (schema.framing.repr value ≠ schema.framing.repr other ∧
          Fnv.hash (schema.framing.repr value) = Fnv.hash (schema.framing.repr other))) := by
  have sound := schema.unambiguous distinct
  refine ⟨stableHash_eq schema, ?_, ?_, sound, schema.faithful, ?_⟩
  · intro value pieces split
    rw [foldl_writeBytes, split, StateHasher.finish_writeBytes, stableHash_eq]
    rfl
  · intro fields values
    exact congrArg StateHasher.finish (fields.hashInto_eq values .new)
  · intro value other same
    by_cases shown : schema.framing.repr value = schema.framing.repr other
    · exact .inl (sound.repr_eq_iff.mp shown)
    · rw [stableHash_eq, stableHash_eq] at same
      exact .inr ⟨shown, same⟩

/-- An enum of a unit variant, a tuple variant and a variant of nested sequences. -/
def taggedSchema : Schema :=
  .enum (.cons 9 .nil
    (.cons 2 (.cons (.integer .u16) (.skipped Unit (.cons (.integer .u16) .nil)))
      (.cons 255 (.cons (.slice (.slice (.integer .u16))) .nil) .nil)))

/-- The tuple variant with these fields. -/
def taggedTuple (first second : UInt16) : taggedSchema.Value := .inr (.inl (first, (), second, ()))

theorem hashing_canonical_tagged : taggedSchema.distinct = true ∧
    stableHash (taggedTuple 513 7) = Fnv.hash [2, 1, 2, 7, 0] ∧
    ∀ left more : Bytes,
      [2, 1, 2, 7, 0] ++ left ≠ taggedSchema.framing.repr (taggedTuple 513 8) ++ more := by
  obtain ⟨hashed, _, _, free, _⟩ := hashing_canonical taggedSchema rfl
  have shown : taggedSchema.framing.repr (taggedTuple 513 7) = [2, 1, 2, 7, 0] := by decide
  refine ⟨rfl, ?_, ?_⟩
  · rw [hashed, shown]
  · intro left more same
    rw [← shown] at same
    obtain ⟨_, _, second, _⟩ := ((free _ _ _ _).mp same).1
    have unequal : (7 : UInt16) ≠ 8 := by decide
    exact unequal second

end Hashing

end Synctick
