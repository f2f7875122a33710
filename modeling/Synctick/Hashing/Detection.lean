import Synctick.Hashing.Unambiguous

/-! # Changes of one byte

A fingerprint sees every change of a state that changes one byte of its representation. The rest of
a state is a context: what surrounds one hashed field in it.
-/

namespace Synctick

namespace Hashing

mutual

/-- A value of a schema without one hashed part of it. -/
inductive Context (hole : Schema) : Schema → Type 1
  | here : Context hole hole
  | element {element : Schema} (front back : List element.Value)
      (addressable : front.length + 1 + back.length < 2 ^ 64) (inner : Context hole element) :
      Context hole (.slice element)
  | item {count : UInt64} {element : Schema} (front back : List element.Value)
      (exact : front.length + 1 + back.length = count.toNat) (inner : Context hole element) :
      Context hole (.array count element)
  | some {element : Schema} (inner : Context hole element) : Context hole (.option element)
  | referent {target : Schema} (inner : Context hole target) : Context hole (.reference target)
  | member {fields : Fields} (inner : FieldsContext hole fields) : Context hole (.struct fields)
  | payload {variants : Variants} (inner : VariantsContext hole variants) :
      Context hole (.enum variants)

inductive FieldsContext (hole : Schema) : Fields → Type 1
  | first {first : Schema} {rest : Fields} (inner : Context hole first) (values : rest.Values) :
      FieldsContext hole (.cons first rest)
  | later {first : Schema} {rest : Fields} (value : first.Value)
      (inner : FieldsContext hole rest) : FieldsContext hole (.cons first rest)
  | past {α : Type} {rest : Fields} (value : α) (inner : FieldsContext hole rest) :
      FieldsContext hole (.skipped α rest)

inductive VariantsContext (hole : Schema) : Variants → Type 1
  | this {tag : UInt8} {fields : Fields} {rest : Variants} (inner : FieldsContext hole fields) :
      VariantsContext hole (.cons tag fields rest)
  | other {tag : UInt8} {fields : Fields} {rest : Variants} (inner : VariantsContext hole rest) :
      VariantsContext hole (.cons tag fields rest)

end

variable {hole : Schema}

/-- A sequence with one more element between others. -/
def splice {α : Type} {sized : Nat → Prop} (front back : List α)
    (admissible : sized (front.length + 1 + back.length)) (value : α) : Sized α sized where
  values := front ++ value :: back
  admissible := by
    rw [List.length_append, List.length_cons, Nat.add_comm back.length 1, ← Nat.add_assoc]
    exact admissible

mutual

/-- The value with this part. -/
def Context.plug {schema : Schema} : Context hole schema → hole.Value → schema.Value
  | .here, value => value
  | .element front back addressable inner, value =>
      splice front back addressable (inner.plug value)
  | .item front back exact inner, value => splice front back exact (inner.plug value)
  | .some inner, value => Option.some (inner.plug value)
  | .referent inner, value => inner.plug value
  | .member inner, value => inner.plug value
  | .payload inner, value => inner.plug value

def FieldsContext.plug {fields : Fields} : FieldsContext hole fields → hole.Value → fields.Values
  | .first inner values, value => (inner.plug value, values)
  | .later earlier inner, value => (earlier, inner.plug value)
  | .past earlier inner, value => (earlier, inner.plug value)

def VariantsContext.plug {variants : Variants} :
    VariantsContext hole variants → hole.Value → variants.Value
  | .this inner, value => .inl (inner.plug value)
  | .other inner, value => .inr (inner.plug value)

end

/-- What shows the part stands between what shows the rest. -/
def Surrounds {α β : Type} (inner : Framing α UInt8) (outer : Framing β UInt8) (plug : α → β) :
    Prop :=
  ∃ front back, ∀ value, outer.repr (plug value) = front ++ (inner.repr value ++ back)

section Parts

variable {α β γ : Type} {inner : Framing α UInt8} {outer : Framing β UInt8} {plug : α → β}

/-- An element stands between those before it and those after it. -/
theorem surrounds_splice {sized : Nat → Prop} {header : Nat → Bytes} {front back : List β}
    {admissible : sized (front.length + 1 + back.length)} (within : Surrounds inner outer plug) :
    Surrounds inner (outer.counted sized header)
      fun value => splice front back admissible (plug value) := by
  obtain ⟨before, after, shows⟩ := within
  refine ⟨header (front.length + (back.length + 1)) ++ (front.flatMap outer.repr ++ before),
    after ++ back.flatMap outer.repr, ?_⟩
  intro value
  change header (front ++ plug value :: back).length ++
    (front ++ plug value :: back).flatMap outer.repr = _
  rw [List.length_append, List.length_cons, List.flatMap_append, List.flatMap_cons, shows]
  simp only [List.append_assoc]

/-- A value stands behind the tag of its option. -/
theorem surrounds_some {absent present : UInt8} (within : Surrounds inner outer plug) :
    Surrounds inner (outer.optional absent present) fun value => Option.some (plug value) := by
  obtain ⟨before, after, shows⟩ := within
  refine ⟨present :: before, after, ?_⟩
  intro value
  change present :: outer.repr (plug value) = _
  rw [shows]
  rfl

/-- A field stands before the others. -/
theorem surrounds_first {rest : Framing γ UInt8} {values : γ}
    (within : Surrounds inner outer plug) :
    Surrounds inner (outer.pair rest) fun value => (plug value, values) := by
  obtain ⟨before, after, shows⟩ := within
  refine ⟨before, after ++ rest.repr values, ?_⟩
  intro value
  change outer.repr (plug value) ++ rest.repr values = _
  rw [shows]
  simp only [List.append_assoc]

/-- A later field stands behind those before it. -/
theorem surrounds_later {first : Framing γ UInt8} {earlier : γ}
    (within : Surrounds inner outer plug) :
    Surrounds inner (first.pair outer) fun value => (earlier, plug value) := by
  obtain ⟨before, after, shows⟩ := within
  refine ⟨first.repr earlier ++ before, after, ?_⟩
  intro value
  change first.repr earlier ++ outer.repr (plug value) = _
  rw [shows, List.append_assoc]

/-- The fields of a variant stand behind its tag. -/
theorem surrounds_this {tag : UInt8} {rest : Framing γ UInt8}
    (within : Surrounds inner outer plug) :
    Surrounds inner (outer.arm tag rest) fun value => .inl (plug value) := by
  obtain ⟨before, after, shows⟩ := within
  refine ⟨tag :: before, after, ?_⟩
  intro value
  change tag :: outer.repr (plug value) = _
  rw [shows]
  rfl

/-- A variant stands where the enum does. -/
theorem surrounds_other {tag : UInt8} {payload : Framing γ UInt8}
    (within : Surrounds inner outer plug) :
    Surrounds inner (payload.arm tag outer) fun value => .inr (plug value) := within

end Parts

mutual

/-- What is hashed around a hole does not depend on what fills it. -/
theorem Context.surrounds {schema : Schema} : (context : Context hole schema) →
    Surrounds hole.framing schema.framing context.plug
  | .here => ⟨[], [], fun _ => (List.append_nil _).symm⟩
  | .element _ _ _ inner => surrounds_splice inner.surrounds
  | .item _ _ _ inner => surrounds_splice inner.surrounds
  | .some inner => surrounds_some inner.surrounds
  | .referent inner => inner.surrounds
  | .member inner => inner.surrounds
  | .payload inner => inner.surrounds

theorem FieldsContext.surrounds {fields : Fields} : (context : FieldsContext hole fields) →
    Surrounds hole.framing fields.framing context.plug
  | .first inner _ => surrounds_first inner.surrounds
  | .later _ inner => surrounds_later inner.surrounds
  | .past _ inner => surrounds_later inner.surrounds

theorem VariantsContext.surrounds {variants : Variants} :
    (context : VariantsContext hole variants) →
    Surrounds hole.framing variants.framing context.plug
  | .this inner => surrounds_this inner.surrounds
  | .other inner => surrounds_other inner.surrounds

end

/-- A change of one byte of a part changes one byte of the whole. -/
theorem Context.edit {schema : Schema} (context : Context hole schema) {value other : hole.Value}
    (edit : Edit (hole.framing.repr value) (hole.framing.repr other)) :
    Edit (schema.framing.repr (context.plug value)) (schema.framing.repr (context.plug other)) := by
  obtain ⟨front, back, shows⟩ := context.surrounds
  rw [shows, shows]
  exact edit.within front back

/-! ## Fields that change one byte -/

/-- Different bytes differ in one byte. -/
theorem edit_u8 {value other : UInt8} (different : value ≠ other) :
    Edit (littleEndian 1 value.toNat) (littleEndian 1 other.toNat) := by
  have shown (byte : UInt8) : littleEndian 1 byte.toNat = [byte] := by
    rw [littleEndian, littleEndian, UInt8.ofNat_toNat]
  rw [shown, shown]
  exact .one [] [] different

/-- So do different booleans. -/
theorem edit_bool {value other : Bool} (different : value ≠ other) :
    Edit [if value then (1 : UInt8) else 0] [if other then 1 else 0] := by
  apply Edit.one [] []
  intro same
  cases value <;> cases other
  · exact different rfl
  · exact absurd same (by decide)
  · exact absurd same (by decide)
  · exact different rfl

/-- A step of a counter changes its lowest byte alone, unless the byte carries. -/
theorem edit_step {width value : Nat} (wide : 0 < width) (stays : value % 256 ≠ 255) :
    Edit (littleEndian width value) (littleEndian width (value + 1)) := by
  obtain ⟨width, rfl⟩ := Nat.exists_eq_succ_of_ne_zero (Nat.pos_iff_ne_zero.mp wide)
  rw [littleEndian, littleEndian]
  have high : (value + 1) / 256 = value / 256 := by omega
  rw [high]
  apply Edit.one []
  intro same
  have numbers := congrArg UInt8.toNat same
  rw [UInt8.toNat_ofNat', UInt8.toNat_ofNat'] at numbers
  omega

/-- Different bytes at one place, from any state, give different fingerprints. A change of one
hashed field that changes one byte of its representation changes the fingerprint of the whole
state, whatever the rest of it is. Such changes are those between bytes, between booleans, between
the tags of alternatives of equal payloads, and the steps of a counter that do not carry. -/
theorem single_byte_detected :
    (∀ (hasher : StateHasher) (front back : Bytes) (byte other : UInt8), byte ≠ other →
      (hasher.writeBytes (front ++ [byte] ++ back)).finish ≠
        (hasher.writeBytes (front ++ [other] ++ back)).finish) ∧
    (∀ (hole schema : Schema) (rest : Context hole schema) (value other : hole.Value),
      Edit (hole.framing.repr value) (hole.framing.repr other) →
        stableHash (rest.plug value) ≠ stableHash (rest.plug other)) ∧
    (∀ value other : UInt8, value ≠ other →
      Edit ((Schema.integer .u8).framing.repr value) ((Schema.integer .u8).framing.repr other)) ∧
    (∀ value other : Bool, value ≠ other →
      Edit (Schema.bool.framing.repr value) (Schema.bool.framing.repr other)) ∧
    (∀ (schema : Schema) (value other : schema.Value) (tag tag' : UInt8) (payload : Bytes),
      schema.framing.repr value = tag :: payload → schema.framing.repr other = tag' :: payload →
        tag ≠ tag' → Edit (schema.framing.repr value) (schema.framing.repr other)) ∧
    (∀ (type : IntegerType) (value next : (Schema.integer type).Value),
      type.toNat next = type.toNat value + 1 → type.toNat value % 256 ≠ 255 →
        Edit ((Schema.integer type).framing.repr value)
          ((Schema.integer type).framing.repr next)) := by
  refine ⟨?_, ?_, fun _ _ => edit_u8, fun _ _ => edit_bool, ?_, ?_⟩
  · intro hasher front back byte other different
    rw [StateHasher.finish_writeBytes, StateHasher.finish_writeBytes, List.append_assoc,
      List.append_assoc]
    exact Fnv.foldl_step_ne (.one front back different) hasher.state
  · intro hole schema rest value other edit
    rw [stableHash_eq, stableHash_eq]
    exact Fnv.foldl_step_ne (rest.edit edit) Fnv.offsetBasis
  · intro schema value other tag tag' payload shown shown' different
    rw [shown, shown']
    exact .one [] payload different
  · intro type value next step stays
    change Edit (littleEndian type.width (type.toNat value))
      (littleEndian type.width (type.toNat next))
    rw [step]
    exact edit_step type.width_pos stays

/-- The first field of the tuple variant, beside the second. -/
def firstOfTuple (second : UInt16) : Context (.integer .u16) taggedSchema :=
  .payload (.other (.this (.first .here ((), second, ()))))

theorem single_byte_detected_counter :
    (firstOfTuple 7).plug (513 : UInt16) = taggedTuple 513 7 ∧
    stableHash (taggedTuple 513 7) ≠ stableHash (taggedTuple 514 7) ∧
    (StateHasher.new.writeBytes ([1] ++ [2] ++ [3])).finish ≠
      (StateHasher.new.writeBytes ([1] ++ [4] ++ [3])).finish := by
  obtain ⟨bytes, fields, _, _, _, steps⟩ := single_byte_detected
  refine ⟨rfl, ?_, bytes _ _ _ _ _ (by decide)⟩
  exact fields _ _ (firstOfTuple 7) (513 : UInt16) (514 : UInt16)
    (steps .u16 (513 : UInt16) (514 : UInt16) (by decide) (by decide))

end Hashing

end Synctick
