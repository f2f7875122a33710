import Synctick.Codec.Passes

/-! # The payload codec is a bijection

Each value of a derivable wire type has one accepted payload, and no accepted payload goes on
in another: the codes of a type are free of prefixes, once the tags of its enums are distinct.
-/

namespace Synctick

namespace Codec

open Effect

/-- No code is a prefix of another one. -/
def Meaning.PrefixFree {α : Type} (meaning : Meaning α) : Prop :=
  ∀ value other rest more, meaning.fits value → meaning.fits other →
    meaning.code value ++ rest = meaning.code other ++ more → value = other ∧ rest = more

/-- A number that fits its bytes is told by them. -/
theorem littleEndian_injective {width first second : Nat} (fits : first < 256 ^ width)
    (fits' : second < 256 ^ width) (same : littleEndian width first = littleEndian width second) :
    first = second := by
  have numbers := congrArg ofLittleEndian same
  rwa [ofLittleEndian_littleEndian_of_lt fits, ofLittleEndian_littleEndian_of_lt fits'] at numbers

/-- The codes of a scalar are free of prefixes: all are as wide. -/
theorem prefixFree_scalar {α : Type} {width : Nat} {toNat : α → Nat}
    (bounded : ∀ value, toNat value < 256 ^ width) (injective : Function.Injective toNat) :
    (Meaning.plain fun value => littleEndian width (toNat value)).PrefixFree := by
  intro value other rest more _ _ same
  obtain ⟨codes, left⟩ := List.append_inj same (by
    change (littleEndian width (toNat value)).length = (littleEndian width (toNat other)).length
    rw [length_littleEndian, length_littleEndian])
  exact ⟨injective (littleEndian_injective (bounded value) (bounded other) codes), left⟩

/-- So is a single code. -/
theorem prefixFree_const {code : Bytes} : (Meaning.plain fun _ : Unit => code).PrefixFree := by
  intro _ _ rest more _ _ same
  exact ⟨rfl, List.append_cancel_left same⟩

/-- Codes behind the same length of four bytes. -/
theorem length_append_inj {first second : Nat} {front back rest more : Bytes}
    (fits : first < 2 ^ 32) (fits' : second < 2 ^ 32)
    (same : (littleEndian 4 first ++ front) ++ rest = (littleEndian 4 second ++ back) ++ more) :
    first = second ∧ front ++ rest = back ++ more := by
  rw [List.append_assoc, List.append_assoc] at same
  obtain ⟨lengths, left⟩ := List.append_inj same (by
    rw [length_littleEndian, length_littleEndian])
  exact ⟨littleEndian_injective fits fits' lengths, left⟩

/-- A text is told by its bytes. -/
theorem utf8_injective : Function.Injective utf8 := by
  intro first second same
  have data : first.toByteArray.data = second.toByteArray.data := Array.toList_inj.mp same
  exact String.toByteArray_inj.mp (ByteArray.ext data)

/-- The length in front of a text tells where it ends. -/
theorem prefixFree_text : Meaning.text.PrefixFree := by
  intro value other rest more fits fits' same
  obtain ⟨lengths, left⟩ := length_append_inj fits fits' same
  obtain ⟨bytes, left⟩ := List.append_inj left lengths
  exact ⟨utf8_injective bytes, left⟩

/-- As many elements on both sides are told apart one by one. -/
theorem prefixFree_elements {α : Type} {element : Meaning α} (free : element.PrefixFree)
    {values others : List α} (lengths : values.length = others.length) {rest more : Bytes}
    (fits : element.elements.fits values) (fits' : element.elements.fits others)
    (same : element.elements.code values ++ rest = element.elements.code others ++ more) :
    values = others ∧ rest = more := by
  induction values generalizing others with
  | nil =>
      cases others with
      | nil => exact ⟨rfl, same⟩
      | cons other others => cases lengths
  | cons value values ih =>
      cases others with
      | nil => cases lengths
      | cons other others =>
          change (value :: values).flatMap element.code ++ rest =
            (other :: others).flatMap element.code ++ more at same
          rw [List.flatMap_cons, List.flatMap_cons, List.append_assoc, List.append_assoc] at same
          obtain ⟨first, left⟩ := free value other _ _ (fits value List.mem_cons_self)
            (fits' other List.mem_cons_self) same
          obtain ⟨others', left⟩ := ih (Nat.succ.inj lengths)
            (fun found member => fits found (List.mem_cons_of_mem _ member))
            (fun found member => fits' found (List.mem_cons_of_mem _ member)) left
          exact ⟨by rw [first, others'], left⟩

/-- The length in front of a vector tells how many elements there are. -/
theorem prefixFree_vec {α : Type} {element : Meaning α} (size : Nat) (free : element.PrefixFree) :
    (element.vec size).PrefixFree := by
  intro values others rest more fits fits' same
  obtain ⟨lengths, left⟩ := length_append_inj fits.1 fits'.1 same
  exact prefixFree_elements free lengths fits.2 fits'.2 left

/-- The fields of a struct are told apart one after another. -/
theorem prefixFree_field {α β : Type} {first : Meaning α} {rest : Meaning β}
    (free : first.PrefixFree) (others : rest.PrefixFree) : (first.field rest).PrefixFree := by
  intro value other left more fits fits' same
  obtain ⟨value, values⟩ := value
  obtain ⟨other, otherValues⟩ := other
  change (first.code value ++ rest.code values) ++ left =
    (first.code other ++ rest.code otherValues) ++ more at same
  rw [List.append_assoc, List.append_assoc] at same
  obtain ⟨head, same⟩ := free value other _ _ fits.1 fits'.1 same
  obtain ⟨tail, same⟩ := others values otherValues _ _ fits.2 fits'.2 same
  exact ⟨by rw [head, tail], same⟩

/-- The codes of an enum begin with one of its tags. -/
def Meaning.Tagged {α : Type} (meaning : Meaning α) (tags : List UInt8) : Prop :=
  ∀ value, ∃ tag ∈ tags, ∃ fields, meaning.code value = tag :: fields

/-- The code of an arm begins with its tag, any other one with one of the others. -/
theorem tagged_arm {α β : Type} (tag : UInt8) (fields : Meaning α) {rest : Meaning β}
    {tags : List UInt8} (tagged : rest.Tagged tags) :
    (fields.arm tag rest).Tagged (tag :: tags) := by
  intro value
  cases value with
  | inl values => exact ⟨tag, List.mem_cons_self, fields.code values, rfl⟩
  | inr value =>
      obtain ⟨other, member, code⟩ := tagged value
      exact ⟨other, List.mem_cons_of_mem _ member, code⟩

/-- Distinct tags tell the arms apart. -/
theorem prefixFree_arm {α β : Type} {tag : UInt8} {fields : Meaning α} {rest : Meaning β}
    {tags : List UInt8} (free : fields.PrefixFree) (others : rest.PrefixFree)
    (tagged : rest.Tagged tags) (fresh : tag ∉ tags) : (fields.arm tag rest).PrefixFree := by
  -- Two codes that agree begin with one tag, so they are of one variant.
  have apart (values : α) (value : β) (left more : Bytes)
      (same : tag :: fields.code values ++ left = rest.code value ++ more) : False := by
    obtain ⟨other, member, found, code⟩ := tagged value
    rw [code] at same
    have tags := List.head_eq_of_cons_eq same
    rw [tags] at fresh
    exact fresh member
  intro value other left more fits fits' same
  cases value with
  | inl values =>
      cases other with
      | inl others =>
          have bytes : fields.code values ++ left = fields.code others ++ more :=
            List.tail_eq_of_cons_eq same
          obtain ⟨equal, left⟩ := free values others left more fits fits' bytes
          exact ⟨by rw [equal], left⟩
      | inr other => exact (apart values other left more same).elim
  | inr value =>
      cases other with
      | inl others => exact (apart others value more left same.symm).elim
      | inr other =>
          obtain ⟨equal, left⟩ := others value other left more fits fits' same
          exact ⟨by rw [equal], left⟩

/-- The code of a variant begins with one of the tags. -/
theorem Variants.tagged (variants : Variants) : variants.meaning.Tagged variants.tags := by
  cases variants with
  | nil =>
      intro value
      exact value.elim
  | cons tag fields rest => exact tagged_arm tag fields.meaning rest.tagged

mutual

/-- The codes of a derivable schema are free of prefixes. -/
theorem Schema.prefixFree : (schema : Schema) → schema.derivable = true →
    schema.meaning.PrefixFree
  | .u8, _ => prefixFree_scalar UInt8.toNat_lt fun _ _ => UInt8.toNat_inj.mp
  | .u16, _ => prefixFree_scalar UInt16.toNat_lt fun _ _ => UInt16.toNat_inj.mp
  | .u32, _ => prefixFree_scalar UInt32.toNat_lt fun _ _ => UInt32.toNat_inj.mp
  | .u64, _ => prefixFree_scalar UInt64.toNat_lt fun _ _ => UInt64.toNat_inj.mp
  | .i32, _ => prefixFree_scalar (fun value : Int32 => value.toUInt32.toNat_lt) fun _ _ same =>
      congrArg UInt32.toInt32 (UInt32.toNat_inj.mp same)
  | .i64, _ => prefixFree_scalar (fun value : Int64 => value.toUInt64.toNat_lt) fun _ _ same =>
      congrArg UInt64.toInt64 (UInt64.toNat_inj.mp same)
  | .unit, _ => prefixFree_const
  | .string, _ => prefixFree_text
  | .vec size element, derivable => prefixFree_vec size (element.prefixFree derivable)
  | .struct fields, derivable =>
      fields.prefixFree (Bool.and_eq_true_iff.mp derivable).2
  | .enum variants, derivable => by
      obtain ⟨named, sound⟩ := Bool.and_eq_true_iff.mp derivable
      exact variants.prefixFree (of_decide_eq_true (Bool.and_eq_true_iff.mp named).2) sound

theorem Fields.prefixFree : (fields : Fields) → fields.derivable = true →
    fields.meaning.PrefixFree
  | .nil, _ => prefixFree_const
  | .cons first rest, derivable =>
      prefixFree_field (first.prefixFree (Bool.and_eq_true_iff.mp derivable).1)
        (rest.prefixFree (Bool.and_eq_true_iff.mp derivable).2)

/-- Distinct tags make those of an enum free of prefixes, too. -/
theorem Variants.prefixFree : (variants : Variants) → variants.tags.Nodup →
    variants.derivable = true → variants.meaning.PrefixFree
  | .nil, _, _ => fun value => value.elim
  | .cons _ fields rest, distinct, derivable =>
      prefixFree_arm (fields.prefixFree (Bool.and_eq_true_iff.mp derivable).1)
        (rest.prefixFree (List.nodup_cons.mp distinct).2 (Bool.and_eq_true_iff.mp derivable).2)
        rest.tagged (List.nodup_cons.mp distinct).1

end

/-! ## Encoding and decoding -/

section Payloads

variable {α : Type} [wire : Wire α] {schema : Schema}

/-- An encoded payload is the code of its value. -/
theorem encode_iff (generated : Generated α schema) (value : α) (bytes : Bytes) :
    encode value = .ok bytes ↔ schema.meaning.fits (generated.values value) ∧
      bytes = schema.meaning.code (generated.values value) ∧ bytes.length ≤ maxPayloadBytes ∧
      validate α bytes = .ok () := by
  have writes := schema.lawful.writes (generated.values value) {}
  rw [← generated.encode] at writes
  change Ensures (wire.encode value) {} _ _ at writes
  unfold encode
  rw [except_bind_eq_ok]
  have run (output : Bytes) : result (do
      Wire.encode value
      let writer ← get
      pure writer.bytes) ({} : Encoder) = .ok output ↔
      ∃ writer, (wire.encode value) {} = .ok () writer ∧ writer.bytes = output := by
    rw [result_eq_ok]
    change (∃ next, EStateM.bind (wire.encode value) _ {} = _) ↔ _
    unfold EStateM.bind
    cases (wire.encode value) {} with
    | ok _ writer =>
        constructor
        · intro returned
          obtain ⟨_, same⟩ := returned
          cases same
          exact ⟨writer, rfl, rfl⟩
        · intro returned
          obtain ⟨_, same, bytes⟩ := returned
          cases same
          cases bytes
          exact ⟨writer, rfl⟩
    | error error writer =>
        constructor
        · intro impossible
          obtain ⟨_, impossible⟩ := impossible
          cases impossible
        · intro impossible
          obtain ⟨_, impossible, _⟩ := impossible
          cases impossible
  simp only [run]
  cases written : (wire.encode value) {} with
  | ok _ writer =>
      obtain ⟨code, fits⟩ := ensures_of_ok writes written
      have code : writer.bytes = schema.meaning.code (generated.values value) := code
      constructor
      · intro encoded
        obtain ⟨found, ⟨_, same, output⟩, checked⟩ := encoded
        cases same
        cases output
        obtain ⟨_, validated, returned⟩ := except_bind_eq_ok.mp checked
        cases returned
        exact ⟨fits, code, length_le_of_validate validated, validated⟩
      · intro spec
        obtain ⟨_, same, _, validated⟩ := spec
        rw [same, ← code] at validated ⊢
        exact ⟨writer.bytes, ⟨writer, rfl, rfl⟩, except_bind_eq_ok.mpr ⟨(), validated, rfl⟩⟩
  | error error writer =>
      have full := ensures_of_error writes written
      constructor
      · intro impossible
        obtain ⟨_, ⟨_, impossible, _⟩, _⟩ := impossible
        cases impossible
      · intro spec
        obtain ⟨fits, same, within, _⟩ := spec
        apply absurd _ full
        rw [same] at within
        refine ⟨fits, ?_⟩
        change 0 + _ ≤ _
        rw [Nat.zero_add]
        exact within

/-- Encoding and decoding are inverse to each other, so that each value has one accepted payload,
and no accepted payload goes on in another. -/
theorem payload_bijective (generated : Generated α schema) (derivable : schema.derivable = true) :
    (∀ (value : α) bytes, encode value = .ok bytes → decode α bytes = .ok value) ∧
    (∀ bytes (value : α), decode α bytes = .ok value → encode value = .ok bytes) ∧
    ∀ bytes more, validate α bytes = .ok () → validate α (bytes ++ more) = .ok () → more = [] := by
  have free := schema.prefixFree derivable
  refine ⟨?_, ?_, ?_⟩
  · intro value bytes encoded
    obtain ⟨fits, code, _, validated⟩ := (encode_iff generated value bytes).mp encoded
    obtain ⟨other, reads⟩ := (validate_iff generated bytes).mp validated
    obtain ⟨code', fits', _⟩ := reads.decoded generated
    rw [code] at code'
    obtain ⟨same, _⟩ := free _ _ [] [] fits fits' (by rw [code'])
    have same := generated.values.injective same
    rw [same]
    exact (decode_iff generated bytes other).mpr reads
  · intro bytes value decoded
    have reads := (decode_iff generated bytes value).mp decoded
    obtain ⟨code, fits, _⟩ := reads.decoded generated
    exact (encode_iff generated value bytes).mpr
      ⟨fits, code, reads.1, (validate_iff generated bytes).mpr ⟨value, reads⟩⟩
  · intro bytes more accepted longer
    obtain ⟨value, reads⟩ := (validate_iff generated bytes).mp accepted
    obtain ⟨other, reads'⟩ := (validate_iff generated (bytes ++ more)).mp longer
    obtain ⟨code, fits, _⟩ := reads.decoded generated
    obtain ⟨code', fits', _⟩ := reads'.decoded generated
    obtain ⟨_, nothing⟩ := free _ _ more [] fits fits' (by rw [← code, ← code', List.append_nil])
    exact nothing

end Payloads

/-- Commands that wait, or that rotate a cell. -/
def turnSchema : Schema :=
  .enum (.cons 0 .nil (.cons 7 (.cons .u32 .nil) .nil))

/-- The command that rotates a cell. -/
def rotate (cell : UInt32) : turnSchema.Value := .inr (.inl (cell, ()))

theorem payload_bijective_turn :
    decode turnSchema.Value [7, 1, 0, 0, 0] = .ok (rotate 1) := by
  have encoded : encode (rotate 1) = .ok [7, 1, 0, 0, 0] := rfl
  exact (payload_bijective (.self turnSchema) rfl).1 (rotate 1) _ encoded

end Codec

end Synctick
