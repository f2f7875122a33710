import Synctick.Codec.Bijection

/-! # Encoding succeeds within the budgets

The code of a value passes validation unless its collections take too much memory or its vectors
nest too deep. A value of a derivable type takes at least the minimum size of its type, so that
the check of a length against the bytes that remain refuses no code.
-/

namespace Synctick

namespace Codec

open Effect

/-- A length that the remaining bytes have no room for. -/
def exceedsRemaining : CodecError := ⟨"collection length exceeds remaining payload"⟩

/-- A validation reads a code from the front of what remains and accounts for its memory. It stops
only where the value exceeds a budget. -/
def Accepts (program : Effect CodecError Decoder Unit) (code : Bytes) (footprint nesting : Nat) :
    Prop :=
  ∀ state rest, state.remaining = code ++ rest → Ensures program state
    (fun _ next => next =
      { remaining := rest, allocation := state.allocation + footprint, depth := state.depth })
    fun error _ => error ≠ exceedsRemaining ∧
      ¬ (state.allocation + footprint ≤ maxAllocationBytes ∧ state.depth + nesting ≤ maxDepth)

namespace Accepts

/-- Doing nothing accepts the empty code. -/
theorem nothing : Accepts (pure ()) [] 0 0 := fun _ _ input => by
  rw [ensures_pure]
  rw [List.nil_append] at input
  rw [← input]
  rfl

/-- Two validations in sequence accept one code behind the other. Their memory adds up, and the
nesting is the deeper one. -/
theorem bind {first second : Effect CodecError Decoder Unit} {front back : Bytes}
    {footprint footprint' nesting nesting' : Nat} (head : Accepts first front footprint nesting)
    (tail : Accepts second back footprint' nesting') :
    Accepts (first >>= fun _ => second) (front ++ back) (footprint + footprint')
      (max nesting nesting') := by
  intro state rest input
  rw [List.append_assoc] at input
  rw [ensures_bind]
  apply (head state (back ++ rest) input).mono
  · intro _ middle same
    subst same
    apply (tail _ rest rfl).mono
    · intro _ next same
      rw [same, Nat.add_assoc]
    · intro error _ stops
      refine ⟨stops.1, fun within => stops.2 ?_⟩
      change state.allocation + footprint + footprint' ≤ _ ∧ state.depth + nesting' ≤ _
      omega
  · intro error _ stops
    exact ⟨stops.1, fun within => stops.2 (by omega)⟩

end Accepts

/-- What follows a code of known width is left. -/
theorem ensures_take_exact {code rest : Bytes} {state : Decoder}
    (input : state.remaining = code ++ rest) :
    Ensures (Decoder.take code.length) state
      (fun bytes next => bytes = code ∧ next = { state with remaining := rest }) fun _ _ => False := by
  have enough : ¬ code.length > state.remaining.length := by
    rw [input, List.length_append]
    omega
  unfold Decoder.take
  rw [ensures_bind, ensures_get]
  dsimp only
  rw [if_neg enough, input, List.take_left, List.drop_left]
  exact ⟨rfl, rfl⟩

/-- A number is read back exactly. -/
theorem ensures_number_exact {α : Type} {width number : Nat} (ofNat : Nat → α) (toNat : α → Nat)
    (fits : number < 256 ^ width) {rest : Bytes} {state : Decoder}
    (input : state.remaining = littleEndian width number ++ rest) :
    Ensures (scalar width ofNat toNat).decode state
      (fun value next => value = ofNat number ∧ next = { state with remaining := rest })
      fun _ _ => False := by
  have take := ensures_take_exact input
  rw [length_littleEndian] at take
  change Ensures (do
    let bytes ← Decoder.take width
    pure (ofNat (ofLittleEndian bytes))) state _ _
  rw [ensures_bind]
  apply take.mono
  · rintro bytes next ⟨same, left⟩
    rw [ensures_pure, same, ofLittleEndian_littleEndian_of_lt fits]
    exact ⟨rfl, left⟩
  · exact fun _ _ impossible => impossible

/-- Any bytes of its width are those of a scalar. -/
theorem accepts_scalar {α : Type} (width number : Nat) (ofNat : Nat → α) (toNat : α → Nat) :
    Accepts (scalar width ofNat toNat).validate (littleEndian width number) 0 0 := by
  intro state rest input
  have take := ensures_take_exact input
  rw [length_littleEndian] at take
  change Ensures (do
    let _ ← Decoder.take width
    pure ()) state _ _
  rw [ensures_bind]
  apply take.mono
  · rintro bytes next ⟨_, left⟩
    rw [ensures_pure, left]
    rfl
  · exact fun _ _ impossible => impossible.elim

/-- A byte is read back exactly. -/
theorem ensures_byte_exact {byte : UInt8} {rest : Bytes} {state : Decoder}
    (input : state.remaining = byte :: rest) :
    Ensures (Wire.decode : Effect CodecError Decoder UInt8) state
      (fun value next => value = byte ∧ next = { state with remaining := rest })
      fun _ _ => False := by
  have code : littleEndian 1 byte.toNat = [byte] := by
    change [UInt8.ofNat byte.toNat] = [byte]
    rw [UInt8.ofNat_toNat]
  have input : state.remaining = littleEndian 1 byte.toNat ++ rest := by rw [code]; exact input
  apply (ensures_number_exact UInt8.ofNat UInt8.toNat byte.toNat_lt input).mono
  · rintro value next ⟨same, left⟩
    rw [same, UInt8.ofNat_toNat]
    exact ⟨rfl, left⟩
  · exact fun _ _ impossible => impossible

/-- The length of a collection is read back exactly, where enough bytes remain for its elements. -/
theorem ensures_count_exact {minSize count : Nat} (size : Nat) (positive : 1 ≤ minSize)
    (fits : count < 2 ^ 32) {rest : Bytes} (enough : count * minSize ≤ rest.length)
    {state : Decoder} (input : state.remaining = littleEndian 4 count ++ rest) :
    Ensures (Decoder.count minSize size) state
      (fun found next => found = count ∧ next = { state with
        remaining := rest, allocation := state.allocation + count * max size 1 })
      fun error _ => error ≠ exceedsRemaining ∧
        ¬ state.allocation + count * max size 1 ≤ maxAllocationBytes := by
  have number : (UInt32.ofNat count).toNat = count := UInt32.toNat_ofNat_of_lt' fits
  have room : ¬ (minSize = 0 ∨ count > rest.length / minSize) := by
    rw [not_or, Nat.not_lt, Nat.le_div_iff_mul_le positive]
    exact ⟨by omega, enough⟩
  unfold Decoder.count
  rw [ensures_bind]
  apply (ensures_number_exact UInt32.ofNat UInt32.toNat fits input).mono
  · rintro _ _ ⟨rfl, rfl⟩
    rw [ensures_bind, ensures_get, number]
    dsimp only
    rw [if_neg room]
    generalize count * max size 1 = allocation
    by_cases overflow : allocation ≥ 2 ^ 64
    · rw [if_pos overflow]
      refine ⟨by decide, ?_⟩
      unfold maxAllocationBytes
      omega
    rw [if_neg overflow]
    by_cases total : state.allocation + allocation ≥ 2 ^ 64
    · rw [if_pos total]
      refine ⟨by decide, ?_⟩
      unfold maxAllocationBytes
      omega
    rw [if_neg total, ensures_bind, ensures_set]
    by_cases excess : state.allocation + allocation > maxAllocationBytes
    · rw [if_pos excess]
      exact ⟨by decide, Nat.not_le_of_lt excess⟩
    · rw [if_neg excess]
      exact ⟨rfl, rfl⟩
  · exact fun _ _ impossible => impossible.elim

/-- A wire type accepts the codes of its values, which take at least the minimum size. The lengths
in a short code are 32-bit numbers. -/
structure Accepting {α : Type} (wire : Wire α) (meaning : Meaning α) : Prop where
  shortest : ∀ value, wire.minSize ≤ (meaning.code value).length
  fits : ∀ value, (meaning.code value).length ≤ maxPayloadBytes → meaning.fits value
  accepts : ∀ value, meaning.fits value →
    Accepts wire.validate (meaning.code value) (meaning.footprint value) (meaning.nesting value)

/-- A scalar accepts its codes. -/
theorem accepting_scalar {α : Type} (width : Nat) (ofNat : Nat → α) (toNat : α → Nat) :
    Accepting (scalar width ofNat toNat) (.plain fun value => littleEndian width (toNat value)) where
  shortest value := Nat.le_of_eq (length_littleEndian width (toNat value)).symm
  fits _ _ := trivial
  accepts value _ := accepts_scalar width (toNat value) ofNat toNat

/-- So does the unit. -/
theorem accepting_unit : Accepting (inferInstance : Wire Unit) (.plain fun _ => [0]) where
  shortest _ := Nat.le_refl 1
  fits _ _ := trivial
  accepts _ _ := by
    intro state rest input
    change Ensures validateUnit state _ _
    unfold validateUnit
    rw [ensures_bind]
    apply (ensures_byte_exact input).mono
    · rintro _ next ⟨rfl, left⟩
      rw [if_neg (by decide), left]
      rfl
    · exact fun _ _ impossible => impossible.elim

/-- A text is read back from its UTF-8 form. -/
theorem fromUTF8?_utf8 (text : String) :
    String.fromUTF8? ⟨(utf8 text).toArray⟩ = some text := by
  have bytes : (⟨(utf8 text).toArray⟩ : ByteArray) = text.toByteArray := by
    apply ByteArray.ext
    exact Array.toArray_toList
  rw [bytes]
  unfold String.fromUTF8?
  rw [dif_pos text.isValidUTF8]
  exact congrArg some (String.toByteArray_inj.mp rfl)

/-- So does a string, which takes the memory of its bytes. -/
theorem accepting_string : Accepting (inferInstance : Wire String) .text where
  shortest text := by
    change 4 ≤ (littleEndian 4 (utf8 text).length ++ utf8 text).length
    rw [List.length_append, length_littleEndian]
    omega
  fits text short := by
    change (littleEndian 4 (utf8 text).length ++ utf8 text).length ≤ _ at short
    rw [List.length_append, length_littleEndian] at short
    change (utf8 text).length < 2 ^ 32
    unfold maxPayloadBytes at short
    omega
  accepts text fits := by
    intro state rest input
    change state.remaining = (littleEndian 4 (utf8 text).length ++ utf8 text) ++ rest at input
    rw [List.append_assoc] at input
    change Ensures (do
      let count ← Decoder.count 1 1
      let bytes ← Decoder.take count
      let _ ← fromUtf8 bytes
      pure ()) state _ _
    rw [ensures_bind]
    apply (ensures_count_exact 1 (Nat.le_refl 1) fits
      (by rw [List.length_append]; omega) input).mono
    · rintro _ _ ⟨rfl, rfl⟩
      rw [ensures_bind]
      apply (ensures_take_exact rfl).mono
      · rintro _ _ ⟨rfl, rfl⟩
        rw [ensures_bind]
        unfold fromUtf8
        rw [fromUTF8?_utf8]
        change _ = _
        rw [Nat.max_self, Nat.mul_one]
        rfl
      · exact fun _ _ impossible => impossible.elim
    · intro error _ stops
      refine ⟨stops.1, fun within => stops.2 ?_⟩
      rw [Nat.max_self, Nat.mul_one]
      exact within.1

section Vectors

variable {α : Type} {wire : Wire α} {element : Meaning α}

/-- A vector is entered unless it is nested too deep. -/
theorem ensures_enter_exact (state : Decoder) :
    Ensures Decoder.enter state
      (fun _ next => next = { state with depth := state.depth + 1 })
      fun error _ => error ≠ exceedsRemaining ∧ ¬ state.depth + 1 ≤ maxDepth := by
  unfold Decoder.enter
  rw [ensures_bind, ensures_modify, ensures_bind, ensures_get]
  by_cases deep : state.depth + 1 > maxDepth
  · rw [if_pos deep]
    exact ⟨by decide, Nat.not_le_of_lt deep⟩
  · rw [if_neg deep]
    rfl

/-- Elements are accepted one after another. -/
theorem accepts_elements (accepting : Accepting wire element) (values : List α)
    (fits : ∀ value ∈ values, element.fits value) :
    Accepts (do
        let _ ← Effect.readMany wire.validate values.length
        pure ())
      (values.flatMap element.code) (values.map element.footprint).sum
      ((values.map element.nesting).foldr max 0) := by
  induction values with
  | nil => exact .nothing
  | cons value values ih =>
      have rest := ih fun other member => fits other (List.mem_cons_of_mem _ member)
      have both := (accepting.accepts value (fits value List.mem_cons_self)).bind rest
      rw [List.flatMap_cons, List.map_cons, List.map_cons, List.sum_cons, List.foldr_cons,
        List.length_cons]
      unfold Effect.readMany
      simp only [bind_assoc, pure_bind] at both ⊢
      exact both

/-- They take at least as often the minimum size of one. -/
theorem shortest_elements (accepting : Accepting wire element) (values : List α) :
    values.length * wire.minSize ≤ (values.flatMap element.code).length := by
  induction values with
  | nil => simp
  | cons value values ih =>
      have first := accepting.shortest value
      rw [List.flatMap_cons, List.length_append, List.length_cons, Nat.succ_mul]
      omega

/-- A vector accepts its codes. Its length is never refused for want of remaining bytes. -/
theorem accepting_vec (size : Nat) (positive : 1 ≤ wire.minSize)
    (accepting : Accepting wire element) : Accepting (vec size wire) (element.vec size) where
  shortest values := by
    change 4 ≤ (littleEndian 4 values.length ++ values.flatMap element.code).length
    rw [List.length_append, length_littleEndian]
    omega
  fits values short := by
    have enough := shortest_elements accepting values
    have count := Nat.le_mul_of_pos_right values.length positive
    change (littleEndian 4 values.length ++ values.flatMap element.code).length ≤ _ at short
    rw [List.length_append, length_littleEndian] at short
    refine ⟨?_, fun value member => accepting.fits value ?_⟩
    · unfold maxPayloadBytes at short
      omega
    · have part : (element.code value).Sublist (values.flatMap element.code) := by
        rw [List.flatMap_def]
        exact List.sublist_flatten_of_mem (List.mem_map_of_mem member)
      have shorter := part.length_le
      omega
  accepts values fits := by
    intro state rest input
    change state.remaining = (littleEndian 4 values.length ++ values.flatMap element.code) ++ rest
      at input
    rw [List.append_assoc] at input
    have enough := shortest_elements accepting values
    change Ensures (do
      Decoder.enter
      let count ← Decoder.count wire.minSize size
      let _ ← Effect.readMany wire.validate count
      Decoder.leave) state _ _
    rw [ensures_bind]
    apply (ensures_enter_exact state).mono
    · rintro _ entered same
      have input : entered.remaining =
          littleEndian 4 values.length ++ (values.flatMap element.code ++ rest) := by
        rw [same]
        exact input
      rw [ensures_bind]
      apply (ensures_count_exact size positive fits.1
        (by rw [List.length_append]; omega) input).mono
      · rintro _ _ ⟨rfl, rfl⟩
        subst same
        have elements := accepts_elements accepting values fits.2
          { remaining := values.flatMap element.code ++ rest
            allocation := state.allocation + values.length * max size 1
            depth := state.depth + 1 } rest rfl
        rw [ensures_bind] at elements ⊢
        apply elements.mono
        · intro _ next same
          rw [ensures_pure] at same
          subst same
          change Decoder.mk _ _ _ = _
          congr 1
          change state.allocation + values.length * max size 1 + _ = _
          rw [Nat.add_assoc]
          rfl
        · intro error _ stops
          refine ⟨stops.1, fun within => stops.2 ?_⟩
          obtain ⟨memory, depth⟩ := within
          change state.allocation + (values.length * max size 1 +
            (values.map element.footprint).sum) ≤ _ at memory
          change state.depth + (1 + (values.map element.nesting).foldr max 0) ≤ _ at depth
          change state.allocation + values.length * max size 1 + _ ≤ _ ∧ state.depth + 1 + _ ≤ _
          omega
      · intro error _ stops
        subst same
        refine ⟨stops.1, fun within => stops.2 ?_⟩
        have memory := within.1
        change state.allocation + (values.length * max size 1 +
          (values.map element.footprint).sum) ≤ _ at memory
        change state.allocation + values.length * max size 1 ≤ _
        omega
    · intro error _ stops
      refine ⟨stops.1, fun within => stops.2 ?_⟩
      have depth := within.2
      change state.depth + (1 + (values.map element.nesting).foldr max 0) ≤ _ at depth
      omega

end Vectors

/-! ## Structs and enums -/

/-- A struct without a field accepts the empty code. -/
theorem accepting_noField : Accepting noField (.plain fun _ => []) where
  shortest _ := Nat.le_refl 0
  fits _ _ := trivial
  accepts _ _ := .nothing

/-- The fields of a struct accept their codes. -/
theorem accepting_field {α β : Type} {first : Wire α} {rest : Wire β} {head : Meaning α}
    {tail : Meaning β} (accepting : Accepting first head) (others : Accepting rest tail) :
    Accepting (field first rest) (head.field tail) where
  shortest value := by
    have front := accepting.shortest value.1
    have back := others.shortest value.2
    change first.minSize + rest.minSize ≤ (head.code value.1 ++ tail.code value.2).length
    rw [List.length_append]
    omega
  fits value short := by
    change (head.code value.1 ++ tail.code value.2).length ≤ _ at short
    rw [List.length_append] at short
    exact ⟨accepting.fits value.1 (by omega), others.fits value.2 (by omega)⟩
  accepts value fits := (accepting.accepts value.1 fits.1).bind (others.accepts value.2 fits.2)

/-- The arms of an enum accept the fields of a value behind its tag. -/
structure AcceptingArms {α : Type} (arms : Arms α) (meaning : Meaning α) (tags : List UInt8) :
    Prop where
  shortest : ∀ value, arms.minSize ≤ (meaning.code value).length
  fits : ∀ value, (meaning.code value).length ≤ maxPayloadBytes → meaning.fits value
  accepts : ∀ value, meaning.fits value → ∃ tag ∈ tags, ∃ fields,
    meaning.code value = tag :: fields ∧
      Accepts (arms.validate tag) fields (meaning.footprint value) (meaning.nesting value)

/-- An enum without a variant has no code to accept. -/
theorem accepting_noArm : AcceptingArms noArm (.plain Empty.elim) [] where
  shortest value := value.elim
  fits value := value.elim
  accepts value := value.elim

/-- An arm accepts the codes of its tag, which is none of the others. -/
theorem accepting_arm {α β : Type} {tag : UInt8} {fields : Wire α} {rest : Arms β}
    {head : Meaning α} {tail : Meaning β} {tags : List UInt8} (accepting : Accepting fields head)
    (others : AcceptingArms rest tail tags) (fresh : tag ∉ tags) :
    AcceptingArms (arm tag fields rest) (head.arm tag tail) (tag :: tags) where
  shortest value := by
    change min (1 + fields.minSize) rest.minSize ≤ _
    cases value with
    | inl values =>
        have long := accepting.shortest values
        change _ ≤ (tag :: head.code values).length
        rw [List.length_cons]
        omega
    | inr value =>
        have long := others.shortest value
        change _ ≤ (tail.code value).length
        omega
  fits value short := by
    cases value with
    | inl values =>
        change (tag :: head.code values).length ≤ _ at short
        rw [List.length_cons] at short
        exact accepting.fits values (by omega)
    | inr value => exact others.fits value short
  accepts value fits := by
    cases value with
    | inl values =>
        refine ⟨tag, List.mem_cons_self, head.code values, rfl, ?_⟩
        change Accepts (if tag = tag then fields.validate else rest.validate tag) _ _ _
        rw [if_pos rfl]
        exact accepting.accepts values fits
    | inr value =>
        obtain ⟨other, member, code, same, accepts⟩ := others.accepts value fits
        refine ⟨other, List.mem_cons_of_mem _ member, code, same, ?_⟩
        have apart : other ≠ tag := fun equal => fresh (equal ▸ member)
        change Accepts (if other = tag then fields.validate else rest.validate other) _ _ _
        rw [if_neg apart]
        exact accepts

/-- An enum accepts the codes of its variants. -/
theorem accepting_enumeration {α : Type} {arms : Arms α} {meaning : Meaning α} {tags : List UInt8}
    (accepting : AcceptingArms arms meaning tags) : Accepting (enumeration arms) meaning where
  shortest := accepting.shortest
  fits := accepting.fits
  accepts value fits := by
    obtain ⟨tag, _, code, same, accepts⟩ := accepting.accepts value fits
    intro state rest input
    rw [same] at input
    change Ensures (do
      let tag : UInt8 ← Wire.decode
      arms.validate tag) state _ _
    rw [ensures_bind]
    apply (ensures_byte_exact input).mono
    · rintro _ _ ⟨rfl, rfl⟩
      exact accepts _ rest rfl
    · exact fun _ _ impossible => impossible.elim

/-- No value of an enum is empty. -/
theorem Variants.minSize_pos (variants : Variants) : 1 ≤ variants.arms.minSize := by
  cases variants with
  | nil => decide
  | cons tag fields rest =>
      have others := rest.minSize_pos
      change 1 ≤ min (1 + fields.wire.minSize) rest.arms.minSize
      omega

/-- The minimum size of a derivable type is positive. -/
theorem Schema.minSize_pos : (schema : Schema) → schema.derivable = true → 1 ≤ schema.wire.minSize
  | .u8, _ => Nat.le_refl 1
  | .u16, _ => by decide
  | .u32, _ => by decide
  | .u64, _ => by decide
  | .i32, _ => by decide
  | .i64, _ => by decide
  | .unit, _ => Nat.le_refl 1
  | .string, _ => by decide
  | .vec _ _, _ => Nat.le_add_left 1 3
  | .struct (.cons first rest), derivable => by
      obtain ⟨_, fields⟩ := Bool.and_eq_true_iff.mp derivable
      have positive := first.minSize_pos (Bool.and_eq_true_iff.mp fields).1
      change 1 ≤ first.wire.minSize + rest.wire.minSize
      omega
  | .enum variants, _ => variants.minSize_pos

mutual

/-- A derivable schema accepts the codes of its values. -/
theorem Schema.accepting : (schema : Schema) → schema.derivable = true →
    Accepting schema.wire schema.meaning
  | .u8, _ => accepting_scalar _ _ _
  | .u16, _ => accepting_scalar _ _ _
  | .u32, _ => accepting_scalar _ _ _
  | .u64, _ => accepting_scalar _ _ _
  | .i32, _ => accepting_scalar 4 (fun value => (UInt32.ofNat value).toInt32) fun value =>
      value.toUInt32.toNat
  | .i64, _ => accepting_scalar 8 (fun value => (UInt64.ofNat value).toInt64) fun value =>
      value.toUInt64.toNat
  | .unit, _ => accepting_unit
  | .string, _ => accepting_string
  | .vec size element, derivable =>
      accepting_vec size (element.minSize_pos derivable) (element.accepting derivable)
  | .struct fields, derivable => fields.accepting (Bool.and_eq_true_iff.mp derivable).2
  | .enum variants, derivable => by
      obtain ⟨named, sound⟩ := Bool.and_eq_true_iff.mp derivable
      exact accepting_enumeration
        (variants.accepting (of_decide_eq_true (Bool.and_eq_true_iff.mp named).2) sound)

theorem Fields.accepting : (fields : Fields) → fields.derivable = true →
    Accepting fields.wire fields.meaning
  | .nil, _ => accepting_noField
  | .cons first rest, derivable =>
      accepting_field (first.accepting (Bool.and_eq_true_iff.mp derivable).1)
        (rest.accepting (Bool.and_eq_true_iff.mp derivable).2)

/-- Distinct tags lead every value of an enum to its own arm. -/
theorem Variants.accepting : (variants : Variants) → variants.tags.Nodup →
    variants.derivable = true → AcceptingArms variants.arms variants.meaning variants.tags
  | .nil, _, _ => accepting_noArm
  | .cons _ fields rest, distinct, derivable =>
      accepting_arm (fields.accepting (Bool.and_eq_true_iff.mp derivable).1)
        (rest.accepting (List.nodup_cons.mp distinct).2 (Bool.and_eq_true_iff.mp derivable).2)
        (List.nodup_cons.mp distinct).1

end

section Payloads

variable {α : Type} [Wire α] {schema : Schema}

/-- The code of a value is read to its end, where the budgets allow. -/
theorem readsWhole_code (generated : Generated α schema) (derivable : schema.derivable = true)
    {value : schema.Value} (short : (schema.meaning.code value).length ≤ maxPayloadBytes)
    (memory : schema.meaning.footprint value ≤ maxAllocationBytes)
    (depth : schema.meaning.nesting value ≤ maxDepth) :
    ∃ found : α, ReadsWhole (schema.meaning.code value) found := by
  have accepting := schema.accepting derivable
  have accepts := accepting.accepts value (accepting.fits value short)
    { remaining := schema.meaning.code value } [] (List.append_nil _).symm
  rw [← generated.validate, generated.passes, ensures_map] at accepts
  have returns := accepts.mono (fun _ _ same => same) fun _ _ stops => stops.2
    ⟨by rw [Nat.zero_add]; exact memory, by rw [Nat.zero_add]; exact depth⟩
  obtain ⟨found, next, read, same⟩ := returns.returns
  exact ⟨found, short, next, read, by rw [same]⟩

/-- A value of a derivable type is encoded, to its code, exactly when the code, the memory of its
collections and the nesting of its vectors are within their budgets. It takes at least the minimum
size of its type, which is positive, so that no length is refused for the bytes that remain. -/
theorem encode_within_budgets (generated : Generated α schema)
    (derivable : schema.derivable = true) (value : α) :
    (∀ bytes, encode value = .ok bytes ↔ bytes = schema.meaning.code (generated.values value) ∧
      bytes.length ≤ maxPayloadBytes ∧
      schema.meaning.footprint (generated.values value) ≤ maxAllocationBytes ∧
      schema.meaning.nesting (generated.values value) ≤ maxDepth) ∧
    1 ≤ Wire.minSize α ∧
    Wire.minSize α ≤ (schema.meaning.code (generated.values value)).length ∧
    (schema.meaning.fits (generated.values value) → ∀ state rest error next,
      state.remaining = schema.meaning.code (generated.values value) ++ rest →
      Wire.validate α state = .error error next →
        error ≠ ⟨"collection length exceeds remaining payload"⟩) := by
  have accepting := schema.accepting derivable
  have validates : Wire.validate α = schema.wire.validate := generated.validate
  have least : Wire.minSize α = schema.wire.minSize := generated.minSize
  rw [validates, least]
  refine ⟨?_, schema.minSize_pos derivable, accepting.shortest _, ?_⟩
  · intro bytes
    rw [encode_iff generated, validate_iff generated]
    constructor
    · rintro ⟨fits, code, short, found, reads⟩
      obtain ⟨code', fits', memory, depth⟩ := reads.decoded generated
      obtain ⟨same, _⟩ := schema.prefixFree derivable _ _ [] [] fits fits' (by rw [← code, ← code'])
      rw [same]
      exact ⟨code', short, memory, depth⟩
    · rintro ⟨rfl, short, memory, depth⟩
      exact ⟨accepting.fits _ short, rfl, short,
        readsWhole_code generated derivable short memory depth⟩
  · intro fits state rest error next input fails
    exact (ensures_of_error (accepting.accepts _ fits state rest input) fails).1

theorem encode_within_budgets_turn :
    encode (rotate 1) = .ok [7, 1, 0, 0, 0] ∧ 1 ≤ Wire.minSize turnSchema.Value := by
  obtain ⟨encodes, positive, _⟩ := encode_within_budgets (.self turnSchema) rfl (rotate 1)
  exact ⟨(encodes _).mpr ⟨rfl, by decide, by decide, by decide⟩, positive⟩

end Payloads

end Codec

end Synctick
