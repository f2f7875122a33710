import Mathlib.Data.List.Perm.Basic
import Synctick.Codec.Bijection
import Synctick.Derive.Accepted
import Synctick.Hashing.Unambiguous

/-! # What the derive macros generate

An accepted enum dispatches on its tags. Reordering its variants changes neither the bytes nor the
fingerprint of a value.
-/

namespace Synctick

/-- Payloads are encoded alike when the passes of two types are. -/
theorem Codec.encode_congr {α β : Type} [Codec.Wire α] [Codec.Wire β] {value : α} {other : β}
    (encodes : Codec.Wire.encode value = Codec.Wire.encode other)
    (validates : Codec.Wire.validate α = Codec.Wire.validate β) :
    Codec.encode value = Codec.encode other := by
  unfold Codec.encode Codec.validate
  rw [encodes, validates]

namespace Derive

/-- A place of an element in a list. -/
inductive Place {α : Type} : List α → α → Type
  | here {element : α} {rest : List α} : Place (element :: rest) element
  | there {element first : α} {rest : List α} (place : Place rest element) :
      Place (first :: rest) element

variable {τ : Type}

/-- A variant and the tag that was collected for it. -/
abbrev TaggedVariant (τ : Type) := Variant τ × UInt8

section Wire

variable (wire : τ → Codec.Schema)

def wireFields : List (Field τ) → Codec.Fields
  | [] => .nil
  | field :: fields => .cons (wire field.ty) (wireFields fields)

/-- The arms of the generated passes, in the order of the variants. -/
def wireArms : List (TaggedVariant τ) → Codec.Variants
  | [] => .nil
  | (variant, tag) :: arms => .cons tag (wireFields wire variant.fields) (wireArms arms)

/-- The value of a variant. -/
def wireValue : {arms : List (TaggedVariant τ)} → {arm : TaggedVariant τ} → Place arms arm →
    (wireFields wire arm.1.fields).Values → (wireArms wire arms).Value
  | _ :: _, _, .here, values => .inl values
  | _ :: _, _, .there place, values => .inr (wireValue place values)

variable {wire}

/-- Every value is that of a variant. -/
theorem wireValue_surjective : {arms : List (TaggedVariant τ)} →
    (value : (wireArms wire arms).Value) →
    ∃ (arm : TaggedVariant τ) (place : Place arms arm)
      (values : (wireFields wire arm.1.fields).Values), wireValue wire place values = value
  | [], value => value.elim
  | arm :: _, .inl values => ⟨arm, .here, values, rfl⟩
  | _ :: _, .inr value => by
      obtain ⟨arm, place, values, same⟩ := wireValue_surjective value
      exact ⟨arm, .there place, values, congrArg Sum.inr same⟩

/-- A value is encoded as its tag and its fields, wherever its variant stands. -/
theorem encode_wireValue {arms : List (TaggedVariant τ)} {arm : TaggedVariant τ}
    (place : Place arms arm) (values : (wireFields wire arm.1.fields).Values) :
    (wireArms wire arms).arms.encode (wireValue wire place values) = (do
      Codec.Wire.encode arm.2
      (wireFields wire arm.1.fields).wire.encode values) := by
  induction place with
  | here => rfl
  | there place ih => exact ih values

/-- Distinct tags dispatch to the same arms in any order. -/
theorem validate_wireArms {arms others : List (TaggedVariant τ)} (reordered : arms.Perm others)
    (distinct : (arms.map Prod.snd).Nodup) :
    (wireArms wire arms).arms.validate = (wireArms wire others).arms.validate := by
  induction reordered with
  | nil => rfl
  | cons arm _ ih =>
      have rest := ih (List.nodup_cons.mp distinct).2
      funext found
      change (if found = arm.2 then _ else (wireArms wire _).arms.validate found) =
        (if found = arm.2 then _ else (wireArms wire _).arms.validate found)
      rw [rest]
  | swap first second rest =>
      have apart : second.2 ≠ first.2 := fun same =>
        (List.nodup_cons.mp distinct).1 (by rw [same]; exact List.mem_cons_self)
      funext found
      change (if found = second.2 then (wireFields wire second.1.fields).wire.validate
          else if found = first.2 then (wireFields wire first.1.fields).wire.validate
          else (wireArms wire rest).arms.validate found) =
        (if found = first.2 then (wireFields wire first.1.fields).wire.validate
          else if found = second.2 then (wireFields wire second.1.fields).wire.validate
          else (wireArms wire rest).arms.validate found)
      by_cases isFirst : found = first.2
      · have notSecond : found ≠ second.2 := fun same => apart (same.symm.trans isFirst)
        rw [if_neg notSecond, if_pos isFirst, if_pos isFirst]
      · rw [if_neg isFirst, if_neg isFirst]
  | trans before _ ih ih' =>
      rw [ih distinct, ih' ((before.map Prod.snd).nodup_iff.mp distinct)]

/-- The smallest variant is the same in any order. -/
theorem minSize_wireArms {arms others : List (TaggedVariant τ)} (reordered : arms.Perm others) :
    (wireArms wire arms).arms.minSize = (wireArms wire others).arms.minSize := by
  induction reordered with
  | nil => rfl
  | cons arm _ ih => exact congrArg (min (1 + (wireFields wire arm.1.fields).wire.minSize)) ih
  | swap first second rest => exact Nat.min_left_comm _ _ _
  | trans _ _ ih ih' => rw [ih, ih']

/-- A value of a reordered enum is encoded to the same bytes. -/
theorem encode_reordered {arms others : List (TaggedVariant τ)} {arm : TaggedVariant τ}
    (reordered : arms.Perm others) (distinct : (arms.map Prod.snd).Nodup) (place : Place arms arm)
    (place' : Place others arm) (values : (wireFields wire arm.1.fields).Values) :
    Codec.encode (α := (Codec.Schema.enum (wireArms wire arms)).Value)
        (wireValue wire place values) =
      Codec.encode (α := (Codec.Schema.enum (wireArms wire others)).Value)
        (wireValue wire place' values) := by
  apply Codec.encode_congr
  · change (wireArms wire arms).arms.encode _ = (wireArms wire others).arms.encode _
    rw [encode_wireValue, encode_wireValue]
  · change (Codec.enumeration (wireArms wire arms).arms).validate =
      (Codec.enumeration (wireArms wire others).arms).validate
    change (do
      let tag : UInt8 ← Codec.Wire.decode
      (wireArms wire arms).arms.validate tag) = (do
      let tag : UInt8 ← Codec.Wire.decode
      (wireArms wire others).arms.validate tag)
    rw [validate_wireArms reordered distinct]

end Wire

section Fingerprints

variable (hash : τ → Hashing.Schema) (data : τ → Type)

/-- The fields that are hashed; a skipped field is plain data. -/
def hashFields : List (Field τ) → Hashing.Fields
  | [] => .nil
  | field :: fields =>
      if isSkipped field then .skipped (data field.ty) (hashFields fields)
      else .cons (hash field.ty) (hashFields fields)

def hashArms : List (TaggedVariant τ) → Hashing.Variants
  | [] => .nil
  | (variant, tag) :: arms => .cons tag (hashFields hash data variant.fields) (hashArms arms)

def hashValue : {arms : List (TaggedVariant τ)} → {arm : TaggedVariant τ} → Place arms arm →
    (hashFields hash data arm.1.fields).Values → (hashArms hash data arms).Value
  | _ :: _, _, .here, values => .inl values
  | _ :: _, _, .there place, values => .inr (hashValue place values)

variable {hash data}

theorem hashValue_surjective : {arms : List (TaggedVariant τ)} →
    (value : (hashArms hash data arms).Value) →
    ∃ (arm : TaggedVariant τ) (place : Place arms arm)
      (values : (hashFields hash data arm.1.fields).Values),
      hashValue hash data place values = value
  | [], value => value.elim
  | arm :: _, .inl values => ⟨arm, .here, values, rfl⟩
  | _ :: _, .inr value => by
      obtain ⟨arm, place, values, same⟩ := hashValue_surjective value
      exact ⟨arm, .there place, values, congrArg Sum.inr same⟩

/-- A value is hashed as its tag and its fields, wherever its variant stands. -/
theorem hashInto_hashValue {arms : List (TaggedVariant τ)} {arm : TaggedVariant τ}
    (place : Place arms arm) (values : (hashFields hash data arm.1.fields).Values)
    (hasher : StateHasher) :
    (hashArms hash data arms).hashing.hashInto (hashValue hash data place values) hasher =
      (hashFields hash data arm.1.fields).hashing.hashInto values (hasher.field arm.2) := by
  induction place with
  | here => rfl
  | there place ih => exact ih values

/-- A value of a reordered enum has the same fingerprint. -/
theorem stableHash_reordered {arms others : List (TaggedVariant τ)} {arm : TaggedVariant τ}
    (place : Place arms arm) (place' : Place others arm)
    (values : (hashFields hash data arm.1.fields).Values) :
    stableHash (α := (Hashing.Schema.enum (hashArms hash data arms)).Value)
        (hashValue hash data place values) =
      stableHash (α := (Hashing.Schema.enum (hashArms hash data others)).Value)
        (hashValue hash data place' values) := by
  change ((hashArms hash data arms).hashing.hashInto _ StateHasher.new).finish =
    ((hashArms hash data others).hashing.hashInto _ StateHasher.new).finish
  rw [hashInto_hashValue, hashInto_hashValue]

end Fingerprints

/-! ## Reordered definitions -/

/-- The tag of a tagged variant. -/
def chosenTag (names : List String) (variant : Variant τ) : UInt8 :=
  match variantTag variant names with
  | .ok tag => tag
  | .error _ => 0

theorem Tagged.chosen {names : List String} {variant : Variant τ} {tag : UInt8}
    (tagged : Tagged names variant tag) : chosenTag names variant = tag := by
  simp only [chosenTag, variantTag_iff.mpr tagged]

theorem eq_map_of_tagged {names : List String} {variants : List (Variant τ)} {tags : List UInt8}
    (tagged : List.Forall₂ (Tagged names) variants tags) :
    tags = variants.map (chosenTag names) := by
  induction tagged with
  | nil => rfl
  | cons first _ ih => rw [List.map_cons, first.chosen, ← ih]

theorem tagged_map {names : List String} {variants : List (Variant τ)} :
    List.Forall₂ (Tagged names) variants (variants.map (chosenTag names)) ↔
      ∀ variant ∈ variants, Tagged names variant (chosenTag names variant) := by
  rw [List.forall₂_map_right_iff, List.forall₂_same]

/-- Each variant with its tag. -/
theorem zip_map_eq (names : List String) (variants : List (Variant τ)) :
    variants.zip (variants.map (chosenTag names)) =
      variants.map fun variant => (variant, chosenTag names variant) := by
  induction variants with
  | nil => rfl
  | cons variant variants ih => exact congrArg ((variant, chosenTag names variant) :: ·) ih

/-- A reordered enum follows the same rule, and every variant keeps its tag. -/
theorem Schematic.reordered {names : List String} {accepts : Field τ → Prop}
    {attrs : List Attribute} {variants others : List (Variant τ)} {tags : List UInt8}
    (schematic : Schematic names accepts attrs variants tags) (reordered : variants.Perm others) :
    ∃ tags', Schematic names accepts attrs others tags' ∧
      (variants.zip tags).Perm (others.zip tags') := by
  have chosen := eq_map_of_tagged schematic.tagged
  have tagged := tagged_map.mp (chosen ▸ schematic.tagged)
  have same := reordered.map (chosenTag names)
  refine ⟨others.map (chosenTag names), ⟨?_, schematic.unmarked, ?_, ?_, ?_⟩, ?_⟩
  · intro empty
    rw [empty] at reordered
    exact schematic.nonempty reordered.eq_nil
  · exact tagged_map.mpr fun variant member => tagged variant (reordered.mem_iff.mpr member)
  · rw [← same.nodup_iff, ← chosen]
    exact schematic.distinct
  · exact fun variant member => schematic.fields variant (reordered.mem_iff.mpr member)
  · rw [chosen, zip_map_eq, zip_map_eq]
    exact reordered.map _

theorem Schematic.map_zip {names : List String} {accepts : Field τ → Prop}
    {attrs : List Attribute} {variants : List (Variant τ)} {tags : List UInt8}
    (schematic : Schematic names accepts attrs variants tags) :
    (variants.zip tags).map Prod.snd = tags :=
  List.map_snd_zip (Nat.le_of_eq schematic.tagged.length_eq.symm)

/-- The wire derive accepts an enum exactly when it follows the rule for wire attributes, the hash
derive when it follows the rule for attributes of either name. An enum that both accept has the same
tags for both. A reordered enum is accepted as well, each variant with its tag, and neither the
bytes nor the fingerprint of a value change: every value is that of a variant, which may stand
anywhere. -/
theorem derived_tags {τ : Type} :
    (∀ (attrs : List Attribute) (variants : List (Variant τ)) (tags : List UInt8),
      expandWire ⟨attrs, .enum variants⟩ = .ok tags ↔
        Schematic ["wire"] Unmarked attrs variants tags) ∧
    (∀ (attrs : List Attribute) (variants : List (Variant τ)) (tags : List UInt8),
      validate ⟨attrs, .enum variants⟩ = .ok tags ↔
        Schematic ["stable_hash", "wire"] Hashable attrs variants tags) ∧
    (∀ (attrs : List Attribute) (variants : List (Variant τ)) (tags tags' : List UInt8),
      expandWire ⟨attrs, .enum variants⟩ = .ok tags →
        validate ⟨attrs, .enum variants⟩ = .ok tags' → tags = tags') ∧
    (∀ (attrs : List Attribute) (variants others : List (Variant τ)) (tags : List UInt8),
      variants.Perm others → expandWire ⟨attrs, .enum variants⟩ = .ok tags →
        ∃ tags', expandWire ⟨attrs, .enum others⟩ = .ok tags' ∧
          (variants.zip tags).Perm (others.zip tags') ∧
          (∀ wire : τ → Codec.Schema, (wireArms wire (variants.zip tags)).arms.minSize =
            (wireArms wire (others.zip tags')).arms.minSize) ∧
          ∀ (wire : τ → Codec.Schema)
            (value : (Codec.Schema.enum (wireArms wire (variants.zip tags))).Value),
            ∃ (arm : TaggedVariant τ) (place : Place (variants.zip tags) arm)
              (values : (wireFields wire arm.1.fields).Values),
              wireValue wire place values = value ∧
              ∀ place' : Place (others.zip tags') arm, Codec.encode value =
                Codec.encode (α := (Codec.Schema.enum (wireArms wire (others.zip tags'))).Value)
                  (wireValue wire place' values)) ∧
    (∀ (attrs : List Attribute) (variants others : List (Variant τ)) (tags : List UInt8),
      variants.Perm others → validate ⟨attrs, .enum variants⟩ = .ok tags →
        ∃ tags', validate ⟨attrs, .enum others⟩ = .ok tags' ∧
          (variants.zip tags).Perm (others.zip tags') ∧
          ∀ (hash : τ → Hashing.Schema) (data : τ → Type)
            (value : (Hashing.Schema.enum (hashArms hash data (variants.zip tags))).Value),
            ∃ (arm : TaggedVariant τ) (place : Place (variants.zip tags) arm)
              (values : (hashFields hash data arm.1.fields).Values),
              hashValue hash data place values = value ∧
              ∀ place' : Place (others.zip tags') arm, stableHash value =
                stableHash (α := (Hashing.Schema.enum (hashArms hash data (others.zip tags'))).Value)
                  (hashValue hash data place' values)) := by
  refine ⟨fun _ _ _ => expandWire_iff, fun _ _ _ => validate_iff, ?_, ?_, ?_⟩
  · intro attrs variants tags tags' wire hash
    have shared (variant : Variant τ) (tag other : UInt8) (first : Tagged ["wire"] variant tag)
        (second : Tagged attributes variant other) : tag = other := first.shared second
    exact forall₂_unique shared (expandWire_iff.mp wire).tagged (validate_iff.mp hash).tagged
  · intro attrs variants others tags reordered accepted
    have schematic := expandWire_iff.mp accepted
    obtain ⟨tags', still, arms⟩ := schematic.reordered reordered
    refine ⟨tags', expandWire_iff.mpr still, arms, fun _ => minSize_wireArms arms,
      fun wire value => ?_⟩
    obtain ⟨arm, place, values, same⟩ := wireValue_surjective value
    refine ⟨arm, place, values, same, fun place' => ?_⟩
    have distinct : ((variants.zip tags).map Prod.snd).Nodup := by
      rw [schematic.map_zip]
      exact schematic.distinct
    rw [← same]
    exact encode_reordered arms distinct place place' values
  · intro attrs variants others tags reordered accepted
    have schematic := validate_iff.mp accepted
    obtain ⟨tags', still, arms⟩ := schematic.reordered reordered
    refine ⟨tags', validate_iff.mpr still, arms, fun hash data value => ?_⟩
    obtain ⟨arm, place, values, same⟩ := hashValue_surjective value
    refine ⟨arm, place, values, same, fun place' => ?_⟩
    rw [← same]
    exact stableHash_reordered place place' values

/-- Two unit variants, each with a tag for the wire. -/
def twoUnits : List (Variant Unit) :=
  [{ ident := "First", attrs := [⟨"wire", .items [tagItem 17]⟩], fields := [] },
    { ident := "Second", attrs := [⟨"wire", .items [tagItem 4]⟩], fields := [] }]

theorem derived_tags_twoUnits : Schematic ["wire"] Unmarked [] twoUnits [17, 4] ∧
    Schematic ["stable_hash", "wire"] Hashable [] twoUnits [17, 4] ∧
    (∃ tags, expandWire ⟨[], .enum twoUnits.reverse⟩ = .ok tags) ∧
    ∃ tags, validate ⟨[], .enum twoUnits.reverse⟩ = .ok tags := by
  obtain ⟨wire, hash, _, wires, hashes⟩ := derived_tags (τ := Unit)
  have accepted : expandWire ⟨[], .enum twoUnits⟩ = .ok [17, 4] := rfl
  have validated : validate ⟨[], .enum twoUnits⟩ = .ok [17, 4] := rfl
  have reordered : twoUnits.Perm twoUnits.reverse := (List.reverse_perm twoUnits).symm
  obtain ⟨tags, still, _⟩ := wires _ _ _ _ reordered accepted
  obtain ⟨tags', still', _⟩ := hashes _ _ _ _ reordered validated
  exact ⟨(wire _ _ _).mp accepted, (hash _ _ _).mp validated, ⟨tags, still⟩, ⟨tags', still'⟩⟩

end Derive

end Synctick
