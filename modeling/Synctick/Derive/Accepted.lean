import Mathlib.Data.List.Forall2
import Mathlib.Data.List.Nodup
import Synctick.Derive
import Synctick.Foundation.Ensures

/-! # What the derive macros accept

An enum is accepted when each variant has one tag attribute with one tag, and the tags are distinct.
-/

namespace Synctick

namespace Derive

/-- The one item of the tag attribute of a variant. -/
def tagItem (tag : UInt8) : Item := ⟨"tag", .assigned (.integer tag.toNat)⟩

/-- The one item of the attribute that skips a field. -/
def skipItem : Item := ⟨"skip", .nothing⟩

/-- An item has one tag. -/
theorem tagItem_injective : Function.Injective tagItem := by
  intro tag other same
  have numbers : (tag.toNat : Int) = other.toNat :=
    Literal.integer.inj (Argument.assigned.inj (congrArg Item.argument same))
  exact UInt8.toNat_inj.mp (Int.ofNat.inj numbers)

/-- The attributes of these names. -/
def named (names : List String) (attrs : List Attribute) : List Attribute :=
  attrs.filter fun attr => attr.path ∈ names

/-- Attributes of the names are kept. -/
theorem named_cons_of_mem {names : List String} {attr : Attribute} (attrs : List Attribute)
    (member : attr.path ∈ names) : named names (attr :: attrs) = attr :: named names attrs :=
  List.filter_cons_of_pos (decide_eq_true member)

/-- Other attributes are dropped. -/
theorem named_cons_of_notMem {names : List String} {attr : Attribute} (attrs : List Attribute)
    (other : attr.path ∉ names) : named names (attr :: attrs) = named names attrs :=
  List.filter_cons_of_neg (by rw [decide_eq_true_eq]; exact other)

/-- Attributes are rejected where there is any of the names. -/
theorem rejectAttributes_iff {names : List String} {attrs : List Attribute} :
    rejectAttributes names attrs = .ok () ↔ named names attrs = [] := by
  induction attrs with
  | nil => exact iff_of_true rfl rfl
  | cons attr attrs ih =>
      rw [rejectAttributes]
      by_cases member : attr.path ∈ names
      · rw [if_pos member, named_cons_of_mem attrs member]
        exact iff_of_false (fun impossible => by cases impossible) (List.cons_ne_nil _ _)
      · rw [if_neg member, ih, named_cons_of_notMem attrs member]

/-! ## The tag of a variant -/

/-- Nothing may follow a tag. -/
theorem parseTag_some {tag : UInt8} {items : List Item} {result : Option UInt8} :
    parseTag (some tag) items = .ok result ↔ items = [] ∧ result = some tag := by
  cases items with
  | nil =>
      constructor
      · intro parsed
        cases parsed
        exact ⟨rfl, rfl⟩
      · rintro ⟨_, rfl⟩
        rfl
  | cons item items =>
      have given : (some tag).isSome = true := rfl
      apply iff_of_false
      · intro parsed
        rw [parseTag] at parsed
        by_cases other : item.name ≠ "tag"
        · rw [if_pos other] at parsed
          cases parsed
        · rw [if_neg other, if_pos given] at parsed
          cases parsed
      · rintro ⟨impossible, _⟩
        cases impossible

/-- The items of an attribute are one tag, or none. -/
theorem parseTag_none {items : List Item} {result : Option UInt8} :
    parseTag none items = .ok result ↔
      (items = [] ∧ result = none) ∨ ∃ tag, items = [tagItem tag] ∧ result = some tag := by
  cases items with
  | nil =>
      constructor
      · intro parsed
        cases parsed
        exact .inl ⟨rfl, rfl⟩
      · rintro (⟨_, rfl⟩ | ⟨_, impossible, _⟩)
        · rfl
        · cases impossible
  | cons item items =>
      obtain ⟨name, argument⟩ := item
      constructor
      · intro parsed
        rw [parseTag] at parsed
        dsimp only at parsed
        by_cases other : name ≠ "tag"
        · rw [if_pos other] at parsed
          cases parsed
        · rw [if_neg other, if_neg (by decide)] at parsed
          have tagged : name = "tag" := Decidable.not_not.mp other
          cases argument with
          | nothing => cases parsed
          | parenthesized => cases parsed
          | assigned literal =>
              cases literal with
              | other => cases parsed
              | integer value =>
                  dsimp only at parsed
                  by_cases fits : 0 ≤ value ∧ value ≤ 255
                  · rw [if_pos fits, parseTag_some] at parsed
                    obtain ⟨rfl, rfl⟩ := parsed
                    refine .inr ⟨UInt8.ofNat value.toNat, ?_, rfl⟩
                    have small : value.toNat < 256 := by omega
                    have number : ((UInt8.ofNat value.toNat).toNat : Int) = value := by
                      rw [UInt8.toNat_ofNat_of_lt' small, Int.toNat_of_nonneg fits.1]
                    unfold tagItem
                    rw [tagged, number]
                  · rw [if_neg fits] at parsed
                    cases parsed
      · rintro (⟨impossible, _⟩ | ⟨tag, single, rfl⟩)
        · cases impossible
        · cases single
          have small : tag.toNat < 256 := tag.toNat_lt
          have fits : (0 : Int) ≤ tag.toNat ∧ (tag.toNat : Int) ≤ 255 := by omega
          rw [parseTag]
          dsimp only
          rw [if_neg (by decide), if_neg (by decide), if_pos fits, parseTag_some]
          rw [Int.toNat_natCast, UInt8.ofNat_toNat]
          exact ⟨rfl, rfl⟩

/-- An attribute is parsed where it has a list of items. -/
theorem nested_iff {attr : Attribute} {items : List Item} :
    attr.nested = .ok items ↔ attr.arguments = .items items := by
  unfold Attribute.nested
  cases attr.arguments with
  | items found =>
      dsimp only
      rw [Except.ok.injEq, Arguments.items.injEq]
  | malformed error => exact iff_of_false (fun impossible => by cases impossible) (fun impossible => by cases impossible)

/-- After one attribute there may be no other. -/
theorem parseTags_seen {names : List String} {tag result : Option UInt8} {attrs : List Attribute} :
    parseTags names tag true attrs = .ok result ↔ named names attrs = [] ∧ result = tag := by
  induction attrs with
  | nil =>
      constructor
      · intro parsed
        cases parsed
        exact ⟨rfl, rfl⟩
      · rintro ⟨_, rfl⟩
        rfl
  | cons attr attrs ih =>
      rw [parseTags]
      by_cases member : attr.path ∈ names
      · rw [if_pos member, if_pos rfl, named_cons_of_mem attrs member]
        exact iff_of_false (fun impossible => by cases impossible) fun impossible => by
          cases impossible.1
      · rw [if_neg member, ih, named_cons_of_notMem attrs member]

/-- One attribute gives the tag. -/
theorem parseTags_unseen {names : List String} {tag : UInt8} {attrs : List Attribute} :
    parseTags names none false attrs = .ok (some tag) ↔
      ∃ attr, named names attrs = [attr] ∧ attr.arguments = .items [tagItem tag] := by
  induction attrs with
  | nil =>
      apply iff_of_false
      · intro impossible
        cases impossible
      · rintro ⟨_, impossible, _⟩
        cases impossible
  | cons attr attrs ih =>
      rw [parseTags]
      by_cases member : attr.path ∈ names
      · rw [if_pos member, if_neg Bool.false_ne_true, named_cons_of_mem attrs member]
        constructor
        · intro parsed
          obtain ⟨items, found, parsed⟩ := except_bind_eq_ok.mp parsed
          obtain ⟨given, read, parsed⟩ := except_bind_eq_ok.mp parsed
          obtain ⟨others, same⟩ := parseTags_seen.mp parsed
          rw [← same] at read
          rcases parseTag_none.mp read with ⟨_, impossible⟩ | ⟨_, single, equal⟩
          · cases impossible
          · cases equal
            exact ⟨attr, by rw [others], by rw [nested_iff.mp found, single]⟩
        · rintro ⟨_, single, found⟩
          obtain ⟨rfl, others⟩ := List.cons.inj single
          apply except_bind_eq_ok.mpr
          refine ⟨_, nested_iff.mpr found, except_bind_eq_ok.mpr ⟨some tag, ?_, ?_⟩⟩
          · exact parseTag_none.mpr (.inr ⟨tag, rfl, rfl⟩)
          · exact parseTags_seen.mpr ⟨others, rfl⟩
      · rw [if_neg member, ih, named_cons_of_notMem attrs member]

section Checks

variable {τ : Type}

/-- A variant has no discriminant, and one attribute of these names, which is one tag. -/
structure Tagged (names : List String) (variant : Variant τ) (tag : UInt8) : Prop where
  discriminant : variant.discriminant = none
  marked : ∃ attr, named names variant.attrs = [attr] ∧ attr.arguments = .items [tagItem tag]

/-- A tag is found exactly where a variant is tagged. -/
theorem variantTag_iff {names : List String} {variant : Variant τ} {tag : UInt8} :
    variantTag variant names = .ok tag ↔ Tagged names variant tag := by
  unfold variantTag
  cases discriminant : variant.discriminant with
  | some _ =>
      apply iff_of_false
      · intro impossible
        cases impossible
      · intro tagged
        rw [tagged.discriminant] at discriminant
        cases discriminant
  | none =>
      rw [except_bind_eq_ok]
      constructor
      · rintro ⟨given, parsed, returned⟩
        cases given with
        | none => cases returned
        | some found =>
            cases returned
            exact ⟨discriminant, parseTags_unseen.mp parsed⟩
      · intro tagged
        exact ⟨some tag, parseTags_unseen.mpr tagged.marked, rfl⟩

/-- Fields are checked one after another. -/
theorem checkFields_iff {checkField : Field τ → Checked Unit} {fields : List (Field τ)} :
    checkFields checkField fields = .ok () ↔ ∀ field ∈ fields, checkField field = .ok () := by
  induction fields with
  | nil => exact iff_of_true rfl fun _ impossible => by cases impossible
  | cons field fields ih =>
      rw [checkFields, except_bind_eq_ok, List.forall_mem_cons]
      constructor
      · rintro ⟨⟨⟩, checked, others⟩
        exact ⟨checked, ih.mp others⟩
      · rintro ⟨checked, others⟩
        exact ⟨(), checked, ih.mpr others⟩

/-- The tags of an enum are collected when every variant has one that is new, and every field is
accepted. -/
theorem collectTags_iff {names : List String} {duplicate : String}
    {checkField : Field τ → Checked Unit} {seen tags : List UInt8} {variants : List (Variant τ)} :
    collectTags names duplicate checkField seen variants = .ok tags ↔
      List.Forall₂ (Tagged names) variants tags ∧ tags.Nodup ∧ (∀ tag ∈ tags, tag ∉ seen) ∧
      ∀ variant ∈ variants, ∀ field ∈ variant.fields, checkField field = .ok () := by
  induction variants generalizing seen tags with
  | nil =>
      constructor
      · intro collected
        cases collected
        exact ⟨.nil, List.nodup_nil, fun _ impossible => (List.not_mem_nil impossible).elim,
          fun _ impossible => (List.not_mem_nil impossible).elim⟩
      · rintro ⟨tagged, _⟩
        cases tagged
        rfl
  | cons variant variants ih =>
      rw [collectTags, except_bind_eq_ok, List.forall_mem_cons]
      constructor
      · rintro ⟨tag, found, collected⟩
        by_cases known : tag ∈ seen
        · rw [if_pos known] at collected
          cases collected
        · rw [if_neg known] at collected
          obtain ⟨⟨⟩, checked, collected⟩ := except_bind_eq_ok.mp collected
          obtain ⟨later, rest, returned⟩ := except_bind_eq_ok.mp collected
          cases returned
          obtain ⟨tagged, distinct, fresh, others⟩ := ih.mp rest
          refine ⟨.cons (variantTag_iff.mp found) tagged, ?_, ?_, checkFields_iff.mp checked,
            others⟩
          · apply List.nodup_cons.mpr
            exact ⟨fun repeated => fresh tag repeated List.mem_cons_self, distinct⟩
          · rw [List.forall_mem_cons]
            exact ⟨known, fun other member earlier =>
              fresh other member (List.mem_cons_of_mem _ earlier)⟩
      · rintro ⟨tagged, distinct, fresh, checked, others⟩
        cases tagged with
        | @cons _ tag _ later found tagged =>
            obtain ⟨apart, distinct⟩ := List.nodup_cons.mp distinct
            obtain ⟨known, fresh⟩ := List.forall_mem_cons.mp fresh
            refine ⟨tag, variantTag_iff.mpr found, ?_⟩
            rw [if_neg known]
            apply except_bind_eq_ok.mpr
            refine ⟨(), checkFields_iff.mpr checked, except_bind_eq_ok.mpr ⟨later, ?_, rfl⟩⟩
            refine ih.mpr ⟨tagged, distinct, ?_, others⟩
            intro other member earlier
            rcases List.mem_cons.mp earlier with same | before
            · rw [same] at member
              exact apart member
            · exact fresh other member before

/-! ## The fields of fingerprints -/

/-- A second skip is not accepted. -/
theorem parseSkip_true {items : List Item} {result : Bool} :
    parseSkip true items = .ok result ↔ items = [] ∧ result = true := by
  cases items with
  | nil =>
      constructor
      · intro parsed
        cases parsed
        exact ⟨rfl, rfl⟩
      · rintro ⟨_, rfl⟩
        rfl
  | cons item items =>
      apply iff_of_false
      · intro parsed
        rw [parseSkip] at parsed
        by_cases other : item.name ≠ "skip"
        · rw [if_pos other] at parsed
          cases parsed
        · rw [if_neg other, if_pos rfl] at parsed
          cases parsed
      · rintro ⟨impossible, _⟩
        cases impossible

/-- An attribute skips a field when it is one skip. -/
theorem parseSkip_false {items : List Item} :
    parseSkip false items = .ok true ↔ items = [skipItem] := by
  cases items with
  | nil =>
      exact iff_of_false (fun impossible => by cases impossible) fun impossible => by
        cases impossible
  | cons item items =>
      obtain ⟨name, argument⟩ := item
      constructor
      · intro parsed
        rw [parseSkip] at parsed
        dsimp only at parsed
        by_cases other : name ≠ "skip"
        · rw [if_pos other] at parsed
          cases parsed
        · rw [if_neg other, if_neg Bool.false_ne_true] at parsed
          have skips : name = "skip" := Decidable.not_not.mp other
          cases argument with
          | nothing =>
              obtain ⟨rfl, _⟩ := parseSkip_true.mp parsed
              rw [skips]
              rfl
          | assigned literal => cases parsed
          | parenthesized => cases parsed
      · intro single
        cases single
        rfl

/-- Behind a skip no further attribute of the hash is accepted. -/
theorem parseSkips_true {attrs : List Attribute} :
    parseSkips true attrs = .ok () ↔ named ["stable_hash"] attrs = [] := by
  induction attrs with
  | nil => exact iff_of_true rfl rfl
  | cons attr attrs ih =>
      rw [parseSkips]
      by_cases other : attr.path ≠ "stable_hash"
      · have outside : attr.path ∉ ["stable_hash"] := by
          rw [List.mem_singleton]
          exact other
        rw [if_pos other, ih, named_cons_of_notMem attrs outside]
      · have inside : attr.path ∈ ["stable_hash"] := by
          rw [List.mem_singleton]
          exact Decidable.not_not.mp other
        rw [if_neg other, if_pos rfl, named_cons_of_mem attrs inside]
        exact iff_of_false (fun impossible => by cases impossible) (List.cons_ne_nil _ _)

/-- A field has no hash attribute, or one that skips it. -/
theorem parseSkips_false {attrs : List Attribute} :
    parseSkips false attrs = .ok () ↔ named ["stable_hash"] attrs = [] ∨
      ∃ attr, named ["stable_hash"] attrs = [attr] ∧ attr.arguments = .items [skipItem] := by
  induction attrs with
  | nil => exact iff_of_true rfl (.inl rfl)
  | cons attr attrs ih =>
      rw [parseSkips]
      by_cases other : attr.path ≠ "stable_hash"
      · have outside : attr.path ∉ ["stable_hash"] := by
          rw [List.mem_singleton]
          exact other
        rw [if_pos other, ih, named_cons_of_notMem attrs outside]
      · have inside : attr.path ∈ ["stable_hash"] := by
          rw [List.mem_singleton]
          exact Decidable.not_not.mp other
        rw [if_neg other, if_neg Bool.false_ne_true, named_cons_of_mem attrs inside]
        constructor
        · intro parsed
          obtain ⟨items, found, parsed⟩ := except_bind_eq_ok.mp parsed
          obtain ⟨skip, read, parsed⟩ := except_bind_eq_ok.mp parsed
          cases skip with
          | false => cases parsed
          | true =>
              rw [if_pos rfl] at parsed
              refine .inr ⟨attr, by rw [parseSkips_true.mp parsed], ?_⟩
              rw [nested_iff.mp found, parseSkip_false.mp read]
        · rintro (impossible | ⟨_, single, found⟩)
          · cases impossible
          · obtain ⟨rfl, others⟩ := List.cons.inj single
            apply except_bind_eq_ok.mpr
            refine ⟨_, nested_iff.mpr found, except_bind_eq_ok.mpr ⟨true, ?_, ?_⟩⟩
            · exact parseSkip_false.mpr rfl
            · rw [if_pos rfl]
              exact parseSkips_true.mpr others

/-- A field without attributes of a wire format. -/
def Unmarked (field : Field τ) : Prop := named ["wire"] field.attrs = []

/-- A field that is hashed, or skipped by a single attribute. -/
structure Hashable (field : Field τ) : Prop where
  wire : named ["wire"] field.attrs = []
  skips : named ["stable_hash"] field.attrs = [] ∨
    ∃ attr, named ["stable_hash"] field.attrs = [attr] ∧ attr.arguments = .items [skipItem]

/-- The wire derive accepts the fields without its attributes. -/
theorem rejectWire_iff {field : Field τ} : rejectWire field = .ok () ↔ Unmarked field :=
  rejectAttributes_iff

/-- The hash derive accepts a field with at most one skip. -/
theorem validateField_iff {field : Field τ} : validateField field = .ok () ↔ Hashable field := by
  unfold validateField
  rw [except_bind_eq_ok]
  constructor
  · rintro ⟨⟨⟩, rejected, parsed⟩
    exact ⟨rejectAttributes_iff.mp rejected, parseSkips_false.mp parsed⟩
  · intro hashable
    exact ⟨(), rejectAttributes_iff.mpr hashable.wire, parseSkips_false.mpr hashable.skips⟩

/-! ## Enums -/

/-- The rule for enums: the attributes of these names are on variants only, each of which has a tag
of its own. -/
structure Schematic (names : List String) (accepts : Field τ → Prop) (attrs : List Attribute)
    (variants : List (Variant τ)) (tags : List UInt8) : Prop where
  nonempty : variants ≠ []
  unmarked : named names attrs = []
  tagged : List.Forall₂ (Tagged names) variants tags
  distinct : tags.Nodup
  fields : ∀ variant ∈ variants, ∀ field ∈ variant.fields, accepts field

/-- The tags of an enum are collected exactly where it follows the rule. -/
theorem collectTags_schematic {names : List String} {duplicate : String}
    {checkField : Field τ → Checked Unit} {accepts : Field τ → Prop} {attrs : List Attribute}
    {variants : List (Variant τ)} {tags : List UInt8}
    (checks : ∀ field, checkField field = .ok () ↔ accepts field) (nonempty : variants ≠ [])
    (unmarked : named names attrs = []) :
    collectTags names duplicate checkField [] variants = .ok tags ↔
      Schematic names accepts attrs variants tags := by
  rw [collectTags_iff]
  constructor
  · rintro ⟨tagged, distinct, _, fields⟩
    exact ⟨nonempty, unmarked, tagged, distinct, fun variant member field among =>
      (checks field).mp (fields variant member field among)⟩
  · intro schematic
    exact ⟨schematic.tagged, schematic.distinct, fun _ _ => List.not_mem_nil,
      fun variant member field among =>
        (checks field).mpr (schematic.fields variant member field among)⟩

/-- The wire derive accepts exactly the enums that follow its rule. -/
theorem expandWire_iff {attrs : List Attribute} {variants : List (Variant τ)} {tags : List UInt8} :
    expandWire ⟨attrs, .enum variants⟩ = .ok tags ↔
      Schematic ["wire"] Unmarked attrs variants tags := by
  unfold expandWire
  rw [except_bind_eq_ok]
  dsimp only
  cases variants with
  | nil =>
      apply iff_of_false
      · rintro ⟨_, _, impossible⟩
        cases impossible
      · intro schematic
        exact schematic.nonempty rfl
  | cons variant variants =>
      have nonempty : variant :: variants ≠ [] := List.cons_ne_nil _ _
      constructor
      · rintro ⟨⟨⟩, rejected, collected⟩
        exact (collectTags_schematic (fun _ => rejectWire_iff) nonempty
          (rejectAttributes_iff.mp rejected)).mp collected
      · intro schematic
        exact ⟨(), rejectAttributes_iff.mpr schematic.unmarked,
          (collectTags_schematic (fun _ => rejectWire_iff) nonempty schematic.unmarked).mpr
            schematic⟩

/-- So does the hash derive. -/
theorem validate_iff {attrs : List Attribute} {variants : List (Variant τ)} {tags : List UInt8} :
    validate ⟨attrs, .enum variants⟩ = .ok tags ↔
      Schematic attributes Hashable attrs variants tags := by
  unfold validate
  rw [except_bind_eq_ok]
  dsimp only
  cases variants with
  | nil =>
      apply iff_of_false
      · rintro ⟨_, _, impossible⟩
        cases impossible
      · intro schematic
        exact schematic.nonempty rfl
  | cons variant variants =>
      have nonempty : variant :: variants ≠ [] := List.cons_ne_nil _ _
      constructor
      · rintro ⟨⟨⟩, rejected, collected⟩
        exact (collectTags_schematic (fun _ => validateField_iff) nonempty
          (rejectAttributes_iff.mp rejected)).mp collected
      · intro schematic
        exact ⟨(), rejectAttributes_iff.mpr schematic.unmarked,
          (collectTags_schematic (fun _ => validateField_iff) nonempty schematic.unmarked).mpr
            schematic⟩

/-- A variant that both derives accept has one tag for both. -/
theorem Tagged.shared {variant : Variant τ} {tag other : UInt8}
    (wire : Tagged ["wire"] variant tag) (hash : Tagged attributes variant other) :
    tag = other := by
  obtain ⟨attr, marked, gives⟩ := wire.marked
  obtain ⟨attr', marked', gives'⟩ := hash.marked
  have among : attr ∈ named ["wire"] variant.attrs := by
    rw [marked]
    exact List.mem_singleton_self attr
  obtain ⟨present, path⟩ := List.mem_filter.mp among
  have among' : attr ∈ named attributes variant.attrs := by
    apply List.mem_filter.mpr
    exact ⟨present, decide_eq_true (List.mem_cons_of_mem _ (of_decide_eq_true path))⟩
  rw [marked', List.mem_singleton] at among'
  rw [among', gives'] at gives
  exact tagItem_injective (List.cons.inj (Arguments.items.inj gives)).1.symm

/-- Where each value has at most one partner, a list has at most one list of partners. -/
theorem forall₂_unique {α β : Type} {first second : α → β → Prop}
    (unique : ∀ a b b', first a b → second a b' → b = b') {values : List α} {found found' : List β}
    (all : List.Forall₂ first values found) (all' : List.Forall₂ second values found') :
    found = found' := by
  induction all generalizing found' with
  | nil =>
      cases all'
      rfl
  | cons holds _ ih =>
      cases all' with
      | cons holds' rest => rw [unique _ _ _ holds holds', ih rest]

end Checks

end Derive

end Synctick
