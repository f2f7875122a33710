import Mathlib.Data.List.Forall2
import Mathlib.Data.Sum.Basic

/-! # Unambiguous representations

Values are represented as strings of symbols, up to what of them the representation shows. It is
unambiguous when a string tells what it represents and where it ends, whatever comes after it.
Symbols of a fixed width, tags and counts frame a representation, and what is built from
unambiguous parts is unambiguous.
-/

namespace Synctick

/-- A representation of values, and when two of them agree on what it shows. -/
structure Framing (α β : Type) where
  repr : α → List β
  Agrees : α → α → Prop

/-- Values, as many as may be. -/
structure Sized (α : Type) (sized : Nat → Prop) where
  values : List α
  admissible : sized values.length

namespace Framing

variable {α α' β : Type}

/-- A string determines what it represents, up to agreement, and what is left of it. -/
def Unambiguous (framing : Framing α β) : Prop :=
  ∀ value other left more, framing.repr value ++ left = framing.repr other ++ more ↔
    framing.Agrees value other ∧ left = more

/-- Nothing of the values is shown. -/
def silent : Framing α β where
  repr _ := []
  Agrees _ _ := True

/-- Values are shown in full. -/
def full (repr : α → List β) : Framing α β where
  repr := repr
  Agrees value other := value = other

/-- One part, and then another. -/
def pair (first : Framing α β) (rest : Framing α' β) : Framing (α × α') β where
  repr value := first.repr value.1 ++ rest.repr value.2
  Agrees value other := first.Agrees value.1 other.1 ∧ rest.Agrees value.2 other.2

/-- No alternative. -/
def noArm : Framing Empty β where
  repr := Empty.elim
  Agrees := Empty.elim

/-- A tagged alternative, before the others. -/
def arm (tag : β) (payload : Framing α β) (rest : Framing α' β) : Framing (α ⊕ α') β where
  repr
    | .inl value => tag :: payload.repr value
    | .inr value => rest.repr value
  Agrees
    | .inl value, .inl other => payload.Agrees value other
    | .inr value, .inr other => rest.Agrees value other
    | _, _ => False

/-- A value behind one tag, or another tag alone. -/
def optional (absent present : β) (element : Framing α β) : Framing (Option α) β where
  repr
    | none => [absent]
    | some value => present :: element.repr value
  Agrees
    | none, none => True
    | some value, some other => element.Agrees value other
    | _, _ => False

/-- A count, and then the elements. -/
def counted (sized : Nat → Prop) (header : Nat → List β) (element : Framing α β) :
    Framing (Sized α sized) β where
  repr sequence := header sequence.values.length ++ sequence.values.flatMap element.repr
  Agrees sequence other := List.Forall₂ element.Agrees sequence.values other.values

/-- Values that leave no trace agree all. -/
theorem unambiguous_silent : (silent : Framing α β).Unambiguous := by
  intro value other left more
  exact (and_iff_right trivial).symm

/-- Strings of one width are told apart when they determine the value. -/
theorem unambiguous_full {repr : α → List β}
    (fixed : ∀ value other, (repr value).length = (repr other).length)
    (injective : ∀ value other, repr value = repr other → value = other) :
    (full repr).Unambiguous := by
  intro value other left more
  constructor
  · intro same
    obtain ⟨shown, left⟩ := List.append_inj same (fixed value other)
    exact ⟨injective value other shown, left⟩
  · rintro ⟨rfl, rfl⟩
    rfl

/-- Two values in a row are told apart one after the other. -/
theorem unambiguous_pair {first : Framing α β} {rest : Framing α' β}
    (sound : first.Unambiguous) (others : rest.Unambiguous) : (first.pair rest).Unambiguous := by
  intro value other left more
  change (first.repr value.1 ++ rest.repr value.2) ++ left =
    (first.repr other.1 ++ rest.repr other.2) ++ more ↔ _
  rw [List.append_assoc, List.append_assoc, sound, others]
  exact and_assoc.symm

/-- A sum without an arm has no value to tell. -/
theorem unambiguous_noArm : (noArm : Framing Empty β).Unambiguous := fun value => value.elim

/-- Representations begin with one of these tags. -/
def Tagged (framing : Framing α β) (tags : List β) : Prop :=
  ∀ value, ∃ tag ∈ tags, ∃ payload, framing.repr value = tag :: payload

theorem tagged_noArm : (noArm : Framing Empty β).Tagged [] := fun value => value.elim

/-- What an arm writes begins with its tag, what any other one writes with one of the others. -/
theorem tagged_arm (tag : β) (payload : Framing α β) {rest : Framing α' β} {tags : List β}
    (tagged : rest.Tagged tags) : (payload.arm tag rest).Tagged (tag :: tags) := by
  intro value
  cases value with
  | inl value => exact ⟨tag, List.mem_cons_self, payload.repr value, rfl⟩
  | inr value =>
      obtain ⟨other, member, shown⟩ := tagged value
      exact ⟨other, List.mem_cons_of_mem _ member, shown⟩

/-- A tag of its own keeps an alternative apart from the others. -/
theorem unambiguous_arm {tag : β} {payload : Framing α β} {rest : Framing α' β} {tags : List β}
    (sound : payload.Unambiguous) (others : rest.Unambiguous) (tagged : rest.Tagged tags)
    (fresh : tag ∉ tags) : (payload.arm tag rest).Unambiguous := by
  have apart (value : α) (other : α') (left more : List β) :
      tag :: payload.repr value ++ left ≠ rest.repr other ++ more := by
    intro same
    obtain ⟨found, member, shown, begins⟩ := tagged other
    rw [begins] at same
    have equal : tag = found := List.head_eq_of_cons_eq same
    rw [equal] at fresh
    exact fresh member
  intro value other left more
  cases value with
  | inl value =>
      cases other with
      | inl other =>
          change tag :: (payload.repr value ++ left) = tag :: (payload.repr other ++ more) ↔ _
          rw [List.cons.injEq, sound]
          exact and_iff_right rfl
      | inr other =>
          constructor
          · intro same
            exact (apart value other left more same).elim
          · intro impossible
            exact impossible.1.elim
  | inr value =>
      cases other with
      | inl other =>
          constructor
          · intro same
            exact (apart other value more left same.symm).elim
          · intro impossible
            exact impossible.1.elim
      | inr other => exact others value other left more

/-- Distinct tags tell whether there is a value. -/
theorem unambiguous_optional {absent present : β} {element : Framing α β}
    (different : absent ≠ present) (sound : element.Unambiguous) :
    (element.optional absent present).Unambiguous := by
  intro value other left more
  cases value with
  | none =>
      cases other with
      | none =>
          change absent :: left = absent :: more ↔ True ∧ left = more
          rw [List.cons.injEq]
          exact and_congr_left fun _ => iff_of_true rfl trivial
      | some other =>
          constructor
          · intro same
            exact (different (List.head_eq_of_cons_eq same)).elim
          · intro impossible
            exact impossible.1.elim
  | some value =>
      cases other with
      | none =>
          constructor
          · intro same
            exact (different (List.head_eq_of_cons_eq same).symm).elim
          · intro impossible
            exact impossible.1.elim
      | some other =>
          change present :: (element.repr value ++ left) =
            present :: (element.repr other ++ more) ↔ element.Agrees value other ∧ left = more
          rw [List.cons.injEq, sound]
          exact and_iff_right rfl

/-- As many elements on either side are told apart one by one. -/
theorem elements_iff {element : Framing α β} (sound : element.Unambiguous)
    {values others : List α} (lengths : values.length = others.length) (left more : List β) :
    values.flatMap element.repr ++ left = others.flatMap element.repr ++ more ↔
      List.Forall₂ element.Agrees values others ∧ left = more := by
  induction values generalizing others with
  | nil =>
      cases others with
      | nil => exact (and_iff_right List.Forall₂.nil).symm
      | cons other others => cases lengths
  | cons value values ih =>
      cases others with
      | nil => cases lengths
      | cons other others =>
          rw [List.flatMap_cons, List.flatMap_cons, List.append_assoc, List.append_assoc, sound,
            ih (Nat.succ.inj lengths), List.forall₂_cons]
          exact and_assoc.symm

/-- A count of a fixed width tells where the elements end. -/
theorem unambiguous_counted {sized : Nat → Prop} {header : Nat → List β} {element : Framing α β}
    (fixed : ∀ count other, (header count).length = (header other).length)
    (injective : ∀ count other, sized count → sized other → header count = header other →
      count = other)
    (sound : element.Unambiguous) : (element.counted sized header).Unambiguous := by
  intro sequence other left more
  change (header sequence.values.length ++ _) ++ left = (header other.values.length ++ _) ++ more ↔ _
  rw [List.append_assoc, List.append_assoc]
  constructor
  · intro same
    obtain ⟨count, same⟩ := List.append_inj same (fixed _ _)
    have lengths := injective _ _ sequence.admissible other.admissible count
    exact (elements_iff sound lengths left more).mp same
  · rintro ⟨agree, rfl⟩
    have lengths := agree.length_eq
    rw [lengths, (elements_iff sound lengths left left).mpr ⟨agree, rfl⟩]

/-- Values that agree are represented alike. -/
theorem Unambiguous.repr_eq_iff {framing : Framing α β} (sound : framing.Unambiguous)
    {value other : α} : framing.repr value = framing.repr other ↔ framing.Agrees value other := by
  have whole := sound value other [] []
  rw [List.append_nil, List.append_nil] at whole
  rw [whole]
  exact and_iff_left rfl

/-- Values agree when they are equal. -/
def Faithful (framing : Framing α β) : Prop :=
  ∀ value other, framing.Agrees value other ↔ value = other

/-- Where elements are told apart, so are sequences of them. -/
theorem faithful_counted {sized : Nat → Prop} {header : Nat → List β} {element : Framing α β}
    (faithful : element.Faithful) : (element.counted sized header).Faithful := by
  intro sequence other
  have same : element.Agrees = Eq := by
    funext value other
    exact propext (faithful value other)
  change List.Forall₂ element.Agrees sequence.values other.values ↔ _
  rw [same, List.forall₂_eq_eq_eq]
  cases sequence
  cases other
  exact (Sized.mk.injEq _ _ _ _).symm.to_iff

theorem faithful_optional {absent present : β} {element : Framing α β}
    (faithful : element.Faithful) :
    (element.optional absent present).Faithful := by
  intro value other
  cases value with
  | none =>
      cases other with
      | none => exact iff_of_true trivial rfl
      | some other => exact iff_of_false (fun impossible => impossible) (Option.some_ne_none _).symm
  | some value =>
      cases other with
      | none => exact iff_of_false (fun impossible => impossible) (Option.some_ne_none _)
      | some other => exact (faithful value other).trans (Option.some.injEq value other).symm.to_iff

theorem faithful_pair {first : Framing α β} {rest : Framing α' β}
    (faithful : first.Faithful) (others : rest.Faithful) :
    (first.pair rest).Faithful := by
  intro value other
  rw [Prod.ext_iff]
  exact and_congr (faithful value.1 other.1) (others value.2 other.2)

theorem faithful_arm {tag : β} {payload : Framing α β} {rest : Framing α' β}
    (faithful : payload.Faithful) (others : rest.Faithful) :
    (payload.arm tag rest).Faithful := by
  intro value other
  cases value with
  | inl value =>
      cases other with
      | inl other => exact (faithful value other).trans Sum.inl_injective.eq_iff.symm
      | inr other => exact iff_of_false (fun impossible => impossible) Sum.inl_ne_inr
  | inr value =>
      cases other with
      | inl other => exact iff_of_false (fun impossible => impossible) Sum.inr_ne_inl
      | inr other => exact (others value other).trans Sum.inr_injective.eq_iff.symm

end Framing

end Synctick
