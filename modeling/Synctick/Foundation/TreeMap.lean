import Mathlib.Logic.Basic
import Std.Data.ExtTreeMap

/-! # Ordered maps

How insertion, removal and the removal of all keys that are not kept act on the
entries of an ordered map with lawful keys.
-/

namespace Synctick

open Std

variable {κ α : Type} {cmp : κ → κ → Ordering} [TransCmp cmp]

/-- Keep the entries whose keys are kept. -/
def retainKeys (keep : κ → Bool) (map : ExtTreeMap κ α cmp) : ExtTreeMap κ α cmp :=
  map.keys.foldl (fun map key => if keep key then map else map.erase key) map

theorem size_retainKeys_le (keep : κ → Bool) (map : ExtTreeMap κ α cmp) :
    (retainKeys keep map).size ≤ map.size := by
  unfold retainKeys
  generalize map.keys = keys
  induction keys generalizing map with
  | nil => exact Nat.le_refl _
  | cons key keys ih =>
      rw [List.foldl_cons]
      by_cases kept : keep key
      · rw [if_pos kept]
        exact ih map
      · rw [if_neg kept]
        exact Nat.le_trans (ih _) ExtTreeMap.size_erase_le

/-- A new value of a key that is there takes no further room. -/
theorem size_insert_of_some {key : κ} {map : ExtTreeMap κ α cmp} {old : α} (value : α)
    (there : map[key]? = some old) : (map.insert key value).size = map.size := by
  rw [ExtTreeMap.size_insert, if_pos]
  exact ExtTreeMap.mem_iff_isSome_getElem?.mpr (by rw [there]; rfl)

variable [LawfulEqCmp cmp]

theorem getElem?_insert_other {key other : κ} (map : ExtTreeMap κ α cmp) (value : α)
    (different : other ≠ key) : (map.insert key value)[other]? = map[other]? := by
  rw [ExtTreeMap.getElem?_insert, if_neg]
  intro same
  exact different (LawfulEqCmp.eq_of_compare same).symm

theorem getElem?_erase_other {key other : κ} (map : ExtTreeMap κ α cmp)
    (different : other ≠ key) : (map.erase key)[other]? = map[other]? := by
  rw [ExtTreeMap.getElem?_erase, if_neg]
  intro same
  exact different (LawfulEqCmp.eq_of_compare same).symm

theorem getElem?_retainKeys (keep : κ → Bool) (map : ExtTreeMap κ α cmp) (key : κ) :
    (retainKeys keep map)[key]? = if keep key then map[key]? else none := by
  have loop (keys : List κ) (map : ExtTreeMap κ α cmp) (gone : keep key = false →
      key ∈ keys ∨ map[key]? = none) :
      (keys.foldl (fun map key => if keep key then map else map.erase key) map)[key]? =
        if keep key then map[key]? else none := by
    induction keys generalizing map with
    | nil =>
        cases kept : keep key with
        | true => rfl
        | false =>
            rcases gone kept with impossible | none
            · cases impossible
            · exact none
    | cons first keys ih =>
        rw [List.foldl_cons]
        by_cases kept : keep first
        · rw [if_pos kept]
          apply ih
          intro dropped
          rcases gone dropped with member | none
          · rcases List.mem_cons.mp member with rfl | later
            · rw [kept] at dropped
              cases dropped
            · exact Or.inl later
          · exact Or.inr none
        · rw [if_neg kept]
          by_cases same : key = first
          · subst same
            rw [ih, if_neg kept, if_neg kept]
            intro _
            exact Or.inr ExtTreeMap.getElem?_erase_self
          · have other : (map.erase first)[key]? = map[key]? := getElem?_erase_other map same
            rw [ih, other]
            intro dropped
            rw [other]
            exact (gone dropped).imp_left fun member => (List.mem_cons.mp member).resolve_left same
  apply loop
  intro _
  by_cases there : key ∈ map
  · exact Or.inl (ExtTreeMap.mem_keys.mpr there)
  · exact Or.inr (ExtTreeMap.getElem?_eq_none there)

/-- All values satisfy what as many satisfy as there are. -/
theorem forall_of_countP {map : ExtTreeMap κ α cmp} {test : α → Bool}
    (all : map.toList.countP (fun entry => test entry.2) = map.size) {key : κ} {value : α}
    (there : map[key]? = some value) : test value = true := by
  rw [← ExtTreeMap.length_toList, List.countP_eq_length] at all
  exact all _ (ExtTreeMap.mem_toList_iff_getElem?_eq_some.mpr there)

end Synctick
