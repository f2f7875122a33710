import Mathlib.Data.Finset.Card
import Mathlib.Data.Finset.Dedup
import Mathlib.Logic.Relation

/-! # Search with a worklist

A search starts at a source and keeps two lists: the vertices that it visited, and those that it
found and still has to visit. It takes the first of the latter and finds the successors of it that
are new. Whatever the order, it finds each vertex once, and at its end it visited exactly what can
be reached.
-/

namespace Synctick

open Relation

variable {α : Type*} {edge : α → α → Prop} {source vertex next : α}
  {visited waiting found left : List α}

/-- The state of a search: what it found can be reached, and the successors of what it visited were
found. -/
structure Searching (edge : α → α → Prop) (source : α) (visited waiting : List α) : Prop where
  begun : source ∈ visited ++ waiting
  once : (visited ++ waiting).Nodup
  reached : ∀ vertex ∈ visited ++ waiting, ReflTransGen edge source vertex
  closed : ∀ vertex ∈ visited, ∀ next, edge vertex next → next ∈ visited ++ waiting

/-- The state of a search within the visit of `vertex`: of its successors, those in `left` may be
missing. -/
structure Visiting (edge : α → α → Prop) (source : α) (visited : List α) (vertex : α)
    (waiting left : List α) : Prop extends Searching edge source visited (vertex :: waiting) where
  due : ∀ next, edge vertex next → next ∈ visited ++ vertex :: waiting ∨ next ∈ left

variable (edge source) in
theorem searching_source : Searching edge source [] [source] where
  begun := List.mem_singleton_self source
  once := List.nodup_singleton source
  reached vertex member := by
    rw [List.nil_append, List.mem_singleton] at member
    rw [member]
  closed _ impossible := by cases impossible

/-- A visit begins with every successor missing. -/
theorem Searching.enter (searching : Searching edge source visited (vertex :: waiting))
    (every : ∀ next, edge vertex next → next ∈ left) :
    Visiting edge source visited vertex waiting left where
  toSearching := searching
  due next leads := Or.inr (every next leads)

/-- A vertex that is no successor, or was found, adds nothing. -/
theorem Visiting.skip (visiting : Visiting edge source visited vertex waiting (next :: left))
    (known : edge vertex next → next ∈ visited ++ vertex :: waiting) :
    Visiting edge source visited vertex waiting left where
  toSearching := visiting.toSearching
  due other leads := by
    rcases visiting.due other leads with found | missing
    · exact Or.inl found
    · rcases List.mem_cons.mp missing with same | later
      · rw [same] at leads ⊢
        exact Or.inl (known leads)
      · exact Or.inr later

/-- A successor that is new is to be visited after the others. -/
theorem Visiting.find (visiting : Visiting edge source visited vertex waiting (next :: left))
    (leads : edge vertex next) (fresh : next ∉ visited ++ vertex :: waiting) :
    Visiting edge source visited vertex (waiting ++ [next]) left := by
  have grown : visited ++ vertex :: (waiting ++ [next]) =
      visited ++ vertex :: waiting ++ [next] := by
    rw [List.append_assoc, List.cons_append]
  have kept {other : α} (member : other ∈ visited ++ vertex :: waiting) :
      other ∈ visited ++ vertex :: (waiting ++ [next]) := by
    rw [grown]
    exact List.mem_append_left _ member
  refine ⟨⟨kept visiting.begun, ?_, ?_, ?_⟩, ?_⟩
  · rw [grown]
    exact visiting.once.append (List.nodup_singleton next) fun _ member same =>
      fresh (List.mem_singleton.mp same ▸ member)
  · intro other member
    rw [grown] at member
    rcases List.mem_append.mp member with before | new
    · exact visiting.reached other before
    · rw [List.mem_singleton.mp new]
      exact (visiting.reached vertex
        (List.mem_append_right _ List.mem_cons_self)).tail leads
  · intro other member successor follows
    exact kept (visiting.closed other member successor follows)
  · intro other follows
    rcases visiting.due other follows with found | missing
    · exact Or.inl (kept found)
    · rcases List.mem_cons.mp missing with same | later
      · rw [same, grown]
        exact Or.inl (List.mem_append_right _ (List.mem_singleton_self next))
      · exact Or.inr later

/-- A visit ends when no successor is missing. -/
theorem Visiting.leave (visiting : Visiting edge source visited vertex waiting []) :
    Searching edge source (visited ++ [vertex]) waiting := by
  have same : visited ++ [vertex] ++ waiting = visited ++ vertex :: waiting := by
    rw [List.append_assoc, List.singleton_append]
  refine ⟨?_, ?_, ?_, ?_⟩
  · rw [same]
    exact visiting.begun
  · rw [same]
    exact visiting.once
  · rw [same]
    exact visiting.reached
  · rw [same]
    intro other member next follows
    rcases List.mem_append.mp member with before | last
    · exact visiting.closed other before next follows
    · rw [List.mem_singleton.mp last] at follows
      rcases visiting.due next follows with found | missing
      · exact found
      · cases missing

/-- A search with nothing left to visit found exactly what can be reached. -/
theorem Searching.complete (searching : Searching edge source visited []) (vertex : α) :
    vertex ∈ visited ↔ ReflTransGen edge source vertex := by
  constructor
  · intro member
    exact searching.reached vertex (List.mem_append_left _ member)
  · intro path
    induction path with
    | refl =>
        have begun := searching.begun
        rw [List.append_nil] at begun
        exact begun
    | tail _ leads ih =>
        have found := searching.closed _ ih _ leads
        rw [List.append_nil] at found
        exact found

/-- A search among finitely many vertices finds no more than there are. -/
theorem Searching.length_le (searching : Searching edge source visited waiting) {vertices : Finset α}
    (within : ∀ vertex ∈ visited ++ waiting, vertex ∈ vertices) :
    (visited ++ waiting).length ≤ vertices.card := by
  classical
  rw [← List.toFinset_card_of_nodup searching.once]
  apply Finset.card_le_card
  intro vertex member
  exact within vertex (List.mem_toFinset.mp member)

end Synctick
