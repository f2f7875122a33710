import Mathlib.Algebra.BigOperators.Pi
import Mathlib.Algebra.Order.Monoid.Canonical.Defs

/-! # Ledgers

A posting moves an amount from the account of a payer to that of a payee. Whatever the amounts are,
an account ends with what it began with and was credited, less what it was debited, and the total
of a closed group of accounts stays. Where amounts are ordered, a posting is possible exactly if
the payer has the amount.
-/

namespace Synctick

variable {ι M : Type*}

/-- A transfer between two accounts. -/
structure Posting (ι M : Type*) where
  payer : ι
  payee : ι
  amount : M

namespace Posting

variable [DecidableEq ι] [AddCommMonoid M]

/-- A posting moves its amount, and leaves the rest where it is. -/
def Moves (posting : Posting ι M) (before after : ι → M) : Prop :=
  ∃ rest : ι → M, before = rest + Pi.single posting.payer posting.amount ∧
    after = rest + Pi.single posting.payee posting.amount

/-- Postings, one after the other. -/
inductive Settles : (ι → M) → List (Posting ι M) → (ι → M) → Prop
  | nothing (accounts : ι → M) : Settles accounts [] accounts
  | next {posting : Posting ι M} {before middle after : ι → M} {postings : List (Posting ι M)}
      (moves : posting.Moves before middle) (onwards : Settles middle postings after) :
      Settles before (posting :: postings) after

/-- What an account pays. -/
def debited (owner : ι) (postings : List (Posting ι M)) : M :=
  (postings.map fun posting => if posting.payer = owner then posting.amount else 0).sum

/-- What an account receives. -/
def credited (owner : ι) (postings : List (Posting ι M)) : M :=
  (postings.map fun posting => if posting.payee = owner then posting.amount else 0).sum

variable {posting : Posting ι M} {before middle after : ι → M}
  {postings front back : List (Posting ι M)} {owner : ι}

/-- A posting debits its payer and credits its payee. -/
theorem Moves.balance (moves : posting.Moves before after) (owner : ι) :
    after owner + (if posting.payer = owner then posting.amount else 0) =
      before owner + (if posting.payee = owner then posting.amount else 0) := by
  obtain ⟨rest, rfl, rfl⟩ := moves
  rw [Pi.add_apply, Pi.add_apply, Pi.single_apply, Pi.single_apply]
  simp only [eq_comm (a := owner)]
  rw [add_right_comm]

/-- The books balance: an account has what it had and received, less what it paid. -/
theorem Settles.balance (settles : Settles before postings after) (owner : ι) :
    after owner + debited owner postings = before owner + credited owner postings := by
  induction settles with
  | nothing => rfl
  | @next posting before middle postings after moves _ ih =>
      unfold debited credited at ih ⊢
      rw [List.map_cons, List.map_cons, List.sum_cons, List.sum_cons, add_left_comm, ih,
        ← add_assoc, ← add_assoc, add_comm _ (middle owner), moves.balance owner]

/-- Postings within a group of accounts keep the total of the group. -/
theorem Settles.total (settles : Settles before postings after) {owners : Finset ι}
    (within : ∀ posting ∈ postings, posting.payer ∈ owners ∧ posting.payee ∈ owners) :
    ∑ owner ∈ owners, after owner = ∑ owner ∈ owners, before owner := by
  induction settles with
  | nothing => rfl
  | next moves _ ih =>
      rw [ih fun posting later => within posting (List.mem_cons_of_mem _ later)]
      obtain ⟨pays, receives⟩ := within _ List.mem_cons_self
      obtain ⟨rest, rfl, rfl⟩ := moves
      simp only [Pi.add_apply, Finset.sum_add_distrib, Finset.sum_pi_single', if_pos pays,
        if_pos receives]

/-- A posting is possible if the payer has the amount. -/
theorem exists_moves [PartialOrder M] [CanonicallyOrderedAdd M] (posting : Posting ι M)
    (before : ι → M) : (∃ after, posting.Moves before after) ↔
      posting.amount ≤ before posting.payer := by
  constructor
  · rintro ⟨_, rest, rfl, _⟩
    rw [Pi.add_apply, Pi.single_eq_same]
    exact le_add_self
  · intro funded
    obtain ⟨left, same⟩ := exists_add_of_le funded
    refine ⟨_, Function.update before posting.payer left, ?_, rfl⟩
    funext owner
    rw [Pi.add_apply]
    by_cases pays : owner = posting.payer
    · rw [pays, Function.update_self, Pi.single_eq_same, same, add_comm]
    · rw [Function.update_of_ne pays, Pi.single_eq_of_ne pays, add_zero]

end Posting

end Synctick
