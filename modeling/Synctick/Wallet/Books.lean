import Synctick.Wallet.Model
import Synctick.Foundation.Ledger

/-! # The books of the wallets

As natural numbers, the balances are the accounts of a ledger. A transfer is a posting to it, or it
is refused for the first rule that it breaks and changes nothing.
-/

namespace Synctick

namespace Wallet

open Effect

variable {wallets payer : Nat} {balances : List UInt64} {held : Nat → Nat} {command : Transfer}
  {rejection : Rejection}

/-- All amounts of a transfer. -/
def Transfer.total (command : Transfer) : Nat := (command.amounts.map UInt64.toNat).sum

/-- What a transfer moves. -/
def Transfer.posting (payer : Nat) (command : Transfer) : Posting Nat Nat where
  payer := payer
  payee := command.recipient.toNat
  amount := command.total

/-- The rules for a transfer between wallets that hold `held`: both of them exist, the payer has the
amount, and the payee has room for it. -/
structure Permitted (wallets : Nat) (held : Nat → Nat) (payer : Nat) (command : Transfer) : Prop where
  known : payer < wallets
  funded : command.total ≤ held payer
  payee : command.recipient.toNat < wallets
  room : command.recipient.toNat ≠ payer → held command.recipient.toNat + command.total < 2 ^ 64

/-- The first rule that a transfer breaks. -/
inductive Refused (wallets : Nat) (held : Nat → Nat) (payer : Nat) (command : Transfer) :
    Rejection → Prop
  | amountOverflow (large : 2 ^ 64 ≤ command.total) :
      Refused wallets held payer command .amountOverflow
  | unknownSender (small : command.total < 2 ^ 64) (unknown : wallets ≤ payer) :
      Refused wallets held payer command .unknownSender
  | insufficientFunds (small : command.total < 2 ^ 64) (known : payer < wallets)
      (short : held payer < command.total) : Refused wallets held payer command .insufficientFunds
  | unknownRecipient (known : payer < wallets) (funded : command.total ≤ held payer)
      (unknown : wallets ≤ command.recipient.toNat) :
      Refused wallets held payer command .unknownRecipient
  | recipientOverflow (known : payer < wallets) (funded : command.total ≤ held payer)
      (payee : command.recipient.toNat < wallets) (other : command.recipient.toNat ≠ payer)
      (large : 2 ^ 64 ≤ held command.recipient.toNat + command.total) :
      Refused wallets held payer command .recipientOverflow

/-- A transfer that is refused is not permitted. -/
theorem Refused.not_permitted (bounded : held payer < 2 ^ 64)
    (refused : Refused wallets held payer command rejection) :
    ¬ Permitted wallets held payer command := by
  intro permitted
  have funded := permitted.funded
  cases refused with
  | amountOverflow large => omega
  | unknownSender _ unknown => exact absurd permitted.known (Nat.not_lt.mpr unknown)
  | insufficientFunds _ _ short => omega
  | unknownRecipient _ _ unknown => exact absurd permitted.payee (Nat.not_lt.mpr unknown)
  | recipientOverflow _ _ _ other large => exact absurd (permitted.room other) (Nat.not_lt.mpr large)

/-- A transfer is refused for one reason. -/
theorem Refused.unique {other : Rejection} (refused : Refused wallets held payer command rejection)
    (again : Refused wallets held payer command other) (bounded : held payer < 2 ^ 64) :
    rejection = other := by
  cases refused <;> cases again <;> first | rfl | omega

/-- The balance of a wallet. -/
def accounts (balances : List UInt64) (wallet : Nat) : Nat :=
  (balances[wallet]?.map UInt64.toNat).getD 0

theorem accounts_lt (balances : List UInt64) (wallet : Nat) : accounts balances wallet < 2 ^ 64 := by
  unfold accounts
  cases balances[wallet]? with
  | none => exact Nat.two_pow_pos 64
  | some balance => exact balance.toNat_lt

theorem accounts_of_some {wallet : Nat} {balance : UInt64} (there : balances[wallet]? = some balance) :
    accounts balances wallet = balance.toNat := by
  unfold accounts
  rw [there]
  rfl

theorem accounts_set {wallet : Nat} (known : wallet < balances.length) (balance : UInt64) :
    accounts (balances.set wallet balance) =
      Function.update (accounts balances) wallet balance.toNat := by
  funext other
  unfold accounts
  by_cases same : other = wallet
  · rw [same, Function.update_self, List.getElem?_set_self known]
    rfl
  · rw [Function.update_of_ne same, List.getElem?_set_ne (Ne.symm same)]

/-- The checked sum of some amounts. -/
theorem ensures_sum (amounts : List UInt64) (sum : UInt64) (state : State) :
    Ensures (amounts.foldlM
        (fun sum amount => (checkedAdd sum amount).getDM (throw Rejection.amountOverflow)) sum) state
      (fun total next => next = state ∧ total.toNat = sum.toNat + (amounts.map UInt64.toNat).sum)
      (fun rejection next => next = state ∧ rejection = Rejection.amountOverflow ∧
        2 ^ 64 ≤ sum.toNat + (amounts.map UInt64.toNat).sum) := by
  induction amounts generalizing sum with
  | nil => exact ⟨rfl, rfl⟩
  | cons amount amounts ih =>
      rw [List.foldlM_cons, ensures_bind, ensures_getDM, List.map_cons, List.sum_cons]
      unfold checkedAdd
      by_cases fits : sum.toNat + amount.toNat < 2 ^ 64
      · rw [if_pos fits]
        refine ⟨?_, nofun⟩
        rintro _ ⟨⟩
        have added : (sum + amount).toNat = sum.toNat + amount.toNat := by
          rw [UInt64.toNat_add, Nat.mod_eq_of_lt fits]
        rw [← Nat.add_assoc, ← added]
        exact ih (sum + amount)
      · rw [if_neg fits]
        refine ⟨nofun, fun _ => ⟨rfl, rfl, ?_⟩⟩
        omega

/-- What a permitted transfer makes of two balances. -/
theorem moves_of_set {remaining received amount : UInt64}
    (known : payer < balances.length) (payee : command.recipient.toNat < balances.length)
    (other : command.recipient.toNat ≠ payer) (total : amount.toNat = command.total)
    (pays : accounts balances payer = remaining.toNat + amount.toNat)
    (receives : received.toNat = accounts balances command.recipient.toNat + amount.toNat) :
    (command.posting payer).Moves (accounts balances)
      (accounts ((balances.set payer remaining).set command.recipient.toNat received)) := by
  refine ⟨Function.update (accounts balances) payer remaining.toNat, ?_, ?_⟩
  · funext wallet
    rw [Pi.add_apply]
    by_cases same : wallet = payer
    · rw [same, Function.update_self]
      unfold Transfer.posting
      rw [Pi.single_eq_same, pays, total]
    · rw [Function.update_of_ne same]
      unfold Transfer.posting
      rw [Pi.single_eq_of_ne same, Nat.add_zero]
  · rw [accounts_set (by rwa [List.length_set]), accounts_set known]
    funext wallet
    rw [Pi.add_apply]
    unfold Transfer.posting
    by_cases same : wallet = command.recipient.toNat
    · rw [same, Function.update_self, Pi.single_eq_same, Function.update_of_ne other, receives, total]
    · rw [Function.update_of_ne same, Pi.single_eq_of_ne same, Nat.add_zero]

/-- What a transfer from a wallet to itself makes of the balances. -/
theorem moves_self (self : command.recipient.toNat = payer)
    (funded : command.total ≤ accounts balances payer) :
    (command.posting payer).Moves (accounts balances) (accounts balances) := by
  obtain ⟨after, moves⟩ := (Posting.exists_moves (command.posting payer) (accounts balances)).mpr funded
  have unchanged : after = accounts balances := by
    funext wallet
    have balance := moves.balance wallet
    unfold Transfer.posting at balance
    rw [self] at balance
    exact Nat.add_right_cancel balance
  rwa [unchanged] at moves

/-- A transfer is a posting if it is permitted. Otherwise it tells the first rule that it breaks, and
changes nothing. -/
theorem ensures_transfer (sender : UInt64) (command : Transfer) (state : State) :
    Ensures (State.transfer sender command) state
      (fun _ next =>
        Permitted state.balances.length (accounts state.balances) sender.toNat command ∧
        (command.posting sender.toNat).Moves (accounts state.balances) (accounts next.balances) ∧
        next.balances.length = state.balances.length ∧ next = { state with balances := next.balances })
      (fun rejection next =>
        Refused state.balances.length (accounts state.balances) sender.toNat command rejection ∧
        next = state) := by
  unfold State.transfer
  rw [ensures_bind]
  apply (ensures_sum command.amounts 0 state).mono
  · rintro amount current ⟨rfl, added⟩
    have total : amount.toNat = command.total := added.trans (Nat.zero_add _)
    have small : command.total < 2 ^ 64 := total ▸ amount.toNat_lt
    rw [ensures_bind, ensures_get, ensures_bind, ensures_getDM]
    constructor
    · intro balance found
      obtain ⟨known, _⟩ := List.getElem?_eq_some_iff.mp found
      have held := accounts_of_some found
      rw [ensures_bind, ensures_getDM]
      unfold checkedSub
      by_cases enough : amount ≤ balance
      · have funded : command.total ≤ accounts current.balances sender.toNat := by
          rw [held, ← total]
          exact UInt64.le_iff_toNat_le.mp enough
        rw [if_pos enough]
        refine ⟨?_, nofun⟩
        rintro _ ⟨⟩
        by_cases self : sender = command.recipient
        · rw [if_pos self]
          have place : command.recipient.toNat = sender.toNat := congrArg UInt64.toNat self.symm
          exact ⟨⟨known, funded, place ▸ known, fun other => absurd place other⟩,
            moves_self place funded, rfl, rfl⟩
        · have other : command.recipient.toNat ≠ sender.toNat := fun same =>
            self (UInt64.toNat_inj.mp same).symm
          rw [if_neg self, ensures_bind, ensures_getDM]
          constructor
          · intro destination found'
            obtain ⟨payee, _⟩ := List.getElem?_eq_some_iff.mp found'
            have held' := accounts_of_some found'
            rw [ensures_bind, ensures_getDM]
            unfold checkedAdd
            by_cases fits : destination.toNat + amount.toNat < 2 ^ 64
            · rw [if_pos fits]
              refine ⟨?_, nofun⟩
              rintro _ ⟨⟩
              rw [ensures_set]
              refine ⟨⟨known, funded, payee, fun _ => by omega⟩,
                moves_of_set known payee other total ?_ ?_, ?_, rfl⟩
              · rw [held, UInt64.toNat_sub_of_le balance amount enough]
                have := UInt64.le_iff_toNat_le.mp enough
                omega
              · rw [held', UInt64.toNat_add, Nat.mod_eq_of_lt fits]
              · rw [List.length_set, List.length_set]
            · rw [if_neg fits]
              exact ⟨nofun, fun _ =>
                ⟨.recipientOverflow known funded payee other (by omega), rfl⟩⟩
          · intro missing
            exact ⟨.unknownRecipient known funded (List.getElem?_eq_none_iff.mp missing), rfl⟩
      · rw [if_neg enough]
        have short := UInt64.le_iff_toNat_le.not.mp enough
        exact ⟨nofun, fun _ => ⟨.insufficientFunds small known (by omega), rfl⟩⟩
    · intro missing
      exact ⟨.unknownSender small (List.getElem?_eq_none_iff.mp missing), rfl⟩
  · rintro _ _ ⟨rfl, rfl, large⟩
    refine ⟨.amountOverflow ?_, rfl⟩
    rw [show (0 : UInt64).toNat = 0 from rfl, Nat.zero_add] at large
    exact large

/-- A transfer goes through exactly if it is permitted, and then only moves its amount. Otherwise it
tells the first rule that it breaks, and leaves everything as it was. -/
theorem transfer_decides (sender : UInt64) (command : Transfer) (state : State) :
    ((∃ next, State.transfer sender command state = .ok () next) ↔
      Permitted state.balances.length (accounts state.balances) sender.toNat command) ∧
    (∀ next, State.transfer sender command state = .ok () next →
      (command.posting sender.toNat).Moves (accounts state.balances) (accounts next.balances) ∧
      next.balances.length = state.balances.length ∧ next = { state with balances := next.balances }) ∧
    ∀ rejection next, State.transfer sender command state = .error rejection next ↔
      Refused state.balances.length (accounts state.balances) sender.toNat command rejection ∧
      next = state := by
  have spec := ensures_transfer sender command state
  have bounded := accounts_lt state.balances sender.toNat
  cases exit : State.transfer sender command state with
  | ok value reached =>
      obtain ⟨permitted, went⟩ := ensures_of_ok spec exit
      refine ⟨⟨fun _ => permitted, fun _ => ⟨reached, rfl⟩⟩, ?_, ?_⟩
      · rintro _ ⟨⟩
        exact went
      · rintro rejection next
        refine ⟨nofun, ?_⟩
        rintro ⟨refused, _⟩
        exact (refused.not_permitted bounded permitted).elim
  | error other reached =>
      obtain ⟨refused, rfl⟩ := ensures_of_error spec exit
      refine ⟨⟨nofun, fun permitted => (refused.not_permitted bounded permitted).elim⟩, nofun, ?_⟩
      rintro rejection next
      constructor
      · rintro ⟨⟩
        exact ⟨refused, rfl⟩
      · rintro ⟨again, rfl⟩
        rw [refused.unique again bounded]

end Wallet

end Synctick
