import Synctick.Codec.Schema
import Synctick.Hashing
import Synctick.Simulation

/-! # The wallet model

Balances are indexed by wallet. A transfer sums its amounts, checks both wallets, and changes their
balances only when nothing is left to check.
-/

namespace Synctick

namespace Wallet

open Codec

/-- The recorded setup. -/
structure Initialization where
  seed : UInt64
  balances : List UInt64
  deriving DecidableEq, Repr

def initializationSchema : Schema := .struct (.cons .u64 (.cons (.vec 8 .u64) .nil))

def Initialization.values : Initialization ≃ initializationSchema.Value where
  toFun initialization := (initialization.seed, initialization.balances, ())
  invFun value := ⟨value.1, value.2.1⟩
  left_inv _ := rfl
  right_inv _ := rfl

instance : Wire Initialization := derived initializationSchema Initialization.values

/-- A transfer from the wallet of the participant that submits it. -/
structure Transfer where
  recipient : UInt64
  amounts : List UInt64
  deriving DecidableEq, Repr

def transferSchema : Schema := .struct (.cons .u64 (.cons (.vec 8 .u64) .nil))

def Transfer.values : Transfer ≃ transferSchema.Value where
  toFun command := (command.recipient, command.amounts, ())
  invFun value := ⟨value.1, value.2.1⟩
  left_inv _ := rfl
  right_inv _ := rfl

instance : Wire Transfer := derived transferSchema Transfer.values

/-- The deterministic state, which is also what is published. -/
structure State where
  tick : UInt64
  seed : UInt64
  balances : List UInt64
  rejected : UInt64
  deriving DecidableEq, Repr

instance : StableHash State where
  hashInto state hasher :=
    (((hasher.field state.tick).field state.seed).field state.balances).field state.rejected

def State.stateHash (state : State) : UInt64 := stableHash state

/-- Failures of the rules, which a session counts and does not end for. -/
inductive Rejection
  | unknownSender
  | unknownRecipient
  | amountOverflow
  | insufficientFunds
  | recipientOverflow
  deriving DecidableEq, Repr

/-- `checked_sub` on 64-bit amounts. -/
def checkedSub (first second : UInt64) : Option UInt64 :=
  if second ≤ first then some (first - second) else none

/-- Validate a whole transfer, and only then change the balances. Wallet numbers fit the index type
of a 64-bit target. -/
def State.transfer (sender : UInt64) (command : Transfer) : Effect Rejection State Unit := do
  let amount ← command.amounts.foldlM
    (fun sum amount => (checkedAdd sum amount).getDM (throw .amountOverflow)) 0
  let state ← get
  let balance ← state.balances[sender.toNat]?.getDM (throw .unknownSender)
  let remaining ← (checkedSub balance amount).getDM (throw .insufficientFunds)
  if sender = command.recipient then
    return
  let destination ← state.balances[command.recipient.toNat]?.getDM (throw .unknownRecipient)
  let received ← (checkedAdd destination amount).getDM (throw .recipientOverflow)
  set { state with
    balances := (state.balances.set sender.toNat remaining).set command.recipient.toNat received }

example : State.transfer 0 ⟨1, [3, 7]⟩ ⟨0, 0, [10, 20], 0⟩ = .ok () ⟨0, 0, [0, 30], 0⟩ := rfl

example : State.transfer 1 ⟨1, [31]⟩ ⟨0, 0, [0, 30], 0⟩ =
    .error .insufficientFunds ⟨0, 0, [0, 30], 0⟩ := rfl

end Wallet

end Synctick
