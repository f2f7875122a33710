import Synctick.Wallet.Books
import Synctick.Game
import Synctick.Replay.Log

/-! # The wallet game

The host pays from wallet zero, and a remote participant from the wallet of its number; participant
zero has none. A transfer that breaks a rule is counted and changes no balance, so that over any
ticks the books of the wallets balance.
-/

namespace Synctick

namespace Wallet

open Effect

/-- The simulation of a session, with the last state that it published. -/
structure WalletSimulation where
  state : State
  snapshots : Option State := none
  deriving DecidableEq, Repr

/-- Transfer from the wallet of the participant. -/
def State.submit (input : Input Transfer) : Effect Rejection State Unit :=
  match input.participant with
  | .host => State.transfer 0 input.command
  | .remote id => if id = 0 then throw .unknownSender else State.transfer id input.command

/-- A rejection is counted. -/
def State.perform (input : Input Transfer) : SessionEffect State Unit := do
  let result ← attempt (State.submit input)
  match result with
  | .ok _ => pure ()
  | .error _ => do
      let state ← get
      let rejected ← (checkedAdd state.rejected 1).getDM
        (throw (.simulation "rejection counter exhausted"))
      set { state with rejected }

def State.advance (tick : Tick Transfer) : SessionEffect State Unit := do
  modify fun state => { state with tick := tick.number }
  forEach State.perform tick.inputs

instance : Simulation Transfer WalletSimulation where
  currentTick sim := sim.state.tick
  stateHash sim := sim.state.stateHash
  advance tick := (State.advance tick).zoom WalletSimulation.state fun sim state => { sim with state }
  publish := modify fun sim => { sim with snapshots := some sim.state }

def walletGame : Game where
  Command := Transfer
  Initialization := Initialization
  Simulation := WalletSimulation
  commandWire := inferInstance
  initializationWire := inferInstance
  simulation := inferInstance
  id := ⟨Codec.utf8 "wallet-game-v001", by decide⟩
  version := 2
  create initialization _ :=
    if initialization.balances = [] then
      .error (.simulation "at least one wallet is required")
    else
      .ok { state := { tick := 0, seed := initialization.seed, balances := initialization.balances,
                       rejected := 0 } }

/-- The wallet that a participant pays from. -/
def owned : ParticipantId → Option UInt64
  | .host => some 0
  | .remote id => if id = 0 then none else some id

/-- What the rules make of some commands: each is posted if its participant has a wallet and it is
permitted, and counted as rejected otherwise. -/
inductive Booked (wallets : Nat) :
    (Nat → Nat) → List (Input Transfer) → List (Posting Nat Nat) → Nat → (Nat → Nat) → Prop
  | nothing (held : Nat → Nat) : Booked wallets held [] [] 0 held
  | posted {held middle after : Nat → Nat} {input : Input Transfer} {inputs : List (Input Transfer)}
      {payer : UInt64} {postings : List (Posting Nat Nat)} {rejected : Nat}
      (owns : owned input.participant = some payer)
      (permitted : Permitted wallets held payer.toNat input.command)
      (moves : (input.command.posting payer.toNat).Moves held middle)
      (onwards : Booked wallets middle inputs postings rejected after) :
      Booked wallets held (input :: inputs) (input.command.posting payer.toNat :: postings) rejected
        after
  | rejected {held after : Nat → Nat} {input : Input Transfer} {inputs : List (Input Transfer)}
      {postings : List (Posting Nat Nat)} {rejected : Nat}
      (refused : ∀ payer, owned input.participant = some payer →
        ¬ Permitted wallets held payer.toNat input.command)
      (onwards : Booked wallets held inputs postings rejected after) :
      Booked wallets held (input :: inputs) postings (rejected + 1) after

/-- The books of a session: since it began, the commands were booked, the counter counted what was
rejected, and the rest stayed. -/
structure Books (initial : Initialization) (inputs : List (Input Transfer))
    (postings : List (Posting Nat Nat)) (state : State) : Prop where
  booked : Booked initial.balances.length (accounts initial.balances) inputs postings
    state.rejected.toNat (accounts state.balances)
  wallets : state.balances.length = initial.balances.length
  seed : state.seed = initial.seed

section Booking

variable {wallets rejected rejected' : Nat} {held middle after : Nat → Nat} {input : Input Transfer}
  {inputs front back : List (Input Transfer)} {posting : Posting Nat Nat}
  {postings postings' : List (Posting Nat Nat)}

theorem Booked.append (first : Booked wallets held front postings rejected middle)
    (rest : Booked wallets middle back postings' rejected' after) :
    Booked wallets held (front ++ back) (postings ++ postings') (rejected + rejected') after := by
  induction first with
  | nothing =>
      rw [Nat.zero_add]
      exact rest
  | posted owns permitted moves _ ih => exact .posted owns permitted moves (ih rest)
  | rejected refused _ ih =>
      rw [Nat.add_right_comm]
      exact .rejected refused (ih rest)

theorem Booked.settles (booked : Booked wallets held inputs postings rejected after) :
    Posting.Settles held postings after := by
  induction booked with
  | nothing => exact .nothing _
  | posted _ _ moves _ ih => exact .next moves ih
  | rejected _ _ ih => exact ih

/-- Nothing is posted beyond the wallets. -/
theorem Booked.within (booked : Booked wallets held inputs postings rejected after) :
    ∀ posting ∈ postings, posting.payer < wallets ∧ posting.payee < wallets := by
  induction booked with
  | nothing => exact fun _ impossible => nomatch impossible
  | posted _ permitted _ _ ih =>
      intro posting member
      rcases List.mem_cons.mp member with same | later
      · rw [same]
        exact ⟨permitted.known, permitted.payee⟩
      · exact ih posting later
  | rejected _ _ ih => exact ih

end Booking

/-- The wallets keep their total, and each of them has what it had and received, less what it
paid. -/
structure Conserved (initial : Initialization) (postings : List (Posting Nat Nat)) (state : State) :
    Prop where
  total : (state.balances.map UInt64.toNat).sum = (initial.balances.map UInt64.toNat).sum
  balance (wallet : Nat) : accounts state.balances wallet + Posting.debited wallet postings =
    accounts initial.balances wallet + Posting.credited wallet postings

variable {initial : Initialization} {inputs : List (Input Transfer)}
  {postings : List (Posting Nat Nat)} {state : State}

theorem sum_balances (balances : List UInt64) : (balances.map UInt64.toNat).sum =
    ∑ wallet ∈ Finset.range balances.length, accounts balances wallet := by
  induction balances with
  | nil => rfl
  | cons balance balances ih =>
      rw [List.map_cons, List.sum_cons, List.length_cons, Finset.sum_range_succ', ih, Nat.add_comm]
      rfl

theorem Books.conserved (books : Books initial inputs postings state) :
    Conserved initial postings state where
  total := by
    rw [sum_balances, sum_balances, books.wallets]
    apply books.booked.settles.total
    intro posting member
    rw [Finset.mem_range, Finset.mem_range]
    exact books.booked.within posting member
  balance := books.booked.settles.balance

/-- A participant pays from its own wallet, if its command is permitted. -/
theorem ensures_submit (input : Input Transfer) (state : State) :
    Ensures (State.submit input) state
      (fun _ next => ∃ payer, owned input.participant = some payer ∧
        Permitted state.balances.length (accounts state.balances) payer.toNat input.command ∧
        (input.command.posting payer.toNat).Moves (accounts state.balances)
          (accounts next.balances) ∧
        next.balances.length = state.balances.length ∧ next = { state with balances := next.balances })
      (fun _ next => next = state ∧ ∀ payer, owned input.participant = some payer →
        ¬ Permitted state.balances.length (accounts state.balances) payer.toNat input.command) := by
  have owns (id : UInt64) (owned' : owned input.participant = some id) :
      Ensures (State.transfer id input.command) state
        (fun _ next => ∃ payer, owned input.participant = some payer ∧
          Permitted state.balances.length (accounts state.balances) payer.toNat input.command ∧
          (input.command.posting payer.toNat).Moves (accounts state.balances)
            (accounts next.balances) ∧
          next.balances.length = state.balances.length ∧
          next = { state with balances := next.balances })
        (fun _ next => next = state ∧ ∀ payer, owned input.participant = some payer →
          ¬ Permitted state.balances.length (accounts state.balances) payer.toNat input.command) := by
    apply (ensures_transfer id input.command state).mono
    · intro _ _ went
      exact ⟨id, owned', went⟩
    · rintro _ _ ⟨refused, same⟩
      refine ⟨same, ?_⟩
      intro payer owned''
      rw [Option.some.inj (owned''.symm.trans owned')]
      exact refused.not_permitted (accounts_lt _ _)
  unfold State.submit
  cases who : input.participant with
  | host =>
      rw [who] at owns
      exact owns 0 rfl
  | remote id =>
      rw [who] at owns
      dsimp only
      by_cases zero : id = 0
      · rw [if_pos zero]
        refine ⟨rfl, ?_⟩
        intro payer owned'
        cases (if_pos zero).symm.trans owned'
      · rw [if_neg zero]
        exact owns id (if_neg zero)

/-- A command goes into the books. -/
theorem Books.ensures_perform (books : Books initial inputs postings state) (input : Input Transfer) :
    Ensures (State.perform input) state
      (fun _ next => next.tick = state.tick ∧
        ∃ more, Books initial (inputs ++ [input]) (postings ++ more) next)
      (fun error next => next = state ∧ error = .simulation "rejection counter exhausted" ∧
        state.rejected.toNat + 1 = 2 ^ 64) := by
  unfold State.perform
  rw [ensures_bind, ensures_attempt]
  apply (ensures_submit input state).mono
  · rintro _ next ⟨payer, owns, permitted, moves, size, same⟩
    rw [books.wallets] at permitted size
    have booked := books.booked.append (.posted owns permitted moves (.nothing _))
    have tick : next.tick = state.tick := by rw [same]
    refine ⟨tick, [input.command.posting payer.toNat], ?_, size, ?_⟩
    · rw [congrArg State.rejected same]
      exact booked
    · rw [congrArg State.seed same]
      exact books.seed
  · rintro _ next ⟨rfl, refused⟩
    rw [books.wallets] at refused
    dsimp only
    rw [ensures_bind, ensures_get, ensures_bind, ensures_getDM]
    constructor
    · intro count counts
      have booked := books.booked.append (.rejected refused (.nothing _))
      refine ⟨rfl, [], ?_, books.wallets, books.seed⟩
      dsimp only
      rw [toNat_of_checkedAdd counts]
      exact booked
    · intro exhausted
      exact ⟨rfl, rfl, exhausted_of_checkedAdd exhausted⟩

/-- The books go on over some commands, until the counter of rejections comes to its end. -/
theorem Books.ensures_performs (books : Books initial inputs postings state)
    (commands : List (Input Transfer)) :
    Ensures (forEach State.perform commands) state
      (fun _ next => next.tick = state.tick ∧
        ∃ more, Books initial (inputs ++ commands) (postings ++ more) next)
      (fun error next => error = .simulation "rejection counter exhausted" ∧
        next.tick = state.tick ∧ next.rejected.toNat + 1 = 2 ^ 64 ∧ ∃ front more,
          front <+: commands ∧ Books initial (inputs ++ front) (postings ++ more) next) := by
  induction commands generalizing inputs postings state with
  | nil =>
      refine ⟨rfl, [], ?_⟩
      rw [List.append_nil, List.append_nil]
      exact books
  | cons command commands ih =>
      rw [forEach, ensures_bind]
      apply (books.ensures_perform command).mono
      · rintro _ next ⟨tick, more, books⟩
        apply (ih books).mono
        · rintro _ last ⟨tick', more', books⟩
          refine ⟨tick'.trans tick, more ++ more', ?_⟩
          rw [← List.append_assoc, List.append_cons]
          exact books
        · rintro error last ⟨same, tick', exhausted, front, more', first, books⟩
          refine ⟨same, tick'.trans tick, exhausted, command :: front, more ++ more', ?_, ?_⟩
          · exact (List.prefix_cons_inj command).mpr first
          · rw [← List.append_assoc, List.append_cons]
            exact books
      · rintro error next ⟨rfl, same, exhausted⟩
        refine ⟨same, rfl, exhausted, [], [], List.nil_prefix, ?_⟩
        rw [List.append_nil, List.append_nil]
        exact books

/-- A tick goes into the books. -/
theorem Books.ensures_advance (books : Books initial inputs postings state)
    (tick : Tick Transfer) :
    Ensures (State.advance tick) state
      (fun _ next => next.tick = tick.number ∧
        ∃ more, Books initial (inputs ++ tick.inputs) (postings ++ more) next)
      (fun error next => error = .simulation "rejection counter exhausted" ∧
        next.tick = tick.number ∧ next.rejected.toNat + 1 = 2 ^ 64 ∧ ∃ front more,
          front <+: tick.inputs ∧ Books initial (inputs ++ front) (postings ++ more) next) := by
  unfold State.advance
  rw [ensures_bind, ensures_modify]
  have begun : Books initial inputs postings { state with tick := tick.number } :=
    ⟨books.booked, books.wallets, books.seed⟩
  exact begun.ensures_performs tick.inputs

/-- The books of a wallet game begin empty. -/
theorem books_of_create {nanos : UInt64} {sim : WalletSimulation}
    (creates : walletGame.create initial nanos = .ok sim) : Books initial [] [] sim.state := by
  change (if initial.balances = [] then Except.error _ else Except.ok _) = Except.ok sim at creates
  by_cases none : initial.balances = []
  · rw [if_pos none] at creates
    cases creates
  · rw [if_neg none] at creates
    cases creates
    exact ⟨.nothing _, rfl, rfl⟩

/-- The commands of some ticks. -/
def commands (played : List (Tick Transfer)) : List (Input Transfer) := played.flatMap Tick.inputs

/-- The books go on over some ticks. -/
theorem Books.ensures_advances {sim : WalletSimulation}
    (books : Books initial inputs postings sim.state) (ticks : List (Tick Transfer)) :
    Ensures (forEach Simulation.advance ticks) sim
      (fun _ next => ∃ more, Books initial (inputs ++ commands ticks) (postings ++ more) next.state)
      (fun error next => error = .simulation "rejection counter exhausted" ∧
        next.state.rejected.toNat + 1 = 2 ^ 64 ∧ ∃ front more, front <+: commands ticks ∧
          Books initial (inputs ++ front) (postings ++ more) next.state) := by
  induction ticks generalizing inputs postings sim with
  | nil =>
      refine ⟨[], ?_⟩
      rw [commands, List.flatMap_nil, List.append_nil, List.append_nil]
      exact books
  | cons tick ticks ih =>
      rw [forEach, ensures_bind, commands, List.flatMap_cons]
      change Ensures ((State.advance tick).zoom WalletSimulation.state _) sim _ _
      rw [ensures_zoom]
      apply (books.ensures_advance tick).mono
      · rintro _ next ⟨_, more, books⟩
        apply (ih books).mono
        · rintro _ last ⟨more', books⟩
          refine ⟨more ++ more', ?_⟩
          rw [← List.append_assoc, ← List.append_assoc]
          exact books
        · rintro error last ⟨same, exhausted, front, more', first, books⟩
          refine ⟨same, exhausted, tick.inputs ++ front, more ++ more', ?_, ?_⟩
          · exact (List.prefix_append_right_inj _).mpr first
          · rw [← List.append_assoc, ← List.append_assoc]
            exact books
      · rintro error next ⟨same, _, exhausted, front, more, first, books⟩
        exact ⟨same, exhausted, front, more, first.trans (List.prefix_append _ _), books⟩

/-- Over any ticks, the total of the wallets stays, each wallet pays what its participant asked for
and was permitted, and the rejections are counted, until their counter comes to its end. -/
theorem advances_conserve {nanos : UInt64} {sim : WalletSimulation}
    (creates : walletGame.create initial nanos = .ok sim) (ticks : List (Tick Transfer)) :
    Ensures (forEach Simulation.advance ticks) sim
      (fun _ next => ∃ postings, Books initial (commands ticks) postings next.state ∧
        Conserved initial postings next.state)
      (fun error next => error = .simulation "rejection counter exhausted" ∧
        next.state.rejected.toNat + 1 = 2 ^ 64 ∧ ∃ front postings, front <+: commands ticks ∧
          Books initial front postings next.state ∧ Conserved initial postings next.state) := by
  apply ((books_of_create creates).ensures_advances ticks).mono
  · rintro _ next ⟨more, books⟩
    exact ⟨more, books, books.conserved⟩
  · rintro error next ⟨same, exhausted, front, more, first, books⟩
    exact ⟨same, exhausted, front, more, first, books, books.conserved⟩

/-- Two commands, of which one is of a participant that has no wallet. -/
theorem advances_conserve_two :
    Ensures (forEach Simulation.advance [⟨1, [⟨.remote 1, ⟨0, [5, 6]⟩⟩, ⟨.remote 0, ⟨0, []⟩⟩]⟩])
      ({ state := ⟨0, 7, [10, 20], 0⟩ } : WalletSimulation)
      (fun _ next => ∃ postings, Books ⟨7, [10, 20]⟩
        [⟨.remote 1, ⟨0, [5, 6]⟩⟩, ⟨.remote 0, ⟨0, []⟩⟩] postings next.state ∧
        Conserved ⟨7, [10, 20]⟩ postings next.state)
      (fun _ next => next.state.rejected.toNat + 1 = 2 ^ 64) := by
  have creates : walletGame.create (⟨7, [10, 20]⟩ : Initialization) 1 =
      .ok ({ state := ⟨0, 7, [10, 20], 0⟩ } : WalletSimulation) := rfl
  apply (advances_conserve creates _).mono
  · exact fun _ _ books => books
  · exact fun _ _ stopped => stopped.2.1

end Wallet

end Synctick
