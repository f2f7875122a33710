import Synctick.Wallet.Game
import Synctick.Invariant
import Synctick.System.Perform

/-! # Wallets in a session

The wallet game is deterministic in its state. In every run of an authority and its replicas, the
books of each of them balance over the ticks that it applied, and what it published are books of
the first of them.
-/

namespace Synctick

namespace Wallet

open Effect

theorem deterministic_walletGame : walletGame.Deterministic WalletSimulation.state where
  tick alike := congrArg State.tick alike
  hash alike := congrArg State.stateHash alike
  advance {tick sim other next} alike executes := by
    change (State.advance tick).zoom WalletSimulation.state _ sim = _ at executes
    change ∃ reached, (State.advance tick).zoom WalletSimulation.state _ other = _ ∧ _
    unfold zoom at executes ⊢
    rw [← alike]
    cases exit : State.advance tick (WalletSimulation.state sim) with
    | ok value state =>
        rw [exit] at executes
        cases executes
        exact ⟨_, rfl, rfl⟩
    | error error state =>
        rw [exit] at executes
        cases executes
  publish publishes := by
    cases publishes
    rfl
  finish _ := rfl

/-- A simulation whose books balance over the ticks that it played, and whose snapshot has the books
of the first ones. -/
structure Accounted (initial : Initialization) (played : List (Tick Transfer))
    (sim : WalletSimulation) : Prop where
  books : ∃ postings, Books initial (commands played) postings sim.state ∧
    Conserved initial postings sim.state
  shown : ∀ state, sim.snapshots = some state → ∃ front postings, front <+: played ∧
    Books initial (commands front) postings state ∧ Conserved initial postings state

theorem Accounted.advance {initial : Initialization} {played : List (Tick Transfer)}
    {tick : Tick Transfer} {sim next : WalletSimulation} (accounted : Accounted initial played sim)
    (executes : Simulation.advance tick sim = .ok () next) :
    Accounted initial (played ++ [tick]) next := by
  obtain ⟨postings, books, _⟩ := accounted.books
  have spec : Ensures (Simulation.advance tick) sim
      (fun _ next => next.snapshots = sim.snapshots ∧
        ∃ more, Books initial (commands played ++ tick.inputs) (postings ++ more) next.state)
      (fun _ _ => True) := by
    change Ensures ((State.advance tick).zoom WalletSimulation.state _) sim _ _
    rw [ensures_zoom]
    apply (books.ensures_advance tick).mono
    · rintro _ next ⟨_, more, books⟩
      exact ⟨rfl, more, books⟩
    · exact fun _ _ _ => trivial
  obtain ⟨same, more, books⟩ := ensures_of_ok spec executes
  have grown : commands (played ++ [tick]) = commands played ++ tick.inputs := by
    unfold commands
    rw [List.flatMap_append, List.flatMap_singleton]
  refine ⟨⟨postings ++ more, grown ▸ books, books.conserved⟩, ?_⟩
  intro state shown
  obtain ⟨front, postings, first, rest⟩ := accounted.shown state (same ▸ shown)
  exact ⟨front, postings, first.trans (List.prefix_append _ _), rest⟩

theorem keeps_accounted : walletGame.Keeps Accounted Accounted where
  create creates := by
    have books := books_of_create creates
    refine ⟨⟨[], books, books.conserved⟩, ?_⟩
    intro state shown
    change (if _ = [] then Except.error _ else Except.ok _) = _ at creates
    split at creates
    · cases creates
    · cases creates
      cases shown
  advance accounted executes := accounted.advance executes
  publish {initial played sim next} publishes := by
    have keeps (accounted : Accounted initial played sim) : Accounted initial played next := by
      cases publishes
      refine ⟨accounted.books, ?_⟩
      rintro _ ⟨⟩
      obtain ⟨postings, books⟩ := accounted.books
      exact ⟨played, postings, List.prefix_refl _, books⟩
    exact ⟨keeps, keeps⟩
  finish accounted := accounted

variable {ι : Type} [DecidableEq ι]

/-- In every run, the wallets of the authority and those of each replica keep the total of the
recorded setup, each wallet paid what its participant asked for and was permitted, and what was
published are earlier books. -/
theorem wallets_balance (announcement : Announcement walletGame) {capacity : Nat}
    {replica : Replica (Adapter walletGame)} (connects : connect walletGame capacity = .ok replica)
    {clients : ι → UInt64} {system : System ι (Traced (Adapter walletGame))}
    (reaches : (System.start announcement.session { sim := { sim := replica.sim } }
      clients).Reaches announcement.cfg announcement.save announcement.metadata system) :
    ∃ initial, Codec.decode Initialization announcement.header.initialization = .ok initial ∧
      (system.phase.Serving → Plays Accounted initial system.phase.sim) ∧
      ∀ i, (system.members i).replica.sim.sim.simulation.isSome →
        Plays Accounted initial (system.members i).replica.sim :=
  keeps_accounted.plays deterministic_walletGame (fun _ => ⟨_, rfl⟩) announcement connects reaches

/-- A host with two wallets that waits for a client. -/
def walletHost : ServerConfig walletGame where
  initialization := (⟨7, [10, 20]⟩ : Initialization)
  expectedClients := 1

def walletHeader : ReplayHeader := .new walletGame.id walletGame.version 33_333_333
  (littleEndian 8 7 ++ littleEndian 4 2 ++ littleEndian 8 10 ++ littleEndian 8 20)

def walletAdapter : Adapter walletGame where
  header := walletHeader
  simulation := some ({ state := ⟨0, 7, [10, 20], 0⟩ } : WalletSimulation)

/-- Its announcement: the save is just a header. -/
def walletAnnouncement : Announcement walletGame where
  config := walletHost
  cfg := walletHost.worker walletHeader
  adapter := { header := walletHeader }
  input := {}
  opened := { sim := { sim := walletAdapter } }
  loaded := { sim := { sim := walletAdapter } }
  session := { sim := { sim := walletAdapter } }
  save := encode walletHeader
  metadata := { totalBytes := 65, tick := 0, hash := walletAdapter.stateHash }
  starts := rfl
  opens := rfl
  loads := rfl
  flushes := rfl
  reads := rfl
  announces := rfl
  recorded _ impossible := by cases impossible
  unchanged _ _ impossible := by cases impossible

/-- A client goes live with the host, which transfers 3 and 4 to wallet one, and then too much. -/
def walletActs : List (Act Unit) := tallyActs.dropLast ++
  .tick { distinct := List.nodup_nil, inputs :=
    [⟨littleEndian 8 1 ++ littleEndian 4 2 ++ littleEndian 8 3 ++ littleEndian 8 4⟩,
      ⟨littleEndian 8 1 ++ littleEndian 4 1 ++ littleEndian 8 99⟩] } :: tallyLater

theorem wallets_balance_two : ∃ system : System Unit (Traced (Adapter walletGame)),
    (∃ initial, Codec.decode Initialization walletAnnouncement.header.initialization = .ok initial ∧
      (system.phase.Serving → Plays Accounted initial system.phase.sim) ∧
      ∀ i, (system.members i).replica.sim.sim.simulation.isSome →
        Plays Accounted initial (system.members i).replica.sim) ∧
    (system.members ()).replica.sim.sim.simulation.map WalletSimulation.state =
      some ⟨1, 7, [3, 27], 1⟩ := by
  have connects : connect walletGame 256 =
      .ok { sim := { header := .new walletGame.id walletGame.version 33_333_333 [] } } := rfl
  have runs : ((System.start walletAnnouncement.session
      { sim := { sim := { header := .new walletGame.id walletGame.version 33_333_333 [] } } }
      fun _ => 7).run walletAnnouncement.cfg walletAnnouncement.save walletAnnouncement.metadata
      walletActs).any fun system =>
        (system.members ()).replica.sim.sim.simulation.map WalletSimulation.state =
          some ⟨1, 7, [3, 27], 1⟩ := by
    decide +kernel
  obtain ⟨system, reaches, runs⟩ := Option.any_eq_true _ _ |>.mp runs
  exact ⟨system, wallets_balance walletAnnouncement connects (System.reaches_of_run reaches),
    of_decide_eq_true runs⟩

end Wallet

end Synctick
