import Synctick.Garden.Game
import Synctick.Invariant
import Synctick.System.Perform

/-! # Power Garden in a session

In every run of an authority and its replicas, the board of each of them is the recorded one after
the rotations of the ticks that it applied. What it published is such a board of the first of them,
with the rotations that its last tick made.
-/

namespace Synctick

namespace Garden

open Effect SessionSimulation

/-- The rotations of some ticks. -/
def rotations (played : List (Tick Rotate)) : List Rotate :=
  (played.flatMap Tick.inputs).map Input.command

/-- The number of the last tick. -/
def lastNumber (played : List (Tick Rotate)) : UInt64 :=
  (played.getLast?.map Tick.number).getD 0

/-- A board that was grown from a recorded one by the rotations of some ticks. -/
structure Grown (initial : Initialization) (played : List (Tick Rotate)) (board : Board) : Prop where
  playable : initial.Playable
  plays : ∃ start verdicts, Board.new initial = some (.ok start) ∧
    start.play (rotations played) = some (verdicts, board) ∧
    Board.Played initial start (rotations played) verdicts board

/-- The effects of the last tick are those of the rotations that it made. -/
def Effected (initial : Initialization) (played : List (Tick Rotate)) (board : Board)
    (effects : List RotationEffect) : Prop :=
  ∃ front last before verdicts, played = front ++ [last] ∧ Grown initial front before ∧
    before.play (last.inputs.map Input.command) = some (verdicts, board) ∧
    effects = effectsOf last.inputs verdicts

/-- A snapshot of the first ticks. -/
def Shown (initial : Initialization) (played : List (Tick Rotate)) (snapshot : Snapshot) : Prop :=
  ∃ front, front <+: played ∧ Grown initial front snapshot.board ∧
    snapshot.tick = lastNumber front ∧
    (snapshot.effects = [] ∨ Effected initial front snapshot.board snapshot.effects)

/-- A simulation that grew its board over some ticks. -/
structure Tended (initial : Initialization) (played : List (Tick Rotate))
    (sim : BevySimulation powerGarden) : Prop where
  grown : Grown initial played sim.world.resources.puzzle.1
  number : sim.world.tickNumber = lastNumber played
  shown : ∀ snapshot, sim.world.resources.snapshots = some snapshot →
    Shown initial played snapshot

/-- Between ticks there are no effects. -/
def Resting (initial : Initialization) (played : List (Tick Rotate))
    (sim : BevySimulation powerGarden) : Prop :=
  Tended initial played sim ∧ sim.world.resources.effects = []

/-- Within a tick there are those of its rotations. -/
def Ticking (initial : Initialization) (played : List (Tick Rotate))
    (sim : BevySimulation powerGarden) : Prop :=
  Tended initial played sim ∧
    Effected initial played sim.world.resources.puzzle.1 sim.world.resources.effects

variable {initial : Initialization} {played : List (Tick Rotate)}
  {sim next : BevySimulation powerGarden}

/-- What was shown of an earlier board stays so as the game goes on. -/
theorem Shown.mono {ticks : List (Tick Rotate)} {snapshot : Snapshot}
    (shown : Shown initial played snapshot) (grows : played <+: ticks) :
    Shown initial ticks snapshot := by
  obtain ⟨front, first, rest⟩ := shown
  exact ⟨front, first.trans grows, rest⟩

/-- The rotations of a tick lead from the board before it to the one behind it. -/
theorem Grown.play {board : Board} (grown : Grown initial played board) (tick : Tick Rotate)
    {verdicts : List Bool} {last : Board}
    (plays : board.play (tick.inputs.map Input.command) = some (verdicts, last)) :
    Grown initial (played ++ [tick]) last := by
  obtain ⟨playable, start, verdicts', builds, plays', played'⟩ := grown
  have whole := Board.play_append plays' plays
  have more : rotations (played ++ [tick]) =
      rotations played ++ tick.inputs.map Input.command := by
    unfold rotations
    rw [List.flatMap_append, List.flatMap_singleton, List.map_append]
  rw [← more] at whole
  obtain ⟨_, coherent⟩ := Puzzle.coherent_of_new builds
  obtain ⟨_, _, plays'', played''⟩ := Board.play_coherent playable coherent (rotations (played ++ [tick]))
  cases plays''.symm.trans whole
  exact ⟨playable, start, _, builds, whole, played''⟩

/-- A tick leaves its rotations as effects, which are published with it. -/
theorem Resting.advance (resting : Resting initial played sim) (tick : Tick Rotate) :
    Ticking initial (played ++ [tick]) (sim.advance tick) := by
  obtain ⟨⟨grown, _, shown⟩, none⟩ := resting
  obtain ⟨verdicts, plays, effects, snapshots⟩ := foldl_rotate tick.inputs sim.world.resources
  rw [none, List.nil_append] at effects
  refine ⟨⟨?_, ?_, ?_⟩, ?_⟩
  · rw [world_advance]
    exact grown.play tick plays
  · rw [world_advance]
    unfold lastNumber
    rw [List.getLast?_append]
    rfl
  · intro snapshot there
    rw [world_advance] at there
    exact (shown snapshot (snapshots ▸ there)).mono (List.prefix_append _ _)
  · rw [world_advance]
    exact ⟨played, tick, _, verdicts, rfl, grown, plays, effects⟩

/-- A publication shows the board and its effects, and changes neither. -/
theorem tended_publish (tended : Tended initial played sim)
    (effects : sim.world.resources.effects = [] ∨
      Effected initial played sim.world.resources.puzzle.1 sim.world.resources.effects)
    (publishes : Simulation.publish sim = .ok () next) :
    Tended initial played next ∧ next.world.resources.puzzle = sim.world.resources.puzzle ∧
      next.world.resources.effects = sim.world.resources.effects := by
  cases publishes
  refine ⟨⟨tended.grown, tended.number, ?_⟩, rfl, rfl⟩
  rintro _ ⟨⟩
  exact ⟨played, List.prefix_refl _, tended.grown, tended.number, effects⟩

/-- The garden keeps its invariant, between ticks and within them. -/
theorem keeps_grown : (GameAdapter powerGarden).Keeps Resting Ticking where
  create {initial nanos sim} creates := by
    obtain ⟨app, builds, rfl⟩ := GameAdapter.built creates
    obtain ⟨puzzle, built, same⟩ := except_bind_eq_ok.mp builds
    cases same
    have fresh : Board.new initial = some (.ok puzzle.1) := by
      apply Puzzle.new_ok
      cases made : Puzzle.new initial with
      | ok other =>
          rw [made] at built
          cases built
          rfl
      | error error =>
          rw [made] at built
          cases built
    obtain ⟨playable, coherent⟩ := Puzzle.coherent_of_new fresh
    obtain ⟨_, _, plays, played⟩ := Board.play_coherent playable coherent []
    cases plays
    exact ⟨⟨⟨playable, _, [], fresh, rfl, played⟩, rfl, nofun⟩, rfl⟩
  advance {initial played tick sim next} resting executes := by
    cases executes
    exact resting.advance tick
  publish {initial played sim next} publishes := by
    constructor
    · rintro ⟨tended, none⟩
      obtain ⟨tended', _, effects⟩ := tended_publish tended (Or.inl none) publishes
      exact ⟨tended', effects.trans none⟩
    · rintro ⟨tended, effected⟩
      obtain ⟨tended', puzzle, effects⟩ := tended_publish tended (Or.inr effected) publishes
      refine ⟨tended', ?_⟩
      rw [puzzle, effects]
      exact effected
  finish {initial played sim} ticking := by
    obtain ⟨⟨grown, number, shown⟩, _⟩ := ticking
    exact ⟨⟨grown, number, shown⟩, rfl⟩

variable {ι : Type} [DecidableEq ι]

/-- In every run, the board of the authority and that of each replica is the recorded one after the
rotations of the ticks that it applied, and each snapshot shows an earlier board with the rotations
of its last tick. -/
theorem gardens_flourish (announcement : Announcement (GameAdapter powerGarden)) {capacity : Nat}
    {replica : Replica (Adapter (GameAdapter powerGarden))}
    (connects : connect (GameAdapter powerGarden) capacity = .ok replica) {clients : ι → UInt64}
    {system : System ι (Traced (Adapter (GameAdapter powerGarden)))}
    (reaches : (System.start announcement.session { sim := { sim := replica.sim } }
      clients).Reaches announcement.cfg announcement.save announcement.metadata system) :
    ∃ initial, Codec.decode Initialization announcement.header.initialization = .ok initial ∧
      (system.phase.Serving → Plays Resting initial system.phase.sim) ∧
      ∀ i, (system.members i).replica.sim.sim.simulation.isSome →
        Plays Resting initial (system.members i).replica.sim :=
  keeps_grown.plays deterministic_powerGarden (fun _ => ⟨_, rfl⟩) announcement connects reaches

def defaultBoard : Board where
  state := ⟨5, 5, Initialization.default.tiles, 0, false⟩
  powered := (List.replicate 25 false).set 12 true

/-- The default puzzle, with the power of its source only. -/
theorem new_default : Board.new Initialization.default = some (.ok defaultBoard) := by
  decide +kernel

def defaultPuzzle : Puzzle := ⟨defaultBoard, _, Puzzle.coherent_of_new new_default⟩

/-- A host of the default puzzle that waits for a client. -/
def gardenHost : ServerConfig (GameAdapter powerGarden) where
  initialization := Initialization.default
  expectedClients := 1

def gardenBytes : Bytes :=
  5 :: 5 :: littleEndian 4 25 ++ Initialization.default.tiles.flatMap fun tile =>
    [tile.kind.tag, tile.ports, tile.rotation]

theorem gardenBytes_coded : Codec.encode Initialization.default = .ok gardenBytes ∧
    Codec.validate Initialization gardenBytes = .ok () ∧
    Codec.decode Initialization gardenBytes = .ok Initialization.default := by
  decide +kernel

def gardenHeader : ReplayHeader :=
  .new powerGarden.id powerGarden.version 33_333_333 gardenBytes

theorem build_default : powerGarden.build Initialization.default
    { world := { tickDuration := gardenHeader.tickNanos, resources := () } } = .ok {
      world := { tickDuration := gardenHeader.tickNanos, resources := { puzzle := defaultPuzzle } }
      simStep := [applyRotations] } := by
  change (Puzzle.new Initialization.default).mapError _ >>= _ = _
  rw [Puzzle.new_board new_default]
  rfl

def gardenAdapter : Adapter (GameAdapter powerGarden) where
  header := gardenHeader
  simulation := some (.ofBuild build_default)

theorem creates_gardenAdapter : Adapter.Creates gardenHeader gardenAdapter where
  valid := by
    have valid : Codec.validate (GameAdapter powerGarden).Initialization
        gardenHeader.initialization = .ok () := gardenBytes_coded.2.1
    have duration : validateTickDuration gardenHeader.tickNanos = .ok () := rfl
    have sameId : gardenHeader.gameId = (GameAdapter powerGarden).id := rfl
    have sameVersion : gardenHeader.gameVersion = (GameAdapter powerGarden).version := rfl
    unfold validateHeader
    rw [valid, duration, if_neg (not_not.mpr sameId), if_neg (not_not.mpr sameVersion)]
    rfl
  created := by
    refine ⟨Initialization.default, .ofBuild build_default, ?_,
      GameAdapter.create_built build_default, rfl, rfl⟩
    change (Codec.decode Initialization gardenBytes).mapError SessionError.codec = _
    rw [gardenBytes_coded.2.2]
    rfl

theorem header_gardenHost : gardenHost.header = .ok gardenHeader := by
  change (Codec.encode Initialization.default).mapError SessionError.codec >>= _ = _
  rw [gardenBytes_coded.1]
  rfl

/-- A session that neither loads nor records begins with its header. -/
theorem openSession_fresh {G : Game} {config : ServerCfg} {fresh begun : Adapter G}
    (valid : config.validate = .ok ()) (unloaded : config.load = none)
    (unrecorded : config.record = none)
    (initializes : Adapter.initializeWith fresh.header fresh = .ok () begun) :
    ServerSession.openSession config { sim := ({ sim := fresh } : Traced (Adapter G)) } =
      .ok () { sim := { sim := begun } } := by
  have source : config.openSource = .ok none := by
    unfold ServerCfg.openSource
    rw [unloaded]
  have writer (header : ReplayHeader) : config.createWriter header = .ok none := by
    unfold ServerCfg.createWriter
    rw [unrecorded]
  have initializes' : SessionSimulation.initializeWith fresh.header
      ({ sim := fresh } : Traced (Adapter G)) = .ok () { sim := begun } :=
    Traced.call_ok.mpr ⟨begun, initializes, rfl⟩
  apply Effect.eq_ok_of_ensures
  unfold ServerSession.openSession
  rw [ensures_bind, valid, ensures_ofExcept]
  refine ⟨?_, nofun⟩
  rintro _ ⟨⟩
  rw [ensures_bind, ensures_get, ensures_bind, source, ensures_ofExcept]
  refine ⟨?_, nofun⟩
  rintro _ ⟨⟩
  rw [ensures_bind, ensures_zoom]
  apply (ensures_ok initializes').mpr
  dsimp only
  rw [ensures_bind, writer, ensures_ofExcept]
  refine ⟨?_, nofun⟩
  rintro _ ⟨⟩
  exact ⟨rfl, rfl⟩

def gardenSession : ServerSession (Traced (Adapter (GameAdapter powerGarden))) where
  sim := { sim := gardenAdapter }

/-- Its announcement: the save is just a header. -/
def gardenAnnouncement : Announcement (GameAdapter powerGarden) where
  config := gardenHost
  cfg := gardenHost.worker gardenHeader
  adapter := { header := gardenHeader }
  input := {}
  opened := gardenSession
  loaded := gardenSession
  session := gardenSession
  save := encode gardenHeader
  metadata := {
    totalBytes := UInt64.ofNat (encode gardenHeader).length
    tick := currentTick gardenSession.sim
    hash := stateHash gardenSession.sim }
  starts := by
    unfold startServer
    rw [header_gardenHost]
    rfl
  opens := openSession_fresh rfl rfl rfl (creates_gardenAdapter.initializes rfl)
  loads := rfl
  flushes := rfl
  reads := rfl
  announces := by
    have short : ¬ (encode gardenHeader).length ≥ 2 ^ 64 := by decide +kernel
    apply Effect.eq_ok_of_ensures
    unfold ServerSession.announce
    rw [ensures_bind, ensures_get, if_neg short]
    exact ⟨rfl, rfl⟩
  recorded _ impossible := by cases impossible
  unchanged _ _ impossible := by cases impossible

/-- A client goes live with the host, which rotates two wires and the source. -/
def gardenActs : List (Act Unit) := tallyActs.dropLast ++
  .tick { distinct := List.nodup_nil, inputs :=
    [⟨littleEndian 4 7⟩, ⟨littleEndian 4 12⟩, ⟨littleEndian 4 17⟩] } :: tallyLater

theorem gardens_flourish_default :
    ∃ system : System Unit (Traced (Adapter (GameAdapter powerGarden))),
    (∃ initial, Codec.decode Initialization gardenAnnouncement.header.initialization = .ok initial ∧
      (system.phase.Serving → Plays Resting initial system.phase.sim) ∧
      ∀ i, (system.members i).replica.sim.sim.simulation.isSome →
        Plays Resting initial (system.members i).replica.sim) ∧
    (system.members ()).replica.sim.sim.simulation.map (fun sim =>
      (sim.world.resources.puzzle.1.state.moves, sim.world.resources.snapshots.map Snapshot.effects)) =
        some (2, some [⟨7, .host⟩, ⟨17, .host⟩]) := by
  have connects : connect (GameAdapter powerGarden) 256 =
      .ok { sim := { header := .new powerGarden.id powerGarden.version 33_333_333 [] } } := rfl
  have runs : ((System.start gardenAnnouncement.session
      { sim := { sim := { header := .new powerGarden.id powerGarden.version 33_333_333 [] } } }
      fun _ => 7).run gardenAnnouncement.cfg gardenAnnouncement.save gardenAnnouncement.metadata
      gardenActs).any fun system =>
        (system.members ()).replica.sim.sim.simulation.map (fun sim =>
          (sim.world.resources.puzzle.1.state.moves,
            sim.world.resources.snapshots.map Snapshot.effects)) =
          some (2, some [⟨7, .host⟩, ⟨17, .host⟩]) := by
    decide +kernel
  obtain ⟨system, reaches, runs⟩ := Option.any_eq_true _ _ |>.mp runs
  exact ⟨system, gardens_flourish gardenAnnouncement connects (System.reaches_of_run reaches),
    of_decide_eq_true runs⟩

end Garden
end Synctick
