import Synctick.Determinism
import Synctick.Codec.Collections

/-! # Games on a Bevy world

A worker owns a world and a schedule. A tick is put into the resources of the adapter, the systems
of the schedule run on the world one after another, and the commands are removed once the game
cleaned up.
-/

namespace Synctick

open Effect

/-- The world of a worker: the resources of the adapter, and those of the game. -/
structure Bevy.World (κ ρ : Type) where
  tickNumber : UInt64 := 0
  tickInputs : List (Input κ) := []
  tickDuration : UInt64
  resources : ρ

/-- A worker: its world, and the systems of the schedule of a tick in their order. -/
structure Bevy.App (κ ρ : Type) where
  world : Bevy.World κ ρ
  simStep : List (Bevy.World κ ρ → Bevy.World κ ρ) := []

namespace Bevy.App

variable {κ ρ : Type}

def runSchedule (app : Bevy.App κ ρ) : Bevy.App κ ρ :=
  { app with world := app.simStep.foldl (fun world system => system world) app.world }

end Bevy.App

/-- Construction and hooks of a game on a world. -/
structure BevyGame where
  Command : Type
  Initialization : Type
  Resources : Type
  commandWire : Codec.Wire Command
  initializationWire : Codec.Wire Initialization
  id : List.Vector UInt8 16
  version : UInt32
  build : Initialization → Bevy.App Command Unit → SessionResult (Bevy.App Command Resources)
  stateHash : Bevy.World Command Resources → UInt64
  publish : SessionEffect (Bevy.World Command Resources) Unit := pure ()
  finishTick : Bevy.World Command Resources → Bevy.World Command Resources := fun world => world

/-- The systems that the construction of a game registers. -/
def BevyGame.Registers (G : BevyGame)
    (simStep : List (Bevy.World G.Command G.Resources → Bevy.World G.Command G.Resources)) : Prop :=
  ∃ initialization empty app, G.build initialization empty = .ok app ∧ app.simStep = simStep

/-- The simulation that a worker owns. Its schedule stays as it was constructed. -/
structure BevySimulation (G : BevyGame) where
  app : Bevy.App G.Command G.Resources
  registered : G.Registers app.simStep

namespace BevySimulation

variable {G : BevyGame}

/-- The simulation of a world that was constructed. -/
def ofBuild {initialization : G.Initialization} {empty : Bevy.App G.Command Unit}
    {app : Bevy.App G.Command G.Resources} (builds : G.build initialization empty = .ok app) :
    BevySimulation G where
  app := app
  registered := ⟨_, _, app, builds, rfl⟩

def world (sim : BevySimulation G) : Bevy.World G.Command G.Resources := sim.app.world

def setWorld (sim : BevySimulation G) (world : Bevy.World G.Command G.Resources) :
    BevySimulation G where
  app := { sim.app with world }
  registered := sim.registered

def advance (tick : Tick G.Command) (sim : BevySimulation G) : BevySimulation G where
  app := (sim.setWorld { sim.world with
    tickNumber := tick.number, tickInputs := tick.inputs }).app.runSchedule
  registered := sim.registered

def finishTick (sim : BevySimulation G) : BevySimulation G :=
  sim.setWorld { G.finishTick sim.world with tickInputs := [] }

end BevySimulation

instance {G : BevyGame} : Simulation G.Command (BevySimulation G) where
  currentTick sim := sim.world.tickNumber
  stateHash sim := G.stateHash sim.world
  advance tick := modify (BevySimulation.advance tick)
  publish := G.publish.zoom BevySimulation.world BevySimulation.setWorld
  finishTick := BevySimulation.finishTick

/-- A game on a world, as a game of the session interface. -/
@[reducible]
def GameAdapter (G : BevyGame) : Game where
  Command := G.Command
  Initialization := G.Initialization
  Simulation := BevySimulation G
  commandWire := G.commandWire
  initializationWire := G.initializationWire
  simulation := inferInstance
  id := G.id
  version := G.version
  create initialization tickDuration :=
    match builds : G.build initialization { world := { tickDuration, resources := () } } with
    | .ok _ => .ok (.ofBuild builds)
    | .error error => .error error

namespace GameAdapter

variable {G : BevyGame} {initial : G.Initialization} {tickDuration : UInt64}

/-- A simulation is what the game builds. -/
theorem built {sim : BevySimulation G}
    (created : (GameAdapter G).create initial tickDuration = .ok sim) :
    ∃ app, ∃ builds : G.build initial { world := { tickDuration, resources := () } } = .ok app,
      sim = .ofBuild builds := by
  unfold GameAdapter at created
  dsimp only at created
  split at created
  · next app builds =>
      cases created
      exact ⟨app, builds, rfl⟩
  · cases created

theorem create_built {app : Bevy.App G.Command G.Resources}
    (builds : G.build initial { world := { tickDuration, resources := () } } = .ok app) :
    (GameAdapter G).create initial tickDuration = .ok (BevySimulation.ofBuild builds) := by
  unfold GameAdapter
  dsimp only
  split
  · next other builds' =>
      cases builds'.symm.trans builds
      rfl
  · next fails => cases fails.symm.trans builds

end GameAdapter

/-- The hooks of a game leave the resources of the adapter alone. -/
structure BevyGame.Tidy (G : BevyGame) : Prop where
  build {initial : G.Initialization} {empty : Bevy.App G.Command Unit}
    {app : Bevy.App G.Command G.Resources}
    (builds : G.build initial empty = .ok app) :
    app.world.tickNumber = empty.world.tickNumber ∧ app.world.tickInputs = empty.world.tickInputs
  system {simStep : List (Bevy.World G.Command G.Resources → Bevy.World G.Command G.Resources)}
    (registers : G.Registers simStep) : ∀ system ∈ simStep, ∀ world,
    (system world).tickNumber = world.tickNumber ∧ (system world).tickInputs = world.tickInputs
  publish (world : Bevy.World G.Command G.Resources) : Ensures G.publish world
    (fun _ next => next.tickNumber = world.tickNumber ∧ next.tickInputs = world.tickInputs)
    (fun _ next => next.tickNumber = world.tickNumber ∧ next.tickInputs = world.tickInputs)
  finish (world : Bevy.World G.Command G.Resources) :
    (G.finishTick world).tickNumber = world.tickNumber ∧
      (G.finishTick world).tickInputs = world.tickInputs

/-! ## What the hooks see -/

/-- A system or hook that runs, and the resources of the adapter that it sees. -/
inductive Sight (κ : Type)
  | system (number : UInt64) (inputs : List (Input κ))
  | publish (number : UInt64) (inputs : List (Input κ))
  | finish (number : UInt64) (inputs : List (Input κ))

namespace Bevy.World

variable {κ ρ : Type}

/-- Write down what a hook sees. -/
def see (look : UInt64 → List (Input κ) → Sight κ) (world : Bevy.World κ (ρ × List (Sight κ))) :
    Bevy.World κ (ρ × List (Sight κ)) :=
  { world with resources :=
      (world.resources.1, world.resources.2 ++ [look world.tickNumber world.tickInputs]) }

/-- The world without what was written down. -/
def unseen (world : Bevy.World κ (ρ × List (Sight κ))) : Bevy.World κ ρ :=
  { world with resources := world.resources.1 }

/-- Another world, with what was written down. -/
def keepSeen (world : Bevy.World κ (ρ × List (Sight κ))) (next : Bevy.World κ ρ) :
    Bevy.World κ (ρ × List (Sight κ)) :=
  { next with resources := (next.resources, world.resources.2) }

/-- A system that writes down what it sees before it runs. -/
def watch (system : Bevy.World κ ρ → Bevy.World κ ρ) (world : Bevy.World κ (ρ × List (Sight κ))) :
    Bevy.World κ (ρ × List (Sight κ)) :=
  (world.see .system).keepSeen (system world.unseen)

end Bevy.World

/-- The game with its systems and hooks watched. -/
@[reducible]
def BevyGame.watched (G : BevyGame) : BevyGame where
  Command := G.Command
  Initialization := G.Initialization
  Resources := G.Resources × List (Sight G.Command)
  commandWire := G.commandWire
  initializationWire := G.initializationWire
  id := G.id
  version := G.version
  build initial empty := do
    let app ← G.build initial empty
    pure {
      world := { app.world with resources := (app.world.resources, []) }
      simStep := app.simStep.map Bevy.World.watch }
  stateHash world := G.stateHash world.unseen
  publish := do
    modify (Bevy.World.see .publish)
    G.publish.zoom Bevy.World.unseen Bevy.World.keepSeen
  finishTick world := (world.see .finish).keepSeen (G.finishTick (world.see .finish).unseen)

namespace Bevy.World

variable {κ ρ : Type}

/-- Writing down what is seen changes nothing else. -/
@[simp] theorem unseen_see (look : UInt64 → List (Input κ) → Sight κ)
    (world : Bevy.World κ (ρ × List (Sight κ))) : (world.see look).unseen = world.unseen := rfl

/-- Watched systems do what the systems do, and each of them sees the tick and its commands. -/
theorem foldl_watch {systems : List (Bevy.World κ ρ → Bevy.World κ ρ)}
    (keep : ∀ system ∈ systems, ∀ world, (system world).tickNumber = world.tickNumber ∧
      (system world).tickInputs = world.tickInputs)
    (world : Bevy.World κ (ρ × List (Sight κ))) :
    ((systems.map watch).foldl (fun world system => system world) world).unseen =
        systems.foldl (fun world system => system world) world.unseen ∧
      ((systems.map watch).foldl (fun world system => system world) world).resources.2 =
        world.resources.2 ++
          List.replicate systems.length (.system world.tickNumber world.tickInputs) := by
  induction systems generalizing world with
  | nil => exact ⟨rfl, (List.append_nil _).symm⟩
  | cons system systems ih =>
      obtain ⟨number, inputs⟩ := keep system List.mem_cons_self world.unseen
      obtain ⟨same, seen⟩ :=
        ih (fun other later => keep other (List.mem_cons_of_mem _ later)) (world.watch system)
      have number' : (world.watch system).tickNumber = world.tickNumber := number
      have inputs' : (world.watch system).tickInputs = world.tickInputs := inputs
      rw [List.map_cons, List.foldl_cons, List.foldl_cons]
      refine ⟨same, seen.trans ?_⟩
      rw [number', inputs', List.length_cons, List.replicate_succ]
      exact List.append_assoc world.resources.2 _ _

/-- Tidy systems leave the tick and its commands. -/
theorem foldl_keeps {systems : List (Bevy.World κ ρ → Bevy.World κ ρ)}
    (keep : ∀ system ∈ systems, ∀ world, (system world).tickNumber = world.tickNumber ∧
      (system world).tickInputs = world.tickInputs) (world : Bevy.World κ ρ) :
    (systems.foldl (fun world system => system world) world).tickNumber = world.tickNumber ∧
      (systems.foldl (fun world system => system world) world).tickInputs = world.tickInputs := by
  induction systems generalizing world with
  | nil => exact ⟨rfl, rfl⟩
  | cons system systems ih =>
      obtain ⟨number, inputs⟩ := keep system List.mem_cons_self world
      obtain ⟨number', inputs'⟩ :=
        ih (fun other later => keep other (List.mem_cons_of_mem _ later)) (system world)
      exact ⟨number'.trans number, inputs'.trans inputs⟩

end Bevy.World

variable {G : BevyGame}

/-- A simulation of a watched game that is like one of the game, and what its systems and hooks
saw. -/
structure BevySimulation.Watches (sim : BevySimulation G) (watched : BevySimulation G.watched)
    (sights : List (Sight G.Command)) : Prop where
  world : watched.world.unseen = sim.world
  seen : watched.world.resources.2 = sights
  simStep : watched.app.simStep = sim.app.simStep.map Bevy.World.watch

namespace BevySimulation.Watches

variable {sim next : BevySimulation G} {watched : BevySimulation G.watched}
  {sights : List (Sight G.Command)}

/-- Each system of a tick sees its number and its commands. -/
theorem advance (tidy : G.Tidy) (watches : sim.Watches watched sights) (tick : Tick G.Command) :
    (sim.advance tick).Watches (watched.advance tick) (sights ++
      List.replicate sim.app.simStep.length (.system tick.number tick.inputs)) := by
  obtain ⟨world, seen, simStep⟩ := watches
  let put : Bevy.World G.Command (G.Resources × List (Sight G.Command)) :=
    { watched.world with tickNumber := tick.number, tickInputs := tick.inputs }
  have runs : (BevySimulation.advance (G := G.watched) tick watched).world =
      (sim.app.simStep.map Bevy.World.watch).foldl (fun world system => system world) put := by
    rw [← simStep]
    rfl
  have starts : put.unseen =
      { sim.world with tickNumber := tick.number, tickInputs := tick.inputs } := by
    rw [← world]
    rfl
  obtain ⟨same, saw⟩ := Bevy.World.foldl_watch (tidy.system sim.registered) put
  refine ⟨?_, ?_, simStep⟩
  · rw [runs, same, starts]
    rfl
  · rw [runs, saw]
    change watched.world.resources.2 ++ _ = _
    rw [seen]

/-- Cleanup sees the commands of the tick, which are removed after it. -/
theorem finishTick (watches : sim.Watches watched sights) :
    sim.finishTick.Watches watched.finishTick
      (sights ++ [.finish sim.world.tickNumber sim.world.tickInputs]) := by
  obtain ⟨world, seen, simStep⟩ := watches
  refine ⟨?_, ?_, simStep⟩
  · change { G.finishTick watched.world.unseen with tickInputs := [] } =
      ({ G.finishTick sim.world with tickInputs := [] } : Bevy.World G.Command G.Resources)
    rw [world]
  · change watched.world.resources.2 ++
      [.finish watched.world.unseen.tickNumber watched.world.unseen.tickInputs] = _
    rw [seen, world]

/-- Publication sees the commands that are there. -/
theorem publish (watches : sim.Watches watched sights) :
    Ensures (Simulation.publish (σ := BevySimulation G)) sim
      (fun _ next => G.publish sim.world = .ok () next.world ∧
        next.app.simStep = sim.app.simStep ∧ ∃ watched', Simulation.publish watched = .ok () watched' ∧
          next.Watches watched' (sights ++ [.publish sim.world.tickNumber sim.world.tickInputs]))
      (fun error next => G.publish sim.world = .error error next.world ∧
        next.app.simStep = sim.app.simStep ∧ ∃ watched', Simulation.publish watched = .error error watched' ∧
          next.Watches watched' (sights ++ [.publish sim.world.tickNumber sim.world.tickInputs])) := by
  obtain ⟨world, seen, simStep⟩ := watches
  have sights' : watched.world.resources.2 ++
      [Sight.publish watched.world.tickNumber watched.world.tickInputs] =
      sights ++ [.publish sim.world.tickNumber sim.world.tickInputs] := by
    rw [seen, ← world]
    rfl
  change Ensures (G.publish.zoom BevySimulation.world BevySimulation.setWorld) sim _ _
  rw [ensures_zoom]
  apply (ensures_self _ _).mono
  · intro _ next publishes
    refine ⟨publishes, rfl, watched.setWorld ((watched.world.see .publish).keepSeen next), ?_,
      rfl, sights', simStep⟩
    apply eq_ok_of_ensures
    change Ensures (Effect.zoom BevySimulation.world BevySimulation.setWorld _) watched _ _
    rw [ensures_zoom]
    change Ensures (modify (Bevy.World.see .publish) >>= fun _ =>
      G.publish.zoom Bevy.World.unseen Bevy.World.keepSeen) watched.world _ _
    rw [ensures_bind, ensures_modify, ensures_zoom, Bevy.World.unseen_see, world, ensures_ok publishes]
    exact ⟨rfl, rfl⟩
  · intro error next fails
    refine ⟨fails, rfl, watched.setWorld ((watched.world.see .publish).keepSeen next), ?_,
      rfl, sights', simStep⟩
    apply eq_error_of_ensures
    change Ensures (Effect.zoom BevySimulation.world BevySimulation.setWorld _) watched _ _
    rw [ensures_zoom]
    change Ensures (modify (Bevy.World.see .publish) >>= fun _ =>
      G.publish.zoom Bevy.World.unseen Bevy.World.keepSeen) watched.world _ _
    rw [ensures_bind, ensures_modify, ensures_zoom, Bevy.World.unseen_see, world, ensures_error fails]
    exact ⟨rfl, rfl⟩

end BevySimulation.Watches

/-- A call of a session on its game. -/
inductive Call (κ : Type)
  | publish (number : UInt64)
  | tick (tick : Tick κ) (phase : TickPhase)

/-- What so many systems and the hooks of a game are to see of a call. The initial publication has
no commands; those of a tick stay until the game cleaned up. -/
def Call.sights {κ : Type} (systems : Nat) : Call κ → List (Sight κ)
  | .publish number => [.publish number []]
  | .tick now .replay =>
      List.replicate systems (.system now.number now.inputs) ++ [.finish now.number now.inputs]
  | .tick now .live =>
      List.replicate systems (.system now.number now.inputs) ++
        [.publish now.number now.inputs, .finish now.number now.inputs]

namespace Adapter

/-- The calls that a session made, and that returned. -/
inductive Runs {G : Game} (first : Adapter G) : List (Call G.Command) → Adapter G → Prop
  | here : Runs first [] first
  | publish {calls : List (Call G.Command)} {adapter next : Adapter G}
      (runs : Runs first calls adapter)
      (publishes : SessionSimulation.publish adapter = .ok () next) :
      Runs first (calls ++ [.publish (currentTick adapter)]) next
  | tick {calls : List (Call G.Command)} {advance : TickAdvance} {inputs : List (Input G.Command)}
      {phase : TickPhase} {adapter next : Adapter G} (runs : Runs first calls adapter)
      (decodes : decodeInputs G advance.inputs = .ok inputs)
      (applies : TickApplied advance adapter phase next) :
      Runs first (calls ++ [.tick ⟨advance.tick, inputs⟩ phase]) next

/-- A watched adapter that is like one of the game, with so many systems and the commands that are
in the world. -/
structure Watches (adapter : Adapter (GameAdapter G)) (watched : Adapter (GameAdapter G.watched))
    (systems : Nat) (sights : List (Sight G.Command)) (inputs : List (Input G.Command)) :
    Prop where
  header : watched.header = adapter.header
  simulation : ∃ sim watching, adapter.simulation = some sim ∧ watched.simulation = some watching ∧
    BevySimulation.Watches sim watching sights ∧ sim.app.simStep.length = systems ∧
    sim.world.tickInputs = inputs

/-- How many systems the schedule of a tick has. -/
def systems (adapter : Adapter (GameAdapter G)) : Nat :=
  match adapter.simulation with
  | none => 0
  | some sim => sim.app.simStep.length

variable {adapter next : Adapter (GameAdapter G)} {watched : Adapter (GameAdapter G.watched)}
  {systems : Nat} {sights : List (Sight G.Command)} {inputs : List (Input G.Command)}

theorem decodeInputs_watched (G : BevyGame) (inputs : List Command) :
    decodeInputs (GameAdapter G.watched) inputs = decodeInputs (GameAdapter G) inputs := by
  induction inputs with
  | nil => rfl
  | cons input inputs ih => rw [decodeInputs, decodeInputs, ih]

theorem Watches.currentTick (watches : Watches adapter watched systems sights inputs) :
    SessionSimulation.currentTick watched = SessionSimulation.currentTick adapter := by
  obtain ⟨_, sim, watching, created, there, watches, _⟩ := watches
  change Adapter.currentTick watched = Adapter.currentTick adapter
  unfold Adapter.currentTick
  rw [created, there]
  exact congrArg Bevy.World.tickNumber watches.world

/-- The commands of a tick are put into the world before its systems run. -/
theorem Watches.advance (tidy : G.Tidy) (watches : Watches adapter watched systems sights [])
    {tick : TickAdvance}
    (decodes : decodeInputs (GameAdapter G) tick.inputs = .ok inputs)
    (executes : SessionSimulation.advance tick adapter = .ok () next) :
    ∃ watched', SessionSimulation.advance tick watched = .ok () watched' ∧
      Watches next watched' systems
        (sights ++ List.replicate systems (.system tick.tick inputs)) inputs ∧
      SessionSimulation.currentTick next = tick.tick := by
  obtain ⟨header, sim, watching, created, there, watches, scheduled, _⟩ := watches
  obtain ⟨inputs', before, after, decodes', created', executes, same⟩ := advance_ok executes
  cases decodes'.symm.trans decodes
  cases created'.symm.trans created
  cases executes
  obtain ⟨number, put⟩ := Bevy.World.foldl_keeps (tidy.system sim.registered)
    { sim.world with tickNumber := tick.tick, tickInputs := inputs }
  rw [same]
  refine ⟨_, advance_eq ((decodeInputs_watched G _).trans decodes) there rfl, ?_, number⟩
  have stepped := watches.advance tidy ⟨tick.tick, inputs⟩
  rw [scheduled] at stepped
  exact ⟨header, _, _, rfl, rfl, stepped, scheduled, put⟩

/-- Publication sees the commands of the tick, and leaves them. -/
theorem Watches.publish (tidy : G.Tidy) (watches : Watches adapter watched systems sights inputs) :
    Ensures SessionSimulation.publish adapter
      (fun _ next => SessionSimulation.currentTick next = SessionSimulation.currentTick adapter ∧
        ∃ watched', SessionSimulation.publish watched = .ok () watched' ∧ Watches next watched'
          systems (sights ++ [.publish (SessionSimulation.currentTick adapter) inputs]) inputs)
      (fun error next => SessionSimulation.currentTick next = SessionSimulation.currentTick adapter ∧
        ∃ watched', SessionSimulation.publish watched = .error error watched' ∧ Watches next watched'
          systems (sights ++ [.publish (SessionSimulation.currentTick adapter) inputs]) inputs) := by
  obtain ⟨header, sim, watching, created, there, watches, scheduled, inside⟩ := watches
  have number : SessionSimulation.currentTick adapter = sim.world.tickNumber := by
    change Adapter.currentTick adapter = _
    unfold Adapter.currentTick
    rw [created]
    rfl
  rw [number]
  change Ensures (onSim Simulation.publish) adapter _ _
  unfold onSim
  rw [ensures_bind, ensures_get, created]
  dsimp only
  rw [ensures_zoom]
  apply watches.publish.mono
  · rintro _ next ⟨publishes, same, watching', publishes', watches⟩
    have kept := ensures_of_ok (tidy.publish sim.world) publishes
    rw [inside] at watches
    rw [← same] at scheduled
    exact ⟨kept.1, _, onSim_eq there publishes', header, next, watching', rfl, rfl, watches,
      scheduled, kept.2.trans inside⟩
  · rintro error next ⟨fails, same, watching', fails', watches⟩
    have kept := ensures_of_error (tidy.publish sim.world) fails
    rw [inside] at watches
    rw [← same] at scheduled
    refine ⟨kept.1, { watched with simulation := some watching' }, ?_, header, next, watching', rfl,
      rfl, watches, scheduled, kept.2.trans inside⟩
    apply eq_error_of_ensures
    change Ensures (onSim Simulation.publish) watched _ _
    unfold onSim
    rw [ensures_bind, ensures_get, there]
    dsimp only
    rw [ensures_zoom, ensures_error fails']
    exact ⟨rfl, rfl⟩

/-- Cleanup sees the commands of the tick, and they are removed after it. -/
theorem Watches.finishTick (tidy : G.Tidy) (watches : Watches adapter watched systems sights inputs) :
    Watches (SessionSimulation.finishTick adapter) (SessionSimulation.finishTick watched) systems
      (sights ++ [.finish (SessionSimulation.currentTick adapter) inputs]) [] ∧
    SessionSimulation.currentTick (SessionSimulation.finishTick adapter) =
      SessionSimulation.currentTick adapter := by
  obtain ⟨header, sim, watching, created, there, watches, scheduled, inside⟩ := watches
  have number : SessionSimulation.currentTick adapter = sim.world.tickNumber := by
    change Adapter.currentTick adapter = _
    unfold Adapter.currentTick
    rw [created]
    rfl
  have cleaned : (SessionSimulation.finishTick adapter).simulation = some sim.finishTick :=
    congrArg (Option.map BevySimulation.finishTick) created
  have cleaned' : (SessionSimulation.finishTick watched).simulation = some watching.finishTick :=
    congrArg (Option.map BevySimulation.finishTick) there
  have finished := watches.finishTick
  rw [inside] at finished
  rw [number]
  refine ⟨⟨header, _, _, cleaned, cleaned', finished, scheduled, rfl⟩, ?_⟩
  change Adapter.currentTick (SessionSimulation.finishTick adapter) = _
  unfold Adapter.currentTick
  rw [cleaned]
  exact (tidy.finish sim.world).1

/-- A tick that is applied, live or in a replay. -/
theorem Watches.tick (tidy : G.Tidy) (watches : Watches adapter watched systems sights [])
    {advance : TickAdvance} {phase : TickPhase}
    (decodes : decodeInputs (GameAdapter G) advance.inputs = .ok inputs)
    (applies : TickApplied advance adapter phase next) :
    ∃ watched', TickApplied advance watched phase watched' ∧ Watches next watched'
      systems (sights ++ Call.sights systems (.tick ⟨advance.tick, inputs⟩ phase)) [] := by
  cases applies with
  | replay continues executes ends =>
      obtain ⟨middle, executes', stepped, number⟩ := watches.advance tidy decodes executes
      obtain ⟨cleaned, _⟩ := stepped.finishTick tidy
      rw [number, List.append_assoc] at cleaned
      exact ⟨_, .replay (watches.currentTick ▸ continues) executes'
        (stepped.currentTick.trans number), cleaned⟩
  | live continues executes ends publishes =>
      obtain ⟨middle, executes', stepped, number⟩ := watches.advance tidy decodes executes
      obtain ⟨same, later, publishes', shown⟩ := ensures_of_ok (stepped.publish tidy) publishes
      obtain ⟨cleaned, _⟩ := shown.finishTick tidy
      rw [same, number, List.append_assoc, List.append_assoc] at cleaned
      exact ⟨_, .live (watches.currentTick ▸ continues) executes'
        (stepped.currentTick.trans number) publishes', cleaned⟩

/-- What the systems and hooks see of a tick that fails: nothing where it does not continue the
current one, only the cleanup where its commands do not decode, and all of it where its publication
fails. -/
inductive Cut (G : Game) (systems : Nat) (current : UInt64) (advance : TickAdvance) :
    List (Sight G.Command) → Prop
  | gap (discontinuous : checkedAdd current 1 ≠ some advance.tick) :
      Cut G systems current advance []
  | refused {error : SessionError} (continues : checkedAdd current 1 = some advance.tick)
      (undecoded : decodeInputs G advance.inputs = .error error) :
      Cut G systems current advance [.finish current []]
  | unpublished {inputs : List (Input G.Command)}
      (continues : checkedAdd current 1 = some advance.tick)
      (decodes : decodeInputs G advance.inputs = .ok inputs) :
      Cut G systems current advance (Call.sights systems (.tick ⟨advance.tick, inputs⟩ .live))

/-- Commands that do not decode are refused before anything happened. -/
theorem advance_undecoded {G : Game} {tick : TickAdvance} {error : SessionError}
    (undecoded : decodeInputs G tick.inputs = .error error) (adapter : Adapter G) :
    SessionSimulation.advance tick adapter = .error error adapter := by
  change Adapter.advance tick adapter = _
  apply eq_error_of_ensures
  unfold Adapter.advance
  rw [ensures_bind, undecoded]
  exact ⟨rfl, rfl⟩

/-- A tick that fails for the game fails for the watched game, and all that was seen of it is cleaned
up. -/
theorem Watches.cut (tidy : G.Tidy) (watches : Watches adapter watched systems sights [])
    {advance : TickAdvance} {phase : TickPhase} {error : SessionError}
    (rejects : TickRejected advance phase adapter error next) :
    ∃ watched' cut, TickRejected advance phase watched error watched' ∧
      Cut (GameAdapter G) systems (SessionSimulation.currentTick adapter) advance cut ∧
      Watches next watched' systems (sights ++ cut) [] := by
  cases rejects with
  | gap discontinuous =>
      refine ⟨watched, [], ?_, .gap discontinuous, ?_⟩
      · rw [← watches.currentTick] at discontinuous ⊢
        exact .gap discontinuous
      · rw [List.append_nil]
        exact watches
  | @refused _ executed continues fails =>
      cases decodes : decodeInputs (GameAdapter G) advance.inputs with
      | ok inputs =>
          obtain ⟨_, sim, _, created, _⟩ := watches
          cases fails.symm.trans (advance_eq decodes created rfl)
      | error other =>
          cases fails.symm.trans (advance_undecoded decodes adapter)
          exact ⟨_, _, .refused (watches.currentTick ▸ continues)
            (advance_undecoded ((decodeInputs_watched G _).trans decodes) watched),
            .refused continues decodes, (watches.finishTick tidy).1⟩
  | misplaced continues executes ends =>
      obtain ⟨inputs, _, _, decodes, _⟩ := advance_ok executes
      obtain ⟨_, _, _, number⟩ := watches.advance tidy decodes executes
      exact (ends number).elim
  | unpublished continues executes ends isLive fails =>
      obtain ⟨inputs, _, _, decodes, _⟩ := advance_ok executes
      obtain ⟨middle, executes', stepped, number⟩ := watches.advance tidy decodes executes
      obtain ⟨same, later, fails', shown⟩ := ensures_of_error (stepped.publish tidy) fails
      obtain ⟨cleaned, _⟩ := shown.finishTick tidy
      rw [same, number, List.append_assoc, List.append_assoc] at cleaned
      exact ⟨_, _, .unpublished (watches.currentTick ▸ continues) executes'
        (stepped.currentTick.trans number) isLive fails', .unpublished continues decodes, cleaned⟩

/-- A watched game is created as the game is, and nothing was seen yet. -/
theorem Creates.watches (tidy : G.Tidy) {header : ReplayHeader} (creates : Creates header adapter) :
    ∃ watched : Adapter (GameAdapter G.watched), Creates header watched ∧
      Watches adapter watched adapter.systems [] [] := by
  obtain ⟨valid, initial, sim, decodes, created, early, rfl⟩ := creates
  obtain ⟨app, builds, rfl⟩ := GameAdapter.built created
  have builds' : G.watched.build initial
      { world := { tickDuration := header.tickNanos, resources := () } } = .ok {
      world := { app.world with resources := (app.world.resources, []) }
      simStep := app.simStep.map Bevy.World.watch } := by
    change (G.build initial _ >>= _) = _
    rw [builds]
    rfl
  exact ⟨_, ⟨valid, initial, _, decodes, GameAdapter.create_built builds', early, rfl⟩, rfl,
    _, _, rfl, rfl, ⟨rfl, rfl, rfl⟩, rfl, (tidy.build builds).2⟩

/-- Over any calls of a session on a tidy game, each system of a tick sees its number and its
commands in order, the publication of a live tick and the cleanup see them still, and no other
publication sees commands. A tick that continues the current one and fails is cleaned up too, and
nothing of it is left; nothing runs for one that does not. -/
theorem hooks_see (tidy : G.Tidy) {header : ReplayHeader} {begun last : Adapter (GameAdapter G)}
    {calls : List (Call (GameAdapter G).Command)} (creates : Creates header begun)
    (runs : Runs begun calls last) :
    ∃ begun' last' : Adapter (GameAdapter G.watched), Creates header begun' ∧
      Runs begun' calls last' ∧
      Watches last last' begun.systems (calls.flatMap (Call.sights begun.systems)) [] ∧
      ∀ advance phase error next, TickRejected advance phase last error next →
        ∃ watched' cut, TickRejected advance phase last' error watched' ∧
          Cut (GameAdapter G) begun.systems (SessionSimulation.currentTick last) advance cut ∧
          Watches next watched' begun.systems
            (calls.flatMap (Call.sights begun.systems) ++ cut) [] := by
  obtain ⟨begun', creates', watches⟩ := creates.watches tidy
  have follows : ∃ last', Runs begun' calls last' ∧
      Watches last last' begun.systems (calls.flatMap (Call.sights begun.systems)) [] := by
    induction runs with
    | here => exact ⟨begun', .here, watches⟩
    | @publish calls adapter next _ publishes ih =>
        obtain ⟨middle, runs, watches⟩ := ih
        obtain ⟨_, later, publishes', shown⟩ := ensures_of_ok (watches.publish tidy) publishes
        have runs' := runs.publish publishes'
        rw [show currentTick middle = currentTick adapter from watches.currentTick] at runs'
        refine ⟨later, runs', ?_⟩
        rw [List.flatMap_append, List.flatMap_singleton]
        exact shown
    | tick _ decodes applies ih =>
        obtain ⟨middle, runs, watches⟩ := ih
        obtain ⟨later, applies', watches'⟩ := watches.tick tidy decodes applies
        refine ⟨later, runs.tick ((decodeInputs_watched G _).trans decodes) applies', ?_⟩
        rw [List.flatMap_append, List.flatMap_singleton]
        exact watches'
  obtain ⟨last', runs', watches'⟩ := follows
  refine ⟨begun', last', creates', runs', watches', ?_⟩
  intro advance phase error next rejects
  exact watches'.cut tidy rejects

/-- The resources of a small game, for examples. -/
structure Purse where
  balance : UInt64 := 0
  upgraded : Bool := false
  deriving DecidableEq, Repr

def collectIncome (world : Bevy.World Unit Purse) : Bevy.World Unit Purse :=
  { world with resources := { world.resources with balance := world.resources.balance + 10 } }

def buyUpgrade (world : Bevy.World Unit Purse) : Bevy.World Unit Purse :=
  if ¬ world.resources.upgraded ∧ world.resources.balance ≥ 10 then
    { world with resources := { balance := world.resources.balance - 10, upgraded := true } }
  else world

/-- A game with two systems in an order: income comes before the purchase. -/
@[reducible]
def purseGame : BevyGame where
  Command := Unit
  Initialization := Unit
  Resources := Purse
  commandWire := inferInstance
  initializationWire := inferInstance
  id := ⟨Codec.utf8 "bevy-test-game01", by decide⟩
  version := 1
  build _ app := .ok {
    world := { app.world with resources := {} }
    simStep := [collectIncome, buyUpgrade] }
  stateHash world := world.tickNumber

theorem tidy_purseGame : purseGame.Tidy where
  build builds := by
    cases builds
    exact ⟨rfl, rfl⟩
  system registers system member world := by
    obtain ⟨_, _, _, builds, same⟩ := registers
    cases builds
    subst same
    rcases List.mem_cons.mp member with rfl | member
    · exact ⟨rfl, rfl⟩
    · rw [List.mem_singleton.mp member]
      unfold buyUpgrade
      split
      · exact ⟨rfl, rfl⟩
      · exact ⟨rfl, rfl⟩
  publish _ := ⟨rfl, rfl⟩
  finish _ := ⟨rfl, rfl⟩

/-- It is published, and then applies a tick with one command, which both systems see. -/
theorem hooks_see_purse :
    ∃ (last : Adapter (GameAdapter purseGame)) (watched : Adapter (GameAdapter purseGame.watched)),
      Watches last watched 2 [.publish 0 [], .system 1 [⟨.host, ()⟩], .system 1 [⟨.host, ()⟩],
        .publish 1 [⟨.host, ()⟩], .finish 1 [⟨.host, ()⟩]] [] ∧
      last.simulation.map (fun sim => sim.world.resources) = some ⟨0, true⟩ := by
  let header : ReplayHeader := .new purseGame.id purseGame.version 10_000_000 [0]
  have registers : purseGame.Registers [collectIncome, buyUpgrade] :=
    ⟨(), ⟨⟨0, [], 10_000_000, ()⟩, []⟩, _, rfl, rfl⟩
  let begun : Adapter (GameAdapter purseGame) :=
    { header, simulation := some ⟨⟨⟨0, [], 10_000_000, {}⟩, [collectIncome, buyUpgrade]⟩, registers⟩ }
  have creates : Creates header begun := ⟨rfl, (), _, rfl, rfl, rfl, rfl⟩
  have applies : ∃ last, TickApplied ⟨1, [⟨.host, ⟨[0]⟩⟩]⟩ begun .live last ∧
      last.simulation.map (fun sim => sim.world.resources) = some ⟨0, true⟩ := by
    have bought : (buyUpgrade (collectIncome ⟨1, [⟨.host, ()⟩], 10_000_000, {}⟩)).resources =
        ⟨0, true⟩ := by
      decide
    exact ⟨_, .live rfl rfl rfl rfl, congrArg some bought⟩
  obtain ⟨last, applies, counted⟩ := applies
  have published : Runs begun [.publish 0] begun := Runs.publish .here rfl
  have runs : Runs begun [.publish 0, .tick ⟨1, [⟨.host, ()⟩]⟩ .live] last :=
    published.tick rfl applies
  obtain ⟨_, watched, _, _, watches, _⟩ := hooks_see tidy_purseGame creates runs
  exact ⟨last, watched, watches, counted⟩

end Adapter

end Synctick
