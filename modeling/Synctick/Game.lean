import Synctick.Simulation

/-! # Games and their adapter

A game supplies its rules, its initialization and its commands. The adapter
drives the simulation of a game as a session does: it creates it from a header,
decodes the commands of a tick, and forwards the hooks.
-/

namespace Synctick

structure Input (κ : Type) where
  participant : ParticipantId
  command : κ
  deriving DecidableEq, Repr

structure Tick (κ : Type) where
  number : UInt64
  inputs : List (Input κ)
  deriving DecidableEq, Repr

/-- Deterministic state, driven by ticks with commands of type `κ`. -/
class Simulation (κ : outParam Type) (σ : Type) where
  currentTick : σ → UInt64
  stateHash : σ → UInt64
  advance : Tick κ → SessionEffect σ Unit
  publish : SessionEffect σ Unit := pure ()
  finishTick : σ → σ := id

/-- Game rules, initialization, commands and state fingerprinting. The creation of a
simulation takes the tick duration in nanoseconds. -/
structure Game where
  Command : Type
  Initialization : Type
  Simulation : Type
  commandWire : Codec.Wire Command
  initializationWire : Codec.Wire Initialization
  simulation : Synctick.Simulation Command Simulation
  id : List.Vector UInt8 16
  version : UInt32
  create : Initialization → UInt64 → SessionResult Simulation

attribute [instance] Game.commandWire Game.initializationWire Game.simulation

/-- A save is compatible with a game. -/
def validateHeader (G : Game) (header : ReplayHeader) : SessionResult Unit := do
  if header.gameId ≠ G.id then
    throw (.compatibility "different game")
  if header.gameVersion ≠ G.version then
    throw (.compatibility "different game version")
  validateTickDuration header.tickNanos
  (Codec.validate G.Initialization header.initialization).mapError .codec

structure Adapter (G : Game) where
  header : ReplayHeader
  simulation : Option G.Simulation := none

namespace Adapter

variable {G : Game}

/-- Run a call on the simulation, which must have been created. -/
def onSim {α : Type} (program : SessionEffect G.Simulation α) : SessionEffect (Adapter G) α := do
  let adapter ← get
  match adapter.simulation with
  | none => throw (.simulation "simulation was not initialized")
  | some simulation =>
      program.zoom (fun _ => simulation) fun adapter simulation =>
        { adapter with simulation := some simulation }

/-- Decode the commands of a tick. -/
def decodeInputs (G : Game) : List Command → SessionResult (List (Input G.Command))
  | [] => .ok []
  | input :: inputs => do
      let command ← (Codec.decode G.Command input.payload.bytes).mapError SessionError.codec
      let rest ← decodeInputs G inputs
      pure ({ participant := input.participant, command } :: rest)

def initializeWith (header : ReplayHeader) : SessionEffect (Adapter G) Unit := do
  Effect.ofExcept (validateHeader G header)
  let adapter ← get
  if adapter.simulation.isSome then
    throw (.simulation "duplicate initialization")
  let initial ← Effect.ofExcept
    ((Codec.decode G.Initialization header.initialization).mapError SessionError.codec)
  let simulation ← Effect.ofExcept (G.create initial header.tickNanos)
  if Simulation.currentTick simulation ≠ 0 then
    throw (.simulation "new simulation must start at tick zero")
  set { header, simulation := some simulation : Adapter G }

def currentTick (adapter : Adapter G) : UInt64 :=
  match adapter.simulation with
  | none => 0
  | some simulation => Simulation.currentTick simulation

/-- The driver initializes before hashing; the source panics where it does not. -/
def stateHash (adapter : Adapter G) : UInt64 :=
  match adapter.simulation with
  | none => 0
  | some simulation => Simulation.stateHash simulation

def advance (tick : TickAdvance) : SessionEffect (Adapter G) Unit := do
  let inputs ← Effect.ofExcept (decodeInputs G tick.inputs)
  onSim (Simulation.advance { number := tick.tick, inputs })

instance : SessionSimulation (Adapter G) where
  header adapter := adapter.header
  initializeWith := initializeWith
  validateCommand _ payload := (Codec.validate G.Command payload).mapError .codec
  hashInterval adapter := (1_000_000_000 + adapter.header.tickNanos / 2) / adapter.header.tickNanos
  currentTick := currentTick
  stateHash := stateHash
  advance := advance
  publish := onSim Simulation.publish
  finishTick adapter :=
    { adapter with simulation := adapter.simulation.map Simulation.finishTick }

/-- The adapter keeps the tick number at the end of a tick where its game does. -/
theorem finishKeepsTick (keeps : ∀ simulation : G.Simulation,
    Simulation.currentTick (Simulation.finishTick simulation) =
      Simulation.currentTick simulation) : FinishKeepsTick (Adapter G) := by
  intro adapter
  rcases adapter with ⟨header, simulation⟩
  cases simulation with
  | none => rfl
  | some simulation => exact keeps simulation

end Adapter

/-- The state of `tallyGame`. -/
structure Tally where
  tick : UInt64
  total : UInt64
  deriving DecidableEq, Repr

instance : Simulation UInt8 Tally where
  currentTick tally := tally.tick
  stateHash tally := tally.total
  advance tick := modify fun tally =>
    { tick := tick.number
      total := tick.inputs.foldl (fun total input => total + input.command.toUInt64) tally.total }

/-- A small game, for examples: it adds up its commands. -/
def tallyGame : Game where
  Command := UInt8
  Initialization := UInt8
  Simulation := Tally
  commandWire := inferInstance
  initializationWire := inferInstance
  simulation := inferInstance
  id := ⟨[0x74, 0x61, 0x6C, 0x6C, 0x79, 0x2D, 0x67, 0x61, 0x6D, 0x65, 0x2D, 0x30, 0x30, 0x30, 0x30,
    0x31], rfl⟩
  version := 1
  create initialization _ := .ok { tick := 0, total := initialization.toUInt64 }

/-- A header of `tallyGame`. -/
def tallyHeader : ReplayHeader := .new tallyGame.id tallyGame.version 33_333_333 [0]

/-- `tallyGame` as it was created from its header. -/
def tallyAdapter : Adapter tallyGame where
  header := tallyHeader
  simulation := some ({ tick := 0, total := 0 } : Tally)

example : Adapter.initializeWith tallyHeader { header := tallyHeader } = .ok () tallyAdapter := rfl

end Synctick
