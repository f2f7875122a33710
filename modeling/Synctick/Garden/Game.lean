import Synctick.Garden.Play
import Synctick.Bevy

/-! # Power Garden on a Bevy world

The world of a worker has the puzzle, and the cosmetic effects of the current tick. A system applies
the commands of a tick, and a snapshot of the board with its effects is published.
-/

namespace Synctick

namespace Garden

open Effect

instance : StableHash PuzzleState where
  hashInto state hasher :=
    ((((hasher.field state.width).field state.height).field state.tiles).field state.moves).field
      state.complete

/-- The hash of a tick and of the state of the puzzle. -/
def Board.stateHash (board : Board) (tick : UInt64) : UInt64 :=
  ((StateHasher.new.field tick).field board.state).finish

/-- A notification of a rotation, which is not part of the state. -/
structure RotationEffect where
  cell : UInt32
  participant : ParticipantId
  deriving DecidableEq, Repr

/-- A published board, with the effects of its tick. -/
structure Snapshot where
  tick : UInt64
  board : Board
  effects : List RotationEffect
  deriving DecidableEq, Repr

/-- A board that came of a recorded setup. No rotation of it panics. -/
def Puzzle : Type := { board : Board // ∃ initial, initial.Playable ∧ board.Coherent initial }

namespace Puzzle

theorem isSome_new (initial : Initialization) : (Board.new initial).isSome = true := by
  rcases Board.new_cases initial with ⟨_, fails, _⟩ | ⟨_, _, builds, _⟩
  · rw [fails]
    rfl
  · rw [builds]
    rfl

theorem coherent_of_new {initial : Initialization} {board : Board}
    (built : Board.new initial = some (.ok board)) : initial.Playable ∧ board.Coherent initial := by
  rcases Board.new_cases initial with ⟨_, fails, _⟩ | ⟨playable, _, builds, coherent⟩
  · cases fails.symm.trans built
  · cases builds.symm.trans built
    exact ⟨playable, coherent⟩

@[irreducible]
def new (initial : Initialization) : Except InitializationError Puzzle :=
  match built : Board.new initial with
  | some (.ok board) => .ok ⟨board, initial, coherent_of_new built⟩
  | some (.error error) => .error error
  | none => absurd (isSome_new initial) (by rw [built]; exact Bool.false_ne_true)

theorem isSome_rotate (puzzle : Puzzle) (command : Rotate) :
    (puzzle.1.rotate command).isSome = true := by
  obtain ⟨board, initial, playable, coherent⟩ := puzzle
  obtain ⟨_, _, rotates, _⟩ := Board.rotate_coherent playable coherent command
  rw [rotates]
  rfl

theorem coherent_of_rotate {puzzle : Puzzle} {command : Rotate} {allowed : Bool} {board : Board}
    (rotates : puzzle.1.rotate command = some (allowed, board)) :
    ∃ initial : Initialization, initial.Playable ∧ board.Coherent initial := by
  obtain ⟨before, initial, playable, coherent⟩ := puzzle
  obtain ⟨_, next, rotates', _, kept⟩ := Board.rotate_coherent playable coherent command
  cases rotates'.symm.trans rotates
  exact ⟨initial, playable, kept⟩

/-- Apply a rotation, and tell whether it was allowed. -/
def rotate (command : Rotate) (puzzle : Puzzle) : Bool × Puzzle :=
  match rotates : puzzle.1.rotate command with
  | some (allowed, board) => (allowed, ⟨board, coherent_of_rotate rotates⟩)
  | none => absurd (isSome_rotate puzzle command) (by rw [rotates]; exact Bool.false_ne_true)

/-- A puzzle is built as its board is. -/
theorem new_ok {initial : Initialization} {puzzle : Puzzle} (built : new initial = .ok puzzle) :
    Board.new initial = some (.ok puzzle.1) := by
  unfold new at built
  split at built
  · cases built
    assumption
  · cases built
  · next fails => exact absurd (isSome_new initial) (by rw [fails]; exact Bool.false_ne_true)

/-- A board that is built is that of its puzzle. -/
theorem new_board {initial : Initialization} {board : Board}
    (built : Board.new initial = some (.ok board)) :
    new initial = .ok ⟨board, initial, coherent_of_new built⟩ := by
  unfold new
  split
  · next other built' =>
      cases built'.symm.trans built
      rfl
  · next error fails => cases fails.symm.trans built
  · next fails => cases fails.symm.trans built

theorem rotate_board (command : Rotate) (puzzle : Puzzle) :
    puzzle.1.rotate command =
      some ((puzzle.rotate command).1, (puzzle.rotate command).2.1) := by
  unfold rotate
  split
  · assumption
  · next fails => exact absurd (isSome_rotate puzzle command) (by rw [fails]; exact Bool.false_ne_true)

end Puzzle

/-- The resources of the game; the slot of the snapshots is shared with their readers. -/
structure Resources where
  puzzle : Puzzle
  effects : List RotationEffect := []
  snapshots : Option Snapshot := none

/-- Rotate for a command, and note the effect. -/
def Resources.rotate (resources : Resources) (input : Input Rotate) : Resources :=
  let (allowed, puzzle) := resources.puzzle.rotate input.command
  { resources with
    puzzle
    effects := if allowed then
        resources.effects ++ [{ cell := input.command.cell, participant := input.participant }]
      else resources.effects }

def applyRotations (world : Bevy.World Rotate Resources) : Bevy.World Rotate Resources :=
  { world with resources := world.tickInputs.foldl Resources.rotate world.resources }

instance : Codec.Wire Rotate := Codec.derived rotateSchema Rotate.values

instance : Codec.Wire Initialization := Codec.derived initializationSchema Initialization.values

@[reducible]
def powerGarden : BevyGame where
  Command := Rotate
  Initialization := Initialization
  Resources := Resources
  commandWire := inferInstance
  initializationWire := inferInstance
  id := ⟨Codec.utf8 "power-garden-v01", by decide⟩
  version := 2
  build initialization app := do
    let puzzle ← (Puzzle.new initialization).mapError fun error => .simulation error.display
    pure { world := { app.world with resources := { puzzle } }, simStep := [applyRotations] }
  stateHash world := world.resources.puzzle.1.stateHash world.tickNumber
  publish := modify fun world => { world with resources := { world.resources with
    snapshots := some {
      tick := world.tickNumber
      board := world.resources.puzzle.1
      effects := world.resources.effects } } }
  finishTick world := { world with resources := { world.resources with effects := [] } }

theorem registered_powerGarden
    {simStep : List (Bevy.World Rotate Resources → Bevy.World Rotate Resources)}
    (registers : powerGarden.Registers simStep) : simStep = [applyRotations] := by
  obtain ⟨initial, empty, app, builds, same⟩ := registers
  obtain ⟨puzzle, _, built⟩ := except_bind_eq_ok.mp builds
  cases built
  exact same.symm

/-- The effects of the commands that were allowed. -/
def effectsOf (inputs : List (Input Rotate)) (verdicts : List Bool) : List RotationEffect :=
  (inputs.zip verdicts).filterMap fun (input, allowed) =>
    if allowed then some { cell := input.command.cell, participant := input.participant } else none

/-- The commands of a tick are played in order, and those that are allowed have an effect. -/
theorem foldl_rotate (inputs : List (Input Rotate)) (resources : Resources) : ∃ verdicts,
    resources.puzzle.1.play (inputs.map Input.command) =
      some (verdicts, (inputs.foldl Resources.rotate resources).puzzle.1) ∧
    (inputs.foldl Resources.rotate resources).effects =
      resources.effects ++ effectsOf inputs verdicts ∧
    (inputs.foldl Resources.rotate resources).snapshots = resources.snapshots := by
  induction inputs generalizing resources with
  | nil => exact ⟨[], rfl, (List.append_nil _).symm, rfl⟩
  | cons input inputs ih =>
      obtain ⟨verdicts, plays, effects, snapshots⟩ := ih (resources.rotate input)
      refine ⟨(resources.puzzle.rotate input.command).1 :: verdicts, ?_, ?_, snapshots⟩
      · rw [List.map_cons]
        change (resources.puzzle.1.rotate input.command >>= _) = _
        rw [resources.puzzle.rotate_board]
        change ((resources.rotate input).puzzle.1.play _ >>= _) = _
        rw [plays]
        rfl
      · rw [List.foldl_cons, effects]
        unfold effectsOf Resources.rotate
        rw [List.zip_cons_cons, List.filterMap_cons]
        cases allowed : (resources.puzzle.rotate input.command).1 with
        | true => simp [allowed]
        | false => simp [allowed]

/-- What becomes of a puzzle depends on nothing else. -/
theorem puzzle_foldl (inputs : List (Input Rotate)) {first second : Resources}
    (alike : first.puzzle = second.puzzle) :
    (inputs.foldl Resources.rotate first).puzzle = (inputs.foldl Resources.rotate second).puzzle := by
  induction inputs generalizing first second with
  | nil => exact alike
  | cons input inputs ih =>
      apply ih
      unfold Resources.rotate
      rw [alike]

/-- A tick applies its commands to the puzzle. -/
theorem world_advance (tick : Tick Rotate) (sim : BevySimulation powerGarden) :
    (sim.advance tick).world = {
      tickNumber := tick.number
      tickInputs := tick.inputs
      tickDuration := sim.world.tickDuration
      resources := tick.inputs.foldl Resources.rotate sim.world.resources } := by
  change sim.app.simStep.foldl _ _ = _
  rw [registered_powerGarden sim.registered]
  rfl

/-- Power Garden is deterministic in its tick and its puzzle. -/
theorem deterministic_powerGarden : (GameAdapter powerGarden).Deterministic
    fun sim : BevySimulation powerGarden => (sim.world.tickNumber, sim.world.resources.puzzle) where
  tick alike := (Prod.mk.inj alike).1
  hash {sim other} alike := by
    obtain ⟨number, puzzle⟩ := Prod.mk.inj alike
    change sim.world.resources.puzzle.1.stateHash sim.world.tickNumber =
      other.world.resources.puzzle.1.stateHash other.world.tickNumber
    rw [number, puzzle]
  advance {tick sim other next} alike executes := by
    cases executes
    refine ⟨other.advance tick, rfl, ?_⟩
    dsimp only
    rw [world_advance, world_advance]
    exact congrArg (Prod.mk tick.number) (puzzle_foldl tick.inputs (Prod.mk.inj alike).2.symm)
  publish publishes := by
    cases publishes
    rfl
  finish _ := rfl

end Garden

end Synctick
