import Synctick.Replay.Batch

/-! # Replaying a save on its own

A save is opened, a fresh simulation is initialized from its header, and the log is
replayed to its end, with no recording and no network.
-/

namespace Synctick

open SessionSimulation Effect

/-- Open a file and read the header of the log in it. -/
def openSave (file : Except IoError Bytes) : SessionResult ReplayReader := do
  let data ← file.mapError .io
  (ReplayReader.fromReader (bufReader data)).mapError .io

structure ReplayOutcome where
  records : Nat
  finalTick : UInt64
  finalHash : UInt64
  cancelled : Bool
  deriving DecidableEq, Repr

variable {σ : Type} [SessionSimulation σ]

/-- Initialize a simulation from a log and replay it, one batch for each time the control is
not cancelled. -/
def replaySave (reader : ReplayReader) (batches : List Nat) (cancelled : Bool) :
    SessionEffect σ ReplayOutcome := do
  SessionSimulation.initializeWith reader.header
  let records ← (replayInto batches).zoom (fun sim => ({ sim, reader } : Replay σ))
    fun _ replay => replay.sim
  let sim ← get
  pure { records, finalTick := currentTick sim, finalHash := stateHash sim, cancelled }

/-- Replay a save of a game. -/
def replay (G : Game) (file : Except IoError Bytes) (batches : List Nat) (cancelled : Bool) :
    SessionResult ReplayOutcome := do
  let reader ← openSave file
  validateHeader G reader.header
  match replaySave reader batches cancelled ({ header := reader.header } : Adapter G) with
  | .ok outcome _ => .ok outcome
  | .error error _ => .error error

end Synctick
