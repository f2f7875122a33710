import Synctick.Client.Loop
import Synctick.Server.Session

/-! # Hosting a game, and joining one

A server drives an adapter of its game from a configuration: it validates the configuration,
takes the header of the save that it loads or makes one from its initialization, and runs an
authority. A client runs a replica, whose header is that of the save it receives.
-/

namespace Synctick

open SessionSimulation Effect

/-- The configuration of a server. Queue capacity is local; the duration is saved, and adopted by
clients and resumed sessions. -/
structure ServerConfig (G : Game) where
  expectedClients : Nat := 0
  initialization : G.Initialization
  tickNanos : UInt64 := 33_333_333
  load : Option (Except IoError Bytes) := none
  record : Option (Option IoError × List (Option WriteFault)) := none
  desyncPolicy : DesyncPolicy := .disconnect
  commandCapacity : Nat := 256

def validateCapacity (capacity : Nat) : SessionResult Unit :=
  if capacity = 0 ∨ capacity > 65_536 then
    .error (.configuration "command capacity must be in 1..=65536")
  else .ok ()

variable {G : Game}

namespace ServerConfig

variable (config : ServerConfig G)

/-- The header of a session: that of the save it loads, or a new one. -/
def header : SessionResult ReplayHeader :=
  match config.load with
  | some file => do
      let reader ← openSave file
      validateHeader G reader.header
      pure reader.header
  | none => do
      let initialization ← (Codec.encode config.initialization).mapError SessionError.codec
      pure (.new G.id G.version config.tickNanos initialization)

/-- What the worker of a session is configured with. -/
def worker (header : ReplayHeader) : ServerCfg where
  tickNanos := header.tickNanos
  expectedClients := config.expectedClients
  desyncPolicy := config.desyncPolicy
  load := config.load
  record := config.record

end ServerConfig

/-- Start a server, with or without a local participant: its worker runs an authority of the
game. -/
def startServer (config : ServerConfig G) :
    SessionResult (ServerCfg × ServerSession (Adapter G)) := do
  validateCapacity config.commandCapacity
  validateTickDuration config.tickNanos
  if config.expectedClients > 1024 then
    throw (.configuration "Renet supports at most 1024 clients")
  let header ← config.header
  pure (config.worker header, { sim := { header } })

/-- Connect a replica. The header of the save that it receives supplies initialization and
timing. -/
def connect (G : Game) (commandCapacity : Nat) : SessionResult (Replica (Adapter G)) := do
  validateCapacity commandCapacity
  pure { sim := { header := .new G.id G.version 33_333_333 [] } }

/-- A started server is that of its configuration, with no simulation yet. -/
theorem startServer_ok {config : ServerConfig G} {cfg : ServerCfg}
    {session : ServerSession (Adapter G)} (starts : startServer config = .ok (cfg, session)) :
    ∃ header, config.header = .ok header ∧ cfg = config.worker header ∧
      session = { sim := { header } } := by
  unfold startServer at starts
  obtain ⟨_, _, starts⟩ := except_bind_eq_ok.mp starts
  obtain ⟨_, _, starts⟩ := except_bind_eq_ok.mp starts
  by_cases many : config.expectedClients > 1024
  · rw [if_pos many] at starts
    cases starts
  · rw [if_neg many] at starts
    obtain ⟨header, made, starts⟩ := except_bind_eq_ok.mp starts
    cases starts
    exact ⟨header, made, rfl, rfl⟩

end Synctick
