import Synctick.Foundation.TreeMap
import Synctick.Network
import Synctick.Startup.Stream

/-! # The start barrier

Before it goes live, an authority transfers its save to every client that connects,
up to the number it expects, and broadcasts `Start` once all of them are ready. A
client that misbehaves or times out is disconnected; another may take its place.
-/

namespace Synctick

open Effect Std

/-- What the environment decides about the service of one peer. -/
structure PeerInput where
  answers : List Capacity := []
  now : Nat := 0
  deadline : Nat := 0

/-- What the environment decides about one pass of the waiting loop. -/
structure WaitInput where
  network : Option SessionError := none
  actions : List NetAction := []
  now : Nat := 0
  inputs : List CommandPayload := []
  inputClosed : Bool := false
  peers : UInt64 → PeerInput := fun _ => {}

/-- Take at most 256 local inputs. Before the session is live they are discarded. -/
def drainLocal (inputs : List CommandPayload) (closed live : Bool) :
    SessionResult (List CommandPayload) :=
  if closed ∧ inputs.length < 256 then .error .inputDisconnected
  else .ok (if live then inputs.take 256 else [])

structure Waiting where
  server : RenetServer
  peers : ExtTreeMap UInt64 StartupPeer := ∅
  status : SessionStatus := .connecting

namespace Waiting

/-- Handle a connection event. A client beyond the expected number is disconnected. -/
def handleEvent (expected now : Nat) (waiting : Waiting) : ServerEvent → Waiting
  | .clientConnected id =>
      if waiting.peers.size < expected then
        { waiting with peers := waiting.peers.insert id (.new now) }
      else { waiting with server := waiting.server.disconnect id }
  | .clientDisconnected id => { waiting with peers := waiting.peers.erase id }

/-- A client that finds room gets a peer of its own. -/
theorem handleEvent_connected {expected : Nat} {waiting : Waiting} (now : Nat) (id : UInt64)
    (room : waiting.peers.size < expected) :
    handleEvent expected now waiting (.clientConnected id) =
      { waiting with peers := waiting.peers.insert id (.new now) } := if_pos room

/-- One that comes when all are there is turned away. -/
theorem handleEvent_full {expected : Nat} {waiting : Waiting} (now : Nat) (id : UInt64)
    (full : ¬ waiting.peers.size < expected) :
    handleEvent expected now waiting (.clientConnected id) =
      { waiting with server := waiting.server.disconnect id } := if_neg full

def handleEvents (expected now : Nat) (waiting : Waiting) : Waiting :=
  waiting.server.events.foldl (handleEvent expected now)
    { waiting with server := { waiting.server with events := [] } }

/-- Receive the startup messages of a client, one pass for each that is there, up to
an invalid one. -/
def receiveStartup (metadata : SaveMetadata) (now : Nat) (id : UInt64) :
    Nat → RenetServer → StartupPeer → Bool × RenetServer × StartupPeer
  | 0, server, peer => (false, server, peer)
  | passes + 1, server, peer =>
      match server.receiveMessage id .lockstep with
      | (none, server) => (false, server, peer)
      | (some bytes, server) =>
          match decodeClientMessage bytes with
          | .error _ => (true, server, peer)
          | .ok message =>
              match peer.receive message metadata now with
              | .ok _ peer => receiveStartup metadata now id passes server peer
              | .error _ peer => (true, server, peer)

/-- Serve one peer: send what fits, receive what came, and disconnect a client that
misbehaves or times out. Desync reports are only legal after the start. -/
def servePeer (save : Bytes) (metadata : SaveMetadata) (id : UInt64) (input : PeerInput)
    (server : RenetServer) (peer : StartupPeer) : RenetServer × StartupPeer :=
  let (peer, messages) := peer.pump save metadata input.answers
  let server := messages.foldl (fun server message => server.sendMessage id .save message) server
  let (invalid, server, peer) :=
    receiveStartup metadata input.now id (server.pending id .lockstep).length server peer
  let (report, server) := server.receiveMessage id .desync
  if invalid ∨ report.isSome ∨ peer.timedOut input.deadline then (server.disconnect id, peer)
  else (server, peer)

def serve (save : Bytes) (metadata : SaveMetadata) (input : UInt64 → PeerInput)
    (waiting : Waiting) (id : UInt64) : Waiting :=
  match waiting.peers[id]? with
  | none => waiting
  | some peer =>
      let (server, peer) := servePeer save metadata id (input id) waiting.server peer
      { waiting with server, peers := waiting.peers.insert id peer }

/-- Drop the peers that are no longer connected. -/
def retain (waiting : Waiting) : Waiting :=
  { waiting with peers := retainKeys waiting.server.isConnected waiting.peers }

def ready (waiting : Waiting) : Nat :=
  waiting.peers.toList.countP fun entry => entry.2.isReady

/-- Publish how many peers are ready. -/
def publishReady (expected : Nat) (waiting : Waiting) : Waiting :=
  { waiting with status := .waiting waiting.ready expected }

/-- Announce the start to everyone who is connected. -/
def start (metadata : SaveMetadata) (waiting : Waiting) : Waiting :=
  { waiting with
    server := waiting.server.broadcastMessage .lockstep
      (encode (ServerMessage.start metadata.tick metadata.hash)) }

/-- One pass of the waiting loop; it returns the verified clients once it announced
the start. -/
def pass (expected : Nat) (save : Bytes) (metadata : SaveMetadata) (input : WaitInput) :
    SessionEffect Waiting (Option (ExtTreeMap UInt64 UInt64)) := do
  failWith input.network
  modify fun waiting => { waiting with server := waiting.server.update input.actions }
  modify (handleEvents expected input.now)
  let _ ← Effect.ofExcept (drainLocal input.inputs input.inputClosed false)
  modify fun waiting => waiting.peers.keys.foldl (serve save metadata input.peers) waiting
  modify retain
  modify (publishReady expected)
  let waiting ← get
  if waiting.ready = expected then do
    set (waiting.start metadata)
    pure (some (waiting.peers.map fun _ _ => metadata.tick))
  else pure none

end Waiting

/-- The waiting loop, one pass for each time it is not cancelled. -/
def waitForClients (expected : Nat) (save : Bytes) (metadata : SaveMetadata) :
    List WaitInput → SessionEffect Waiting (ExtTreeMap UInt64 UInt64)
  | [] => pure ∅
  | input :: later => do
      match ← Waiting.pass expected save metadata input with
      | some verified => pure verified
      | none => waitForClients expected save metadata later

end Synctick
