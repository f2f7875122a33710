import Synctick.Protocol.RoundTrip

/-! # The sending side of a startup transfer

A peer sends a save to one joining client: the metadata, then chunks, as far as
the sender channel and the memory of the client's receive channel allow. What it
sent is charged until the client reports it consumed. All clocks here govern
liveness, never simulation outcomes.
-/

namespace Synctick

/-- The slice size of Renet, whose receive channel reserves whole slices. -/
def renetSliceBytes : Nat := 1200

def receiveMemory (encodedBytes : Nat) : Nat :=
  (encodedBytes + renetSliceBytes - 1) / renetSliceBytes * renetSliceBytes

/-- Thirty seconds, in nanoseconds. -/
def startupTimeout : Nat := 30 * 1_000_000_000

inductive TransferPhase
  | transferring
  | awaitingReadiness
  | ready
  deriving DecidableEq, Repr

structure StartupPeer where
  phase : TransferPhase := .transferring
  began : Bool := false
  offset : Nat := 0
  received : UInt64 := 0
  /-- The end offset in the save and the receive memory of each charged message. -/
  outstanding : List (Nat × Nat) := []
  receiveMemory : Nat := 0
  replayed : UInt64 := 0
  lastProgress : Nat
  deriving DecidableEq, Repr

/-- What the transport answers about the sender channel before one message. -/
structure Capacity where
  available : Nat
  admits : Bool
  deriving DecidableEq, Repr

namespace StartupPeer

def new (now : Nat) : StartupPeer := { lastProgress := now }

/-- Account for a message sent up to `endOffset` of the save. -/
def charge (peer : StartupPeer) (endOffset memory : Nat) : StartupPeer :=
  { peer with
    outstanding := peer.outstanding ++ [(endOffset, memory)]
    receiveMemory := peer.receiveMemory + memory }

/-- The loop over the chunks. Returns the messages sent, in order; once the
transport has no further answer it admits nothing more. -/
def pumpChunks (save : Bytes) : List Capacity → StartupPeer → StartupPeer × List Bytes
  | answers, peer =>
    if peer.offset < save.length then
      let endOffset := min (peer.offset + maxSaveChunkBytes) save.length
      match answers with
      | [] => (peer, [])
      | answer :: answers =>
          if answer.available < endOffset - peer.offset then (peer, [])
          else
            let message := encode
              (SaveMessage.chunk ((save.drop peer.offset).take (endOffset - peer.offset)))
            let memory := Synctick.receiveMemory message.length
            if memory > channelSaveMaxMem - peer.receiveMemory ∨ ¬ answer.admits then (peer, [])
            else
              let (peer, sent) := pumpChunks save answers
                { peer.charge endOffset memory with offset := endOffset }
              (peer, message :: sent)
    else ({ peer with phase := .awaitingReadiness }, [])

/-- Bound both sender capacity and unconsumed receiver memory. -/
def pump (save : Bytes) (metadata : SaveMetadata) (answers : List Capacity) (peer : StartupPeer) :
    StartupPeer × List Bytes :=
  if peer.phase ≠ .transferring then (peer, [])
  else if peer.began then pumpChunks save answers peer
  else
    match answers with
    | [] => (peer, [])
    | answer :: answers =>
        let message := encode (SaveMessage.begin metadata)
        if ¬ answer.admits then (peer, [])
        else
          let (peer, sent) := pumpChunks save answers
            { peer.charge 0 (Synctick.receiveMemory message.length) with began := true }
          (peer, message :: sent)

/-- The loop that pops what a report proves consumed, with the charges left.
Reporting nothing received does not prove that the metadata left the receive queue. -/
def release (received : UInt64) : List (Nat × Nat) → Nat → List (Nat × Nat) × Nat
  | [], charged => ([], charged)
  | (endOffset, memory) :: rest, charged =>
      if received = 0 ∨ ¬ endOffset ≤ received.toNat then ((endOffset, memory) :: rest, charged)
      else release received rest (charged - memory)

/-- A report is acceptable. -/
abbrev AcceptsProgress (metadata : SaveMetadata) (peer : StartupPeer)
    (receivedBytes replayedTick : UInt64) : Prop :=
  peer.phase ≠ .ready ∧ peer.received ≤ receivedBytes ∧
    (receivedBytes = peer.received ∨
      ∃ entry ∈ peer.outstanding, entry.1 = receivedBytes.toNat) ∧
    peer.replayed ≤ replayedTick ∧ replayedTick ≤ metadata.tick ∧
    (replayedTick = 0 ∨ receivedBytes = metadata.totalBytes)

def invalidStartup : SessionError := .protocol "invalid startup message or state fingerprint"

def receive (message : ClientMessage) (metadata : SaveMetadata) (now : Nat) :
    SessionEffect StartupPeer Unit := do
  let peer ← get
  match message with
  | .progress receivedBytes replayedTick =>
      if AcceptsProgress metadata peer receivedBytes replayedTick then
        if receivedBytes > peer.received ∨ replayedTick > peer.replayed then
          let (outstanding, receiveMemory) :=
            release receivedBytes peer.outstanding peer.receiveMemory
          set { peer with
            lastProgress := now
            received := receivedBytes
            replayed := replayedTick
            outstanding
            receiveMemory }
      else throw invalidStartup
  | .ready tick hash =>
      if peer.phase = .awaitingReadiness ∧ tick = metadata.tick ∧ hash = metadata.hash then
        set { peer with phase := .ready, lastProgress := now }
      else throw invalidStartup
  | .input _ => throw invalidStartup

def isReady (peer : StartupPeer) : Bool := peer.phase = .ready

def timedOut (peer : StartupPeer) (now : Nat) : Bool :=
  !peer.isReady && now - peer.lastProgress ≥ startupTimeout

end StartupPeer

end Synctick
