import Synctick.Foundation.Bincode
import Synctick.Session

/-! # Wire protocol for synchronous lockstep

Ordered startup envelopes gate live ticks on a verified initial state. Commands
and server messages, hash reports, and save chunks use separate reliable ordered
channels; `Start` and `Tick` share one server-to-client stream.
-/

namespace Synctick

/-- The framework protocol; the compatibility of games is checked separately. -/
def protocolId : UInt64 := 0x53455353494F0001

/-- An opaque game command. -/
structure CommandPayload where
  bytes : Bytes
  deriving DecidableEq, Repr

/-- The origin of a command within its session. -/
inductive ParticipantId
  | host
  | remote (id : UInt64)
  deriving DecidableEq, Repr

structure Command where
  participant : ParticipantId
  payload : CommandPayload
  deriving DecidableEq, Repr

/-- The reliable ordered channels. Client and server messages share `lockstep`. -/
inductive Channel
  | lockstep
  | desync
  | save
  deriving DecidableEq, Repr

/-- The buffer cap of `lockstep` and `desync`. -/
def channelMaxMem : Nat := 1024 * 1024

/-- The buffer cap of `save`. -/
def channelSaveMaxMem : Nat := 4 * 1024 * 1024

/-- The largest tick record. -/
def maxReplayRecordBytes : Nat := 256 * 1024

/-- The largest payload of one save chunk. -/
def maxSaveChunkBytes : Nat := 256 * 1024

inductive ClientMessage
  | input (payload : CommandPayload)
  | progress (receivedBytes replayedTick : UInt64)
  | ready (tick hash : UInt64)
  deriving DecidableEq, Repr

structure TickAdvance where
  tick : UInt64
  inputs : List Command
  deriving DecidableEq, Repr

inductive ServerMessage
  | start (tick hash : UInt64)
  | tick (advance : TickAdvance)
  deriving DecidableEq, Repr

structure SaveMetadata where
  totalBytes : UInt64
  tick : UInt64
  hash : UInt64
  deriving DecidableEq, Repr

inductive SaveMessage
  | begin (metadata : SaveMetadata)
  | chunk (bytes : Bytes)
  deriving DecidableEq, Repr

structure DesyncHash where
  tick : UInt64
  hash : UInt64
  deriving DecidableEq, Repr

/-- A type with a derived serializer: the fields in declaration order, after the
index of the variant. -/
class Serialize (α : Type) where
  encode : α → Bytes

export Serialize (encode)

open Bincode

instance : Serialize UInt64 := ⟨fun value => encodeVarint value.toNat⟩

instance : Serialize UInt32 := ⟨fun value => encodeVarint value.toNat⟩

instance : Serialize CommandPayload := ⟨fun payload => encodeBytes payload.bytes⟩

instance : Serialize ParticipantId where
  encode
    | .host => encodeVarint 0
    | .remote id => encodeVarint 1 ++ encode id

instance : Serialize Command :=
  ⟨fun command => encode command.participant ++ encode command.payload⟩

instance : Serialize ClientMessage where
  encode
    | .input payload => encodeVarint 0 ++ encode payload
    | .progress receivedBytes replayedTick =>
        encodeVarint 1 ++ (encode receivedBytes ++ encode replayedTick)
    | .ready tick hash => encodeVarint 2 ++ (encode tick ++ encode hash)

instance : Serialize TickAdvance :=
  ⟨fun advance => encode advance.tick ++
    (encodeVarint advance.inputs.length ++ advance.inputs.flatMap encode)⟩

instance : Serialize ServerMessage where
  encode
    | .start tick hash => encodeVarint 0 ++ (encode tick ++ encode hash)
    | .tick advance => encodeVarint 1 ++ encode advance

instance : Serialize SaveMetadata :=
  ⟨fun metadata => encode metadata.totalBytes ++ (encode metadata.tick ++ encode metadata.hash)⟩

instance : Serialize SaveMessage where
  encode
    | .begin metadata => encodeVarint 0 ++ encode metadata
    | .chunk bytes => encodeVarint 1 ++ encodeBytes bytes

instance : Serialize DesyncHash := ⟨fun report => encode report.tick ++ encode report.hash⟩

end Synctick
