import Synctick.Protocol

/-! # Decoding without trusting collection lengths

A message is read twice: the first pass validates the complete shape, and only
the second one materializes its collections. Reading a message from its encoding
returns it (`Synctick.decodeTickAdvance_encode` and its siblings), within the
limits of the protocol.
-/

namespace Synctick

open Bincode

namespace Cursor

/-- Read the length of a collection, which its bytes cannot exceed. -/
def length : Effect DecodeError Bytes Nat := do
  let length ← readU64
  let remaining ← get
  if length.toNat > remaining.length then
    throw (.other "collection length exceeds remaining payload")
  pure length.toNat

def payload (materialize : Bool) : Effect DecodeError Bytes CommandPayload := do
  let length ← Cursor.length
  if length > Codec.maxPayloadBytes then
    throw (.other "command byte budget exceeded")
  let remaining ← get
  set (remaining.drop length)
  pure ⟨if materialize then remaining.take length else []⟩

/-- The derived deserializer of a participant. -/
def participant : Effect DecodeError Bytes ParticipantId := do
  let variant ← readU32
  if variant = 0 then pure .host
  else if variant = 1 then do
    let id ← readU64
    pure (.remote id)
  else throw .unexpectedVariant

def command (materialize : Bool) : Effect DecodeError Bytes Command := do
  let participant ← Cursor.participant
  let payload ← Cursor.payload materialize
  pure { participant, payload }

def tick (materialize : Bool) : Effect DecodeError Bytes TickAdvance := do
  let tick ← readU64
  let count ← Cursor.length
  let inputs ← Effect.readMany (command materialize) count
  pure { tick, inputs := if materialize then inputs else [] }

def clientMessage (materialize : Bool) : Effect DecodeError Bytes ClientMessage := do
  let variant ← readU32
  if variant = 0 then do
    let payload ← Cursor.payload materialize
    pure (.input payload)
  else if variant = 1 then do
    let receivedBytes ← readU64
    let replayedTick ← readU64
    pure (.progress receivedBytes replayedTick)
  else if variant = 2 then do
    let tick ← readU64
    let hash ← readU64
    pure (.ready tick hash)
  else throw (.other "invalid client message variant")

def serverMessage (materialize : Bool) : Effect DecodeError Bytes ServerMessage := do
  let variant ← readU32
  if variant = 0 then do
    let tick ← readU64
    let hash ← readU64
    pure (.start tick hash)
  else if variant = 1 then do
    let advance ← Cursor.tick materialize
    pure (.tick advance)
  else throw (.other "invalid server message variant")

def saveMetadata : Effect DecodeError Bytes SaveMetadata := do
  let totalBytes ← readU64
  let tick ← readU64
  let hash ← readU64
  pure { totalBytes, tick, hash }

def saveMessage (materialize : Bool) : Effect DecodeError Bytes SaveMessage := do
  let variant ← readU32
  if variant = 0 then do
    let metadata ← Cursor.saveMetadata
    pure (.begin metadata)
  else if variant = 1 then do
    let length ← Cursor.length
    if length = 0 ∨ length > maxSaveChunkBytes then
      throw (.other "invalid save chunk size")
    let remaining ← get
    set (remaining.drop length)
    pure (.chunk (if materialize then remaining.take length else []))
  else throw (.other "invalid save message variant")

def desyncHash : Effect DecodeError Bytes DesyncHash := do
  let tick ← readU64
  let hash ← readU64
  pure { tick, hash }

end Cursor

/-- One pass over a message: it must end with its bytes. -/
def readWhole {α : Type} (read : Effect DecodeError Bytes α) (bytes : Bytes) :
    Except DecodeError α :=
  match read bytes with
  | .ok value remaining =>
      if remaining.isEmpty then .ok value else .error (.other "trailing bytes")
  | .error error _ => .error error

/-- Validate the complete shape, then read it again and materialize. -/
def validated {α : Type} (bytes : Bytes) (read : Bool → Effect DecodeError Bytes α) :
    Except DecodeError α := do
  let _ ← readWhole (read false) bytes
  readWhole (read true) bytes

def decodeClientMessage (bytes : Bytes) : Except DecodeError ClientMessage :=
  validated bytes Cursor.clientMessage

def decodeServerMessage (bytes : Bytes) : Except DecodeError ServerMessage := do
  if bytes.length > maxReplayRecordBytes then
    throw (.other "tick byte budget exceeded")
  validated bytes Cursor.serverMessage

def decodeSaveMessage (bytes : Bytes) : Except DecodeError SaveMessage :=
  validated bytes Cursor.saveMessage

def decodeDesyncHash (bytes : Bytes) : Except DecodeError DesyncHash :=
  validated bytes fun _ => Cursor.desyncHash

def decodeTickAdvance (bytes : Bytes) : Except DecodeError TickAdvance := do
  if bytes.length > maxReplayRecordBytes then
    throw (.other "tick byte budget exceeded")
  validated bytes Cursor.tick

end Synctick
