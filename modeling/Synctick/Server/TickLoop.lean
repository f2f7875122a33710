import Synctick.Server.Wait
import Synctick.Game

/-! # The live loop of an authority

An iteration gathers the commands of the participants and of the host within the
byte budget of one tick, records the tick, broadcasts it, and only then applies it. A
participant that sends anything invalid, or whose state is not verified in time, is
disconnected.
-/

namespace Synctick

open SessionSimulation Effect Std

/-- What a reported divergence does: end the session, or disconnect the participant. -/
inductive DesyncPolicy
  | failFast
  | disconnect
  deriving DecidableEq, Repr

/-- `saturating_sub` on 64-bit ticks. -/
def saturatingSub (first second : UInt64) : UInt64 :=
  if second ≤ first then first - second else 0

/-- An authority whose session is live. -/
structure Authority (σ : Type) where
  server : RenetServer
  sim : σ
  writer : Option ReplayWriter := none
  verified : ExtTreeMap UInt64 UInt64 := ∅
  hashes : ExtTreeMap UInt64 UInt64 := ∅

/-- What the environment decides about one iteration: what the network did, the clients that
a hash map lists first, and the inputs of the host. -/
structure TickInput where
  network : Option SessionError := none
  actions : List NetAction := []
  order : List UInt64 := []
  distinct : order.Nodup := by decide
  inputs : List CommandPayload := []
  inputClosed : Bool := false

/-- Conservatively budget the framing of a command before accumulating it. -/
def accountInput (total payload : Nat) : SessionResult Nat :=
  if total + payload + 32 ≥ 2 ^ 64 then .error (.protocol "tick byte budget exceeded")
  else if total + payload + 32 > maxReplayRecordBytes then
    .error (.protocol "tick byte budget exceeded")
  else .ok (total + payload + 32)

/-- Check a report against the retained fingerprints; it returns the tick that is now
verified. As for `is_multiple_of`, the only multiple of zero is zero. -/
def verifyHash (id : UInt64) (report : DesyncHash) (current verified : UInt64)
    (hashes : ExtTreeMap UInt64 UInt64) (interval : UInt64) : SessionResult UInt64 :=
  if report.tick ≤ verified ∨ report.tick > current ∨ report.tick % interval ≠ 0 then
    .error (.protocol s!"invalid hash tick {report.tick}")
  else
    match hashes[report.tick]? with
    | none => .error (.protocol "hash outside retained history")
    | some expected =>
        if expected ≠ report.hash then
          .error (.desync (s!"client {id}, tick {report.tick}, expected {hexadecimal expected}, " ++
            s!"received {hexadecimal report.hash}"))
        else .ok report.tick

/-- The tick under way: what the participants sent for it so far. -/
structure Gathering where
  server : RenetServer
  verified : ExtTreeMap UInt64 UInt64
  inputs : List Command := []
  bytes : Nat := 0

namespace Gathering

def disconnect (id : UInt64) : SessionEffect Gathering Unit :=
  modify fun gathering => { gathering with server := gathering.server.disconnect id }

/-- Account for a command and add it to the tick. -/
def push (participant : ParticipantId) (payload : CommandPayload) :
    SessionEffect Gathering Unit := do
  let gathering ← get
  let bytes ← Effect.ofExcept (accountInput gathering.bytes payload.bytes.length)
  set { gathering with inputs := gathering.inputs ++ [({ participant, payload } : Command)], bytes }

def receiveMessage (id : UInt64) (channel : Channel) :
    SessionEffect Gathering (Option Bytes) := do
  let gathering ← get
  let (bytes, server) := gathering.server.receiveMessage id channel
  set { gathering with server }
  pure bytes

section Program

variable {σ : Type} [SessionSimulation σ]

/-- Receive the commands of a participant, one pass for each message that is there,
up to an invalid one. -/
def receiveCommands (sim : σ) (id : UInt64) : Nat → SessionEffect Gathering Unit
  | 0 => pure ()
  | passes + 1 => do
      match ← receiveMessage id .lockstep with
      | none => pure ()
      | some bytes =>
          match decodeClientMessage bytes with
          | .ok (.input event) =>
              match validateCommand sim event.bytes with
              | .error _ => disconnect id
              | .ok _ => do
                  push (.remote id) event
                  receiveCommands sim id passes
          | _ => disconnect id

/-- Decode and check a report of a participant that is verified up to a tick. -/
def verifyReport (sim : σ) (hashes : ExtTreeMap UInt64 UInt64) (id verified : UInt64)
    (bytes : Bytes) : SessionResult UInt64 := do
  let report ← (decodeDesyncHash bytes).mapError fun error => SessionError.protocol error.display
  verifyHash id report (currentTick sim) verified hashes (hashInterval sim)

/-- A report that does not verify disconnects its participant, unless a divergence is
to end the session. -/
def handleHashReport (sim : σ) (policy : DesyncPolicy) (hashes : ExtTreeMap UInt64 UInt64)
    (id : UInt64) (bytes : Bytes) : SessionEffect Gathering Unit := do
  let gathering ← get
  match gathering.verified[id]? with
  | none => pure ()
  | some verified =>
      match verifyReport sim hashes id verified bytes with
      | .ok tick => set { gathering with verified := gathering.verified.insert id tick }
      | .error error =>
          if policy = .failFast ∧ error.isDesync then throw error else disconnect id

def receiveReports (sim : σ) (policy : DesyncPolicy) (hashes : ExtTreeMap UInt64 UInt64)
    (id : UInt64) : Nat → SessionEffect Gathering Unit
  | 0 => pure ()
  | passes + 1 => do
      match ← receiveMessage id .desync with
      | none => pure ()
      | some bytes => do
          handleHashReport sim policy hashes id bytes
          receiveReports sim policy hashes id passes

def enforceVerificationDeadline (sim : σ) (id : UInt64) : SessionEffect Gathering Unit := do
  let gathering ← get
  match gathering.verified[id]? with
  | none => pure ()
  | some verified =>
      if saturatingSub (currentTick sim) verified > hashInterval sim * 10 then disconnect id

/-- Service one participant. A connected client that is not one is left alone. -/
def service (sim : σ) (policy : DesyncPolicy) (hashes : ExtTreeMap UInt64 UInt64)
    (id : UInt64) : SessionEffect Gathering Unit := do
  let gathering ← get
  if gathering.verified[id]?.isSome then do
    receiveCommands sim id (gathering.server.pending id .lockstep).length
    let gathering ← get
    receiveReports sim policy hashes id (gathering.server.pending id .desync).length
    enforceVerificationDeadline sim id

/-- Add an input of the host. -/
def pushLocal (sim : σ) (payload : CommandPayload) : SessionEffect Gathering Unit := do
  Effect.ofExcept (validateCommand sim payload.bytes)
  push .host payload

/-- Gather the commands of the participants in order, then the inputs of the host. -/
def gather (sim : σ) (policy : DesyncPolicy) (hashes : ExtTreeMap UInt64 UInt64)
    (clients : List UInt64) (input : TickInput) : SessionEffect Gathering (List Command) := do
  Effect.forEach (service sim policy hashes) clients
  let payloads ← Effect.ofExcept (drainLocal input.inputs input.inputClosed true)
  Effect.forEach (pushLocal sim) payloads
  let gathering ← get
  pure gathering.inputs

end Program

end Gathering

namespace Authority

variable {σ : Type}

/-- Handle a connection event: nobody joins a live session. -/
def handleEvent (authority : Authority σ) : ServerEvent → Authority σ
  | .clientConnected id => { authority with server := authority.server.disconnect id }
  | .clientDisconnected id => { authority with verified := authority.verified.erase id }

def handleEvents (authority : Authority σ) : Authority σ :=
  authority.server.events.foldl handleEvent
    { authority with server := { authority.server with events := [] } }

/-- Run a program on the recording, if there is one. -/
def onWriter (program : Effect IoError ReplayWriter Unit) : SessionEffect (Authority σ) Unit := do
  let authority ← get
  match authority.writer with
  | none => pure ()
  | some writer =>
      (program.mapError SessionError.io).zoom (fun _ => writer)
        fun authority writer => { authority with writer := some writer }

/-- The connected clients in the order in which they are listed. Of those that come last, only
the participants matter. -/
def clients (authority : Authority σ) (input : TickInput) : List UInt64 :=
  (input.order ++ authority.verified.keys.filter (· ∉ input.order)).filter
    authority.server.isConnected

variable [SessionSimulation σ]

/-- Gather the commands of the next tick. -/
def gather (policy : DesyncPolicy) (input : TickInput) :
    SessionEffect (Authority σ) (List Command) := do
  let authority ← get
  (Gathering.gather authority.sim policy authority.hashes (authority.clients input) input).zoom
    (fun authority => { server := authority.server, verified := authority.verified })
    fun authority gathering =>
      { authority with server := gathering.server, verified := gathering.verified }

/-- Record, broadcast and apply a tick, in this order. -/
def sequence (inputs : List Command) : SessionEffect (Authority σ) UInt64 := do
  let authority ← get
  match checkedAdd (currentTick authority.sim) 1 with
  | none => throw (.protocol "tick exhausted")
  | some tick => do
      let advance : TickAdvance := { tick, inputs }
      let encoded := encode (ServerMessage.tick advance)
      if encoded.length > maxReplayRecordBytes then
        throw (.protocol "tick byte budget exceeded")
      onWriter (ReplayWriter.append advance)
      modify fun authority =>
        { authority with server := authority.server.broadcastMessage .lockstep encoded }
      (advanceTick advance .live).zoom Authority.sim fun authority sim => { authority with sim }
      pure tick

/-- At each multiple of the hash interval, retain a fingerprint and flush the recording. -/
def checkpoint (tick : UInt64) : SessionEffect (Authority σ) Unit := do
  let authority ← get
  let interval := hashInterval authority.sim
  if tick % interval = 0 then do
    set { authority with
      hashes := retainKeys (fun old => saturatingSub tick old ≤ interval * 10)
        (authority.hashes.insert tick (stateHash authority.sim)) }
    onWriter ReplayWriter.flush

/-- One iteration of the live loop. -/
def iteration (policy : DesyncPolicy) (input : TickInput) : SessionEffect (Authority σ) Unit := do
  failWith input.network
  modify fun authority => { authority with server := authority.server.update input.actions }
  modify handleEvents
  let inputs ← gather policy input
  let tick ← sequence inputs
  checkpoint tick

/-- The live loop, one iteration for each time it is not cancelled. -/
def tickLoop (policy : DesyncPolicy) : List TickInput → SessionEffect (Authority σ) Unit :=
  Effect.forEach (iteration policy)

end Authority

end Synctick
