import Synctick.Replay.Offline
import Synctick.Server.TickLoop

/-! # The session of an authority

An authority replays the save that it loads, waits until all expected clients are
verified, publishes its state, and goes live. A recording is flushed however the session
ends.
-/

namespace Synctick

open SessionSimulation Effect Std

/-- The waiting loop up to the start, or `none` where it was cancelled. -/
def waitForStart (expected : Nat) (save : Bytes) (metadata : SaveMetadata) :
    List WaitInput → SessionEffect Waiting (Option (ExtTreeMap UInt64 UInt64))
  | [] => pure none
  | input :: later => do
      match ← Waiting.pass expected save metadata input with
      | some verified => pure (some verified)
      | none => waitForStart expected save metadata later

/-- A cancelled waiting loop returns no participants. -/
theorem waitForClients_eq (expected : Nat) (save : Bytes) (metadata : SaveMetadata)
    (inputs : List WaitInput) : waitForClients expected save metadata inputs =
      (fun verified => verified.getD ∅) <$> waitForStart expected save metadata inputs := by
  induction inputs with
  | nil => rfl
  | cons input later ih =>
      unfold waitForClients waitForStart
      rw [map_bind]
      congr
      funext verified
      cases verified with
      | none => exact ih
      | some verified => rfl

/-- What a server is configured with: the save that it loads, as its file reads, and what
becomes of the file that it records to. -/
structure ServerCfg where
  tickNanos : UInt64
  expectedClients : Nat
  desyncPolicy : DesyncPolicy
  load : Option (Except IoError Bytes) := none
  record : Option (Option IoError × List (Option WriteFault)) := none

namespace ServerCfg

variable (config : ServerCfg)

def validate : SessionResult Unit := do
  validateTickDuration config.tickNanos
  if config.expectedClients > 1024 then
    throw (.configuration "Renet supports at most 1024 clients")

/-- Open the save to load, if there is one. -/
def openSource : SessionResult (Option ReplayReader) :=
  match config.load with
  | none => .ok none
  | some file => some <$> openSave file

/-- Create the recording, if there is to be one. -/
def createWriter (replayHeader : ReplayHeader) : SessionResult (Option ReplayWriter) :=
  match config.record with
  | none => .ok none
  | some (creation, device) =>
      some <$> (ReplayWriter.create replayHeader creation device).mapError .io

end ServerCfg

/-- What the environment decides about one pass of the loading loop. -/
structure LoadInput where
  inputs : List CommandPayload := []
  inputClosed : Bool := false
  passes : Nat := 0
  progressDue : Bool := false

/-- What the environment decides about a session: its passes for as long as it is not cancelled,
whether it is cancelled in between, and what reading the save back and binding the server
come to. -/
structure SessionInput where
  load : List LoadInput := []
  cancelled : Bool := false
  saved : Except IoError Bytes := .ok []
  bound : Option SessionError := none
  wait : List WaitInput := []
  abandoned : Bool := false
  ticks : List TickInput := []

/-- A session of an authority. -/
structure ServerSession (σ : Type) where
  sim : σ
  source : Option ReplayReader := none
  writer : Option ReplayWriter := none
  server : RenetServer := {}
  status : SessionStatus := .connecting
  participants : Option (ExtTreeMap UInt64 UInt64) := none

namespace ServerSession

variable {σ : Type}

def publishStatus (status : SessionStatus) : SessionEffect (ServerSession σ) Unit :=
  modify fun session => { session with status }

/-- Flush the recording, if there is one. -/
def flush : SessionEffect (ServerSession σ) Unit := do
  let session ← get
  match session.writer with
  | none => pure ()
  | some writer =>
      (ReplayWriter.flush.mapError SessionError.io).zoom (fun _ => writer)
        fun session writer => { session with writer := some writer }

variable [SessionSimulation σ]

/-- One pass of the loading loop; `true` at the end of the save. -/
def loadPass (input : LoadInput) : SessionEffect (ServerSession σ) Bool := do
  let _ ← Effect.ofExcept (drainLocal input.inputs input.inputClosed false)
  let session ← get
  match session.source with
  | none => pure true
  | some reader => do
      let batch ← (replayBatch input.passes).zoom
        (fun session : ServerSession σ => { sim := session.sim, reader, mirror := session.writer })
        fun session replay => { session with
          sim := replay.sim, source := some replay.reader, writer := replay.mirror }
      let session ← get
      if input.progressDue then publishStatus (.loading .loadingSave (currentTick session.sim))
      pure batch.finished

/-- The loading loop, one pass for each time it is not cancelled; `false` where it was. -/
def loadSave : List LoadInput → SessionEffect (ServerSession σ) Bool
  | [] => pure false
  | input :: later => do
      if ← loadPass input then pure true else loadSave later

/-- Load the save, if there is one. -/
def load (inputs : List LoadInput) : SessionEffect (ServerSession σ) Bool := do
  let session ← get
  match session.source with
  | none => pure true
  | some _ => do
      publishStatus (.loading .loadingSave 0)
      loadSave inputs

/-- The save that is sent to the clients: the file that was recorded or loaded, or else just a
header. -/
def readSave (config : ServerCfg) (input : SessionInput) :
    SessionEffect (ServerSession σ) Bytes := do
  let session ← get
  if config.record.isSome ∨ config.load.isSome then Effect.ofExcept (input.saved.mapError .io)
  else pure (encode (header session.sim))

def announce (save : Bytes) : SessionEffect (ServerSession σ) SaveMetadata := do
  let session ← get
  if save.length ≥ 2 ^ 64 then throw (.protocol "save length exceeds u64")
  pure
    { totalBytes := UInt64.ofNat save.length
      tick := currentTick session.sim
      hash := stateHash session.sim }

/-- Wait until all clients are verified; `false` where that was cancelled. -/
def waitForParticipants (config : ServerCfg) (save : Bytes) (metadata : SaveMetadata)
    (inputs : List WaitInput) : SessionEffect (ServerSession σ) Bool := do
  let verified ← (waitForStart config.expectedClients save metadata inputs).zoom
    (fun session : ServerSession σ => { server := session.server, status := session.status })
    fun session waiting => { session with server := waiting.server, status := waiting.status }
  modify fun session => { session with participants := verified }
  pure verified.isSome

/-- Publish the loaded state, and go live. -/
def goLive : SessionEffect (ServerSession σ) Unit := do
  publish.zoom ServerSession.sim fun session sim => { session with sim }
  publishStatus .live

/-- The live loop, with what was verified. -/
def live (policy : DesyncPolicy) (inputs : List TickInput) :
    SessionEffect (ServerSession σ) Unit :=
  (Authority.tickLoop policy inputs).zoom
    (fun session : ServerSession σ =>
      { server := session.server
        sim := session.sim
        writer := session.writer
        verified := session.participants.getD ∅ })
    fun session authority => { session with
      server := authority.server
      sim := authority.sim
      writer := authority.writer
      participants := some authority.verified }

/-- Serve the clients from the start barrier on. Cancellation is never revoked: where the waiting
loop was cancelled, so is the session. -/
def serve (config : ServerCfg) (save : Bytes) (metadata : SaveMetadata)
    (input : SessionInput) : SessionEffect (ServerSession σ) Unit := do
  let started ← waitForParticipants config save metadata input.wait
  if started ∧ input.abandoned = false then do
    goLive
    live config.desyncPolicy input.ticks

def runSession (config : ServerCfg) (input : SessionInput) :
    SessionEffect (ServerSession σ) Unit := do
  let loaded ← load input.load
  if loaded ∧ input.cancelled = false then do
    flush
    let save ← readSave config input
    let metadata ← announce save
    failWith input.bound
    serve config save metadata input

/-- Open the save to load, initialize the simulation from it, and create the recording. -/
def openSession (config : ServerCfg) : SessionEffect (ServerSession σ) Unit := do
  Effect.ofExcept config.validate
  let session ← get
  let source ← Effect.ofExcept config.openSource
  let replayHeader := (source.map ReplayReader.header).getD (header session.sim)
  (SessionSimulation.initializeWith replayHeader).zoom ServerSession.sim
    fun session sim => { session with sim }
  let writer ← Effect.ofExcept (config.createWriter replayHeader)
  modify fun session => { session with source, writer }

/-- Run an authority. The recording is flushed at the end, and failing to do so fails the
session. -/
def runServer (config : ServerCfg) (input : SessionInput) :
    SessionEffect (ServerSession σ) Unit := do
  openSession config
  let result ← Effect.attempt (runSession config input)
  flush
  Effect.ofExcept result

theorem ensures_readSave (config : ServerCfg) (input : SessionInput) (session : ServerSession σ) :
    Ensures (readSave config input) session
      (fun save next => next = session ∧
        ((config.record.isSome ∨ config.load.isSome) ∧ input.saved = .ok save ∨
          ¬ (config.record.isSome ∨ config.load.isSome) ∧ save = encode (header session.sim)))
      (fun _ next => next = session) := by
  unfold readSave
  rw [ensures_bind, ensures_get]
  by_cases stored : config.record.isSome ∨ config.load.isSome
  · rw [if_pos stored, ensures_ofExcept]
    refine ⟨?_, fun _ _ => rfl⟩
    intro save read
    refine ⟨rfl, Or.inl ⟨stored, ?_⟩⟩
    cases saved : input.saved with
    | ok bytes =>
        rw [saved] at read
        cases read
        rfl
    | error error =>
        rw [saved] at read
        cases read
  · rw [if_neg stored]
    exact ⟨rfl, Or.inr ⟨stored, rfl⟩⟩

theorem ensures_announce (save : Bytes) (session : ServerSession σ) :
    Ensures (announce save) session
      (fun metadata next => next = session ∧ save.length < 2 ^ 64 ∧
        metadata = { totalBytes := UInt64.ofNat save.length
                     tick := currentTick session.sim
                     hash := stateHash session.sim })
      (fun _ next => next = session) := by
  unfold announce
  rw [ensures_bind, ensures_get]
  by_cases long : save.length ≥ 2 ^ 64
  · simp only [long, ↓reduceIte]
    rfl
  · simp only [long, ↓reduceIte]
    exact ⟨rfl, Nat.lt_of_not_le long, rfl⟩

/-- The header that a session begins with, given the save that it loads. -/
def beginsWith (session : ServerSession σ) (source : Option ReplayReader) : ReplayHeader :=
  (source.map ReplayReader.header).getD (header session.sim)

theorem ensures_openSession (config : ServerCfg) (session : ServerSession σ) :
    Ensures (openSession config) session
      (fun _ next => ∃ source sim writer, config.openSource = .ok source ∧
        SessionSimulation.initializeWith (session.beginsWith source) session.sim = .ok () sim ∧
        config.createWriter (session.beginsWith source) = .ok writer ∧
        next = { session with sim, source, writer })
      (fun _ next => next = session ∨ ∃ source sim,
        (SessionSimulation.initializeWith (session.beginsWith source)).final session.sim = sim ∧
          next = { session with sim }) := by
  unfold openSession
  rw [ensures_bind, ensures_ofExcept]
  refine ⟨?_, fun _ _ => Or.inl rfl⟩
  intro _ _
  rw [ensures_bind, ensures_get, ensures_bind, ensures_ofExcept]
  refine ⟨?_, fun _ _ => Or.inl rfl⟩
  intro source opened
  rw [ensures_bind, ensures_zoom]
  apply (ensures_self _ session.sim).mono
  · intro _ sim initializes
    rw [ensures_bind, ensures_ofExcept]
    constructor
    · intro writer created
      exact ⟨source, sim, writer, opened, initializes, created, rfl⟩
    · intro _ _
      refine Or.inr ⟨source, sim, ?_, rfl⟩
      unfold Effect.final beginsWith
      rw [initializes]
  · intro _ sim fails
    refine Or.inr ⟨source, sim, ?_, rfl⟩
    unfold Effect.final beginsWith
    rw [fails]

end ServerSession

end Synctick
