import Synctick.Network
import Synctick.Startup.Client

/-! # The loop of a replica

A replica loads the save of its server, waits for a verified `Start`, and then
applies the ticks of the authority. One iteration of its loop services the
network, forwards local inputs, takes what arrived of the save, reports what it
took, replays a bounded batch, and handles a bounded number of server messages.
-/

namespace Synctick

open SessionSimulation Effect

/-- A replica and its end of the connection: `incoming` was delivered and not yet
received, `outgoing` was sent and not yet delivered to the server. -/
structure Replica (σ : Type) where
  sim : σ
  startup : ClientStartup := {}
  reported : UInt64 × UInt64 := (0, 0)
  incoming : Mailbox := fun _ => []
  outgoing : Mailbox := fun _ => []
  status : SessionStatus := .connecting

/-- What the environment decides about one iteration: the state of the network
at its start and at its end, the local inputs, the passes of the replay batch,
whether loading progress is due, and how many server messages there is time for. -/
structure ClientInput where
  network : Option SessionError := none
  inputs : List CommandPayload := []
  inputClosed : Bool := false
  passes : Nat := 0
  progressDue : Bool := false
  messages : Nat := 0
  flush : Option SessionError := none

namespace Replica

variable {σ : Type}

def receiveMessage (channel : Channel) : SessionEffect (Replica σ) (Option Bytes) := do
  let replica ← get
  match replica.incoming channel with
  | [] => pure none
  | bytes :: _ => do
      set { replica with incoming := replica.incoming.pop channel }
      pure (some bytes)

def sendMessage (channel : Channel) (bytes : Bytes) : SessionEffect (Replica σ) Unit :=
  modify fun replica => { replica with outgoing := replica.outgoing.push channel bytes }

/-- A replica to which the network delivered messages. -/
def arrivals (messages : List (Channel × Bytes)) (replica : Replica σ) : Replica σ :=
  { replica with
    incoming := messages.foldl (fun mailbox message => mailbox.push message.1 message.2)
      replica.incoming }

/-- Run a part of the startup that leaves the simulation alone. -/
def onStartup {α : Type} (program : SessionEffect ClientStartup α) :
    SessionEffect (Replica σ) α :=
  program.zoom Replica.startup fun replica startup => { replica with startup }

theorem receiveMessage_nil {channel : Channel} {replica : Replica σ}
    (empty : replica.incoming channel = []) :
    receiveMessage channel replica = .ok none replica := by
  apply eq_ok_of_ensures
  unfold receiveMessage
  rw [ensures_bind, ensures_get, empty]
  exact ⟨rfl, rfl⟩

theorem receiveMessage_cons {channel : Channel} {replica : Replica σ} {bytes : Bytes}
    {later : List Bytes} (first : replica.incoming channel = bytes :: later) :
    receiveMessage channel replica =
      .ok (some bytes) { replica with incoming := replica.incoming.pop channel } := by
  apply eq_ok_of_ensures
  unfold receiveMessage
  rw [ensures_bind, ensures_get, first]
  exact ⟨rfl, rfl⟩

/-- Forward the local inputs of a live replica. Earlier input is discarded,
never deferred into tick one. -/
def forwardInputs (input : ClientInput) : SessionEffect (Replica σ) Unit := do
  let replica ← get
  Effect.forEach (fun payload =>
    if replica.startup.isLive then sendMessage .lockstep (encode (ClientMessage.input payload))
    else pure ()) (input.inputs.take 256)
  if input.inputClosed ∧ input.inputs.length < 256 then
    throw .inputDisconnected

/-- A replica that is not live forwards nothing. -/
theorem ensures_forwardInputs (input : ClientInput) {replica : Replica σ}
    (waits : replica.startup.isLive = false) :
    Ensures (forwardInputs input) replica (fun _ next => next = replica)
      (fun error next => (error = .inputDisconnected ∧ input.inputClosed = true) ∧
        next = replica) := by
  unfold forwardInputs
  rw [ensures_bind, ensures_get, ensures_bind]
  refine (ensures_forEach _ (· = replica) (fun _ _ => False) _ ?_ replica rfl).mono ?_ ?_
  · intro payload _ next same
    subst same
    rw [waits]
    rfl
  · intro _ next same
    subst same
    by_cases closed : input.inputClosed ∧ input.inputs.length < 256
    · rw [if_pos closed]
      exact ⟨⟨rfl, closed.1⟩, rfl⟩
    · rw [if_neg closed]
      rfl
  · intro _ _ impossible
    exact impossible.elim

/-- Take the next message of the save. -/
def receiveSave : SessionEffect (Replica σ) Unit := do
  match ← receiveMessage .save with
  | none => pure ()
  | some bytes =>
      match decodeSaveMessage bytes with
      | .error error => throw (.protocol s!"save message: {error.display}")
      | .ok message => onStartup (ClientStartup.receiveSave message)

/-- The loop over the save messages makes one pass for each that is there. -/
def receiveSaves : SessionEffect (Replica σ) Unit := do
  let replica ← get
  Effect.forEach (fun _ => receiveSave) (replica.incoming .save)

/-- Whatever the exit, other channels were not received from. -/
def Keeps (replica next : Replica σ) : Prop :=
  ∀ channel, channel ≠ .save → next.incoming channel = replica.incoming channel

/-- The next message of the save is received, and no other. -/
theorem takes_receiveSave (replica : Replica σ) :
    Ensures receiveSave replica
      (fun _ next => next.incoming .save = (replica.incoming .save).tail ∧ replica.Keeps next)
      fun _ next => replica.Keeps next := by
  unfold receiveSave
  rw [ensures_bind]
  cases incoming : replica.incoming .save with
  | nil =>
      rw [ensures_ok (receiveMessage_nil incoming)]
      exact ⟨incoming, fun _ _ => rfl⟩
  | cons bytes later =>
      have popped : replica.Keeps { replica with incoming := replica.incoming.pop .save } :=
        fun channel other => Mailbox.pop_other _ other
      have left : replica.incoming.pop .save .save = later := by
        rw [Mailbox.pop_same, incoming]
        rfl
      rw [ensures_ok (receiveMessage_cons incoming)]
      dsimp only
      cases decodeSaveMessage bytes with
      | error error => exact popped
      | ok message =>
          refine (ensures_zoom _ _ _ _ _ _).mpr ((ensures_self _ _).mono ?_ ?_)
          · intro _ _ _
            exact ⟨left, popped⟩
          · intro _ _ _
            exact popped

theorem Keeps.trans {replica middle next : Replica σ} (first : replica.Keeps middle)
    (second : middle.Keeps next) : replica.Keeps next := fun channel other =>
  (second channel other).trans (first channel other)

/-- All messages of the save that are there are received, and no others. -/
theorem drains_receiveSaves (replica : Replica σ) :
    Ensures receiveSaves replica (fun _ next => next.incoming .save = [] ∧ replica.Keeps next)
      fun _ next => replica.Keeps next := by
  unfold receiveSaves
  rw [ensures_bind, ensures_get]
  refine (ensures_forEach_along (fun _ => receiveSave) (replica.incoming .save)
    (fun passed middle => middle.incoming .save = (replica.incoming .save).drop passed.length ∧
      replica.Keeps middle)
    (fun _ _ _ next => replica.Keeps next) ?_ ⟨rfl, fun _ _ => rfl⟩).mono ?_ ?_
  · intro passed _ middle outcome
    obtain ⟨left, kept⟩ := outcome
    refine (takes_receiveSave middle).mono ?_ fun _ _ later => kept.trans later
    intro _ next outcome
    obtain ⟨left', kept'⟩ := outcome
    refine ⟨?_, kept.trans kept'⟩
    rw [left', left, List.tail_drop, List.length_append, List.length_singleton]
  · intro _ next outcome
    obtain ⟨left, kept⟩ := outcome
    rw [List.drop_length] at left
    exact ⟨left, kept⟩
  · intro _ next failed
    obtain ⟨_, _, _, _, kept⟩ := failed
    exact kept

def sendProgress : SessionEffect (Replica σ) Unit := do
  let replica ← get
  let progress := replica.startup.progress
  sendMessage .lockstep (encode (ClientMessage.progress progress.1 progress.2))
  modify fun replica => { replica with reported := progress }

/-- Acknowledge application consumption promptly. This releases the server's
receive-memory window. -/
def reportConsumption : SessionEffect (Replica σ) Unit := do
  let replica ← get
  if replica.startup.progress.1 ≠ replica.reported.1 then
    sendProgress

/-- The status of a replica that received so many bytes and replayed up to some tick. -/
def loadingStatus (progress : UInt64 × UInt64) : SessionStatus :=
  if progress.2 = 0 then .loading .receivingSave progress.1
  else .loading .replayingSave progress.2

/-- Report and publish loading progress when it is due. -/
def reportLoading (due : Bool) : SessionEffect (Replica σ) Unit := do
  let replica ← get
  if replica.startup.isLoading ∧ due then
    if replica.startup.progress ≠ replica.reported then
      sendProgress
    modify fun replica => { replica with status := loadingStatus replica.startup.progress }

/-- The replica after it sent its progress. -/
def reporting (replica : Replica σ) : Replica σ :=
  { replica with
    reported := replica.startup.progress
    outgoing := replica.outgoing.push .lockstep
      (encode (ClientMessage.progress replica.startup.received replica.startup.replayed)) }

/-- The count of received bytes is reported when it changed. -/
theorem reportConsumption_eq (replica : Replica σ) :
    reportConsumption replica = .ok () (if replica.startup.progress.1 ≠ replica.reported.1
      then replica.reporting else replica) := by
  apply eq_ok_of_ensures
  unfold reportConsumption
  rw [ensures_bind, ensures_get]
  by_cases news : replica.startup.progress.1 ≠ replica.reported.1
  · rw [if_pos news, if_pos news]
    exact ⟨rfl, rfl⟩
  · rw [if_neg news, if_neg news]
    exact ⟨rfl, rfl⟩

/-- Loading progress is reported when it is due and anything changed. -/
theorem reportLoading_eq (due : Bool) (replica : Replica σ) :
    reportLoading due replica = .ok () { (if (replica.startup.isLoading ∧ due) ∧
        replica.startup.progress ≠ replica.reported then replica.reporting else replica) with
      status := if replica.startup.isLoading ∧ due then loadingStatus replica.startup.progress
        else replica.status } := by
  apply eq_ok_of_ensures
  unfold reportLoading
  rw [ensures_bind, ensures_get]
  by_cases loading : replica.startup.isLoading ∧ due
  · rw [if_pos loading, if_pos loading]
    by_cases news : replica.startup.progress ≠ replica.reported
    · rw [if_pos news, if_pos ⟨loading, news⟩]
      exact ⟨rfl, rfl⟩
    · rw [if_neg news, if_neg fun both => news both.2]
      exact ⟨rfl, rfl⟩
  · rw [if_neg loading, if_neg loading, if_neg fun both => loading both.1]
    exact ⟨rfl, rfl⟩

theorem ensures_receiveSave {replica : Replica σ} {message : SaveMessage} {later : List Bytes}
    (first : replica.incoming .save = encode message :: later)
    (decodes : decodeSaveMessage (encode message) = .ok message)
    (post : Unit → Replica σ → Prop) (fail : SessionError → Replica σ → Prop) :
    Ensures receiveSave replica post fail ↔
      Ensures (ClientStartup.receiveSave message) replica.startup
        (fun _ startup => post () { replica with
          startup, incoming := replica.incoming.pop .save })
        (fun error startup => fail error { replica with
          startup, incoming := replica.incoming.pop .save }) := by
  unfold receiveSave
  rw [ensures_bind, ensures_ok (receiveMessage_cons first)]
  simp only [decodes]
  exact ensures_zoom _ _ _ _ _ _

section Sim

variable [SessionSimulation σ]

/-- A step of the startup, and the announcement that it is ready. -/
def stepStartup (passes : Nat) : SessionEffect (Replica σ) Unit := do
  let result ← (ClientStartup.step passes).zoom
    (fun replica : Replica σ => (replica.startup, replica.sim))
    fun replica state => { replica with startup := state.1, sim := state.2 }
  match result with
  | some ready => do
      sendMessage .lockstep (encode ready)
      modify fun replica => { replica with status := .awaitingStart }
  | none => pure ()

/-- Everything that a step of the startup can do while the save is replayed. -/
theorem ensures_stepStartup (passes : Nat) {replica : Replica σ} {metadata : SaveMetadata}
    {reader : ReplayReader} (replaying : replica.startup.phase = .replaying metadata reader) :
    Ensures (stepStartup passes) replica
      (fun _ next => ∃ result state,
        ClientStartup.StepReturns replica.startup replica.sim metadata reader result state ∧
          next = { replica with
            startup := state.1
            sim := state.2
            outgoing := match result with
              | some ready => replica.outgoing.push .lockstep (encode ready)
              | none => replica.outgoing
            status := match result with
              | some _ => .awaitingStart
              | none => replica.status })
      (fun error next => ∃ state,
        ClientStartup.StepFails replica.startup replica.sim metadata reader error state ∧
          next = { replica with startup := state.1, sim := state.2 }) := by
  unfold stepStartup
  rw [ensures_bind, ensures_zoom]
  refine (ClientStartup.ensures_step passes replica.sim replaying).mono ?_ ?_
  · intro result state returns
    cases result with
    | some ready => exact ⟨some ready, state, returns, rfl⟩
    | none => exact ⟨none, state, returns, rfl⟩
  · intro error state fails
    exact ⟨state, fails, rfl⟩

theorem stepStartup_elsewhere (passes : Nat) {replica : Replica σ}
    (elsewhere : ∀ metadata reader, replica.startup.phase ≠ .replaying metadata reader) :
    stepStartup passes replica = .ok () replica := by
  apply eq_ok_of_ensures
  unfold stepStartup
  rw [ensures_bind, ensures_zoom,
    ensures_ok (ClientStartup.step_elsewhere passes replica.sim elsewhere)]
  exact ⟨rfl, rfl⟩

def startLive (tick hash : UInt64) : SessionEffect (Replica σ) Unit := do
  onStartup (ClientStartup.start tick hash)
  publish.zoom Replica.sim fun replica sim => { replica with sim }
  modify fun replica => { replica with status := .live }

def applyTick (advance : TickAdvance) : SessionEffect (Replica σ) Unit := do
  (advanceTick advance .live).zoom Replica.sim fun replica sim => { replica with sim }
  let replica ← get
  if advance.tick % hashInterval replica.sim = 0 then
    sendMessage .desync
      (encode ({ tick := advance.tick, hash := stateHash replica.sim } : DesyncHash))

/-- Handle the next server message; `false` when there is none. -/
def receiveServer : SessionEffect (Replica σ) Bool := do
  match ← receiveMessage .lockstep with
  | none => pure false
  | some bytes =>
      match decodeServerMessage bytes with
      | .error error => throw (.protocol s!"server message: {error.display}")
      | .ok (.start tick hash) => do
          startLive tick hash
          pure true
      | .ok (.tick advance) => do
          let replica ← get
          if replica.startup.isLive then do
            applyTick advance
            pure true
          else throw (.protocol "tick before Start")

/-- Keep transport servicing bounded even when catching up on live ticks. -/
def receiveServers : Nat → SessionEffect (Replica σ) Unit
  | 0 => pure ()
  | passes + 1 => do
      if ← receiveServer then receiveServers passes

/-- The part of an iteration that takes, reports and replays the save. -/
def load (input : ClientInput) : SessionEffect (Replica σ) Unit := do
  receiveSaves
  reportConsumption
  stepStartup input.passes
  reportLoading input.progressDue

/-- Reporting and replaying receive nothing. -/
theorem incoming_reports (input : ClientInput) (replica : Replica σ) :
    Ensures (do
      reportConsumption
      stepStartup input.passes
      reportLoading input.progressDue) replica
      (fun _ next => next.incoming = replica.incoming)
      fun _ next => next.incoming = replica.incoming := by
  have reported (last : Replica σ) (news : Prop) [Decidable news] :
      (if news then last.reporting else last).incoming = last.incoming := by
    by_cases holds : news
    · rw [if_pos holds]
      rfl
    · rw [if_neg holds]
  rw [ensures_bind, ensures_ok (reportConsumption_eq replica), ensures_bind]
  unfold stepStartup
  rw [ensures_bind, ensures_zoom]
  refine (ensures_self _ _).mono ?_ fun _ _ _ => reported replica _
  intro result state _
  have sent (last : Replica σ) (same : last.incoming = replica.incoming) :
      Ensures (reportLoading input.progressDue) last (fun _ next => next.incoming = replica.incoming)
        fun _ next => next.incoming = replica.incoming := by
    rw [ensures_ok (reportLoading_eq input.progressDue last)]
    exact (reported last _).trans same
  cases result with
  | some ready => exact sent _ (reported replica _)
  | none => exact sent _ (reported replica _)

/-- Loading receives what there is of the save, and nothing else. -/
theorem drains_load (input : ClientInput) (replica : Replica σ) :
    Ensures (load input) replica (fun _ next => next.incoming .save = [] ∧ replica.Keeps next)
      fun _ next => replica.Keeps next := by
  unfold load
  rw [ensures_bind]
  refine (drains_receiveSaves replica).mono ?_ fun _ _ kept => kept
  intro _ middle outcome
  obtain ⟨drained, kept⟩ := outcome
  refine (incoming_reports input middle).mono ?_ ?_
  · intro _ next same
    refine ⟨?_, ?_⟩
    · rw [same]
      exact drained
    · intro channel other
      rw [same]
      exact kept channel other
  · intro _ next same channel other
    rw [same]
    exact kept channel other

theorem receiveServers_nil (passes : Nat) {replica : Replica σ}
    (empty : replica.incoming .lockstep = []) : receiveServers passes replica = .ok () replica := by
  apply eq_ok_of_ensures
  cases passes with
  | zero => exact ⟨rfl, rfl⟩
  | succ passes =>
      unfold receiveServers receiveServer
      rw [ensures_bind, ensures_bind, ensures_ok (receiveMessage_nil empty)]
      exact ⟨rfl, rfl⟩

/-- One iteration of `client_loop`. -/
def iteration (input : ClientInput) : SessionEffect (Replica σ) Unit := do
  failWith input.network
  forwardInputs input
  load input
  receiveServers (min input.messages 128)
  match ← receiveMessage .desync with
  | some _ => throw (.protocol "unexpected server desync message")
  | none => pure ()
  failWith input.flush

/-- The loop, one iteration for each time it is not cancelled, with the messages that the network
delivers at its start. -/
def clientLoop : List (List (Channel × Bytes) × ClientInput) → SessionEffect (Replica σ) Unit :=
  Effect.forEach fun pass => do
    modify (arrivals pass.1)
    iteration pass.2

end Sim

end Replica

end Synctick
