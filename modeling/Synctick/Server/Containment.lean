import Synctick.Server.Live

/-! # Faults of remote traffic are contained

What participants send makes the live loop fail in one way only, by exceeding the byte
budget of a tick with valid commands. Otherwise the next tick is sequenced, and handed to the
channel of everyone who behaves.
-/

namespace Synctick

open SessionSimulation Effect Std RenetServer Bincode

variable {G : Game}

/-- What a participant that is verified up to some tick sent, is all valid. -/
def Participant (authority : Authority (Adapter G)) (id : UInt64) : Prop :=
  ∃ verified, authority.verified[id]? = some verified ∧
    Behaves authority.sim authority.hashes id verified
      (authority.server.pending id .lockstep) (authority.server.pending id .desync)

/-- The iteration sequenced the next tick. Whoever was connected and behaves is still connected
once all clients are serviced, where the tick is handed to the channels of the connected. -/
structure Contained (authority next : Authority (Adapter G)) (input : TickInput)
    (advance : TickAdvance) : Prop where
  iterated : Authority.Iterated authority next input advance
  spares : ∃ serviced, Authority.Gathered (authority.entered input) serviced input ∧
    next.server = serviced.broadcasting advance ∧
    ∀ id, (authority.entered input).server.isConnected id = true →
      Participant (authority.entered input) id → serviced.server.isConnected id = true

/-- The iterations of a live loop, each contained. -/
inductive ContainedRun : Authority (Adapter G) → List TickInput → Authority (Adapter G) → Prop
  | here (authority : Authority (Adapter G)) : ContainedRun authority [] authority
  | iteration {first authority next : Authority (Adapter G)} {inputs : List TickInput}
      {input : TickInput} {advance : TickAdvance} (run : ContainedRun first inputs authority)
      (contained : Contained authority next input advance) :
      ContainedRun first (inputs ++ [input]) next

/-- Why an iteration fails, when divergences only disconnect: the network, the input of
the host, the device of the recording, the end of the ticks, the simulation itself, or
valid commands that exceed the budget of one tick. -/
inductive Blamed (authority : Authority (Adapter G)) (input : TickInput) : SessionError → Prop
  | network {error : SessionError} (fails : input.network = some error) :
      Blamed authority input error
  | closed {error : SessionError}
      (fails : drainLocal input.inputs input.inputClosed true = .error error) :
      Blamed authority input error
  | host {error : SessionError} {payload : CommandPayload}
      (member : payload ∈ input.inputs.take 256)
      (rejects : validateCommand authority.sim payload.bytes = .error error) :
      Blamed authority input error
  | device {writer : ReplayWriter} {error : IoError} (recording : authority.writer = some writer)
      (unhealthy : ¬ writer.Healthy) : Blamed authority input (.io error)
  | exhausted (last : checkedAdd (currentTick authority.sim) 1 = none) :
      Blamed authority input (.protocol "tick exhausted")
  | simulation {error : SessionError} {advance : TickAdvance} {sim : Adapter G}
      (sequenced : Sequenced authority.sim advance)
      (rejects : TickRejected advance .live authority.sim error sim) :
      Blamed authority input error
  | budget (excess : maxReplayRecordBytes < cost ((authority.entered input).available input)) :
      Blamed authority input budgetExceeded

namespace Authority

variable {authority next : Authority (Adapter G)} {input : TickInput} {advance : TickAdvance}

/-- An iteration that completes is contained. -/
theorem contained_of_iterated (iterated : Iterated authority next input advance) :
    Contained authority next input advance where
  iterated := iterated
  spares := by
    obtain ⟨middle, gathered, server, _⟩ := iterated.gathered
    refine ⟨middle, gathered, server, ?_⟩
    intro id connected participant
    obtain ⟨verified, known, behaves⟩ := participant
    obtain ⟨serviced, services, same, _⟩ := gathered.services
    rw [same]
    by_cases member : id ∈ (authority.entered input).clients input
    · exact (services.spares id member verified known behaves).trans connected
    · exact (isConnected_congr (services.others id member).1).trans connected

/-- Apart from the budget, no failure is due to what participants sent. -/
theorem blamed_of_stopped {error : SessionError}
    (stopped : IterationStopped .disconnect authority input error next) :
    Blamed authority input error := by
  have enters := same_entered authority input
  cases stopped with
  | network fails => exact .network fails
  | gathering fails =>
      cases fails with
      | budget excess =>
          apply Blamed.budget
          unfold available
          rw [enters.sim]
          exact excess
      | diverged impossible => cases impossible
      | closed fails => exact .closed fails
      | invalid member rejects => exact .host member rejects
  | @sequencing _ middle _ _ gathered fails =>
      have same := enters.trans gathered.same
      have sequenced {tick : UInt64} (continues : checkedAdd (currentTick middle.sim) 1 = some tick)
          (within : (encode (ServerMessage.tick
            { tick, inputs := (authority.entered input).available input })).length ≤
              maxReplayRecordBytes) :
          Sequenced authority.sim { tick, inputs := (authority.entered input).available input } := by
        rw [same.sim] at continues
        refine ⟨continues, within, ?_⟩
        rw [← enters.sim]
        exact gathered.valid
      cases fails with
      | exhausted last =>
          rw [same.sim] at last
          exact .exhausted last
      | oversized _ excess =>
          exact (Nat.not_lt.mpr (encoded_of_affordable _ gathered.affordable) excess).elim
      | unrecorded _ within there fails =>
          rw [same.writer] at there
          apply Blamed.device there
          intro healthy
          have excess := (ensures_of_error (ReplayWriter.ensures_append _ _) fails).2 healthy
          exact Nat.not_lt.mpr (Nat.le_trans (length_encode_tick_le _) within) excess.1
      | rejected continues within _ rejects =>
          have lawful := sequenced continues within
          rw [same.sim] at rejects
          exact .simulation lawful rejects
  | unflushed _ gathered sequences there _ unhealthy =>
      have same := enters.trans gathered.same
      have recorded := sequences.recorded
      rw [same.writer] at recorded
      cases recording : authority.writer with
      | none =>
          rw [recorded.absent recording] at there
          cases there
      | some writer =>
          obtain ⟨grown, there', _, sound⟩ := recorded.written writer recording
          rw [there'] at there
          cases there
          exact .device recording fun healthy => unhealthy (sound healthy)

/-- With the policy to disconnect, the live loop sequences a tick in every iteration and hands it
to whoever behaves, unless it fails for one of the reasons that are given. -/
theorem remote_faults_contained (authority : Authority (Adapter G)) (inputs : List TickInput) :
    Ensures (tickLoop .disconnect inputs) authority
      (fun _ next => ContainedRun authority inputs next)
      (fun error _ => ∃ front input back current, inputs = front ++ input :: back ∧
        ContainedRun authority front current ∧ Blamed current input error) := by
  refine (ensures_forEach_along (iteration .disconnect) inputs (ContainedRun authority)
    (fun front input error _ => ∃ current, ContainedRun authority front current ∧
      Blamed current input error) ?_ (.here authority)).mono (fun _ _ run => run) ?_
  · intro front input current run
    apply (ensures_iteration .disconnect input current).mono
    · intro _ next outcome
      obtain ⟨advance, iterated⟩ := outcome
      exact .iteration run (contained_of_iterated iterated)
    · intro error _ stopped
      exact ⟨current, run, blamed_of_stopped stopped⟩
  · intro error _ failed
    obtain ⟨front, input, back, split, current, run, blamed⟩ := failed
    exact ⟨front, input, back, current, split, run, blamed⟩

/-- The command 7, sent 7944 times: with its framing, that is 8 bytes more than a tick
may take. -/
def flooded : Mailbox
  | .lockstep => List.replicate 7944 (encode (ClientMessage.input ⟨[7]⟩))
  | _ => []

def flood : Authority (Adapter tallyGame) where
  server := { connections := Function.update (fun _ => none) 1 (some { incoming := flooded }) }
  sim := tallyAdapter
  verified := (∅ : ExtTreeMap UInt64 UInt64).insert 1 0

theorem acceptedCommands_replicate {σ : Type} [SessionSimulation σ] {sim : σ} {payload : CommandPayload}
    {bytes : Bytes} (id : UInt64) (decodes : decodeClientMessage bytes = .ok (.input payload))
    (valid : validateCommand sim payload.bytes = .ok ()) (count : Nat) :
    acceptedCommands sim id (List.replicate count bytes) =
      List.replicate count { participant := .remote id, payload } := by
  induction count with
  | zero => rfl
  | succ count ih =>
      rw [List.replicate_succ, List.replicate_succ]
      simp only [acceptedCommands, decodes, valid, ih]

theorem cost_replicate (count : Nat) (command : Command) :
    cost (List.replicate count command) = count * (command.payload.bytes.length + 32) := by
  unfold cost
  rw [List.map_replicate, List.sum_replicate, Nat.nsmul_eq_mul]

/-- Commands that exceed the budget make an iteration fail, if nothing else does. -/
theorem exceeds_of_over {input : TickInput} (quiet : input.network = none)
    (nothing : input.inputs = [] ∧ input.inputClosed = false)
    (excess : maxReplayRecordBytes < cost ((authority.entered input).available input)) :
    Ensures (iteration .disconnect input) authority (fun _ _ => False)
      (fun error _ => error = budgetExceeded) := by
  apply (ensures_iteration .disconnect input authority).mono
  · intro _ next outcome
    obtain ⟨_, iterated⟩ := outcome
    obtain ⟨_, gathered, _⟩ := iterated.gathered
    exact Nat.not_lt.mpr gathered.affordable excess
  · intro error next stopped
    cases stopped with
    | network fails =>
        rw [quiet] at fails
        cases fails
    | gathering fails =>
        cases fails with
        | budget => rfl
        | diverged impossible => cases impossible
        | closed fails =>
            rw [nothing.1, nothing.2] at fails
            cases fails
        | invalid member =>
            rw [nothing.1] at member
            cases member
    | sequencing _ gathered => exact (Nat.not_lt.mpr gathered.affordable excess).elim
    | unflushed _ gathered => exact (Nat.not_lt.mpr gathered.affordable excess).elim

/-- A participant that sent one valid command so often that it exceeds the budget. -/
theorem exceeds_of_replicate {id : UInt64} {input : TickInput} {payload : CommandPayload}
    {bytes : Bytes} {count : Nat} (quiet : input.network = none)
    (nothing : input.inputs = [] ∧ input.inputClosed = false)
    (idle : authority.entered input = authority) (alone : authority.clients input = [id])
    (known : authority.verified[id]?.isSome = true)
    (sent : authority.server.pending id .lockstep = List.replicate count bytes)
    (decodes : decodeClientMessage bytes = .ok (.input payload))
    (valid : validateCommand authority.sim payload.bytes = .ok ())
    (excess : maxReplayRecordBytes < count * (payload.bytes.length + 32)) :
    Ensures (iteration .disconnect input) authority (fun _ _ => False)
      (fun error _ => error = budgetExceeded) := by
  apply exceeds_of_over quiet nothing
  have known' : authority.gathering.verified[id]?.isSome = true := known
  have sent' : authority.gathering.server.pending id .lockstep = List.replicate count bytes := sent
  rw [idle, available, alone, Gathering.available, nothing.1, List.flatMap_cons, List.flatMap_nil,
    Gathering.offered, if_pos known', sent', acceptedCommands_replicate id decodes valid,
    List.append_nil, List.take_nil, List.map_nil, List.append_nil, cost_replicate]
  exact excess

/-- Nothing but the valid commands of one participant makes the live loop fail. -/
theorem flood_fails : Ensures (tickLoop .disconnect [{ order := [1] }]) flood (fun _ _ => False)
    (fun error _ => error = budgetExceeded) := by
  have idle : flood.entered { order := [1] } = flood := rfl
  have alone : flood.clients { order := [1] } = [1] := rfl
  have known : flood.verified[(1 : UInt64)]?.isSome = true := by decide
  have sent : flood.server.pending 1 .lockstep =
      List.replicate 7944 (encode (ClientMessage.input ⟨[7]⟩)) := rfl
  have decodes : decodeClientMessage (encode (ClientMessage.input ⟨[7]⟩)) = .ok (.input ⟨[7]⟩) := rfl
  have valid : validateCommand flood.sim [7] = .ok () := rfl
  have excess : maxReplayRecordBytes < 7944 * (List.length [(7 : UInt8)] + 32) := by decide
  -- The rest does not depend on what else holds of the state.
  generalize flood = authority at *
  unfold tickLoop forEach
  rw [ensures_bind]
  apply (exceeds_of_replicate rfl ⟨rfl, rfl⟩ idle alone known sent decodes valid excess).mono
  · intro _ _ impossible
    exact impossible.elim
  · intro _ _ exceeded
    exact exceeded

end Authority

end Synctick
