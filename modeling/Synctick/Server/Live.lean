import Synctick.Replay.Batch
import Synctick.Server.Gather

/-! # What an iteration of the live loop does

An iteration services the clients, then records, broadcasts and applies one tick, and
retains a fingerprint. `Synctick.Iterated` says all that one that completes does, and
`Synctick.IterationStopped` how one fails, with what each failure leaves behind.
-/

namespace Synctick

open SessionSimulation Effect Std RenetServer

variable {σ : Type} [SessionSimulation σ]

/-- A tick that may be recorded and broadcast next: it follows the current one, fits its
budget, and has only valid commands. -/
structure Sequenced (sim : σ) (advance : TickAdvance) : Prop where
  continues : checkedAdd (currentTick sim) 1 = some advance.tick
  within : (encode (ServerMessage.tick advance)).length ≤ maxReplayRecordBytes
  valid : ∀ command ∈ advance.inputs, validateCommand sim command.payload.bytes = .ok ()

/-- The commands of a sequenced tick are within their limit. -/
theorem Sequenced.bounded {G : Game} {sim : Adapter G} {advance : TickAdvance}
    (sequenced : Sequenced sim advance) : advance.Bounded := by
  intro command member
  have valid := sequenced.valid command member
  change (Codec.validate G.Command command.payload.bytes).mapError SessionError.codec = .ok () at valid
  cases accepted : Codec.validate G.Command command.payload.bytes with
  | ok _ => exact Codec.length_le_of_validate accepted
  | error error =>
      rw [accepted] at valid
      cases valid

namespace Authority

/-- A tick was broadcast. -/
def broadcasting (authority : Authority σ) (advance : TickAdvance) : RenetServer :=
  authority.server.broadcastMessage .lockstep (encode (ServerMessage.tick advance))

omit [SessionSimulation σ] in
/-- A tick is appended to the recording, if there is one, or its device fails and no tick is sent.
-/
theorem ensures_append (advance : TickAdvance) (authority : Authority σ) :
    Ensures (onWriter (ReplayWriter.append advance)) authority
      (fun _ next => ∃ writer, next = { authority with writer } ∧
        Mirrors [advance] authority.writer writer)
      (fun error next => ∃ writer torn ioError, authority.writer = some writer ∧
        error = .io ioError ∧ ReplayWriter.append advance writer = .error ioError torn ∧
        next = { authority with writer := some torn }) := by
  unfold onWriter
  rw [ensures_bind, ensures_get]
  cases recorded : authority.writer with
  | none =>
      refine ⟨none, by rw [← recorded], fun _ => rfl, ?_⟩
      intro writer impossible
      cases impossible
  | some writer =>
      dsimp only
      rw [ensures_zoom, ensures_mapError]
      apply ((ReplayWriter.ensures_append advance writer).and (ensures_self _ _)).mono
      · intro _ grown outcome
        obtain ⟨⟨_, gained, healthy⟩, _⟩ := outcome
        refine ⟨some grown, rfl, ?_, ?_⟩
        · intro absent
          cases absent
        · intro other present
          cases present
          exact ⟨grown, rfl, by rw [gained, records_singleton], healthy⟩
      · intro error torn outcome
        exact ⟨writer, torn, error, rfl, rfl, outcome.2, rfl⟩

omit [SessionSimulation σ] in
/-- Flushing adds nothing to the recording. -/
theorem ensures_flush (authority : Authority σ) :
    Ensures (onWriter ReplayWriter.flush) authority
      (fun _ next => ∃ writer, next = { authority with writer } ∧
        Mirrors [] authority.writer writer)
      (fun error next => ∃ writer flushed ioError, authority.writer = some writer ∧
        error = .io ioError ∧ flushed.written = writer.written ∧ ¬ writer.Healthy ∧
        next = { authority with writer := some flushed }) := by
  unfold onWriter
  rw [ensures_bind, ensures_get]
  cases recorded : authority.writer with
  | none =>
      refine ⟨none, by rw [← recorded], fun _ => rfl, ?_⟩
      intro writer impossible
      cases impossible
  | some writer =>
      dsimp only
      rw [ensures_zoom, ensures_mapError]
      apply (ReplayWriter.ensures_flush writer).mono
      · intro _ flushed outcome
        obtain ⟨same, healthy⟩ := outcome
        refine ⟨some flushed, rfl, ?_, ?_⟩
        · intro absent
          cases absent
        · intro other present
          cases present
          exact ⟨flushed, rfl, by rw [same, records_nil, List.append_nil], healthy⟩
      · intro error flushed outcome
        exact ⟨writer, flushed, error, rfl, rfl, outcome.1, outcome.2, rfl⟩

/-- What sequencing commands does: the tick that it makes of them is recorded, broadcast
and applied. -/
structure Sequences (authority next : Authority σ) (advance : TickAdvance) : Prop where
  recorded : Mirrors [advance] authority.writer next.writer
  broadcast : next.server = authority.broadcasting advance
  applies : TickApplied advance authority.sim .live next.sim
  verified : next.verified = authority.verified
  hashes : next.hashes = authority.hashes

/-- How sequencing fails: before anything happened, while the tick is recorded, or while
it is applied. -/
inductive SequenceStopped (authority : Authority σ) (inputs : List Command) :
    SessionError → Authority σ → Prop
  | exhausted (last : checkedAdd (currentTick authority.sim) 1 = none) :
      SequenceStopped authority inputs (.protocol "tick exhausted") authority
  | oversized {tick : UInt64} (continues : checkedAdd (currentTick authority.sim) 1 = some tick)
      (excess : maxReplayRecordBytes < (encode (ServerMessage.tick { tick, inputs })).length) :
      SequenceStopped authority inputs budgetExceeded authority
  | unrecorded {tick : UInt64} {writer torn : ReplayWriter} {error : IoError}
      (continues : checkedAdd (currentTick authority.sim) 1 = some tick)
      (within : (encode (ServerMessage.tick { tick, inputs })).length ≤ maxReplayRecordBytes)
      (there : authority.writer = some writer)
      (fails : ReplayWriter.append { tick, inputs } writer = .error error torn) :
      SequenceStopped authority inputs (.io error) { authority with writer := some torn }
  | rejected {tick : UInt64} {writer : Option ReplayWriter} {error : SessionError} {sim : σ}
      (continues : checkedAdd (currentTick authority.sim) 1 = some tick)
      (within : (encode (ServerMessage.tick { tick, inputs })).length ≤ maxReplayRecordBytes)
      (recorded : Mirrors [{ tick, inputs }] authority.writer writer)
      (rejects : TickRejected { tick, inputs } .live authority.sim error sim) :
      SequenceStopped authority inputs error
        { authority with writer, server := authority.broadcasting { tick, inputs }, sim }

/-- A tick that is sequenced has the next number and is within its budget. It is recorded, broadcast
and applied. -/
theorem ensures_sequence (inputs : List Command) (authority : Authority σ) :
    Ensures (sequence inputs) authority
      (fun tick next => checkedAdd (currentTick authority.sim) 1 = some tick ∧
        (encode (ServerMessage.tick { tick, inputs })).length ≤ maxReplayRecordBytes ∧
        Sequences authority next { tick, inputs })
      (fun error next => SequenceStopped authority inputs error next) := by
  unfold sequence
  rw [ensures_bind, ensures_get]
  cases continues : checkedAdd (currentTick authority.sim) 1 with
  | none => exact .exhausted continues
  | some tick =>
      dsimp only
      by_cases excess : (encode (ServerMessage.tick { tick, inputs })).length > maxReplayRecordBytes
      · rw [if_pos excess]
        exact .oversized continues excess
      · rw [if_neg excess, ensures_bind]
        have within := Nat.le_of_not_lt excess
        apply (ensures_append { tick, inputs } authority).mono
        · intro _ middle appended
          obtain ⟨writer, same, recorded⟩ := appended
          subst same
          rw [ensures_bind, ensures_modify, ensures_bind, ensures_zoom]
          apply (ensures_advanceTick { tick, inputs } .live authority.sim).mono
          · intro _ sim applies
            exact ⟨rfl, within, recorded, rfl, applies, rfl, rfl⟩
          · intro error sim rejects
            exact .rejected continues within recorded rejects
        · intro error next stopped
          obtain ⟨writer, torn, ioError, there, text, fails, same⟩ := stopped
          subst same text
          exact .unrecorded continues within there fails

/-- Between two ticks, the server may change; what was broadcast and the rest of the
session do not. -/
structure Same (authority next : Authority σ) : Prop where
  sim : next.sim = authority.sim
  writer : next.writer = authority.writer
  hashes : next.hashes = authority.hashes
  broadcasts : next.server.broadcasts = authority.server.broadcasts

omit [SessionSimulation σ] in
/-- What two steps leave alone, both leave alone. -/
theorem Same.trans {authority middle next : Authority σ} (first : Same authority middle)
    (second : Same middle next) : Same authority next where
  sim := second.sim.trans first.sim
  writer := second.writer.trans first.writer
  hashes := second.hashes.trans first.hashes
  broadcasts := second.broadcasts.trans first.broadcasts

/-- The authority after the network had its turn and the connection events were handled. -/
def entered (authority : Authority σ) (input : TickInput) : Authority σ :=
  handleEvents { authority with server := authority.server.update input.actions }

omit [SessionSimulation σ] in
/-- The network does not touch the simulation or the recording. -/
theorem same_entered (authority : Authority σ) (input : TickInput) :
    Same authority (authority.entered input) := by
  have events (events : List ServerEvent) (authority : Authority σ) :
      Same authority (events.foldl handleEvent authority) := by
    induction events generalizing authority with
    | nil => exact ⟨rfl, rfl, rfl, rfl⟩
    | cons event events ih =>
        apply Same.trans _ (ih _)
        cases event with
        | clientConnected => exact ⟨rfl, rfl, rfl, rfl⟩
        | clientDisconnected => exact ⟨rfl, rfl, rfl, rfl⟩
  have handled := events (authority.server.update input.actions).events { authority with
    server := { authority.server.update input.actions with events := [] } }
  exact ⟨handled.sim, handled.writer, handled.hashes,
    handled.broadcasts.trans (broadcasts_update authority.server input.actions)⟩

/-- What an authority starts to gather with. -/
def gathering (authority : Authority σ) : Gathering where
  server := authority.server
  verified := authority.verified

omit [SessionSimulation σ] in
/-- No client is listed twice. -/
theorem nodup_clients (authority : Authority σ) (input : TickInput) :
    (authority.clients input).Nodup := by
  apply List.Nodup.filter
  apply input.distinct.append (ExtTreeMap.nodup_keys.filter _)
  intro id first second
  have unnamed := (List.mem_filter.mp second).2
  exact of_decide_eq_true unnamed first

omit [SessionSimulation σ] in
/-- Every connected participant is listed. -/
theorem mem_clients {authority : Authority σ} {id verified : UInt64} (input : TickInput)
    (known : authority.verified[id]? = some verified)
    (connected : authority.server.isConnected id = true) : id ∈ authority.clients input := by
  apply List.mem_filter.mpr
  refine ⟨?_, connected⟩
  by_cases named : id ∈ input.order
  · exact List.mem_append_left _ named
  · apply List.mem_append_right
    have there : id ∈ authority.verified := by
      rw [ExtTreeMap.mem_iff_isSome_getElem?, known]
      rfl
    exact List.mem_filter.mpr ⟨ExtTreeMap.mem_keys.mpr there, decide_eq_true named⟩

/-- All commands that are there for the next tick. -/
def available (authority : Authority σ) (input : TickInput) : List Command :=
  authority.gathering.available authority.sim (authority.clients input) input

/-- The authority after it gathered commands. -/
structure Gathered (authority next : Authority σ) (input : TickInput) : Prop where
  same : Same authority next
  valid : ∀ command ∈ authority.available input,
    validateCommand authority.sim command.payload.bytes = .ok ()
  affordable : cost (authority.available input) ≤ maxReplayRecordBytes
  services : ∃ middle, Gathering.Services authority.sim authority.hashes authority.gathering middle
    (authority.clients input) ∧ next.server = middle.server ∧ next.verified = middle.verified

/-- Gathering takes what is available for a tick, or stops for a reason of its own; it applies
nothing. -/
theorem ensures_gather (policy : DesyncPolicy) (input : TickInput) (authority : Authority σ) :
    Ensures (gather policy input) authority
      (fun inputs next => inputs = authority.available input ∧ Gathered authority next input)
      (fun error next => Gathering.Fails authority.sim policy authority.gathering
        (authority.clients input) input error ∧ Same authority next) := by
  unfold gather
  rw [ensures_bind, ensures_get]
  rw [ensures_zoom]
  have distinct := authority.nodup_clients input
  have fresh : authority.gathering.inputs = [] ∧ authority.gathering.bytes = 0 := ⟨rfl, rfl⟩
  apply (Gathering.ensures_gather authority.sim policy authority.hashes _ distinct input
    fresh).mono
  · intro inputs next outcome
    obtain ⟨same, valid, affordable, middle, services, server, verified⟩ := outcome
    subst same
    have kept : next.server.broadcasts = authority.server.broadcasts := by
      rw [server]
      exact services.serviced.broadcasts
    exact ⟨rfl, ⟨rfl, rfl, rfl, kept⟩, valid, affordable, middle, services, server, verified⟩
  · intro error next outcome
    exact ⟨outcome.1, rfl, rfl, rfl, outcome.2.broadcasts⟩

/-- A fingerprint is retained at each multiple of the hash interval. -/
def fingerprinted (authority : Authority σ) (tick : UInt64) : ExtTreeMap UInt64 UInt64 :=
  if tick % hashInterval authority.sim = 0 then
    retainKeys (fun old => saturatingSub tick old ≤ hashInterval authority.sim * 10)
      (authority.hashes.insert tick (stateHash authority.sim))
  else authority.hashes

/-- A tick that is a checkpoint has its fingerprint kept, and the recording flushed. -/
theorem ensures_checkpoint (tick : UInt64) (authority : Authority σ) :
    Ensures (checkpoint tick) authority
      (fun _ next => ∃ writer,
        next = { authority with writer, hashes := authority.fingerprinted tick } ∧
          Mirrors [] authority.writer writer)
      (fun error next => ∃ writer flushed ioError, authority.writer = some writer ∧
        error = .io ioError ∧ flushed.written = writer.written ∧ ¬ writer.Healthy ∧
        next = { authority with
          writer := some flushed, hashes := authority.fingerprinted tick }) := by
  unfold checkpoint fingerprinted
  rw [ensures_bind, ensures_get]
  dsimp only
  by_cases multiple : tick % hashInterval authority.sim = 0
  · rw [if_pos multiple, if_pos multiple, ensures_bind, ensures_set]
    exact ensures_flush _
  · rw [if_neg multiple, if_neg multiple]
    exact ⟨authority.writer, rfl, .refl _⟩

/-- An iteration that completes: the clients were serviced, and the available commands
were recorded, broadcast and applied as the next tick. -/
structure Iterated (authority next : Authority σ) (input : TickInput) (advance : TickAdvance) :
    Prop where
  quiet : input.network = none
  inputs : advance.inputs = (authority.entered input).available input
  sequenced : Sequenced authority.sim advance
  gathered : ∃ middle, Gathered (authority.entered input) middle input ∧
    next.server = middle.broadcasting advance ∧ next.verified = middle.verified
  recorded : Mirrors [advance] authority.writer next.writer
  applies : TickApplied advance authority.sim .live next.sim
  hashes : next.hashes = fingerprinted { next with hashes := authority.hashes } advance.tick

/-- The ways an iteration fails. -/
inductive IterationStopped (policy : DesyncPolicy) (authority : Authority σ) (input : TickInput) :
    SessionError → Authority σ → Prop
  | network {error : SessionError} (fails : input.network = some error) :
      IterationStopped policy authority input error authority
  | gathering {error : SessionError} {next : Authority σ}
      (fails : Gathering.Fails authority.sim policy (authority.entered input).gathering
        ((authority.entered input).clients input) input error)
      (same : Same authority next) : IterationStopped policy authority input error next
  | sequencing {error : SessionError} {middle next : Authority σ} (quiet : input.network = none)
      (gathered : Gathered (authority.entered input) middle input)
      (fails : SequenceStopped middle ((authority.entered input).available input) error next) :
      IterationStopped policy authority input error next
  | unflushed {middle next : Authority σ} {advance : TickAdvance} {writer flushed : ReplayWriter}
      {error : IoError} (sequenced : Sequenced authority.sim advance)
      (gathered : Gathered (authority.entered input) middle input)
      (sequences : Sequences middle next advance) (there : next.writer = some writer)
      (kept : flushed.written = writer.written) (unhealthy : ¬ writer.Healthy) :
      IterationStopped policy authority input (.io error) { next with
        writer := some flushed, hashes := next.fingerprinted advance.tick }

/-- Everything that an iteration can do. -/
theorem ensures_iteration (policy : DesyncPolicy) (input : TickInput) (authority : Authority σ) :
    Ensures (iteration policy input) authority
      (fun _ next => ∃ advance, Iterated authority next input advance)
      (fun error next => IterationStopped policy authority input error next) := by
  have enters := same_entered authority input
  unfold iteration
  rw [ensures_bind]
  apply (ensures_failWith input.network authority).mono
  · intro _ start outcome
    obtain ⟨quiet, same⟩ := outcome
    subst same
    rw [ensures_bind, ensures_modify, ensures_bind, ensures_modify, ensures_bind]
    apply (ensures_gather policy input (start.entered input)).mono
    · intro inputs middle outcome
      obtain ⟨same, gathered⟩ := outcome
      subst same
      have before := enters.trans gathered.same
      rw [ensures_bind]
      apply (ensures_sequence _ middle).mono
      · intro tick after outcome
        obtain ⟨continues, within, sequences⟩ := outcome
        have sequenced : Sequenced start.sim
            { tick, inputs := (start.entered input).available input } := by
          rw [before.sim] at continues
          refine ⟨continues, within, ?_⟩
          rw [← enters.sim]
          exact gathered.valid
        apply (ensures_checkpoint tick after).mono
        · intro _ next outcome
          obtain ⟨writer, same, flushed⟩ := outcome
          subst same
          refine ⟨{ tick, inputs := (start.entered input).available input }, quiet, rfl, sequenced,
            ⟨middle, gathered, sequences.broadcast, sequences.verified⟩, ?_, ?_, ?_⟩
          · rw [← before.writer]
            exact sequences.recorded.trans flushed
          · rw [← before.sim]
            exact sequences.applies
          · unfold fingerprinted
            rw [sequences.hashes, before.hashes]
        · intro error next outcome
          obtain ⟨writer, flushed, ioError, there, text, kept, unhealthy, same⟩ := outcome
          subst same text
          exact .unflushed sequenced gathered sequences there kept unhealthy
      · intro error next stopped
        exact .sequencing quiet gathered stopped
    · intro error next outcome
      obtain ⟨fails, same⟩ := outcome
      rw [enters.sim] at fails
      exact .gathering fails (enters.trans same)
  · intro error next failed
    obtain ⟨fails, same⟩ := failed
    subst same
    exact .network fails

end Authority

/-- From `first`, sequenced ticks are applied one after another. -/
inductive Lives : σ → List TickAdvance → σ → Prop
  | here (sim : σ) : Lives sim [] sim
  | tick {first sim last : σ} {ticks : List TickAdvance} {advance : TickAdvance}
      (lives : Lives first ticks sim) (sequenced : Sequenced sim advance)
      (applies : TickApplied advance sim .live last) : Lives first (ticks ++ [advance]) last

/-- An element of a list with one more at its end is that one or from the list before. -/
theorem split_concat {α : Type} {elements front back : List α} {newest element : α}
    (split : elements ++ [newest] = front ++ element :: back) :
    front = elements ∧ element = newest ∨ ∃ earlier, elements = front ++ element :: earlier := by
  rcases List.eq_nil_or_concat back with none | ⟨earlier, other, some⟩
  · subst none
    obtain ⟨same, last⟩ := List.append_inj' split rfl
    cases last
    exact Or.inl ⟨same.symm, rfl⟩
  · subst some
    rw [List.concat_eq_append, ← List.cons_append, ← List.append_assoc] at split
    exact Or.inr ⟨earlier, (List.append_inj' split rfl).1⟩

/-- Each tick on the way was sequenced where the earlier ones led. -/
theorem Lives.sequenced {first last : σ} {ticks front back : List TickAdvance}
    {advance : TickAdvance} (lives : Lives first ticks last)
    (split : ticks = front ++ advance :: back) :
    ∃ sim, Lives first front sim ∧ Sequenced sim advance := by
  induction lives generalizing back with
  | here => cases (List.append_eq_nil_iff.mp split.symm).2
  | @tick sim last ticks newest lives sequenced _ ih =>
      rcases split_concat split with ⟨same, rfl⟩ | ⟨earlier, split⟩
      · rw [same]
        exact ⟨sim, lives, sequenced⟩
      · exact ih split

namespace Authority

/-- A live loop under way: the ticks were applied, broadcast and recorded. -/
structure Running (start current : Authority σ) (ticks : List TickAdvance) : Prop where
  lives : Lives start.sim ticks current.sim
  broadcasts : current.server.broadcasts = start.server.broadcasts ++
    ticks.map fun advance => (.lockstep, encode (ServerMessage.tick advance))
  recorded : Mirrors ticks start.writer current.writer

theorem Running.refl (start : Authority σ) : Running start start [] where
  lives := .here _
  broadcasts := (List.append_nil _).symm
  recorded := .refl _

omit [SessionSimulation σ] in
/-- A broadcast tick is behind those before it. -/
theorem broadcasts_broadcasting {before authority : Authority σ} {ticks : List TickAdvance}
    (broadcasts : authority.server.broadcasts = before.server.broadcasts ++
      ticks.map fun advance => (.lockstep, encode (ServerMessage.tick advance)))
    (advance : TickAdvance) :
    (authority.broadcasting advance).broadcasts = before.server.broadcasts ++
      (ticks ++ [advance]).map fun advance => (.lockstep, encode (ServerMessage.tick advance)) := by
  rw [List.map_append, ← List.append_assoc, ← broadcasts]
  rfl

/-- An iteration adds a tick. -/
theorem Running.iterated {start current next : Authority σ} {ticks : List TickAdvance}
    {input : TickInput} {advance : TickAdvance} (running : Running start current ticks)
    (iterated : Iterated current next input advance) :
    Running start next (ticks ++ [advance]) where
  lives := .tick running.lives iterated.sequenced iterated.applies
  broadcasts := by
    obtain ⟨middle, gathered, server, _⟩ := iterated.gathered
    have same := (same_entered current input).trans gathered.same
    rw [server]
    exact broadcasts_broadcasting (same.broadcasts.trans running.broadcasts) advance
  recorded := running.recorded.trans iterated.recorded

end Authority

end Synctick
