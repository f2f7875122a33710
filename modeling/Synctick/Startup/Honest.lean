import Synctick.Startup.Flow

/-! # An honest client that joins

A client that receives a valid save, from a peer that announced it truly, takes and
replays it without an error, and the peer accepts every message that the client
sends. The reports under way never fall behind one another or behind what the peer
knows, and nothing follows the announcement that the client is ready.
-/

namespace Synctick

open SessionSimulation Effect CreditWindow

section Track

variable {σ : Type} [SessionSimulation σ]

/-- A save that is announced truly: from `initial` it replays to `last`, which has
the announced tick and fingerprint. -/
structure ValidSave (save : Bytes) (metadata : SaveMetadata) (initial last : σ) : Prop where
  size : metadata.totalBytes.toNat = save.length
  log : ReadsAsLog save initial last
  tick : currentTick last = metadata.tick
  hash : stateHash last = metadata.hash

/-- A startup and its simulation on their way through a save. -/
inductive ClientStartup.OnTrack (save : Bytes) (metadata : SaveMetadata) (initial last : σ) :
    ClientStartup → σ → Prop
  | receiving {startup : ClientStartup} {announced : Option SaveMetadata} {bytes : Bytes}
      (phase : startup.phase = .receiving announced bytes) (fresh : startup.initialized = false)
      (unreplayed : startup.replayed = 0) : OnTrack save metadata initial last startup initial
  | replaying {startup : ClientStartup} {sim : σ} {reader : ReplayReader}
      (phase : startup.phase = .replaying metadata reader)
      (read : ReadSoFar save initial sim startup.initialized reader)
      (replayed : startup.replayed = if startup.initialized then currentTick sim else 0) :
      OnTrack save metadata initial last startup sim
  | awaitingStart {startup : ClientStartup} (phase : startup.phase = .awaitingStart metadata)
      (replayed : startup.replayed = metadata.tick) : OnTrack save metadata initial last startup last

variable {save : Bytes} {metadata : SaveMetadata} {initial last sim : σ}

/-- A log has a header. -/
theorem ReadsAsLog.nonempty (log : ReadsAsLog save initial last) : save ≠ [] := by
  intro empty
  obtain ⟨opened, _, _, _, opens, _⟩ := log
  rw [empty] at opens
  cases opens

namespace ClientStartup

variable {startup : ClientStartup}

/-- A startup that replays on track is at a record of the save. -/
theorem OnTrack.read (track : startup.OnTrack save metadata initial last sim)
    {announced : SaveMetadata} {reader : ReplayReader}
    (replaying : startup.phase = .replaying announced reader) :
    announced = metadata ∧ ReadSoFar save initial sim startup.initialized reader ∧
      startup.replayed = if startup.initialized then currentTick sim else 0 := by
  cases track with
  | receiving phase =>
      rw [phase] at replaying
      cases replaying
  | replaying phase read replayed =>
      rw [phase] at replaying
      cases replaying
      exact ⟨rfl, read, replayed⟩
  | awaitingStart phase =>
      rw [phase] at replaying
      cases replaying

/-- The next message of the transfer keeps a client on track. -/
theorem onTrack_receiveSave {count : Nat} (valid : ValidSave save metadata initial last)
    (holds : startup.Holds save metadata count) (more : count ≤ chunkCount save)
    (track : startup.OnTrack save metadata initial last sim) :
    Ensures (receiveSave (transferMessage save metadata count)) startup
      (fun _ next => next.OnTrack save metadata initial last sim ∧ next.replayed = startup.replayed ∧
        ∀ announced, next.phase ≠ .awaitingStart announced)
      (fun _ _ => False) := by
  obtain ⟨_, unreplayed, _⟩ := accepts_next valid.size valid.log.nonempty holds more
  have untouched : sim = initial := by
    cases track with
    | receiving => rfl
    | replaying phase =>
        have late := (holds.whole_of_past (past_of_replaying phase)).1
        omega
    | awaitingStart phase =>
        have late := (holds.whole_of_past (past_of_awaitingStart phase)).1
        omega
  subst untouched
  refine (ensures_next valid.size valid.log.nonempty holds more).mono ?_ ?_
  · intro _ next taken
    rw [unreplayed]
    rcases taken with ⟨_, rfl⟩ | ⟨_, reader, opens, rfl⟩
    · exact ⟨.receiving rfl rfl rfl, rfl, fun _ impossible => nomatch impossible⟩
    · exact ⟨.replaying rfl ⟨reader, opens, Or.inl ⟨rfl, rfl, rfl⟩⟩ rfl, rfl,
        fun _ impossible => nomatch impossible⟩
  · intro error next failed
    obtain ⟨_, ⟨reason, fails⟩, _⟩ := failed
    obtain ⟨opened, _, _, _, opens, _⟩ := valid.log
    rw [fails] at opens
    cases opens

/-- What a step replays with is on the way through the save. -/
theorem begins_onTrack {reader : ReplayReader} {begun : σ} (log : ReadsAsLog save initial last)
    (read : ReadSoFar save initial sim startup.initialized reader)
    (begins : Begins startup reader sim begun) :
    ∃ ticks final, Replays begun reader ticks last final ∧
      ReplayReader.nextRecord final = .ok none final := by
  obtain ⟨opened, first, ticks, final, opens, initializes, path, clean⟩ := log
  obtain ⟨opened', opens', read⟩ := read
  rw [opens] at opens'
  cases opens'
  rcases read with ⟨fresh, rfl, rfl⟩ | ⟨initialized, first', front, initializes', path'⟩
  · cases begins with
    | again initialized =>
        rw [fresh] at initialized
        cases initialized
    | first _ initializes' =>
        rw [initializes] at initializes'
        cases initializes'
        exact ⟨ticks, final, path, clean⟩
  · rw [initializes] at initializes'
    cases initializes'
    cases begins with
    | again =>
        obtain ⟨back, _, onwards⟩ := path'.remaining path clean
        exact ⟨back, final, onwards, clean⟩
    | first fresh =>
        rw [initialized] at fresh
        cases fresh

/-- A step on the way through a valid save stays on the way, and reports readiness
when it arrives. -/
theorem onTrack_step (keeps : FinishKeepsTick σ) (valid : ValidSave save metadata initial last)
    (passes : Nat) {reader : ReplayReader} (phase : startup.phase = .replaying metadata reader)
    (read : ReadSoFar save initial sim startup.initialized reader)
    (replayed : startup.replayed = if startup.initialized then currentTick sim else 0) :
    Ensures (step passes) (startup, sim)
      (fun result state => state.1.OnTrack save metadata initial last state.2 ∧
        state.1.received = startup.received ∧ startup.replayed ≤ state.1.replayed ∧
        state.1.replayed ≤ metadata.tick ∧
        (result = none ∧ (∃ reader, state.1.phase = .replaying metadata reader) ∨
          result = some (.ready metadata.tick metadata.hash) ∧
            state.1.phase = .awaitingStart metadata))
      (fun _ _ => False) := by
  have onwards {begun : σ} {ticks : List TickAdvance} {replay : Replay σ}
      (begins : Begins startup reader sim begun)
      (progress : Progress { sim := begun, reader } replay ticks) :
      startup.replayed ≤ currentTick replay.sim ∧ ∃ rest final,
        Replays replay.sim replay.reader rest last final ∧
          ReplayReader.nextRecord final = .ok none final := by
    obtain ⟨whole, final, path, clean⟩ := begins_onTrack valid.log read begins
    obtain ⟨rest, _, remaining⟩ := progress.path.remaining path clean
    refine ⟨?_, rest, final, remaining, clean⟩
    rw [replayed]
    cases begins with
    | again initialized =>
        have counted := progress.path.currentTick keeps
        rw [initialized, if_pos rfl, UInt64.le_iff_toNat_le, counted]
        exact Nat.le_add_right _ _
    | first fresh =>
        rw [fresh]
        exact UInt64.zero_le
  refine (ensures_step passes sim phase).mono ?_ ?_
  · intro result state returns
    cases returns with
    | @more begun ticks replay begins progress within =>
        obtain ⟨opened, first, front, opens, initializes, path⟩ :=
          readSoFar_batch read begins progress
        refine ⟨?_, rfl, (onwards begins progress).1, within, Or.inl ⟨rfl, _, rfl⟩⟩
        exact .replaying rfl ⟨opened, opens, Or.inr ⟨rfl, first, front, initializes, path⟩⟩ rfl
    | @ready begun ticks replay begins progress clean tick hash =>
        obtain ⟨later, rest, final, remaining, _⟩ := onwards begins progress
        obtain ⟨_, rfl, _⟩ := remaining.ended clean
        exact ⟨.awaitingStart rfl tick, rfl, later, UInt64.le_of_eq tick, Or.inr ⟨rfl, rfl⟩⟩
  · intro error state fails
    cases fails with
    | uninitialized fresh fails =>
        obtain ⟨opened, first, ticks, final, opens, initializes, _⟩ := valid.log
        obtain ⟨opened', opens', ⟨_, rfl, rfl⟩ | ⟨initialized, _⟩⟩ := read
        · rw [opens] at opens'
          cases opens'
          rw [initializes] at fails
          cases fails
        · rw [fresh] at initialized
          cases initialized
    | @stopped _ begun ticks middle replay begins progress stops =>
        obtain ⟨_, rest, final, remaining, clean⟩ := onwards begins progress
        rcases middle with ⟨sim', reader', mirror⟩
        have absent : mirror = none := progress.mirrored.absent rfl
        subst absent
        apply remaining.not_stopped clean _ stops
        intro writer impossible
        cases impossible
    | exceeds begins progress beyond =>
        obtain ⟨_, rest, final, remaining, clean⟩ := onwards begins progress
        have counted := remaining.currentTick keeps
        rw [gt_iff_lt, UInt64.lt_iff_toNat_lt, ← valid.tick] at beyond
        omega
    | mismatch begins progress clean differs =>
        obtain ⟨_, rest, final, remaining, _⟩ := onwards begins progress
        obtain ⟨_, rfl, _⟩ := remaining.ended clean
        rcases differs with tick | hash
        · exact tick valid.tick
        · exact hash valid.hash

end ClientStartup

end Track

/-- The replayed ticks reported between `low` and `high`, and whether readiness is
announced after them. -/
inductive Ascends (metadata : SaveMetadata) :
    UInt64 → List ClientMessage → UInt64 → Bool → Prop
  | none {low high : UInt64} (le : low ≤ high) : Ascends metadata low [] high false
  | ready {low high : UInt64} (le : low ≤ high) :
      Ascends metadata low [.ready metadata.tick metadata.hash] high true
  | progress {low receivedBytes replayedTick high : UInt64} {messages : List ClientMessage}
      {announced : Bool} (le : low ≤ replayedTick)
      (later : Ascends metadata replayedTick messages high announced) :
      Ascends metadata low (.progress receivedBytes replayedTick :: messages) high announced

namespace Ascends

variable {metadata : SaveMetadata} {low high higher : UInt64} {messages : List ClientMessage}
  {announced : Bool}

/-- Progress does not go back. -/
theorem le (ascends : Ascends metadata low messages high announced) : low ≤ high := by
  induction ascends with
  | none le => exact le
  | ready le => exact le
  | progress le _ ih => exact UInt64.le_trans le ih

/-- More may have been replayed than was reported. -/
theorem raise (ascends : Ascends metadata low messages high announced) (le : high ≤ higher) :
    Ascends metadata low messages higher announced := by
  induction ascends with
  | none before => exact .none (UInt64.le_trans before le)
  | ready before => exact .ready (UInt64.le_trans before le)
  | progress before _ ih => exact .progress before (ih le)

/-- The progress so far may be reported. -/
theorem report (ascends : Ascends metadata low messages high false) (receivedBytes : UInt64) :
    Ascends metadata low (messages ++ [.progress receivedBytes high]) high false := by
  generalize flag : false = announced at ascends
  induction ascends with
  | none le => exact .progress le (.none (UInt64.le_refl _))
  | ready => cases flag
  | progress before _ ih => exact .progress before (ih flag)

/-- The readiness may be announced, as the last message. -/
theorem announce (ascends : Ascends metadata low messages high false) :
    Ascends metadata low (messages ++ [.ready metadata.tick metadata.hash]) high true := by
  generalize flag : false = announced at ascends
  induction ascends with
  | none le => exact .ready le
  | ready => cases flag
  | progress before _ ih => exact .progress before (ih flag)

/-- Nothing follows the announcement. -/
theorem last {earlier later : List ClientMessage} {tick hash : UInt64}
    (ascends : Ascends metadata low (earlier ++ .ready tick hash :: later) high announced) :
    later = [] := by
  induction earlier generalizing low with
  | nil =>
      cases ascends
      rfl
  | cons message earlier ih =>
      rw [List.cons_append] at ascends
      generalize rest : earlier ++ ClientMessage.ready tick hash :: later = messages at ascends
      cases ascends with
      | ready => exact (List.append_ne_nil_of_right_ne_nil _ (List.cons_ne_nil _ _) rest).elim
      | progress _ onwards =>
          rw [← rest] at onwards
          exact ih onwards

end Ascends

namespace Joining

variable {σ : Type}

/-- How far the client and the peer are with the replay. -/
inductive Stage (metadata : SaveMetadata) (joining : Joining σ) (messages : List ClientMessage) : Prop
  | loading (loads : ∀ announced, joining.replica.startup.phase ≠ .awaitingStart announced)
      (unready : joining.peer.phase ≠ .ready)
      (ascends : Ascends metadata joining.peer.replayed messages
        joining.replica.startup.replayed false)
  | announced (waits : joining.replica.startup.phase = .awaitingStart metadata)
      (prompt : joining.replica.startup.received = joining.replica.reported.1)
      (unready : joining.peer.phase ≠ .ready)
      (ascends : Ascends metadata joining.peer.replayed messages
        joining.replica.startup.replayed true)
  | ready (waits : joining.replica.startup.phase = .awaitingStart metadata)
      (prompt : joining.replica.startup.received = joining.replica.reported.1)
      (ready : joining.peer.phase = .ready) (silent : messages = [])

variable [SessionSimulation σ]

/-- A transfer of a valid save, on which nothing went wrong. -/
structure Honest (save : Bytes) (metadata : SaveMetadata) (initial last : σ) (joining : Joining σ)
    (window : CreditWindow) (messages : List ClientMessage) : Prop
    extends Flows save metadata joining window messages where
  connected : joining.rejected = false
  track : joining.replica.startup.OnTrack save metadata initial last joining.replica.sim
  within : joining.replica.startup.replayed ≤ metadata.tick
  stage : joining.Stage metadata messages

variable {save : Bytes} {metadata : SaveMetadata} {initial last : σ} {joining : Joining σ}
  {window : CreditWindow} {messages : List ClientMessage}

/-- A new transfer is honest. -/
theorem honest_new (now : Nat) (initial last : σ) :
    Honest save metadata initial last (begun now initial) {} [] where
  toFlows := flows_new now initial
  connected := rfl
  track := .receiving rfl rfl rfl
  within := UInt64.zero_le
  stage := .loading (fun _ impossible => nomatch impossible)
    (fun impossible => nomatch impossible) (.none (UInt64.le_refl _))

/-- A pump sends the next messages of the transfer. -/
theorem honest_pump (honest : Honest save metadata initial last joining window messages)
    (answers : List Capacity) :
    ∃ sent, window.sent ≤ sent ∧
      (joining.peer.pump save metadata answers).2 =
        transferBytes save metadata window.sent sent ∧
      Honest save metadata initial last { joining with
          peer := (joining.peer.pump save metadata answers).1
          wire := joining.wire ++ (joining.peer.pump save metadata answers).2 }
        { window with sent } messages := by
  obtain ⟨sent, further, sends, flows, keeps⟩ := flows_pump honest.toFlows answers
  refine ⟨sent, further, sends, { honest with toFlows := flows, stage := ?_ }⟩
  cases honest.stage with
  | loading loads unready ascends =>
      rw [← keeps.replayed] at ascends
      exact .loading loads (keeps.unready unready) ascends
  | announced waits prompt unready ascends =>
      rw [← keeps.replayed] at ascends
      exact .announced waits prompt (keeps.unready unready) ascends
  | ready waits prompt ready silent =>
      have finished : joining.peer.phase ≠ .transferring := by
        rw [ready]
        exact TransferPhase.noConfusion
      rw [StartupPeer.pump_of_phase answers finished]
      exact .ready waits prompt ready silent

/-- A message that is delivered to the client keeps it honest. -/
theorem honest_deliver (honest : Honest save metadata initial last joining window messages)
    {message : Bytes} {later : List Bytes} (first : joining.wire = message :: later) :
    Honest save metadata initial last { joining with
        wire := later
        replica := { joining.replica with
          incoming := joining.replica.incoming.push .save message } } window messages where
  toFlows := flows_deliver honest.toFlows first
  connected := honest.connected
  track := honest.track
  within := honest.within
  stage := by
    cases honest.stage with
    | loading loads unready ascends => exact .loading loads unready ascends
    | announced waits prompt unready ascends => exact .announced waits prompt unready ascends
    | ready waits prompt ready silent => exact .ready waits prompt ready silent

/-- So does one that arrives at the peer. -/
theorem honest_arrive (honest : Honest save metadata initial last joining window messages)
    {message : Bytes} {later : List Bytes}
    (first : joining.replica.outgoing .lockstep = message :: later) :
    Honest save metadata initial last { joining with
        inbox := joining.inbox ++ [message]
        replica := { joining.replica with
          outgoing := joining.replica.outgoing.pop .lockstep } } window messages where
  toFlows := flows_arrive honest.toFlows first
  connected := honest.connected
  track := honest.track
  within := honest.within
  stage := by
    cases honest.stage with
    | loading loads unready ascends => exact .loading loads unready ascends
    | announced waits prompt unready ascends => exact .announced waits prompt unready ascends
    | ready waits prompt ready silent => exact .ready waits prompt ready silent

/-- The peer accepts the first message, and readiness only when it awaits it. -/
theorem Honest.accepts {message : ClientMessage}
    (honest : Honest save metadata initial last joining window (message :: messages))
    (size : metadata.totalBytes.toNat = save.length) (now : Nat) :
    ∃ peer, joining.peer.receive message metadata now = .ok () peer ∧
      (∀ tick hash, message = .ready tick hash → joining.peer.phase = .awaitingReadiness) ∧
      ∀ inbox, Stage metadata { joining with peer, inbox } messages := by
  have progresses {receivedBytes replayedTick : UInt64}
      (report : message = .progress receivedBytes replayedTick)
      (unready : joining.peer.phase ≠ .ready) (later : joining.peer.replayed ≤ replayedTick)
      (early : replayedTick ≤ joining.replica.startup.replayed) :
      ∃ peer, joining.peer.receive message metadata now = .ok () peer ∧
        peer.replayed = replayedTick ∧ peer.phase ≠ .ready := by
    subst report
    obtain ⟨peer, accepted, replayed, phase⟩ := honest.accepts_progress size unready later
      (UInt64.le_trans early honest.within) now
    rw [← phase] at unready
    exact ⟨peer, accepted, replayed, unready⟩
  cases honest.stage with
  | loading loads unready ascends =>
      cases ascends with
      | progress before later =>
          obtain ⟨peer, accepted, rfl, unready⟩ := progresses rfl unready before later.le
          exact ⟨peer, accepted, (fun _ _ impossible => nomatch impossible),
            fun _ => .loading loads unready later⟩
  | announced waits prompt unready ascends =>
      cases ascends with
      | progress before later =>
          obtain ⟨peer, accepted, rfl, unready⟩ := progresses rfl unready before later.le
          exact ⟨peer, accepted, (fun _ _ impossible => nomatch impossible),
            fun _ => .announced waits prompt unready later⟩
      | ready =>
          have whole := (honest.holds.whole_of_past (ClientStartup.past_of_awaitingStart waits)).1
          have all : ¬ window.sent ≤ chunkCount save := by
            have behind := honest.sound.consumed
            omega
          have awaiting : joining.peer.phase = .awaitingReadiness := by
            rw [← honest.peer.phase] at all
            cases phase : joining.peer.phase with
            | transferring => exact (all phase).elim
            | awaitingReadiness => rfl
            | ready => exact (unready phase).elim
          refine ⟨{ joining.peer with phase := .ready, lastProgress := now }, ?_,
            fun _ _ _ => awaiting, fun _ => .ready waits prompt rfl rfl⟩
          apply eq_ok_of_ensures
          refine (StartupPeer.receive_ready metadata.tick metadata.hash now joining.peer).mono ?_ ?_
          · intro _ next accepted
            exact ⟨rfl, accepted.2.2.2⟩
          · intro _ next rejected
            exact rejected.2 ⟨awaiting, rfl, rfl⟩
  | ready _ _ _ silent => cases silent

/-- What the peer receives, it accepts. -/
theorem honest_receive (honest : Honest save metadata initial last joining window messages)
    (size : metadata.totalBytes.toNat = save.length) (now : Nat) {bytes : Bytes}
    {later : List Bytes} (first : joining.inbox = bytes :: later) :
    ∃ message peer, decodeClientMessage bytes = .ok message ∧
      joining.peer.receive message metadata now = .ok () peer ∧
      (∀ tick hash, message = .ready tick hash → joining.peer.phase = .awaitingReadiness) ∧
      joining.receive metadata now bytes later = { joining with peer, inbox := later } ∧
      ∃ released reports messages, Honest save metadata initial last
        { joining with peer, inbox := later } { window with released, reports } messages := by
  obtain ⟨message, rest, rfl, rfl, outgoing⟩ :=
    first_message honest.toFlows honest.connected first
  obtain ⟨peer, accepted, awaiting, stage⟩ := honest.accepts size now
  obtain ⟨released, reports, flows⟩ := flows_accepted honest.toFlows (fun _ => outgoing) accepted
  refine ⟨message, peer, honest.decodes List.mem_cons_self, accepted, awaiting, ?_, released,
    reports, rest, { honest with toFlows := flows, stage := stage later }⟩
  rw [receive_encode honest.toFlows, accepted]

/-- On some window, and with some messages under way, nothing went wrong. -/
def Fine (save : Bytes) (metadata : SaveMetadata) (initial last : σ) (joining : Joining σ) : Prop :=
  ∃ window messages, Honest save metadata initial last joining window messages

/-- Receiving a message of the save goes well, and keeps the transfer honest. -/
theorem fine_receiveSave (valid : ValidSave save metadata initial last)
    (fine : Fine save metadata initial last joining) :
    Ensures Replica.receiveSave joining.replica
      (fun _ replica => Fine save metadata initial last { joining with replica })
      (fun _ _ => False) := by
  obtain ⟨window, messages, honest⟩ := fine
  by_cases empty : joining.replica.incoming .save = []
  · unfold Replica.receiveSave
    rw [ensures_bind, ensures_ok (Replica.receiveMessage_nil empty)]
    exact ⟨window, messages, honest⟩
  obtain ⟨_, more, later, first, _⟩ := honest.next_message empty
  have taken := ClientStartup.onTrack_receiveSave valid honest.holds more honest.track
  have spec := (Replica.ensures_receiveSave first (transferMessage_decodes more)
    (fun _ replica => replica.startup.OnTrack save metadata initial last replica.sim ∧
      replica.startup.replayed = joining.replica.startup.replayed ∧
      ∀ announced, replica.startup.phase ≠ .awaitingStart announced) fun _ _ => False).mpr taken
  refine (spec.and (flows_consume valid.size honest.toFlows empty)).mono ?_ ?_
  · intro _ replica both
    obtain ⟨⟨track, replayed, loads⟩, flows⟩ := both
    have early (waits : joining.replica.startup.phase = .awaitingStart metadata) : False := by
      have whole := (honest.holds.whole_of_past (ClientStartup.past_of_awaitingStart waits)).1
      omega
    refine ⟨_, messages, { honest with toFlows := flows, track, within := ?_, stage := ?_ }⟩
    · change replica.startup.replayed ≤ metadata.tick
      rw [replayed]
      exact honest.within
    · cases honest.stage with
      | loading _ unready ascends =>
          rw [← replayed] at ascends
          exact .loading loads unready ascends
      | announced waits => exact (early waits).elim
      | ready waits => exact (early waits).elim
  · intro error replica both
    exact both.1

/-- So does receiving all that are there. -/
theorem fine_receiveSaves (valid : ValidSave save metadata initial last)
    (fine : Fine save metadata initial last joining) :
    Ensures Replica.receiveSaves joining.replica
      (fun _ replica => Fine save metadata initial last { joining with replica })
      (fun _ _ => False) := by
  unfold Replica.receiveSaves
  rw [ensures_bind, ensures_get]
  apply ensures_forEach _ fun replica => Fine save metadata initial last { joining with replica }
  · intro _ _ replica kept
    exact fine_receiveSave valid kept
  · exact fine

/-- The client may report its progress while it has not announced that it is ready. -/
theorem fine_reporting (size : metadata.totalBytes.toNat = save.length)
    (honest : Honest save metadata initial last joining window messages)
    (loads : ∀ announced, joining.replica.startup.phase ≠ .awaitingStart announced)
    (news : joining.replica.startup.progress ≠ joining.replica.reported) :
    Fine save metadata initial last { joining with replica := joining.replica.reporting } := by
  refine ⟨_, _, { honest with toFlows := flows_reporting size honest.toFlows news, stage := ?_ }⟩
  cases honest.stage with
  | loading _ unready ascends => exact .loading loads unready (ascends.report _)
  | announced waits => exact (loads _ waits).elim
  | ready waits => exact (loads _ waits).elim

/-- A client that announced it is ready has reported what it received. -/
theorem Honest.prompt (honest : Honest save metadata initial last joining window messages)
    {announced : SaveMetadata} (waits : joining.replica.startup.phase = .awaitingStart announced) :
    joining.replica.startup.received = joining.replica.reported.1 := by
  cases honest.stage with
  | loading loads => exact (loads _ waits).elim
  | announced _ prompt => exact prompt
  | ready _ prompt => exact prompt

/-- What was received is reported behind it. -/
theorem fine_reportConsumption (size : metadata.totalBytes.toNat = save.length)
    (fine : Fine save metadata initial last joining) :
    Ensures Replica.reportConsumption joining.replica
      (fun _ replica => Fine save metadata initial last { joining with replica } ∧
        replica.startup.received = replica.reported.1)
      (fun _ _ => False) := by
  obtain ⟨window, messages, honest⟩ := fine
  rw [ensures_ok (Replica.reportConsumption_eq joining.replica)]
  by_cases news : joining.replica.startup.progress.1 ≠ joining.replica.reported.1
  · rw [if_pos news]
    refine ⟨fine_reporting size honest ?_ fun same => news (congrArg Prod.fst same), rfl⟩
    intro announced waits
    exact news (honest.prompt waits)
  · rw [if_neg news]
    exact ⟨⟨window, messages, honest⟩, not_not.mp news⟩

/-- A step of the replay goes well once what was received is reported. -/
theorem fine_stepStartup (keeps : FinishKeepsTick σ) (valid : ValidSave save metadata initial last)
    (passes : Nat) (fine : Fine save metadata initial last joining)
    (prompt : joining.replica.startup.received = joining.replica.reported.1) :
    Ensures (Replica.stepStartup passes) joining.replica
      (fun _ replica => Fine save metadata initial last { joining with replica })
      (fun _ _ => False) := by
  obtain ⟨window, messages, honest⟩ := fine
  by_cases replaying : ∃ announced reader, joining.replica.startup.phase = .replaying announced reader
  · obtain ⟨announced, reader, phase⟩ := replaying
    obtain ⟨rfl, read, replayed⟩ := honest.track.read phase
    obtain ⟨whole, nonempty, received⟩ :=
      honest.holds.whole_of_past (ClientStartup.past_of_replaying phase)
    have ascending {high : UInt64} (later : joining.replica.startup.replayed ≤ high) :
        joining.peer.phase ≠ .ready ∧ Ascends announced joining.peer.replayed messages high false := by
      cases honest.stage with
      | loading _ unready ascends => exact ⟨unready, ascends.raise later⟩
      | announced waits =>
          rw [phase] at waits
          cases waits
      | ready waits =>
          rw [phase] at waits
          cases waits
    unfold Replica.stepStartup
    rw [ensures_bind, ensures_zoom]
    refine (ClientStartup.onTrack_step keeps valid passes phase read replayed).mono ?_ ?_
    · intro result state stepped
      obtain ⟨track, same, later, within, exit⟩ := stepped
      obtain ⟨unready, ascends⟩ := ascending later
      rcases exit with ⟨rfl, reader', phase'⟩ | ⟨rfl, waits⟩
      · have flows := flows_replayed honest.toFlows whole nonempty state.1 state.2 joining.stopped
          (same.trans received) (ClientStartup.past_of_replaying phase')
        refine ⟨window, messages, { honest with
          toFlows := flows, track, within, stage := .loading ?_ unready ascends }⟩
        intro other waits
        rw [phase'] at waits
        cases waits
      · have flows := flows_replayed honest.toFlows whole nonempty state.1 state.2 joining.stopped
          (same.trans received) (ClientStartup.past_of_awaitingStart waits)
        exact ⟨window, _, { honest with
          toFlows := flows_announced flows whole announced.tick announced.hash
          track
          within
          stage := .announced waits (same.trans prompt) unready ascends.announce }⟩
    · intro error state impossible
      exact impossible
  · rw [ensures_ok (Replica.stepStartup_elsewhere passes fun announced reader phase =>
      replaying ⟨announced, reader, phase⟩)]
    exact ⟨window, messages, honest⟩

/-- What a client shows changes nothing. -/
theorem Fine.status (fine : Fine save metadata initial last joining) (status : SessionStatus) :
    Fine save metadata initial last
      { joining with replica := { joining.replica with status } } := by
  obtain ⟨window, messages, honest⟩ := fine
  refine ⟨window, messages, { honest with toFlows := flows_status honest.toFlows status, stage := ?_ }⟩
  cases honest.stage with
  | loading loads unready ascends => exact .loading loads unready ascends
  | announced waits prompt unready ascends => exact .announced waits prompt unready ascends
  | ready waits prompt ready quiet => exact .ready waits prompt ready quiet

/-- A report of the progress goes well, and keeps the transfer honest. -/
theorem fine_reportLoading (size : metadata.totalBytes.toNat = save.length) (due : Bool)
    (fine : Fine save metadata initial last joining) :
    Ensures (Replica.reportLoading due) joining.replica
      (fun _ replica => Fine save metadata initial last { joining with replica })
      (fun _ _ => False) := by
  have fine' := fine
  obtain ⟨window, messages, honest⟩ := fine
  rw [ensures_ok (Replica.reportLoading_eq due joining.replica)]
  by_cases news : (joining.replica.startup.isLoading ∧ due) ∧
      joining.replica.startup.progress ≠ joining.replica.reported
  · rw [if_pos news]
    have loads (announced : SaveMetadata) :
        joining.replica.startup.phase ≠ .awaitingStart announced := by
      intro waits
      have loading := news.1.1
      rw [ClientStartup.isLoading, waits] at loading
      cases loading
    exact (fine_reporting size honest loads news.2).status _
  · rw [if_neg news]
    exact fine'.status _

/-- Taking, reporting and replaying the save never fails. -/
theorem fine_load (keeps : FinishKeepsTick σ) (valid : ValidSave save metadata initial last)
    (input : ClientInput) (fine : Fine save metadata initial last joining) :
    Ensures (Replica.load input) joining.replica
      (fun _ replica => Fine save metadata initial last { joining with replica })
      (fun _ _ => False) := by
  unfold Replica.load
  rw [ensures_bind]
  refine (fine_receiveSaves valid fine).mono ?_ fun _ _ impossible => impossible
  intro _ taken fine
  rw [ensures_bind]
  refine (fine_reportConsumption valid.size fine).mono ?_ fun _ _ impossible => impossible
  intro _ reported both
  rw [ensures_bind]
  refine (fine_stepStartup keeps valid input.passes both.1 both.2).mono ?_
    fun _ _ impossible => impossible
  intro _ stepped fine
  exact fine_reportLoading valid.size input.progressDue fine

/-- A client that joins is not live. -/
theorem not_isLive_of_onTrack {startup : ClientStartup} {sim : σ}
    (track : startup.OnTrack save metadata initial last sim) : startup.isLive = false := by
  unfold ClientStartup.isLive
  cases track with
  | receiving phase => rw [phase]
  | replaying phase => rw [phase]
  | awaitingStart phase => rw [phase]

/-- The server has sent nothing but the save. -/
def Quiet (joining : Joining σ) : Prop :=
  joining.replica.incoming .lockstep = [] ∧ joining.replica.incoming .desync = []

/-- An iteration of the client loop receives what there is of the save, and fails only for its
environment. -/
theorem fine_iteration (keeps : FinishKeepsTick σ) (valid : ValidSave save metadata initial last)
    (input : ClientInput) (fine : Fine save metadata initial last joining)
    (quiet : joining.Quiet) :
    Ensures (Replica.iteration input) joining.replica
      (fun _ replica => Fine save metadata initial last { joining with replica } ∧
        Quiet { joining with replica } ∧ replica.incoming .save = [])
      (fun error replica => (input.network = some error ∨ input.flush = some error ∨
          error = .inputDisconnected ∧ input.inputClosed = true) ∧
        Fine save metadata initial last { joining with replica } ∧
          Quiet { joining with replica }) := by
  have waits : joining.replica.startup.isLive = false := by
    obtain ⟨_, _, honest⟩ := fine
    exact not_isLive_of_onTrack honest.track
  unfold Replica.iteration
  rw [ensures_bind]
  refine (ensures_failWith input.network joining.replica).mono ?_ ?_
  · intro _ replica outcome
    obtain ⟨_, same⟩ := outcome
    subst same
    rw [ensures_bind]
    refine (Replica.ensures_forwardInputs input waits).mono ?_ ?_
    · intro _ replica same
      subst same
      rw [ensures_bind]
      refine ((fine_load keeps valid input fine).and (Replica.drains_load input _)).mono ?_ ?_
      · intro _ loaded both
        obtain ⟨fine, drained, kept⟩ := both
        have lockstep : loaded.incoming .lockstep = [] :=
          (kept .lockstep Channel.noConfusion).trans quiet.1
        have desync : loaded.incoming .desync = [] :=
          (kept .desync Channel.noConfusion).trans quiet.2
        rw [ensures_bind, ensures_ok (Replica.receiveServers_nil _ lockstep), ensures_bind,
          ensures_ok (Replica.receiveMessage_nil desync)]
        refine (ensures_failWith input.flush loaded).mono ?_ ?_
        · intro _ replica outcome
          obtain ⟨_, same⟩ := outcome
          subst same
          exact ⟨fine, ⟨lockstep, desync⟩, drained⟩
        · intro error replica failed
          obtain ⟨flush, same⟩ := failed
          subst same
          exact ⟨Or.inr (Or.inl flush), fine, lockstep, desync⟩
      · intro error replica both
        exact both.1.elim
    · intro error replica failed
      obtain ⟨closed, same⟩ := failed
      subst same
      exact ⟨Or.inr (Or.inr closed), fine, quiet⟩
  · intro error replica failed
    obtain ⟨network, same⟩ := failed
    subst same
    exact ⟨Or.inl network, fine, quiet⟩

/-- The turns of a transfer, with whole iterations of the client loop, each with what the
peer sends and what is delivered to the client. An iteration that ends with an error
leaves the state it got to. -/
inductive Turn (save : Bytes) (metadata : SaveMetadata) :
    Joining σ → List Bytes → List Bytes → Joining σ → Prop
  | pump {joining : Joining σ} (answers : List Capacity) (connected : joining.rejected = false) :
      Turn save metadata joining (joining.peer.pump save metadata answers).2 [] { joining with
        peer := (joining.peer.pump save metadata answers).1
        wire := joining.wire ++ (joining.peer.pump save metadata answers).2 }
  | deliver {joining : Joining σ} {message : Bytes} {later : List Bytes}
      (first : joining.wire = message :: later) :
      Turn save metadata joining [] [message] { joining with
        wire := later
        replica := { joining.replica with
          incoming := joining.replica.incoming.push .save message } }
  | iterate {joining : Joining σ} (input : ClientInput) :
      Turn save metadata joining [] [] { joining with
        replica := (Replica.iteration input).final joining.replica }
  | arrive {joining : Joining σ} {message : Bytes} {later : List Bytes}
      (first : joining.replica.outgoing .lockstep = message :: later) :
      Turn save metadata joining [] [] { joining with
        inbox := joining.inbox ++ [message]
        replica := { joining.replica with
          outgoing := joining.replica.outgoing.pop .lockstep } }
  | receive {joining : Joining σ} (now : Nat) {message : Bytes} {later : List Bytes}
      (connected : joining.rejected = false) (first : joining.inbox = message :: later) :
      Turn save metadata joining [] [] (joining.receive metadata now message later)

/-- A transfer from its beginning, with all that the peer sent and all that was delivered to
the client. -/
inductive Course (save : Bytes) (metadata : SaveMetadata) (now : Nat) (initial : σ) :
    List Bytes → List Bytes → Joining σ → Prop
  | begun : Course save metadata now initial [] [] (begun now initial)
  | turn {sent delivered more arrived : List Bytes} {joining next : Joining σ}
      (course : Course save metadata now initial sent delivered joining)
      (turn : Turn save metadata joining more arrived next) :
      Course save metadata now initial (sent ++ more) (delivered ++ arrived) next

/-- A transfer on which nothing went wrong: what was sent are the first messages of the
transfer, and what was not delivered yet is on the wire. -/
structure Passed (save : Bytes) (metadata : SaveMetadata) (initial last : σ) (joining : Joining σ)
    (sent delivered : List Bytes) (window : CreditWindow) (messages : List ClientMessage) : Prop
    extends Honest save metadata initial last joining window messages where
  quiet : joining.Quiet
  sends : sent = transferBytes save metadata 0 window.sent
  onWire : sent = delivered ++ joining.wire

/-- What was delivered was consumed, or waits for the client. -/
theorem Passed.taken {sent delivered : List Bytes}
    (passed : Passed save metadata initial last joining sent delivered window messages) :
    delivered = transferBytes save metadata 0 window.consumed ++ joining.replica.incoming .save := by
  have all : transferBytes save metadata 0 window.consumed ++
      transferBytes save metadata window.consumed window.sent =
      transferBytes save metadata 0 window.sent :=
    transferBytes_append (Nat.zero_le _) passed.sound.consumed
  rw [← passed.transit, ← passed.sends, passed.onWire, ← List.append_assoc] at all
  exact (List.append_cancel_right all).symm

/-- A turn of such a transfer goes wrong nowhere. -/
theorem passed_turn (keeps : FinishKeepsTick σ) (valid : ValidSave save metadata initial last)
    {sent delivered more arrived : List Bytes} {next : Joining σ}
    (passed : Passed save metadata initial last joining sent delivered window messages)
    (turn : Turn save metadata joining more arrived next) :
    ∃ window messages, Passed save metadata initial last next (sent ++ more)
      (delivered ++ arrived) window messages := by
  have honest := passed.toHonest
  cases turn with
  | pump answers =>
      obtain ⟨further, later, sends, honest⟩ := honest_pump honest answers
      refine ⟨_, _, { honest with quiet := passed.quiet, sends := ?_, onWire := ?_ }⟩
      · rw [passed.sends, sends]
        exact transferBytes_append (Nat.zero_le _) later
      · rw [passed.onWire, List.append_nil, List.append_assoc]
  | deliver first =>
      refine ⟨_, _, { honest_deliver honest first with
        quiet := passed.quiet, sends := ?_, onWire := ?_ }⟩
      · rw [List.append_nil]
        exact passed.sends
      · rw [List.append_nil, passed.onWire, first, List.append_assoc]
        rfl
  | iterate input =>
      have spec := (fine_iteration keeps valid input ⟨window, messages, honest⟩ passed.quiet).mono
        (fun _ _ kept => And.intro kept.1 kept.2.1) (fun _ _ failed => failed.2)
      obtain ⟨⟨window', messages', honest'⟩, quiet⟩ := spec.final
      -- The peer took no part, so that it sent what it had sent before.
      have same := honest.peer.toTracks.unique honest'.peer.toTracks
      refine ⟨window', messages', { honest' with quiet, sends := ?_, onWire := ?_ }⟩
      · rw [List.append_nil, ← same]
        exact passed.sends
      · rw [List.append_nil, List.append_nil]
        exact passed.onWire
  | arrive first =>
      refine ⟨_, _, { honest_arrive honest first with
        quiet := passed.quiet, sends := ?_, onWire := ?_ }⟩
      · rw [List.append_nil]
        exact passed.sends
      · rw [List.append_nil, List.append_nil]
        exact passed.onWire
  | receive now _ first =>
      obtain ⟨_, _, _, _, _, same, _, _, _, honest⟩ := honest_receive honest valid.size now first
      rw [same]
      refine ⟨_, _, { honest with quiet := passed.quiet, sends := ?_, onWire := ?_ }⟩
      · rw [List.append_nil]
        exact passed.sends
      · rw [List.append_nil, List.append_nil]
        exact passed.onWire

/-- Nothing goes wrong in the course of a transfer of a valid save. -/
theorem passed_course (keeps : FinishKeepsTick σ) (valid : ValidSave save metadata initial last)
    {now : Nat} {sent delivered : List Bytes}
    (course : Course save metadata now initial sent delivered joining) :
    ∃ window messages,
      Passed save metadata initial last joining sent delivered window messages := by
  induction course with
  | begun =>
      exact ⟨{}, [], { honest_new now initial last with
        quiet := ⟨rfl, rfl⟩
        sends := (transferBytes_self 0).symm
        onWire := rfl }⟩
  | turn _ turn ih =>
      obtain ⟨window, messages, passed⟩ := ih
      exact passed_turn keeps valid passed turn

/-- Nothing follows the announcement that the client is ready. -/
theorem Honest.silent_after (honest : Honest save metadata initial last joining window messages)
    {earlier later : List Bytes} {tick hash : UInt64}
    (sent : joining.inbox ++ joining.replica.outgoing .lockstep =
      earlier ++ encode (ClientMessage.ready tick hash) :: later) : later = [] := by
  rw [honest.outgoing honest.connected] at sent
  obtain ⟨front, back, rfl, rfl, announced⟩ := List.map_eq_append_iff.mp sent
  obtain ⟨message, rest, rfl, same, rfl⟩ := List.map_eq_cons_iff.mp announced
  have decodes := honest.decodes (List.mem_append_right front List.mem_cons_self)
  rw [same, decodeClientMessage_encode (.ready tick hash) fun _ impossible => nomatch impossible]
    at decodes
  cases decodes
  have nothing : rest = [] := by
    cases honest.stage with
    | loading _ _ ascends => exact ascends.last
    | announced _ _ _ ascends => exact ascends.last
    | ready _ _ _ silent => exact (List.append_ne_nil_of_right_ne_nil _ (List.cons_ne_nil _ _) silent).elim
  rw [nothing]
  rfl

/-- What an honest client is promised at any time before the start, by what the peer sent and
what was delivered of it so far. -/
structure Promised (save : Bytes) (metadata : SaveMetadata) (initial last : σ)
    (sent delivered : List Bytes) (joining : Joining σ) : Prop where
  connected : joining.rejected = false
  /-- The peer accepts the next message, and readiness is awaited when it comes. -/
  accepts : ∀ now bytes later, joining.inbox = bytes :: later → ∃ message peer,
    decodeClientMessage bytes = .ok message ∧
    joining.peer.receive message metadata now = .ok () peer ∧
    ∀ tick hash, message = .ready tick hash → joining.peer.phase = .awaitingReadiness
  /-- The messages of the save are sent in their order and delivered in that order. -/
  sends : sent <+: transferBytes save metadata 0 (chunkCount save + 1)
  arrives : sent = delivered ++ joining.wire
  /-- The client holds what it consumed of them, and the others wait for it. -/
  holds : ∃ count ≤ delivered.length, joining.replica.startup.Holds save metadata count ∧
    joining.replica.incoming .save = delivered.drop count
  /-- An iteration of the client loop fails only for its environment. After it, the client holds
  all that was delivered. -/
  running : ∀ input, Ensures (Replica.iteration input) joining.replica
    (fun _ next => next.startup.Holds save metadata delivered.length ∧
      next.incoming .save = [])
    (fun error _ => input.network = some error ∨ input.flush = some error ∨
      error = .inputDisconnected ∧ input.inputClosed = true)
  /-- The client holds a proper prefix of the save, -/
  receiving : ∀ announced bytes, joining.replica.startup.phase = .receiving announced bytes →
    bytes = save.take joining.replica.startup.received.toNat ∧ bytes.length < save.length
  /-- then replays exactly the save, -/
  replaying : ∀ announced reader, joining.replica.startup.phase = .replaying announced reader →
    announced = metadata ∧ joining.replica.startup.received.toNat = save.length ∧
      ReadSoFar save initial joining.replica.sim joining.replica.startup.initialized reader
  /-- and has replayed it where it waits for the start. -/
  track : joining.replica.startup.OnTrack save metadata initial last joining.replica.sim
  /-- Nothing follows the announcement that it is ready, under way -/
  finishes : ∀ earlier later tick hash, joining.inbox ++ joining.replica.outgoing .lockstep =
    earlier ++ encode (ClientMessage.ready tick hash) :: later → later = []
  /-- or received. -/
  silent : joining.peer.phase = .ready → joining.inbox ++ joining.replica.outgoing .lockstep = []

/-- After an iteration that returns, a client holds all that was delivered to it. -/
theorem Passed.iterated (keeps : FinishKeepsTick σ) (valid : ValidSave save metadata initial last)
    {sent delivered : List Bytes}
    (passed : Passed save metadata initial last joining sent delivered window messages)
    (input : ClientInput) :
    Ensures (Replica.iteration input) joining.replica
      (fun _ next => next.startup.Holds save metadata delivered.length ∧ next.incoming .save = [])
      (fun error _ => input.network = some error ∨ input.flush = some error ∨
        error = .inputDisconnected ∧ input.inputClosed = true) := by
  refine ((fine_iteration keeps valid input ⟨window, messages, passed.toHonest⟩ passed.quiet).and
    (ensures_self _ _)).mono ?_ fun _ _ failed => failed.1.1
  intro _ next outcome
  obtain ⟨⟨_, _, drained⟩, returns⟩ := outcome
  have turn : Turn save metadata joining [] [] { joining with
      replica := (Replica.iteration input).final joining.replica } := .iterate input
  rw [final_of_ok returns] at turn
  obtain ⟨window', _, passed'⟩ := passed_turn keeps valid passed turn
  have taken := passed'.taken
  rw [drained, List.append_nil, List.append_nil] at taken
  refine ⟨?_, drained⟩
  rw [taken, transferBytes, List.length_map, List.length_range', Nat.sub_zero]
  exact passed'.holds

/-- The transfer of a valid save to an honest client keeps its promises, whatever
turns it takes. -/
theorem joining_honest (keeps : FinishKeepsTick σ) (valid : ValidSave save metadata initial last)
    {now : Nat} {sent delivered : List Bytes}
    (course : Course save metadata now initial sent delivered joining) :
    joining.Promised save metadata initial last sent delivered := by
  obtain ⟨window, messages, passed⟩ := passed_course keeps valid course
  have honest := passed.toHonest
  have counted : (transferBytes save metadata 0 window.consumed).length = window.consumed := by
    rw [transferBytes, List.length_map, List.length_range', Nat.sub_zero]
  refine ⟨honest.connected, ?_, ?_, passed.onWire, ?_, passed.iterated keeps valid, ?_, ?_,
    honest.track, ?_, ?_⟩
  · intro now bytes later first
    obtain ⟨message, peer, decodes, accepted, awaiting, _⟩ :=
      honest_receive honest valid.size now first
    exact ⟨message, peer, decodes, accepted, awaiting⟩
  · rw [passed.sends, ← transferBytes_append (Nat.zero_le _) honest.peer.bound]
    exact List.prefix_append _ _
  · refine ⟨window.consumed, ?_, honest.holds, ?_⟩
    · rw [passed.taken, List.length_append, counted]
      exact Nat.le_add_right _ _
    · rw [passed.taken, List.drop_left' counted]
  · intro announced bytes receiving
    exact honest.holds.held valid.size valid.log.nonempty receiving
  · intro announced reader replaying
    obtain ⟨rfl, read, _⟩ := honest.track.read replaying
    have received :=
      (honest.holds.whole_of_past (ClientStartup.past_of_replaying replaying)).2.2
    exact ⟨rfl, by rw [received, valid.size], read⟩
  · intro earlier later tick hash sent
    exact honest.silent_after sent
  · intro ready
    rw [honest.outgoing honest.connected]
    cases honest.stage with
    | loading _ unready => exact (unready ready).elim
    | announced _ _ unready => exact (unready ready).elim
    | ready _ _ _ silent =>
        rw [silent]
        rfl

/-- What is chosen in a turn. -/
inductive Move
  | pump (answers : List Capacity)
  | deliver
  | iterate (input : ClientInput)
  | arrive
  | receive (now : Nat)

/-- Take a turn, where it can be taken: what is sent, what is delivered, and what follows. -/
def take (save : Bytes) (metadata : SaveMetadata) (joining : Joining σ) :
    Move → Option (List Bytes × List Bytes × Joining σ)
  | .pump answers =>
      if joining.rejected then none
      else some ((joining.peer.pump save metadata answers).2, [], { joining with
        peer := (joining.peer.pump save metadata answers).1
        wire := joining.wire ++ (joining.peer.pump save metadata answers).2 })
  | .deliver =>
      match joining.wire with
      | [] => none
      | message :: later => some ([], [message], { joining with
          wire := later
          replica := { joining.replica with
            incoming := joining.replica.incoming.push .save message } })
  | .iterate input => some ([], [], { joining with
      replica := (Replica.iteration input).final joining.replica })
  | .arrive =>
      match joining.replica.outgoing .lockstep with
      | [] => none
      | message :: _ => some ([], [], { joining with
          inbox := joining.inbox ++ [message]
          replica := { joining.replica with
            outgoing := joining.replica.outgoing.pop .lockstep } })
  | .receive now =>
      match joining.inbox with
      | [] => none
      | message :: later =>
          if joining.rejected then none
          else some ([], [], joining.receive metadata now message later)

/-- Take one turn after another, from a transfer with what was sent and delivered so far. -/
def takes (save : Bytes) (metadata : SaveMetadata) :
    List Move → List Bytes × List Bytes × Joining σ → Option (List Bytes × List Bytes × Joining σ)
  | [], passing => some passing
  | move :: later, (sent, delivered, joining) => do
      let (more, arrived, next) ← joining.take save metadata move
      takes save metadata later (sent ++ more, delivered ++ arrived, next)

/-- What is taken is a turn. -/
theorem turn_of_take {move : Move} {more arrived : List Bytes} {next : Joining σ}
    (takes : joining.take save metadata move = some (more, arrived, next)) :
    Turn save metadata joining more arrived next := by
  cases move with
  | pump answers =>
      dsimp only [take] at takes
      by_cases rejected : joining.rejected = true
      · rw [if_pos rejected] at takes
        cases takes
      · rw [if_neg rejected] at takes
        cases takes
        exact .pump answers (Bool.eq_false_iff.mpr rejected)
  | deliver =>
      cases first : joining.wire with
      | nil =>
          simp only [take, first] at takes
          cases takes
      | cons message later =>
          simp only [take, first] at takes
          cases takes
          exact .deliver first
  | iterate input =>
      cases takes
      exact .iterate input
  | arrive =>
      cases first : joining.replica.outgoing .lockstep with
      | nil =>
          simp only [take, first] at takes
          cases takes
      | cons message later =>
          simp only [take, first] at takes
          cases takes
          exact .arrive first
  | receive now =>
      cases first : joining.inbox with
      | nil =>
          simp only [take, first] at takes
          cases takes
      | cons message later =>
          simp only [take, first] at takes
          by_cases rejected : joining.rejected = true
          · rw [if_pos rejected] at takes
            cases takes
          · rw [if_neg rejected] at takes
            cases takes
            exact .receive now (Bool.eq_false_iff.mpr rejected) first

/-- Turns that are taken go on with a transfer. -/
theorem course_of_takes {now : Nat} {moves : List Move} {sent delivered sent' delivered' : List Bytes}
    {next : Joining σ} (course : Course save metadata now initial sent delivered joining)
    (taken : takes save metadata moves (sent, delivered, joining) = some (sent', delivered', next)) :
    Course save metadata now initial sent' delivered' next := by
  induction moves generalizing sent delivered joining with
  | nil =>
      cases taken
      exact course
  | cons move later ih =>
      obtain ⟨⟨more, arrived, middle⟩, first, rest⟩ := Option.bind_eq_some_iff.mp taken
      exact ih (.turn course (turn_of_take first)) rest

def tallyMetadata : SaveMetadata where
  totalBytes := UInt64.ofNat tallyLog.length
  tick := 1
  hash := 7

/-- The whole transfer of `tallyLog`: its announcement and its chunk, and the report and the
readiness of the client. -/
def tallyMoves : List Move :=
  [.pump twoAdmitted, .deliver, .deliver, .iterate { passes := 2 }, .arrive, .arrive, .receive 1,
    .receive 2]

theorem joining_honest_tally : ∃ (sent delivered : List Bytes) (joining : Joining (Adapter tallyGame)),
    takes tallyLog tallyMetadata tallyMoves ([], [], begun 0 { header := tallyHeader }) =
      some (sent, delivered, joining) ∧
    delivered.length = 2 ∧ joining.peer.phase = .ready ∧
    joining.Promised tallyLog tallyMetadata { header := tallyHeader } tallyLast sent delivered := by
  have runs : (takes tallyLog tallyMetadata tallyMoves
      ([], [], begun 0 ({ header := tallyHeader } : Adapter tallyGame))).any fun passing =>
        decide (passing.2.1.length = 2 ∧ passing.2.2.peer.phase = .ready) := by
    decide +kernel
  obtain ⟨⟨sent, delivered, joining⟩, taken, ready⟩ := Option.any_eq_true _ _ |>.mp runs
  obtain ⟨both, ready⟩ := of_decide_eq_true ready
  exact ⟨sent, delivered, joining, taken, both, ready,
    joining_honest (Adapter.finishKeepsTick fun _ => rfl)
      ⟨by decide, readsAsLog_tallyLog, rfl, rfl⟩ (course_of_takes .begun taken)⟩

end Joining

end Synctick
