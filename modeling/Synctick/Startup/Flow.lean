import Synctick.Startup.Joining

/-! # The flow of a save

Every run of a transfer moves the counters of a credit window. What the client
has not consumed is charged to its peer, and while the client does not hold the
whole save, some message, report or pump moves the transfer on.
-/

namespace Synctick

open SessionSimulation Effect CreditWindow

/-- The messages under way to the peer, and the counts of consumed messages that
they report. -/
inductive Reports (save : Bytes) : List ClientMessage → List Nat → Prop
  | none : Reports save [] []
  | progress {receivedBytes replayedTick : UInt64} {count : Nat} {messages : List ClientMessage}
      {counts : List Nat} (reported : receivedBytes.toNat = chunkEnd save (count - 1))
      (some : 2 ≤ count) (loaded : replayedTick = 0 ∨ count = chunkCount save + 1)
      (later : Reports save messages counts) :
      Reports save (.progress receivedBytes replayedTick :: messages) (count :: counts)
  | ready {tick hash : UInt64} {messages : List ClientMessage} {counts : List Nat}
      (later : Reports save messages counts) :
      Reports save (.ready tick hash :: messages) counts

/-- A client that joins sends no command. -/
theorem Reports.input_not_mem {save : Bytes} {messages : List ClientMessage} {counts : List Nat}
    (reports : Reports save messages counts) (payload : CommandPayload) :
    ClientMessage.input payload ∉ messages := by
  induction reports with
  | none => exact List.not_mem_nil
  | progress _ _ _ _ ih =>
      intro member
      cases member with
      | tail _ later => exact ih later
  | ready _ ih =>
      intro member
      cases member with
      | tail _ later => exact ih later

/-- Reports in a row are reports. -/
theorem Reports.append {save : Bytes} {messages messages' : List ClientMessage}
    {counts counts' : List Nat} (first : Reports save messages counts)
    (second : Reports save messages' counts') :
    Reports save (messages ++ messages') (counts ++ counts') := by
  induction first with
  | none => exact second
  | progress reported some loaded _ ih => exact .progress reported some loaded ih
  | ready _ ih => exact .ready ih

namespace Joining

variable {σ : Type} {save : Bytes} {metadata : SaveMetadata}

/-- Before the client holds the save, nothing has gone wrong. -/
structure Loading (joining : Joining σ) (messages : List ClientMessage) : Prop where
  replayed : joining.peer.replayed = 0
  unready : joining.peer.phase ≠ .ready
  silent : ∀ tick hash, ClientMessage.ready tick hash ∉ messages
  connected : joining.rejected = false
  running : joining.stopped = none

/-- A transfer follows the counters of a credit window. -/
structure Flows (save : Bytes) (metadata : SaveMetadata) (joining : Joining σ)
    (window : CreditWindow) (messages : List ClientMessage) : Prop where
  sound : Sound (transferSize save metadata) channelSaveMaxMem window
  peer : joining.peer.Received save metadata window.sent window.released
  transit : joining.replica.incoming .save ++ joining.wire =
    transferBytes save metadata window.consumed window.sent
  holds : joining.replica.startup.Holds save metadata window.consumed
  reported : joining.replica.reported.1.toNat = chunkEnd save (window.reported - 1)
  announced : window.reported ≠ 1
  loaded : joining.replica.reported.2 = 0 ∨ window.reported = chunkCount save + 1 ∧ save ≠ []
  outgoing : joining.rejected = false →
    joining.inbox ++ joining.replica.outgoing .lockstep = messages.map encode
  reports : Reports save messages window.reports
  loading : window.consumed ≤ chunkCount save → joining.Loading messages

end Joining

namespace ClientStartup

variable {save : Bytes} {metadata : SaveMetadata} {count : Nat} {startup : ClientStartup}

/-- The count of received bytes stands for the count of messages. -/
theorem Holds.received (holds : startup.Holds save metadata count)
    (size : metadata.totalBytes.toNat = save.length) :
    startup.received.toNat = chunkEnd save (count - 1) := by
  cases holds with
  | silent => exact chunkEnd_zero.symm
  | receiving => exact toNat_chunkEnd size _
  | whole _ received => rw [received, size, Nat.add_sub_cancel, chunkEnd_count]
  | refused empty =>
      subst empty
      rfl

/-- Nothing was replayed before the whole save was there. -/
theorem Holds.replayed (holds : startup.Holds save metadata count) :
    startup.replayed = 0 ∨ count = chunkCount save + 1 ∧ save ≠ [] := by
  cases holds with
  | silent => exact Or.inl rfl
  | receiving => exact Or.inl rfl
  | whole nonempty => exact Or.inr ⟨rfl, nonempty⟩
  | refused => exact Or.inl rfl

/-- No more messages are held than the transfer has. -/
theorem Holds.bound (holds : startup.Holds save metadata count) : count ≤ chunkCount save + 1 := by
  cases holds with
  | silent => exact Nat.zero_le _
  | receiving more => exact Nat.succ_le_succ (Nat.le_of_lt more)
  | whole => exact Nat.le_refl _
  | refused => exact Nat.le_refl _

/-- A client that is past receiving took the whole save. -/
theorem Holds.whole_of_past (holds : startup.Holds save metadata count)
    (past : ∀ announced bytes, startup.phase ≠ .receiving announced bytes) :
    count = chunkCount save + 1 ∧ save ≠ [] ∧ startup.received = metadata.totalBytes := by
  cases holds with
  | silent => exact (past _ _ rfl).elim
  | receiving => exact (past _ _ rfl).elim
  | whole nonempty received => exact ⟨rfl, nonempty, received⟩
  | refused => exact (past _ _ rfl).elim

/-- What a client that is still receiving holds. -/
theorem Holds.held (holds : startup.Holds save metadata count)
    (size : metadata.totalBytes.toNat = save.length) (nonempty : save ≠ [])
    {announced : Option SaveMetadata} {bytes : Bytes}
    (receiving : startup.phase = .receiving announced bytes) :
    bytes = save.take startup.received.toNat ∧ bytes.length < save.length := by
  cases holds with
  | silent =>
      cases receiving
      exact ⟨rfl, List.length_pos_iff.mpr nonempty⟩
  | receiving more =>
      cases receiving
      rw [toNat_chunkEnd size]
      refine ⟨rfl, Nat.lt_of_le_of_lt (List.length_take_le _ _) ?_⟩
      exact (chunkEnd_lt_iff (Nat.le_of_lt more)).mpr more
  | whole _ _ past => exact (past _ _ receiving).elim
  | refused empty => exact (nonempty empty).elim

/-- A startup that replays receives no more. -/
theorem past_of_replaying {announced : SaveMetadata} {reader : ReplayReader}
    (replaying : startup.phase = .replaying announced reader) (announced' : Option SaveMetadata)
    (bytes : Bytes) : startup.phase ≠ .receiving announced' bytes := by
  rw [replaying]
  exact ClientPhase.noConfusion

/-- Nor does one that awaits its start. -/
theorem past_of_awaitingStart {announced : SaveMetadata}
    (waits : startup.phase = .awaitingStart announced) (announced' : Option SaveMetadata)
    (bytes : Bytes) : startup.phase ≠ .receiving announced' bytes := by
  rw [waits]
  exact ClientPhase.noConfusion

/-- A report that tells something new follows a chunk. -/
theorem Holds.some (holds : startup.Holds save metadata count)
    (size : metadata.totalBytes.toNat = save.length) {window : CreditWindow}
    {reported : UInt64 × UInt64} (before : reported.1.toNat = chunkEnd save (window.reported - 1))
    (loaded : reported.2 = 0 ∨ window.reported = chunkCount save + 1 ∧ save ≠ [])
    (ordered : window.reported ≤ count) (news : startup.progress ≠ reported) : 2 ≤ count := by
  by_contra few
  have start : count - 1 = 0 := by omega
  have start' : window.reported - 1 = 0 := by omega
  rcases holds.replayed with none | ⟨all, nonempty⟩
  · apply news
    have received := holds.received size
    rw [start, chunkEnd_zero] at received
    rw [start', chunkEnd_zero] at before
    rcases loaded with silent | ⟨all, nonempty⟩
    · apply Prod.ext
      · apply UInt64.toNat_inj.mp
        rw [progress, received, before]
      · rw [progress, none, silent]
    · have positive := length_pos_of_ne nonempty
      omega
  · have positive := length_pos_of_ne nonempty
    omega

end ClientStartup

namespace Joining

variable {σ : Type} {save : Bytes} {metadata : SaveMetadata} {joining : Joining σ}
  {window : CreditWindow} {messages : List ClientMessage}

/-- The start of a transfer, to a client that was constructed with a simulation. -/
def begun (now : Nat) (sim : σ) : Joining σ := { peer := .new now, replica := { sim } }

/-- A new transfer flows. -/
theorem flows_new (now : Nat) (sim : σ) : Flows save metadata (begun now sim) {} [] where
  sound := sound_initial
  peer := StartupPeer.received_new now
  transit := (transferBytes_self 0).symm
  holds := .silent
  reported := chunkEnd_zero.symm
  announced := Nat.zero_ne_one
  loaded := Or.inl rfl
  outgoing _ := rfl
  reports := .none
  loading _ := {
    replayed := rfl
    unready := by
      intro impossible
      cases impossible
    silent := fun _ _ => List.not_mem_nil
    connected := rfl
    running := rfl }

/-- What holds of a part of the loop holds of the transfer. -/
theorem ensures_perform {program : SessionEffect (Replica σ) Unit} (post : Joining σ → Prop)
    (spec : Ensures program joining.replica
      (fun _ replica => post { joining with replica })
      (fun error replica => post { joining with replica, stopped := some error })) :
    post (joining.perform program) := by
  unfold perform
  cases exit : program joining.replica with
  | ok _ replica => exact ensures_of_ok spec exit
  | error error replica => exact ensures_of_error spec exit

/-- What a replica does shows in the transfer. -/
theorem perform_ok {program : SessionEffect (Replica σ) Unit} {replica : Replica σ}
    (returned : program joining.replica = .ok () replica) :
    joining.perform program = { joining with replica } := by
  unfold perform
  rw [returned]

/-- A pump sends the next messages of the transfer. -/
theorem flows_pump (flows : Flows save metadata joining window messages)
    (answers : List Capacity) :
    ∃ sent, window.sent ≤ sent ∧
      (joining.peer.pump save metadata answers).2 =
        transferBytes save metadata window.sent sent ∧
      Flows save metadata { joining with
          peer := (joining.peer.pump save metadata answers).1
          wire := joining.wire ++ (joining.peer.pump save metadata answers).2 }
        { window with sent } messages ∧
      StartupPeer.Keeps joining.peer (joining.peer.pump save metadata answers).1 := by
  obtain ⟨sent, further, peer, sends, keeps⟩ := StartupPeer.received_pump answers flows.peer
  refine ⟨sent, further, sends,
    { flows with sound := ?_, peer := peer, transit := ?_, loading := ?_ }, keeps⟩
  · apply sound_run flows.sound
    apply run_sends flows.sound further
    rw [← peer.charged]
    exact peer.within
  · rw [sends, ← List.append_assoc, flows.transit]
    exact transferBytes_append flows.sound.consumed further
  · intro early
    have loading := flows.loading early
    refine { loading with replayed := ?_, unready := ?_ }
    · rw [keeps.replayed, loading.replayed]
    · exact keeps.unready loading.unready

/-- A message that is delivered waits for the client. -/
theorem flows_deliver (flows : Flows save metadata joining window messages) {message : Bytes}
    {later : List Bytes} (first : joining.wire = message :: later) :
    Flows save metadata { joining with
        wire := later
        replica := { joining.replica with
          incoming := joining.replica.incoming.push .save message } } window messages := {
  flows with
  transit := by
    have transit := flows.transit
    rw [first] at transit
    simp only [Mailbox.push_same, List.append_assoc, List.singleton_append]
    exact transit
  loading := fun early => { flows.loading early with } }

/-- The next message to take is the next one of the transfer. -/
theorem Flows.next_message (flows : Flows save metadata joining window messages)
    (some : joining.replica.incoming .save ≠ []) :
    window.consumed < window.sent ∧ window.consumed ≤ chunkCount save ∧ ∃ later,
      joining.replica.incoming .save =
        encode (transferMessage save metadata window.consumed) :: later ∧
      later ++ joining.wire = transferBytes save metadata (window.consumed + 1) window.sent := by
  have behind : window.consumed < window.sent := by
    by_contra all
    have same : window.consumed = window.sent := Nat.le_antisymm flows.sound.consumed (Nat.not_lt.mp all)
    have transit := flows.transit
    rw [same, transferBytes_self] at transit
    exact some (List.append_eq_nil_iff.mp transit).1
  have more : window.consumed ≤ chunkCount save := by
    have bound := flows.peer.bound
    omega
  have transit := flows.transit
  rw [transferBytes_cons behind] at transit
  refine ⟨behind, more, ?_⟩
  cases incoming : joining.replica.incoming .save with
  | nil => exact (some incoming).elim
  | cons message later =>
      rw [incoming, List.cons_append, List.cons.injEq] at transit
      exact ⟨later, by rw [transit.1], transit.2⟩

/-- Taking a message of the save. -/
theorem flows_consume (size : metadata.totalBytes.toNat = save.length)
    (flows : Flows save metadata joining window messages)
    (nonempty : joining.replica.incoming .save ≠ []) :
    Ensures Replica.receiveSave joining.replica
      (fun _ replica => Flows save metadata { joining with replica }
        { window with consumed := window.consumed + 1 } messages)
      (fun error replica => Flows save metadata { joining with replica, stopped := some error }
        { window with consumed := window.consumed + 1 } messages) := by
  obtain ⟨behind, more, later, first, rest⟩ := flows.next_message nonempty
  have loading := flows.loading more
  have next {startup : ClientStartup} {stopped : Option SessionError}
      (holds : startup.Holds save metadata (window.consumed + 1))
      (running : window.consumed + 1 ≤ chunkCount save → stopped = none) :
      Flows save metadata { joining with
          replica := { joining.replica with
            startup, incoming := joining.replica.incoming.pop .save }
          stopped }
        { window with consumed := window.consumed + 1 } messages := {
    flows with
    sound := sound_step flows.sound (.consume behind)
    transit := by
      simp only [Mailbox.pop_same, first, List.tail_cons]
      exact rest
    holds
    loading := fun early => { loading with running := running early } }
  rw [Replica.ensures_receiveSave first (transferMessage_decodes more)]
  refine (ClientStartup.holds_receiveSave size flows.holds more).mono ?_ ?_
  · intro _ startup holds
    exact next holds fun _ => loading.running
  · intro error startup failed
    obtain ⟨holds, last⟩ := failed
    apply next holds
    intro early
    omega

/-- A report that is sent is on its way, for what was consumed. -/
theorem flows_reporting (size : metadata.totalBytes.toNat = save.length)
    (flows : Flows save metadata joining window messages)
    (news : joining.replica.startup.progress ≠ joining.replica.reported) :
    Flows save metadata { joining with replica := joining.replica.reporting }
      { window with
        reported := window.consumed
        reports := window.reports ++ [window.consumed] }
      (messages ++ [.progress joining.replica.startup.received joining.replica.startup.replayed]) := by
  have some := flows.holds.some size flows.reported flows.loaded flows.sound.reported news
  have received := flows.holds.received size
  have replayed := flows.holds.replayed
  exact {
    flows with
    sound := sound_step flows.sound .report
    reported := received
    announced := by
      change window.consumed ≠ 1
      omega
    loaded := replayed
    outgoing := by
      intro connected
      rw [List.map_append, ← flows.outgoing connected, List.append_assoc]
      exact congrArg (joining.inbox ++ ·) (Mailbox.push_same joining.replica.outgoing .lockstep _)
    reports := flows.reports.append
      (.progress received some (replayed.imp id And.left) .none)
    loading := by
      intro early
      have loading := flows.loading early
      refine { loading with silent := ?_ }
      intro tick hash member
      rcases List.mem_append.mp member with earlier | last
      · exact loading.silent tick hash earlier
      · cases List.mem_singleton.mp last }

/-- What a replica shows changes nothing. -/
theorem flows_status (flows : Flows save metadata joining window messages)
    (status : SessionStatus) : Flows save metadata
      { joining with replica := { joining.replica with status } } window messages := {
  flows with loading := fun early => { flows.loading early with } }

/-- A part of the loop that leaves the save and the messages alone. -/
theorem flows_replayed (flows : Flows save metadata joining window messages)
    (whole : window.consumed = chunkCount save + 1) (nonempty : save ≠ [])
    (startup : ClientStartup) (sim : σ) (stopped : Option SessionError)
    (received : startup.received = metadata.totalBytes)
    (received' : ∀ announced bytes, startup.phase ≠ .receiving announced bytes) :
    Flows save metadata { joining with
      replica := { joining.replica with startup, sim }, stopped } window messages := {
  flows with
  holds := by
    rw [whole]
    exact .whole nonempty received received'
  loading := by
    intro early
    omega }

/-- The replica announces that it is ready. -/
theorem flows_announced (flows : Flows save metadata joining window messages)
    (whole : window.consumed = chunkCount save + 1) (tick hash : UInt64) :
    Flows save metadata { joining with
        replica := { joining.replica with
          outgoing := joining.replica.outgoing.push .lockstep
            (encode (ClientMessage.ready tick hash))
          status := .awaitingStart } }
      window (messages ++ [.ready tick hash]) := {
  flows with
  outgoing := by
    intro connected
    rw [List.map_append, ← flows.outgoing connected, List.append_assoc]
    exact congrArg (joining.inbox ++ ·) (Mailbox.push_same joining.replica.outgoing .lockstep _)
  reports := by
    have announcement : Reports save [.ready tick hash] [] := .ready .none
    have reports := flows.reports.append announcement
    rw [List.append_nil] at reports
    exact reports
  loading := by
    intro early
    omega }

/-- A message of the replica reaches the peer. -/
theorem flows_arrive (flows : Flows save metadata joining window messages) {message : Bytes}
    {later : List Bytes} (first : joining.replica.outgoing .lockstep = message :: later) :
    Flows save metadata { joining with
        inbox := joining.inbox ++ [message]
        replica := { joining.replica with
          outgoing := joining.replica.outgoing.pop .lockstep } } window messages := {
  flows with
  outgoing := by
    intro connected
    rw [← flows.outgoing connected, first, List.append_assoc]
    simp only [Mailbox.pop_same, first, List.tail_cons, List.singleton_append]
  loading := fun early => { flows.loading early with } }

/-- A client that was refused behind the whole save leaves a transfer that flowed. -/
theorem flows_rejected (flows : Flows save metadata joining window messages)
    (whole : window.consumed = chunkCount save + 1) (inbox : List Bytes) :
    Flows save metadata { joining with inbox, rejected := true } window messages := {
  flows with
  outgoing := by
    intro connected
    cases connected
  loading := by
    intro early
    omega }

/-- The first report under way tells more than the last one that arrived, and no
more than was consumed. -/
theorem Flows.first_report {receivedBytes replayedTick : UInt64}
    (flows : Flows save metadata joining window (.progress receivedBytes replayedTick :: messages)) :
    ∃ count counts, window.reports = count :: counts ∧ Reports save messages counts ∧
      receivedBytes.toNat = chunkEnd save (count - 1) ∧ 2 ≤ count ∧ window.released ≤ count ∧
      count ≤ window.consumed ∧ (replayedTick = 0 ∨ count = chunkCount save + 1) := by
  have reports := flows.reports
  generalize same : window.reports = pending at reports
  cases reports with
  | @progress _ _ count _ counts reported some loaded rest =>
      have sound := sound_step flows.sound (.release same)
      have ordered := flows.sound.ordered
      rw [same, List.isChain_cons_cons] at ordered
      exact ⟨count, counts, rfl, rest, reported, some, ordered.1,
        Nat.le_trans sound.released_le flows.sound.reported, loaded⟩

/-- A report that does not fall behind the peer is accepted. -/
theorem Flows.accepts_progress (size : metadata.totalBytes.toNat = save.length)
    {receivedBytes replayedTick : UInt64}
    (flows : Flows save metadata joining window (.progress receivedBytes replayedTick :: messages))
    (unready : joining.peer.phase ≠ .ready) (later : joining.peer.replayed ≤ replayedTick)
    (early : replayedTick ≤ metadata.tick) (now : Nat) :
    ∃ peer, joining.peer.receive (.progress receivedBytes replayedTick) metadata now = .ok () peer ∧
      peer.replayed = replayedTick ∧ peer.phase = joining.peer.phase := by
  obtain ⟨count, counts, _, _, reported, some, ordered, consumed, loaded⟩ := flows.first_report
  have within : count ≤ window.sent := Nat.le_trans consumed flows.sound.consumed
  have accepts : StartupPeer.AcceptsProgress metadata joining.peer receivedBytes replayedTick := by
    apply StartupPeer.accepts_report flows.peer reported some ordered within unready later early
    rcases loaded with none | all
    · exact Or.inl none
    · right
      apply UInt64.toNat_inj.mp
      rw [reported, all, Nat.add_sub_cancel, chunkEnd_count, size]
  obtain ⟨peer, accepted, _, replayed, phase⟩ :=
    StartupPeer.receive_accepted now flows.peer reported some ordered within accepts
  exact ⟨peer, accepted, replayed, phase⟩

/-- An accepted message moves the window. -/
theorem flows_accepted {message : ClientMessage}
    (flows : Flows save metadata joining window (message :: messages)) {inbox : List Bytes}
    (outgoing : joining.rejected = false →
      inbox ++ joining.replica.outgoing .lockstep = messages.map encode)
    {now : Nat} {peer : StartupPeer}
    (accepted : joining.peer.receive message metadata now = .ok () peer) :
    ∃ released reports, Flows save metadata { joining with peer, inbox }
      { window with released, reports } messages := by
  cases message with
  | progress receivedBytes replayedTick =>
      obtain ⟨count, counts, same, rest, reported, some, ordered, consumed, loaded⟩ :=
        flows.first_report
      obtain ⟨next, returned, received, replayed, phase⟩ := StartupPeer.receive_accepted now
        flows.peer reported some ordered (Nat.le_trans consumed flows.sound.consumed)
        (StartupPeer.accepts_of_receive accepted)
      rw [accepted] at returned
      cases returned
      refine ⟨count, counts, { flows with
        sound := sound_step flows.sound (.release same)
        peer := received, outgoing, reports := rest, loading := ?_ }⟩
      intro early
      have loading := flows.loading early
      exact { loading with
        replayed := by
          rcases loaded with none | all
          · exact replayed.trans none
          · change window.consumed ≤ chunkCount save at early
            omega
        unready := by
          change peer.phase ≠ .ready
          rw [phase]
          exact loading.unready
        silent := fun tick hash member =>
          loading.silent tick hash (List.mem_cons_of_mem _ member) }
  | ready tick hash =>
      obtain ⟨awaiting, _, _, rfl⟩ :=
        ensures_of_ok (StartupPeer.receive_ready tick hash now joining.peer) accepted
      refine ⟨window.released, window.reports, { flows with
        peer := StartupPeer.received_ready flows.peer awaiting
        outgoing
        reports := by
          have reports := flows.reports
          generalize window.reports = pending at reports
          cases reports with
          | ready rest => exact rest
        loading := ?_ }⟩
      intro early
      exact ((flows.loading early).silent tick hash List.mem_cons_self).elim
  | input payload => cases flows.reports

/-- What is on its way from the client is decoded as it was sent. -/
theorem Flows.decodes (flows : Flows save metadata joining window messages)
    {message : ClientMessage} (member : message ∈ messages) :
    decodeClientMessage (encode message) = .ok message := by
  apply decodeClientMessage_encode
  intro payload input
  subst input
  exact (flows.reports.input_not_mem payload member).elim

/-- A message that the replica sent is received by the peer. -/
theorem receive_encode {message : ClientMessage} (flows : Flows save metadata joining window
    (message :: messages)) (now : Nat) (inbox : List Bytes) :
    joining.receive metadata now (encode message) inbox =
      match joining.peer.receive message metadata now with
      | .ok _ peer => { joining with inbox, peer }
      | .error _ peer => { joining with inbox, peer, rejected := true } := by
  have decoded := flows.decodes List.mem_cons_self
  cases received : joining.peer.receive message metadata now with
  | ok _ _ => simp only [receive, decoded, received]
  | error _ _ => simp only [receive, decoded, received]

/-- The first message received is the first one under way. -/
theorem first_message (flows : Flows save metadata joining window messages)
    (connected : joining.rejected = false) {bytes : Bytes} {later : List Bytes}
    (first : joining.inbox = bytes :: later) :
    ∃ message rest, messages = message :: rest ∧ bytes = encode message ∧
      later ++ joining.replica.outgoing .lockstep = rest.map encode := by
  have outgoing := flows.outgoing connected
  rw [first, List.cons_append] at outgoing
  cases messages with
  | nil => cases outgoing
  | cons message rest =>
      rw [List.map_cons, List.cons.injEq] at outgoing
      exact ⟨message, rest, rfl, outgoing.1, outgoing.2⟩

/-- Only what the client holds whole can be rejected. -/
theorem whole_of_rejected {message : ClientMessage} (size : metadata.totalBytes.toNat = save.length)
    (flows : Flows save metadata joining window (message :: messages)) {now : Nat}
    {error : SessionError} {peer : StartupPeer}
    (rejects : joining.peer.receive message metadata now = .error error peer) :
    window.consumed = chunkCount save + 1 := by
  by_contra partially
  have early : window.consumed ≤ chunkCount save := by
    have bound := flows.holds.bound
    omega
  have loading := flows.loading early
  cases message with
  | progress receivedBytes replayedTick =>
      obtain ⟨count, _, _, _, _, _, _, consumed, loaded⟩ := flows.first_report
      have none : replayedTick = 0 := by
        rcases loaded with none | all
        · exact none
        · omega
      subst none
      have later : joining.peer.replayed ≤ 0 := UInt64.le_of_eq loading.replayed
      obtain ⟨_, accepted, _⟩ :=
        flows.accepts_progress size loading.unready later UInt64.zero_le now
      rw [accepted] at rejects
      cases rejects
  | ready tick hash => exact loading.silent tick hash List.mem_cons_self
  | input payload => cases flows.reports

variable [SessionSimulation σ]

/-- A step of the replay keeps the transfer flowing, with the readiness on its way where it ended.
-/
theorem flows_replay (flows : Flows save metadata joining window messages) (passes : Nat) :
    Ensures (Replica.stepStartup passes) joining.replica
      (fun _ replica => ∃ messages, Flows save metadata { joining with replica } window messages)
      (fun error replica => ∃ messages,
        Flows save metadata { joining with replica, stopped := some error } window messages) := by
  by_cases replaying : ∃ announced reader, joining.replica.startup.phase = .replaying announced reader
  · obtain ⟨announced, reader, phase⟩ := replaying
    obtain ⟨whole, nonempty, received⟩ := flows.holds.whole_of_past (ClientStartup.past_of_replaying phase)
    refine (Replica.ensures_stepStartup passes phase).mono ?_ ?_
    · intro _ replica returned
      obtain ⟨result, state, returns, rfl⟩ := returned
      cases returns with
      | more =>
          refine ⟨_, flows_replayed flows whole nonempty _ _ _ received ?_⟩
          intro _ _ impossible
          cases impossible
      | @ready begun ticks replay =>
          have replayed := flows_replayed flows whole nonempty
            (joining.replica.startup.stepped (.awaitingStart announced) replay).1 replay.sim
            joining.stopped received (by
              intro _ _ impossible
              cases impossible)
          exact ⟨_, flows_announced replayed whole announced.tick announced.hash⟩
    · intro error replica failed
      obtain ⟨state, fails, rfl⟩ := failed
      refine ⟨_, flows_replayed flows whole nonempty state.1 state.2 (some error) ?_ ?_⟩
      · cases fails <;> exact received
      · intro _ _ impossible
        cases fails with
        | uninitialized =>
            rw [phase] at impossible
            cases impossible
        | stopped => cases impossible
        | exceeds => cases impossible
        | mismatch => cases impossible
  · rw [ensures_ok (Replica.stepStartup_elsewhere passes fun announced reader phase =>
      replaying ⟨announced, reader, phase⟩)]
    exact ⟨messages, flows⟩

/-- Each step moves the window. -/
theorem flows_step (size : metadata.totalBytes.toNat = save.length) {next : Joining σ}
    (flows : Flows save metadata joining window messages) (step : Step save metadata joining next) :
    ∃ window messages, Flows save metadata next window messages := by
  cases step with
  | pump answers =>
      obtain ⟨sent, _, _, pumped, _⟩ := flows_pump flows answers
      exact ⟨_, _, pumped⟩
  | deliver first => exact ⟨_, _, flows_deliver flows first⟩
  | consume _ some => exact ⟨_, _, ensures_perform (Flows save metadata · _ messages)
      (flows_consume size flows some)⟩
  | report =>
      rw [perform_ok (Replica.reportConsumption_eq joining.replica)]
      by_cases news : joining.replica.startup.progress.1 ≠ joining.replica.reported.1
      · rw [if_pos news]
        exact ⟨_, _, flows_reporting size flows fun same => news (congrArg Prod.fst same)⟩
      · rw [if_neg news]
        exact ⟨_, _, flows⟩
  | replay passes => exact ⟨_, ensures_perform (fun next => ∃ messages, Flows save metadata next _
      messages) (flows_replay flows passes)⟩
  | reportLoading =>
      rw [perform_ok (Replica.reportLoading_eq true joining.replica)]
      by_cases news : (joining.replica.startup.isLoading ∧ true) ∧
          joining.replica.startup.progress ≠ joining.replica.reported
      · rw [if_pos news]
        exact ⟨_, _, flows_status (flows_reporting size flows news.2) _⟩
      · rw [if_neg news]
        exact ⟨_, _, flows_status flows _⟩
  | arrive first => exact ⟨_, _, flows_arrive flows first⟩
  | receive now connected first =>
      obtain ⟨message, rest, rfl, rfl, outgoing⟩ := first_message flows connected first
      rw [receive_encode flows]
      cases exit : joining.peer.receive message metadata now with
      | ok _ peer =>
          obtain ⟨released, reports, accepted⟩ := flows_accepted flows (fun _ => outgoing) exit
          exact ⟨_, _, accepted⟩
      | error error peer =>
          have same := StartupPeer.receive_rejected exit
          subst same
          exact ⟨_, _, flows_rejected flows (whole_of_rejected size flows exit) _⟩

/-- Any steps of a transfer keep it flowing. -/
theorem flows_run (size : metadata.totalBytes.toNat = save.length) {next : Joining σ}
    (flows : Flows save metadata joining window messages)
    (run : Relation.ReflTransGen (Step save metadata) joining next) :
    ∃ window messages, Flows save metadata next window messages := by
  induction run with
  | refl => exact ⟨window, messages, flows⟩
  | tail _ step ih =>
      obtain ⟨_, _, before⟩ := ih
      exact flows_step size before step

/-- What was sent and not consumed takes no more room in the receive channel than
the peer charged, which is within the capacity of the channel. -/
theorem unconsumed_le_receiveMemory (size : metadata.totalBytes.toNat = save.length) {now : Nat}
    {sim : σ} (run : Relation.ReflTransGen (Step save metadata) (begun now sim) joining) :
    ((joining.replica.incoming .save ++ joining.wire).map fun message =>
        receiveMemory message.length).sum ≤ joining.peer.receiveMemory ∧
      joining.peer.receiveMemory ≤ channelSaveMaxMem := by
  obtain ⟨window, messages, flows⟩ := flows_run size (flows_new now sim) run
  refine ⟨?_, flows.peer.within⟩
  rw [flows.transit, flows.peer.charged, sum_receiveMemory]
  exact flows.sound.backlog_le

/-- Three bytes to transfer. -/
def threeBytes : Bytes := [1, 2, 3]

def threeBytesMetadata : SaveMetadata := { totalBytes := 3, tick := 0, hash := 0 }

/-- A transport that takes two messages. -/
def twoAdmitted : List Capacity := List.replicate 2 { available := channelSaveMaxMem, admits := true }

/-- The transfer of the three bytes, after a pump that sent all of it. -/
def threeBytesPumped : Joining (Adapter tallyGame) :=
  { begun 0 tallyAdapter with
    peer := ((StartupPeer.new 0).pump threeBytes threeBytesMetadata twoAdmitted).1
    wire := [] ++ ((StartupPeer.new 0).pump threeBytes threeBytesMetadata twoAdmitted).2 }

theorem run_threeBytes :
    Relation.ReflTransGen (Step threeBytes threeBytesMetadata) (begun 0 tallyAdapter)
      threeBytesPumped := .single (Step.pump twoAdmitted rfl)

theorem unconsumed_le_receiveMemory_threeBytes :
    ((threeBytesPumped.replica.incoming .save ++ threeBytesPumped.wire).map fun message =>
        receiveMemory message.length).sum ≤ threeBytesPumped.peer.receiveMemory ∧
      threeBytesPumped.peer.receiveMemory ≤ channelSaveMaxMem :=
  unconsumed_le_receiveMemory rfl run_threeBytes

example : threeBytesPumped.peer.receiveMemory = 2400 := by decide

/-- Once everything consumed was reported, at most the announcement is charged, and
the next message fits. -/
theorem room_of_reported {consumed reported : Nat} (ordered : reported ≤ consumed)
    (early : consumed ≤ chunkCount save) (announced : reported ≠ 1)
    (same : chunkEnd save (consumed - 1) = chunkEnd save (reported - 1)) :
    total (transferSize save metadata) reported consumed + transferSize save metadata consumed ≤
      channelSaveMaxMem := by
  have next : transferSize save metadata consumed ≤ 264_000 := transferSize_le consumed
  have first : transferSize save metadata 0 ≤ 264_000 := transferSize_le 0
  have charged : total (transferSize save metadata) reported consumed ≤
      transferSize save metadata 0 := by
    by_cases some : 2 ≤ consumed
    · have all : reported = consumed := by
        by_contra behind
        have strict : chunkEnd save (reported - 1) < chunkEnd save (consumed - 1) :=
          chunkEnd_strict (by omega) (by omega)
        omega
      rw [all, total_self]
      exact Nat.zero_le _
    · have none : reported = 0 := by omega
      subst none
      by_cases fresh : consumed = 0
      · rw [fresh, total_self]
        exact Nat.zero_le _
      · have one : consumed = 0 + 1 := by omega
        rw [one, total_succ (Nat.le_refl 0), total_self, Nat.zero_add]
  unfold channelSaveMaxMem
  omega

/-- While a client does not hold the whole save, something can move the transfer
on: a message under way, a chunk to take, consumption to report, or a pump. -/
theorem transfer_advances (size : metadata.totalBytes.toNat = save.length) {now : Nat} {sim : σ}
    (run : Relation.ReflTransGen (Step save metadata) (begun now sim) joining)
    (partially : joining.replica.startup.received.toNat < save.length) :
    joining.rejected = false ∧ joining.stopped = none ∧
      (joining.wire ≠ [] ∨ joining.replica.outgoing .lockstep ≠ [] ∨ joining.inbox ≠ [] ∨
        joining.replica.incoming .save ≠ [] ∨
        joining.replica.startup.progress.1 ≠ joining.replica.reported.1 ∨
        ∀ answer answers, maxSaveChunkBytes ≤ answer.available → answer.admits = true →
          (joining.peer.pump save metadata (answer :: answers)).2 ≠ []) := by
  obtain ⟨window, messages, flows⟩ := flows_run size (flows_new now sim) run
  have received := flows.holds.received size
  have early : window.consumed ≤ chunkCount save := by
    by_contra late
    have bound := flows.holds.bound
    have all : window.consumed = chunkCount save + 1 := by omega
    rw [all, Nat.add_sub_cancel, chunkEnd_count] at received
    omega
  have loading := flows.loading early
  refine ⟨loading.connected, loading.running, ?_⟩
  by_contra stuck
  simp only [not_or, not_not] at stuck
  obtain ⟨delivered, arrived, received', taken, reported, refused⟩ := stuck
  apply refused
  intro answer answers wide admits
  have all : window.consumed = window.sent := by
    have transit := flows.transit
    rw [taken, delivered, List.append_nil] at transit
    by_contra behind
    rw [transferBytes_cons (Nat.lt_of_le_of_ne flows.sound.consumed behind)] at transit
    cases transit
  have quiet : window.reports = [] := by
    have outgoing := flows.outgoing loading.connected
    rw [received', arrived, List.append_nil, eq_comm, List.map_eq_nil_iff] at outgoing
    have reports := flows.reports
    rw [outgoing] at reports
    generalize window.reports = counts at reports
    cases reports
    rfl
  have same : chunkEnd save (window.consumed - 1) = chunkEnd save (window.reported - 1) := by
    rw [← received, ← flows.reported, ← reported]
    rfl
  have charged := flows.peer.charged.trans (flows.sound.charge_of_quiet quiet)
  rw [← all] at charged
  apply StartupPeer.pump_sends answers flows.peer.toTracks (all ▸ early) _ wide admits
  rw [charged, ← all]
  exact room_of_reported flows.sound.reported early flows.announced same

theorem transfer_advances_threeBytes :
    threeBytesPumped.rejected = false ∧ threeBytesPumped.stopped = none ∧
      (threeBytesPumped.wire ≠ [] ∨ threeBytesPumped.replica.outgoing .lockstep ≠ [] ∨
        threeBytesPumped.inbox ≠ [] ∨ threeBytesPumped.replica.incoming .save ≠ [] ∨
        threeBytesPumped.replica.startup.progress.1 ≠ threeBytesPumped.replica.reported.1 ∨
        ∀ answer answers, maxSaveChunkBytes ≤ answer.available → answer.admits = true →
          (threeBytesPumped.peer.pump threeBytes threeBytesMetadata (answer :: answers)).2 ≠ []) :=
  transfer_advances rfl run_threeBytes (Nat.succ_pos 2)

end Joining

end Synctick
