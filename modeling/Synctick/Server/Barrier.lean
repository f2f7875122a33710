import Synctick.Server.Wait

/-! # What the start barrier guarantees

Each connected client has a peer whose state tells the traffic of its connection,
whatever clients connect, disconnect, reconnect and send. The start is announced
when as many peers are ready as are expected, and there are never more peers: so
everyone who is connected was sent the whole save and then announced readiness.
-/

namespace Synctick

open Effect Std

variable {save : Bytes} {metadata : SaveMetadata}

/-- How a peer came about, with all traffic of its connection: what it pumped, and
the messages that it accepted. -/
inductive StartupPeer.Ran (save : Bytes) (metadata : SaveMetadata) :
    StartupPeer → List Traffic → Prop
  | new (now : Nat) : Ran save metadata (.new now) []
  | pump {peer : StartupPeer} {history : List Traffic} (answers : List Capacity)
      (ran : Ran save metadata peer history) :
      Ran save metadata (peer.pump save metadata answers).1
        (history ++ (peer.pump save metadata answers).2.map (.sent .save))
  | receive {peer next : StartupPeer} {history : List Traffic} {bytes : Bytes}
      {message : ClientMessage} (now : Nat) (ran : Ran save metadata peer history)
      (decodes : decodeClientMessage bytes = .ok message)
      (accepts : peer.receive message metadata now = .ok () next) :
      Ran save metadata next (history ++ [.received .lockstep bytes])

/-- Of messages that were all sent over a channel, all were sent over it. -/
theorem sentOn_sent (channel : Channel) (messages : List Bytes) :
    sentOn channel (messages.map (.sent channel)) = messages := by
  induction messages with
  | nil => rfl
  | cons message messages ih =>
      rw [List.map_cons, sentOn, List.filterMap_cons]
      simp only [↓reduceIte]
      exact congrArg (message :: ·) ih

namespace StartupPeer.Ran

variable {peer : StartupPeer} {history : List Traffic}

/-- The messages of the save that the peer counts were sent. -/
theorem sent (ran : peer.Ran save metadata history) :
    ∃ sent released, peer.Received save metadata sent released ∧
      sentOn .save history = transferBytes save metadata 0 sent := by
  induction ran with
  | new now => exact ⟨0, 0, received_new now, (transferBytes_self 0).symm⟩
  | pump answers _ ih =>
      obtain ⟨sent, released, received, before⟩ := ih
      obtain ⟨last, further, received, messages, _⟩ := received_pump answers received
      refine ⟨last, released, received, ?_⟩
      rw [sentOn_append, sentOn_sent, before, messages,
        transferBytes_append (Nat.zero_le _) further]
  | receive _ _ _ accepts ih =>
      obtain ⟨sent, released, received, before⟩ := ih
      obtain ⟨⟨released, received⟩, _⟩ := received_accepted received accepts
      refine ⟨sent, released, received, ?_⟩
      rw [sentOn_append, before]
      exact List.append_nil _

/-- A ready peer sent the whole save, and then was told so. -/
theorem announced (ran : peer.Ran save metadata history) (ready : peer.phase = .ready) :
    ∃ front bytes back, history = front ++ .received .lockstep bytes :: back ∧
      decodeClientMessage bytes = .ok (.ready metadata.tick metadata.hash) ∧
      sentOn .save front = transferBytes save metadata 0 (chunkCount save + 1) := by
  induction ran with
  | new now => cases ready
  | @pump peer history answers ran ih =>
      by_cases already : peer.phase = .ready
      · obtain ⟨front, bytes, back, rfl, decodes, whole⟩ := ih already
        exact ⟨front, bytes, _, List.append_assoc _ _ _, decodes, whole⟩
      · obtain ⟨_, _, received, _⟩ := ran.sent
        obtain ⟨_, _, _, _, keeps⟩ := received_pump answers received
        exact (keeps.unready already ready).elim
  | @receive peer next history bytes message now ran decodes accepts ih =>
      obtain ⟨sent, released, received, before⟩ := ran.sent
      rcases (received_accepted received accepts).2 with same | ⟨rfl, awaiting⟩
      · obtain ⟨front, bytes', back, rfl, decodes', whole⟩ := ih (same.symm.trans ready)
        exact ⟨front, bytes', _, List.append_assoc _ _ _, decodes', whole⟩
      · refine ⟨history, bytes, [], rfl, decodes, ?_⟩
        have all : ¬ sent ≤ chunkCount save := by
          rw [← received.phase, awaiting]
          exact TransferPhase.noConfusion
        have bound := received.bound
        have last : sent = chunkCount save + 1 := by omega
        rw [before, last]

/-- Nothing was sent but the save, and no desync report was received. -/
theorem silent (ran : peer.Ran save metadata history) :
    (∀ channel, channel ≠ .save → sentOn channel history = []) ∧
      ∀ bytes, .received .desync bytes ∉ history := by
  induction ran with
  | new => exact ⟨fun _ _ => rfl, fun _ => List.not_mem_nil⟩
  | pump answers _ ih =>
      constructor
      · intro channel other
        rw [sentOn_append, ih.1 channel other, List.nil_append, sentOn, List.filterMap_eq_nil_iff]
        intro traffic member
        obtain ⟨_, _, rfl⟩ := List.mem_map.mp member
        exact if_neg other.symm
      · intro bytes member
        rcases List.mem_append.mp member with earlier | last
        · exact ih.2 bytes earlier
        · obtain ⟨_, _, impossible⟩ := List.mem_map.mp last
          cases impossible
  | receive _ _ _ _ ih =>
      constructor
      · intro channel other
        rw [sentOn_append, ih.1 channel other]
        rfl
      · intro bytes member
        rcases List.mem_append.mp member with earlier | last
        · exact ih.2 bytes earlier
        · cases List.mem_singleton.mp last

end StartupPeer.Ran

/-- If the client is connected, the peer came about with the traffic of its connection. -/
def Follows (save : Bytes) (metadata : SaveMetadata) (server : RenetServer) (id : UInt64)
    (peer : StartupPeer) : Prop :=
  server.isConnected id = true → ∃ connection, server.connections id = some connection ∧
    peer.Ran save metadata connection.history

namespace Waiting

open RenetServer

variable {server : RenetServer} {id : UInt64} {peer : StartupPeer}

/-- What sending to one client does. -/
theorem foldl_sendMessage (server : RenetServer) (id : UInt64) (messages : List Bytes) :
    let next := messages.foldl (fun server message => server.sendMessage id .save message) server
    Others server next id ∧ (next.isConnected id = true → ∃ connection sent,
      server.connections id = some connection ∧ connection.disconnected = false ∧
      next.connections id = some sent ∧
      sent.history = connection.history ++ messages.map (.sent .save)) := by
  induction messages generalizing server with
  | nil =>
      refine ⟨.refl server id, ?_⟩
      intro connected
      obtain ⟨connection, there, open'⟩ := isConnected_iff.mp connected
      exact ⟨connection, connection, there, open', there, (List.append_nil _).symm⟩
  | cons message messages ih =>
      obtain ⟨others, rest⟩ := ih (server.sendMessage id .save message)
      refine ⟨(others_alter server id _).trans others, ?_⟩
      intro connected
      obtain ⟨middle, sent, there, open', after, history⟩ := rest connected
      rw [sendMessage, alter_same, Option.map_eq_some_iff] at there
      obtain ⟨connection, before, rfl⟩ := there
      unfold Connection.send at open' history
      cases closed : connection.disconnected with
      | true =>
          rw [if_pos closed, closed] at open'
          cases open'
      | false =>
          rw [if_neg (ne_true_of_eq_false closed)] at history
          refine ⟨connection, sent, before, closed, after, ?_⟩
          rw [history, List.append_assoc]
          rfl

/-- What a pump sends is sent to its client, and the peer follows the history of the connection. -/
theorem follows_pump (follows : Follows save metadata server id peer) (answers : List Capacity) :
    let next := (peer.pump save metadata answers).2.foldl
      (fun server message => server.sendMessage id .save message) server
    Others server next id ∧ Follows save metadata next id (peer.pump save metadata answers).1 := by
  obtain ⟨others, sends⟩ := foldl_sendMessage server id (peer.pump save metadata answers).2
  refine ⟨others, ?_⟩
  intro connected
  obtain ⟨connection, sent, before, open', after, history⟩ := sends connected
  obtain ⟨connection', before', ran⟩ := follows (isConnected_iff.mpr ⟨connection, before, open'⟩)
  rw [before] at before'
  cases before'
  refine ⟨sent, after, ?_⟩
  rw [history]
  exact .pump answers ran

/-- A peer follows its connection as long as it received nothing invalid. -/
theorem follows_receiveStartup (follows : Follows save metadata server id peer) (now passes : Nat) :
    Others server (receiveStartup metadata now id passes server peer).2.1 id ∧
      ((receiveStartup metadata now id passes server peer).1 = false →
        Follows save metadata (receiveStartup metadata now id passes server peer).2.1 id
          (receiveStartup metadata now id passes server peer).2.2) := by
  induction passes generalizing server peer with
  | zero => exact ⟨.refl server id, fun _ => follows⟩
  | succ passes ih =>
      unfold receiveStartup
      rcases receiveMessage_cases server id .lockstep with
        ⟨_, same⟩ | ⟨connection, bytes, later, there, open', first, same⟩
      · rw [same]
        exact ⟨.refl server id, fun _ => follows⟩
      · rw [same]
        have others : Others server (server.take id .lockstep bytes) id := others_alter server id _
        dsimp only
        cases decodes : decodeClientMessage bytes with
        | error error => exact ⟨others, fun impossible => nomatch impossible⟩
        | ok message =>
            dsimp only
            cases accepts : peer.receive message metadata now with
            | error error next => exact ⟨others, fun impossible => nomatch impossible⟩
            | ok _ next =>
                have kept : Follows save metadata (server.take id .lockstep bytes) id next := by
                  intro _
                  obtain ⟨connection', there', ran⟩ :=
                    follows (isConnected_iff.mpr ⟨connection, there, open'⟩)
                  rw [there] at there'
                  cases there'
                  rw [take, alter_same, there]
                  exact ⟨_, rfl, .receive now ran decodes accepts⟩
                obtain ⟨rest, valid⟩ := ih kept
                exact ⟨others.trans rest, valid⟩

/-- The service of a peer concerns its own client, and follows the history of its connection. -/
theorem follows_servePeer (follows : Follows save metadata server id peer) (input : PeerInput) :
    Others server (servePeer save metadata id input server peer).1 id ∧
      Follows save metadata (servePeer save metadata id input server peer).1 id
        (servePeer save metadata id input server peer).2 := by
  unfold servePeer
  obtain ⟨sends, pumped⟩ := follows_pump follows input.answers
  dsimp only
  generalize (peer.pump save metadata input.answers).2.foldl
    (fun server message => server.sendMessage id .save message) server = after at sends pumped ⊢
  obtain ⟨receives, valid⟩ :=
    follows_receiveStartup pumped input.now (after.pending id .lockstep).length
  generalize receiveStartup metadata input.now id (after.pending id .lockstep).length after
    (peer.pump save metadata input.answers).1 = result at receives valid ⊢
  have reports := others_receiveMessage result.2.1 id .desync
  have others := (sends.trans receives).trans reports
  by_cases misbehaves : result.1 = true ∨
      (result.2.1.receiveMessage id .desync).1.isSome = true ∨
      result.2.2.timedOut input.deadline = true
  · rw [if_pos misbehaves]
    refine ⟨others.trans (others_alter _ id _), ?_⟩
    intro connected
    rw [isConnected_disconnect] at connected
    cases connected
  · rw [if_neg misbehaves]
    rw [not_or, not_or] at misbehaves
    refine ⟨others, ?_⟩
    rcases receiveMessage_cases result.2.1 id .desync with ⟨_, same⟩ | ⟨_, _, _, _, _, _, same⟩
    · rw [same]
      exact valid (eq_false_of_ne_true misbehaves.1)
    · rw [same] at misbehaves
      exact (misbehaves.2.1 rfl).elim

/-- The last event about a client. -/
def lastEvent (events : List ServerEvent) (id : UInt64) : Option ServerEvent :=
  (events.filter (·.client = id)).getLast?

/-- The last event of a client is the newest one that is about it. -/
theorem lastEvent_append (events : List ServerEvent) (event : ServerEvent) (id : UInt64) :
    lastEvent (events ++ [event]) id =
      if event.client = id then some event else lastEvent events id := by
  unfold lastEvent
  by_cases about : event.client = id
  · simp [about]
  · simp [about]

/-- An event about another client does not matter. -/
theorem lastEvent_cons_other (events : List ServerEvent) {event : ServerEvent} {id : UInt64}
    (about : event.client ≠ id) : lastEvent (event :: events) id = lastEvent events id := by
  unfold lastEvent
  rw [List.filter_cons_of_neg]
  simpa using about

/-- Nor does one that is followed by another. -/
theorem lastEvent_cons_of_some {events : List ServerEvent} {event last : ServerEvent} {id : UInt64}
    (later : lastEvent events id = some last) : lastEvent (event :: events) id = some last := by
  unfold lastEvent at *
  by_cases about : event.client = id
  · rw [List.filter_cons_of_pos (by simpa using about), List.getLast?_cons, later]
    rfl
  · rw [List.filter_cons_of_neg (by simpa using about), later]

/-- An event that nothing follows is the last one. -/
theorem lastEvent_cons_of_none {events : List ServerEvent} {event : ServerEvent}
    (last : lastEvent events event.client = none) :
    lastEvent (event :: events) event.client = some event := by
  unfold lastEvent at *
  rw [List.filter_cons_of_pos (by simp), List.getLast?_cons, last]
  rfl

/-- A connected client has a peer that follows its connection. -/
def Synced (save : Bytes) (metadata : SaveMetadata) (waiting : Waiting) (id : UInt64) : Prop :=
  waiting.server.isConnected id = true → ∃ peer, waiting.peers[id]? = some peer ∧
    Follows save metadata waiting.server id peer

/-- What events about a client are still to be handled, tells its connection. -/
def Settles (save : Bytes) (metadata : SaveMetadata) (waiting : Waiting)
    (events : List ServerEvent) (id : UInt64) : Prop :=
  match lastEvent events id with
  | none => Synced save metadata waiting id
  | some (.clientConnected _) => ∀ connection,
      waiting.server.connections id = some connection → connection.history = []
  | some (.clientDisconnected _) => waiting.server.connections id = none

/-- Between the passes, but for the events that are still to be handled. -/
structure Drains (save : Bytes) (metadata : SaveMetadata) (expected : Nat)
    (broadcasts : List (Channel × Bytes)) (waiting : Waiting) (events : List ServerEvent) :
    Prop where
  settles : ∀ id, Settles save metadata waiting events id
  few : waiting.peers.size ≤ expected
  quiet : waiting.server.broadcasts = broadcasts

variable {waiting : Waiting} {events : List ServerEvent} {expected : Nat}
  {broadcasts : List (Channel × Bytes)}

/-- What happens on a connection that keeps its history, or closes it. -/
theorem settles_alter (settles : Settles save metadata waiting events id)
    {change : Connection → Connection} (history : ∀ connection,
      (change connection).history = connection.history)
    (closes : ∀ connection, (change connection).disconnected = false →
      connection.disconnected = false) :
    Settles save metadata { waiting with server := waiting.server.alter id change } events id := by
  unfold Settles at *
  cases last : lastEvent events id with
  | none =>
      rw [last] at settles
      intro connected
      obtain ⟨connection, there, open'⟩ := isConnected_iff.mp connected
      rw [alter_same, Option.map_eq_some_iff] at there
      obtain ⟨before, there, rfl⟩ := there
      have was := isConnected_iff.mpr ⟨before, there, closes before open'⟩
      obtain ⟨peer, known, follows⟩ := settles was
      refine ⟨peer, known, ?_⟩
      intro _
      obtain ⟨connection, there', ran⟩ := follows was
      rw [there] at there'
      cases there'
      refine ⟨change before, ?_, ?_⟩
      · rw [alter_same, there]
        rfl
      · rw [history]
        exact ran
  | some event =>
      rw [last] at settles
      cases event with
      | clientConnected =>
          intro connection there
          rw [alter_same, Option.map_eq_some_iff] at there
          obtain ⟨before, there, rfl⟩ := there
          rw [history]
          exact settles before there
      | clientDisconnected =>
          change waiting.server.connections id = none at settles
          change (waiting.server.alter id change).connections id = none
          rw [alter_same, settles]
          rfl

/-- A client whose connection, peer and events are the same settles as before. -/
theorem settles_congr {waiting' : Waiting} {events' : List ServerEvent}
    (settles : Settles save metadata waiting events id)
    (connections : waiting'.server.connections id = waiting.server.connections id)
    (peers : waiting'.peers[id]? = waiting.peers[id]?)
    (last : lastEvent events' id = lastEvent events id) :
    Settles save metadata waiting' events' id := by
  unfold Settles Synced Follows at *
  rw [last, connections, isConnected_congr connections, peers]
  exact settles

/-- What events are still to come tells all about a client, whatever its peer is. -/
theorem settles_later {waiting' : Waiting} {event last : ServerEvent}
    (settles : Settles save metadata waiting (event :: events) id)
    (connections : waiting'.server.connections id = waiting.server.connections id)
    (later : lastEvent events id = some last) : Settles save metadata waiting' events id := by
  unfold Settles at *
  rw [lastEvent_cons_of_some later] at settles
  rw [later, connections]
  cases last with
  | clientConnected => exact settles
  | clientDisconnected => exact settles

/-- When a connection was just announced, nothing happened on it. -/
theorem settles_connected (settles : Settles save metadata waiting (.clientConnected id :: events) id)
    (last : lastEvent events id = none) {connection : Connection}
    (there : waiting.server.connections id = some connection) : connection.history = [] := by
  unfold Settles at settles
  have newest : lastEvent (.clientConnected id :: events) id = some (.clientConnected id) :=
    lastEvent_cons_of_none last
  rw [newest] at settles
  exact settles connection there

/-- A client whose last event is that it left has no connection. -/
theorem settles_disconnected
    (settles : Settles save metadata waiting (.clientDisconnected id :: events) id)
    (last : lastEvent events id = none) : waiting.server.connections id = none := by
  unfold Settles at settles
  have newest : lastEvent (.clientDisconnected id :: events) id = some (.clientDisconnected id) :=
    lastEvent_cons_of_none last
  rw [newest] at settles
  exact settles

/-- A client that is in step settles without an event to come. -/
theorem settles_of_synced (synced : Synced save metadata waiting id)
    (last : lastEvent events id = none) : Settles save metadata waiting events id := by
  unfold Settles
  rw [last]
  exact synced

/-- Without an event to come, a client that settles is in step. -/
theorem Settles.synced (settles : Settles save metadata waiting events id)
    (last : lastEvent events id = none) : Synced save metadata waiting id := by
  unfold Settles at settles
  rw [last] at settles
  exact settles

/-- What the network does adds events that are still to be handled. -/
theorem drains_act (drains : Drains save metadata expected broadcasts waiting waiting.server.events)
    (action : NetAction) :
    Drains save metadata expected broadcasts
      { waiting with server := waiting.server.act action } (waiting.server.act action).events := by
  cases action with
  | connect client =>
      cases there : waiting.server.connections client with
      | some _ =>
          rw [act_connect_again there]
          exact drains
      | none =>
          rw [act_connect there]
          refine { drains with settles := ?_ }
          intro id
          by_cases about : client = id
          · subst about
            unfold Settles
            rw [lastEvent_append, ServerEvent.client, if_pos rfl]
            intro connection fresh
            cases (Function.update_self _ _ _).symm.trans fresh
            rfl
          · apply settles_congr (drains.settles id)
            · exact Function.update_of_ne (Ne.symm about) _ _
            · rfl
            · exact (lastEvent_append _ _ _).trans (if_neg about)
  | remove client =>
      cases there : waiting.server.connections client with
      | none =>
          rw [act_remove_again there]
          exact drains
      | some _ =>
          rw [act_remove there]
          refine { drains with settles := ?_ }
          intro id
          by_cases about : client = id
          · subst about
            unfold Settles
            rw [lastEvent_append, ServerEvent.client, if_pos rfl]
            exact Function.update_self _ _ _
          · apply settles_congr (drains.settles id)
            · exact Function.update_of_ne (Ne.symm about) _ _
            · rfl
            · exact (lastEvent_append _ _ _).trans (if_neg about)
  | close client =>
      refine { drains with settles := ?_ }
      intro id
      by_cases about : id = client
      · subst about
        exact settles_alter (drains.settles id) (fun _ => rfl) (fun _ impossible => nomatch impossible)
      · exact settles_congr (drains.settles id) (alter_other _ about) rfl rfl
  | deliver client channel bytes =>
      refine { drains with settles := ?_ }
      intro id
      by_cases about : id = client
      · subst about
        exact settles_alter (drains.settles id) (fun _ => rfl) (fun _ same => same)
      · exact settles_congr (drains.settles id) (alter_other _ about) rfl rfl

/-- Whatever the network does, the queued events tell it. -/
theorem drains_update (drains : Drains save metadata expected broadcasts waiting waiting.server.events)
    (actions : List NetAction) :
    Drains save metadata expected broadcasts
      { waiting with server := waiting.server.update actions }
      (waiting.server.update actions).events := by
  unfold update
  induction actions generalizing waiting with
  | nil => exact drains
  | cons action actions ih => exact ih (drains_act drains action)

/-- Handling an event leaves the other clients alone. -/
theorem settles_others {waiting' : Waiting} {event : ServerEvent}
    (settles : ∀ id, Settles save metadata waiting (event :: events) id)
    (connections : ∀ id, id ≠ event.client →
      waiting'.server.connections id = waiting.server.connections id)
    (peers : ∀ id, id ≠ event.client → waiting'.peers[id]? = waiting.peers[id]?)
    (own : Settles save metadata waiting' events event.client) (id : UInt64) :
    Settles save metadata waiting' events id := by
  by_cases about : id = event.client
  · subst about
    exact own
  · exact settles_congr (settles id) (connections id about) (peers id about)
      (lastEvent_cons_other events (Ne.symm about)).symm

/-- Handling an event leaves those behind it. -/
theorem drains_handleEvent {event : ServerEvent}
    (drains : Drains save metadata expected broadcasts waiting (event :: events)) (now : Nat) :
    Drains save metadata expected broadcasts (handleEvent expected now waiting event) events := by
  cases event with
  | clientConnected client =>
      have own := drains.settles client
      by_cases room : waiting.peers.size < expected
      · rw [handleEvent_connected now client room]
        refine ⟨settles_others drains.settles (fun _ _ => rfl)
          (fun id about => getElem?_insert_other _ _ about) ?_,
          Nat.le_trans ExtTreeMap.size_insert_le room, drains.quiet⟩
        cases last : lastEvent events client with
        | none =>
            apply settles_of_synced _ last
            intro connected
            refine ⟨.new now, ExtTreeMap.getElem?_insert_self, ?_⟩
            intro _
            obtain ⟨connection, there, _⟩ := isConnected_iff.mp connected
            refine ⟨connection, there, ?_⟩
            rw [settles_connected own last there]
            exact .new now
        | some later => exact settles_later own rfl last
      · rw [handleEvent_full now client room]
        refine ⟨settles_others drains.settles (fun id about => alter_other _ about)
          (fun _ _ => rfl) ?_, drains.few, drains.quiet⟩
        cases last : lastEvent events client with
        | none =>
            apply settles_of_synced _ last
            intro connected
            rw [isConnected_disconnect] at connected
            cases connected
        | some later =>
            have before : Settles save metadata waiting events client := settles_later own rfl last
            exact settles_alter before (fun _ => rfl) (fun _ impossible => nomatch impossible)
  | clientDisconnected client =>
      have own := drains.settles client
      refine ⟨settles_others drains.settles (fun _ _ => rfl)
        (fun id about => getElem?_erase_other _ about) ?_,
        Nat.le_trans ExtTreeMap.size_erase_le drains.few, drains.quiet⟩
      cases last : lastEvent events client with
      | none =>
          apply settles_of_synced _ last
          intro connected
          obtain ⟨connection, there, _⟩ := isConnected_iff.mp connected
          cases (settles_disconnected own last).symm.trans there
      | some later => exact settles_later own rfl last

/-- All events are handled. -/
theorem drains_handleEvents
    (drains : Drains save metadata expected broadcasts waiting waiting.server.events) (now : Nat) :
    Drains save metadata expected broadcasts (handleEvents expected now waiting) [] ∧
      (handleEvents expected now waiting).server.events = [] := by
  have loop (events : List ServerEvent) {waiting : Waiting}
      (drains : Drains save metadata expected broadcasts waiting events)
      (taken : waiting.server.events = []) :
      Drains save metadata expected broadcasts
        (events.foldl (handleEvent expected now) waiting) [] ∧
        (events.foldl (handleEvent expected now) waiting).server.events = [] := by
    induction events generalizing waiting with
    | nil => exact ⟨drains, taken⟩
    | cons event events ih =>
        apply ih (drains_handleEvent drains now)
        rw [← taken]
        cases event with
        | clientConnected client =>
            by_cases room : waiting.peers.size < expected
            · rw [handleEvent_connected now client room]
            · rw [handleEvent_full now client room]
              rfl
        | clientDisconnected client => rfl
  apply loop
  · exact ⟨fun id => settles_congr (drains.settles id) rfl rfl rfl, drains.few, drains.quiet⟩
  · rfl

/-- The service of a client keeps what holds between events, and makes none. -/
theorem drains_serve (drains : Drains save metadata expected broadcasts waiting [])
    (input : UInt64 → PeerInput) (id : UInt64) :
    Drains save metadata expected broadcasts (serve save metadata input waiting id) [] ∧
      (serve save metadata input waiting id).server.events = waiting.server.events := by
  unfold serve
  cases known : waiting.peers[id]? with
  | none => exact ⟨drains, rfl⟩
  | some peer =>
      have follows : Follows save metadata waiting.server id peer := by
        intro connected
        obtain ⟨peer', known', follows⟩ := (drains.settles id).synced rfl connected
        rw [known] at known'
        cases known'
        exact follows connected
      obtain ⟨others, served⟩ := follows_servePeer follows (input id)
      dsimp only
      refine ⟨⟨?_, ?_, others.broadcasts.trans drains.quiet⟩, others.events⟩
      · intro other
        by_cases about : other = id
        · subst about
          intro connected
          exact ⟨_, ExtTreeMap.getElem?_insert_self, served⟩
        · exact settles_congr (drains.settles other) (others.connections other about)
            (getElem?_insert_other _ _ about) rfl
      · rw [size_insert_of_some _ known]
        exact drains.few

/-- One after another, all peers are served. -/
theorem drains_serves (drains : Drains save metadata expected broadcasts waiting [])
    (input : UInt64 → PeerInput) (ids : List UInt64) :
    Drains save metadata expected broadcasts (ids.foldl (serve save metadata input) waiting) [] ∧
      (ids.foldl (serve save metadata input) waiting).server.events = waiting.server.events := by
  induction ids generalizing waiting with
  | nil => exact ⟨drains, rfl⟩
  | cons id ids ih =>
      obtain ⟨served, events⟩ := drains_serve drains input id
      obtain ⟨rest, events'⟩ := ih served
      exact ⟨rest, events'.trans events⟩

/-- Behind it only the peers of connected clients are left. -/
theorem drains_retain (drains : Drains save metadata expected broadcasts waiting []) :
    Drains save metadata expected broadcasts waiting.retain [] ∧
      ∀ id peer, waiting.retain.peers[id]? = some peer → waiting.server.isConnected id = true := by
  constructor
  · refine ⟨?_, Nat.le_trans (size_retainKeys_le _ _) drains.few, drains.quiet⟩
    intro id connected
    obtain ⟨peer, known, follows⟩ := (drains.settles id).synced rfl connected
    refine ⟨peer, ?_, follows⟩
    exact (getElem?_retainKeys _ _ _).trans ((if_pos connected).trans known)
  · intro id peer known
    have known := (getElem?_retainKeys _ _ _).symm.trans known
    by_cases connected : waiting.server.isConnected id = true
    · exact connected
    · rw [if_neg connected] at known
      cases known

/-- All that a connected client sent was received. -/
def Emptied (server : RenetServer) (id : UInt64) : Prop :=
  server.isConnected id = true → server.pending id .lockstep = [] ∧ server.pending id .desync = []

/-- Whether a client has nothing pending depends on its own connection only. -/
theorem emptied_congr {server' : RenetServer} (emptied : Emptied server id)
    (same : server'.connections id = server.connections id) : Emptied server' id := by
  unfold Emptied
  rw [isConnected_congr same, pending_congr same, pending_congr same]
  exact emptied

/-- There are as many passes as messages, so only an invalid one leaves others pending. -/
theorem pending_receiveStartup (metadata : SaveMetadata) (now passes : Nat) (server : RenetServer)
    (peer : StartupPeer) (enough : (server.pending id .lockstep).length ≤ passes)
    (valid : (receiveStartup metadata now id passes server peer).1 = false) :
    (receiveStartup metadata now id passes server peer).2.1.pending id .lockstep = [] := by
  induction passes generalizing server peer with
  | zero => exact List.length_eq_zero_iff.mp (Nat.le_zero.mp enough)
  | succ passes ih =>
      unfold receiveStartup at valid ⊢
      rcases receiveMessage_cases server id .lockstep with
        ⟨empty, same⟩ | ⟨connection, bytes, later, there, open', first, same⟩
      · rw [same]
        exact empty
      · rw [same] at valid ⊢
        have fewer : ((server.take id .lockstep bytes).pending id .lockstep).length ≤ passes := by
          rw [pending_take, List.length_tail]
          exact Nat.sub_le_of_le_add enough
        dsimp only at valid ⊢
        cases decodes : decodeClientMessage bytes with
        | error error =>
            rw [decodes] at valid
            cases valid
        | ok message =>
            rw [decodes] at valid
            dsimp only at valid ⊢
            cases accepts : peer.receive message metadata now with
            | error error next =>
                rw [accepts] at valid
                cases valid
            | ok _ next =>
                rw [accepts] at valid
                exact ih _ next fewer valid

/-- The service of a peer leaves nothing unread of its client. -/
theorem emptied_servePeer (server : RenetServer) (peer : StartupPeer) (input : PeerInput) :
    Emptied (servePeer save metadata id input server peer).1 id := by
  unfold servePeer
  dsimp only
  generalize (peer.pump save metadata input.answers).2.foldl
    (fun server message => server.sendMessage id .save message) server = after
  have received := pending_receiveStartup metadata input.now (after.pending id .lockstep).length
    after (peer.pump save metadata input.answers).1 (Nat.le_refl _)
  generalize receiveStartup metadata input.now id (after.pending id .lockstep).length after
    (peer.pump save metadata input.answers).1 = result at received ⊢
  by_cases misbehaves : result.1 = true ∨
      (result.2.1.receiveMessage id .desync).1.isSome = true ∨
      result.2.2.timedOut input.deadline = true
  · rw [if_pos misbehaves]
    intro connected
    rw [isConnected_disconnect] at connected
    cases connected
  · rw [if_neg misbehaves]
    rw [not_or, not_or] at misbehaves
    intro _
    rcases receiveMessage_cases result.2.1 id .desync with ⟨none, same⟩ | ⟨_, _, _, _, _, _, same⟩
    · rw [same]
      exact ⟨received (eq_false_of_ne_true misbehaves.1), none⟩
    · rw [same] at misbehaves
      exact (misbehaves.2.1 rfl).elim

/-- Whoever has a peer was served when all are. -/
theorem emptied_serves (drains : Drains save metadata expected broadcasts waiting [])
    (input : UInt64 → PeerInput) (ids : List UInt64) (id : UInt64)
    (once : id ∈ ids ∨ Emptied waiting.server id) :
    Emptied (ids.foldl (serve save metadata input) waiting).server id := by
  induction ids generalizing waiting with
  | nil => exact once.resolve_left List.not_mem_nil
  | cons first ids ih =>
      apply ih (drains_serve drains input first).1
      by_cases about : id = first
      · subst about
        right
        unfold serve
        cases known : waiting.peers[id]? with
        | none =>
            intro connected
            obtain ⟨peer, known', _⟩ := (drains.settles id).synced rfl connected
            rw [known] at known'
            cases known'
        | some peer => exact emptied_servePeer waiting.server peer (input id)
      · apply Or.imp (fun member => (List.mem_cons.mp member).resolve_left about) _ once
        intro emptied
        apply emptied_congr emptied
        unfold serve
        cases known : waiting.peers[first]? with
        | none => rfl
        | some peer =>
            have follows : Follows save metadata waiting.server first peer := by
              intro connected
              obtain ⟨peer', known', follows⟩ := (drains.settles first).synced rfl connected
              rw [known] at known'
              cases known'
              exact follows connected
            exact (follows_servePeer follows (input first)).1.connections id about

/-- What happened on the connection of a participant until the start was announced to
it: it was sent the whole save and later said that it is ready, all of its messages
were legal, and it reported no desync. -/
structure Admitted (save : Bytes) (metadata : SaveMetadata) (history : List Traffic) : Prop where
  legal : ∃ peer : StartupPeer, peer.Ran save metadata history
  ready : ∃ front bytes back, history = front ++ .received .lockstep bytes :: back ∧
    decodeClientMessage bytes = .ok (.ready metadata.tick metadata.hash) ∧
    sentOn .save front = transferBytes save metadata 0 (chunkCount save + 1)
  quiet : sentOn .lockstep history = []
  synced : ∀ bytes, .received .desync bytes ∉ history

/-- A peer that is ready ran through the whole protocol. -/
theorem admitted_of_ran {history : List Traffic} (ran : peer.Ran save metadata history)
    (ready : peer.isReady = true) : Admitted save metadata history where
  legal := ⟨peer, ran⟩
  ready := ran.announced (of_decide_eq_true ready)
  quiet := ran.silent.1 .lockstep Channel.noConfusion
  synced := ran.silent.2

/-- The start was announced, once, to those who are verified, and to no one else. -/
structure Started (expected : Nat) (save : Bytes) (metadata : SaveMetadata)
    (verified : ExtTreeMap UInt64 UInt64) (server : RenetServer) : Prop where
  once : server.broadcasts =
    [(.lockstep, encode (ServerMessage.start metadata.tick metadata.hash))]
  size : verified.size = expected
  connected : ∀ id, server.isConnected id = true ↔ id ∈ verified
  ticks : ∀ (id tick : UInt64), verified[id]? = some tick → tick = metadata.tick
  admitted : ∀ id, id ∈ verified → ∃ connection history,
    server.connections id = some connection ∧ Admitted save metadata history ∧
    connection.history = history ++
      [.sent .lockstep (encode (ServerMessage.start metadata.tick metadata.hash))] ∧
    connection.incoming .lockstep = [] ∧ connection.incoming .desync = []

/-- Once as many are ready as are expected, all who are connected are. -/
theorem started_of_ready (drains : Drains save metadata expected [] waiting [])
    (known : ∀ id peer, waiting.peers[id]? = some peer → waiting.server.isConnected id = true)
    (emptied : ∀ id, Emptied waiting.server id) (all : waiting.ready = expected) :
    Started expected save metadata (waiting.peers.map fun _ _ => metadata.tick)
      (waiting.start metadata).server := by
  have size : waiting.peers.size = expected := by
    apply Nat.le_antisymm drains.few
    rw [← all, ← ExtTreeMap.length_toList]
    exact List.countP_le_length
  have ready (id : UInt64) (peer : StartupPeer) (there : waiting.peers[id]? = some peer) :
      peer.isReady = true := by
    apply forall_of_countP _ there
    exact all.trans size.symm
  constructor
  case once =>
    change waiting.server.broadcasts ++ _ = _
    rw [drains.quiet]
    rfl
  case size => exact ExtTreeMap.size_map.trans size
  case connected =>
    intro id
    rw [ExtTreeMap.mem_map]
    change (waiting.server.broadcastMessage _ _).isConnected id = true ↔ _
    rw [isConnected_broadcastMessage]
    constructor
    · intro connected
      obtain ⟨peer, there, _⟩ := (drains.settles id).synced rfl connected
      exact ExtTreeMap.mem_iff_isSome_getElem?.mpr (by rw [there]; rfl)
    · intro member
      exact known id _ (ExtTreeMap.getElem?_eq_some_getElem member)
  case ticks =>
    intro id tick there
    rw [ExtTreeMap.getElem?_map, Option.map_eq_some_iff] at there
    obtain ⟨_, _, rfl⟩ := there
    rfl
  case admitted =>
    intro id member
    rw [ExtTreeMap.mem_map] at member
    have there := ExtTreeMap.getElem?_eq_some_getElem member
    have connected := known id _ there
    obtain ⟨peer, there', follows⟩ := (drains.settles id).synced rfl connected
    obtain ⟨connection, is_there, ran⟩ := follows connected
    obtain ⟨connection', is_there', open'⟩ := isConnected_iff.mp connected
    rw [is_there] at is_there'
    cases is_there'
    obtain ⟨lockstep, desync⟩ := emptied id connected
    rw [pending_of_connected is_there open'] at lockstep desync
    exact ⟨_, connection.history, connections_broadcastMessage _ _ is_there open',
      admitted_of_ran ran (ready id peer there'), rfl, lockstep, desync⟩

/-- After the peers are served, those who are left are connected and have nothing pending. -/
theorem served (drains : Drains save metadata expected broadcasts waiting [])
    (input : UInt64 → PeerInput) :
    let next := (waiting.peers.keys.foldl (serve save metadata input) waiting).retain
    Drains save metadata expected broadcasts next [] ∧
      next.server.events = waiting.server.events ∧
      (∀ id peer, next.peers[id]? = some peer → next.server.isConnected id = true) ∧
      ∀ id, Emptied next.server id := by
  obtain ⟨serves, events⟩ := drains_serves drains input waiting.peers.keys
  obtain ⟨retained, known⟩ := drains_retain serves
  refine ⟨retained, events, known, ?_⟩
  intro id
  apply emptied_serves drains
  by_cases member : id ∈ waiting.peers
  · exact Or.inl (ExtTreeMap.mem_keys.mpr member)
  · right
    intro connected
    obtain ⟨peer, there, _⟩ := (drains.settles id).synced rfl connected
    exact (member (ExtTreeMap.mem_iff_isSome_getElem?.mpr (by rw [there]; rfl))).elim

/-- A pass announces the start, or nothing. -/
theorem ensures_pass (drains : Drains save metadata expected [] waiting waiting.server.events)
    (input : WaitInput) :
    Ensures (pass expected save metadata input) waiting
      (fun verified next => match verified with
        | some verified => Started expected save metadata verified next.server
        | none => Drains save metadata expected [] next next.server.events)
      (fun _ next => next.server.broadcasts = []) := by
  have updated := drains_update drains input.actions
  obtain ⟨handled, none⟩ := drains_handleEvents updated input.now
  unfold pass
  rw [ensures_bind]
  apply (ensures_failWith input.network waiting).mono
  · intro _ next outcome
    obtain ⟨_, same⟩ := outcome
    subst same
    simp only [ensures_bind, ensures_modify, ensures_ofExcept, ensures_get]
    refine ⟨?_, fun _ _ => handled.quiet⟩
    intro _ _
    obtain ⟨serves, events, known, emptied⟩ := served handled input.peers
    generalize (((handleEvents expected input.now
      { next with server := next.server.update input.actions }).peers.keys.foldl
        (serve save metadata input.peers) (handleEvents expected input.now
          { next with server := next.server.update input.actions })).retain) = served at *
    have shown : Drains save metadata expected [] (served.publishReady expected) [] :=
      ⟨serves.settles, serves.few, serves.quiet⟩
    by_cases all : (served.publishReady expected).ready = expected
    · rw [if_pos all]
      exact started_of_ready shown known emptied all
    · rw [if_neg all]
      rw [none] at events
      have quiet : Drains save metadata expected [] (served.publishReady expected)
          served.server.events := by
        rw [events]
        exact shown
      exact quiet
  · intro _ next failed
    rw [failed.2]
    exact drains.quiet

/-- Whatever the clients do, they are started together or not at all. -/
theorem start_barrier (expected : Nat) (save : Bytes) (metadata : SaveMetadata)
    (inputs : List WaitInput) :
    Ensures (waitForClients expected save metadata inputs) { server := {} }
      (fun verified next => Started expected save metadata verified next.server ∨
        verified = ∅ ∧ next.server.broadcasts = [])
      (fun _ next => next.server.broadcasts = []) := by
  have begins : Drains save metadata expected [] { server := {} } [] := by
    refine ⟨?_, Nat.zero_le _, rfl⟩
    intro id connected
    cases connected
  have loop (waiting : Waiting)
      (drains : Drains save metadata expected [] waiting waiting.server.events) :
      Ensures (waitForClients expected save metadata inputs) waiting
        (fun verified next => Started expected save metadata verified next.server ∨
          verified = ∅ ∧ next.server.broadcasts = [])
        (fun _ next => next.server.broadcasts = []) := by
    induction inputs generalizing waiting with
    | nil => exact Or.inr ⟨rfl, drains.quiet⟩
    | cons input later ih =>
        unfold waitForClients
        rw [ensures_bind]
        apply (ensures_pass drains input).mono
        · intro verified next passed
          cases verified with
          | some verified => exact Or.inl passed
          | none => exact ih next passed
        · intro _ _ quiet
          exact quiet
  exact loop _ begins

end Waiting

end Synctick
