import Synctick.Protocol.Lockstep
import Synctick.Server.Barrier
import Synctick.Server.Live

/-! # What an authority sends and hears

What was sent on a connection stays sent, and what it heard it heard: a pass of the waiting loop
sends more messages, and receives some that were delivered. So before the start a client was sent
a part of the save and nothing else, and at the start it has the whole save and said so. An
iteration of the live loop sends its tick to everyone who is still connected.
-/

namespace Synctick

open Effect Std

/-- The messages received on a channel, in order. -/
def receivedOn (channel : Channel) (history : List Traffic) : List Bytes :=
  history.filterMap fun
    | .received other bytes => if other = channel then some bytes else none
    | .sent _ _ => none

/-- What was received over a channel is what was received first and what was received later. -/
theorem receivedOn_append (channel : Channel) (front back : List Traffic) :
    receivedOn channel (front ++ back) = receivedOn channel front ++ receivedOn channel back :=
  List.filterMap_append

namespace Connection

/-- All that was delivered on a channel, received or not. -/
def heard (connection : Connection) (channel : Channel) : List Bytes :=
  receivedOn channel connection.history ++ connection.incoming channel

/-- What is under way to the client is all that was sent to it. -/
def Recorded (connection : Connection) : Prop :=
  ∀ channel, connection.outgoing channel = sentOn channel connection.history

/-- What a server does on a connection: it sends more, receives what was delivered, and may close
the connection. -/
structure Onward (connection later : Connection) : Prop where
  heard : ∀ channel, later.heard channel = connection.heard channel
  sends : ∀ channel, connection.outgoing channel <+: later.outgoing channel
  recorded : connection.Recorded → later.Recorded
  closes : later.disconnected = false → connection.disconnected = false

theorem Onward.refl (connection : Connection) : connection.Onward connection :=
  ⟨fun _ => rfl, fun _ => List.prefix_refl _, fun recorded => recorded, fun opens => opens⟩

/-- A later state of a later state is a later state. -/
theorem Onward.trans {connection middle later : Connection} (first : connection.Onward middle)
    (second : middle.Onward later) : connection.Onward later where
  heard channel := (second.heard channel).trans (first.heard channel)
  sends channel := (first.sends channel).trans (second.sends channel)
  recorded recorded := second.recorded (first.recorded recorded)
  closes opens := first.closes (second.closes opens)

/-- A connection that is closed keeps what it was sent and what was heard. -/
theorem onward_disconnect (connection : Connection) :
    connection.Onward { connection with disconnected := true } :=
  ⟨fun _ => rfl, fun _ => List.prefix_refl _, fun recorded => recorded,
    fun impossible => nomatch impossible⟩

/-- A connection that is sent something keeps what it was sent before. -/
theorem onward_send (connection : Connection) (on : Channel) (bytes : Bytes) :
    connection.Onward (connection.send on bytes) := by
  unfold send
  by_cases closed : connection.disconnected = true
  · rw [if_pos closed]
    exact .refl connection
  · rw [if_neg closed]
    refine ⟨?_, ?_, ?_, fun opens => opens⟩
    · intro channel
      unfold Connection.heard
      rw [receivedOn_append]
      exact congrArg (· ++ _) (List.append_nil _)
    · intro channel
      change connection.outgoing channel <+: connection.outgoing.push on bytes channel
      by_cases here : channel = on
      · subst here
        rw [Mailbox.push_same]
        exact List.prefix_append _ _
      · rw [Mailbox.push_other _ _ here]
    · intro recorded channel
      rw [sentOn_append, ← recorded channel]
      by_cases here : channel = on
      · subst here
        simp [sentOn]
      · have elsewhere : ¬ on = channel := fun same => here same.symm
        simp [sentOn, here, elsewhere]

/-- Receiving takes a message that was delivered. -/
theorem onward_receive {connection : Connection} {on : Channel} {bytes : Bytes} {later : List Bytes}
    (first : connection.incoming on = bytes :: later) :
    connection.Onward { connection with
      incoming := connection.incoming.pop on
      history := connection.history ++ [.received on bytes] } where
  heard channel := by
    unfold Connection.heard
    rw [receivedOn_append, List.append_assoc]
    by_cases here : channel = on
    · subst here
      simp [receivedOn, first]
    · have elsewhere : ¬ on = channel := fun same => here same.symm
      simp [receivedOn, here, elsewhere]
  sends _ := List.prefix_refl _
  recorded recorded channel := by
    rw [sentOn_append, ← recorded channel]
    exact (List.append_nil _).symm
  closes opens := opens

end Connection

namespace RenetServer

/-- A server that goes on with its connections. -/
def Onward (server next : RenetServer) : Prop :=
  ∀ id connection, server.connections id = some connection →
    ∃ later, next.connections id = some later ∧ connection.Onward later

theorem Onward.refl (server : RenetServer) : server.Onward server :=
  fun _ connection there => ⟨connection, there, .refl connection⟩

theorem Onward.trans {server middle next : RenetServer} (first : server.Onward middle)
    (second : middle.Onward next) : server.Onward next := by
  intro id connection there
  obtain ⟨between, there, onward⟩ := first id connection there
  obtain ⟨later, there, onward'⟩ := second id between there
  exact ⟨later, there, onward.trans onward'⟩

/-- Steps in a row lead on where each of them does. -/
theorem onward_foldl {α : Type} (server : RenetServer) (step : RenetServer → α → RenetServer)
    (onward : ∀ (server : RenetServer) element, server.Onward (step server element))
    (elements : List α) :
    server.Onward (elements.foldl step server) := by
  induction elements generalizing server with
  | nil => exact .refl server
  | cons element elements ih => exact (onward server element).trans (ih _)

/-- A server leads on where the changed connection does. -/
theorem onward_alter (server : RenetServer) (id : UInt64) {change : Connection → Connection}
    (onward : ∀ connection, server.connections id = some connection →
      connection.Onward (change connection)) : server.Onward (server.alter id change) := by
  intro other connection there
  by_cases same : other = id
  · subst same
    exact ⟨change connection, by rw [alter_same, there]; rfl, onward connection there⟩
  · exact ⟨connection, by rw [alter_other _ same, there], .refl connection⟩

theorem onward_disconnect (server : RenetServer) (id : UInt64) :
    server.Onward (server.disconnect id) :=
  onward_alter server id fun connection _ => connection.onward_disconnect

/-- Sending leads on. -/
theorem onward_sendMessage (server : RenetServer) (id : UInt64) (channel : Channel)
    (bytes : Bytes) : server.Onward (server.sendMessage id channel bytes) :=
  onward_alter server id fun connection _ => connection.onward_send channel bytes

/-- So does a broadcast. -/
theorem onward_broadcastMessage (server : RenetServer) (channel : Channel) (bytes : Bytes) :
    server.Onward (server.broadcastMessage channel bytes) := by
  intro id connection there
  refine ⟨connection.send channel bytes, ?_, connection.onward_send channel bytes⟩
  unfold broadcastMessage
  dsimp only
  rw [there]
  rfl

/-- So does receiving. -/
theorem onward_receiveMessage (server : RenetServer) (id : UInt64) (channel : Channel) :
    server.Onward (server.receiveMessage id channel).2 := by
  rcases receiveMessage_cases server id channel with
    ⟨_, same⟩ | ⟨connection, bytes, later, there, _, first, same⟩
  · rw [same]
    exact .refl server
  · rw [same]
    apply onward_alter server id
    intro other there'
    rw [there] at there'
    cases there'
    exact Connection.onward_receive first

end RenetServer

namespace Waiting

open RenetServer

variable {expected : Nat}

/-- Taking the events leads on, also where a client is turned away. -/
theorem onward_handleEvents (now : Nat) (waiting : Waiting) :
    waiting.server.Onward (handleEvents expected now waiting).server := by
  have events (events : List ServerEvent) (waiting : Waiting) :
      waiting.server.Onward (events.foldl (handleEvent expected now) waiting).server := by
    induction events generalizing waiting with
    | nil => exact .refl _
    | cons event events ih =>
        apply Onward.trans _ (ih _)
        cases event with
        | clientConnected id =>
            by_cases room : waiting.peers.size < expected
            · rw [handleEvent_connected now id room]
              exact .refl _
            · rw [handleEvent_full now id room]
              exact onward_disconnect _ id
        | clientDisconnected => exact .refl _
  have handled := events waiting.server.events
    { waiting with server := { waiting.server with events := [] } }
  exact handled

/-- Receiving what a starting client sent leads on. -/
theorem onward_receiveStartup (metadata : SaveMetadata) (now : Nat) (id : UInt64) (passes : Nat) (server : RenetServer)
    (peer : StartupPeer) :
    server.Onward (receiveStartup metadata now id passes server peer).2.1 := by
  induction passes generalizing server peer with
  | zero => exact .refl server
  | succ passes ih =>
      have receives := onward_receiveMessage server id .lockstep
      unfold receiveStartup
      rcases receiveMessage_cases server id .lockstep with
        ⟨_, same⟩ | ⟨_, bytes, _, _, _, _, same⟩
      · rw [same]
        exact .refl server
      · rw [same] at receives ⊢
        dsimp only at receives ⊢
        cases decodeClientMessage bytes with
        | error error => exact receives
        | ok message =>
            dsimp only
            cases peer.receive message metadata now with
            | error error next => exact receives
            | ok _ next => exact receives.trans (ih _ next)

variable (save : Bytes) (metadata : SaveMetadata)

/-- So does the service of its peer. -/
theorem onward_servePeer (id : UInt64) (input : PeerInput) (server : RenetServer)
    (peer : StartupPeer) :
    server.Onward (servePeer save metadata id input server peer).1 := by
  unfold servePeer
  dsimp only
  have sends := onward_foldl server (fun server message => server.sendMessage id .save message)
    (fun server message => onward_sendMessage server id .save message)
    (peer.pump save metadata input.answers).2
  generalize (peer.pump save metadata input.answers).2.foldl
    (fun server message => server.sendMessage id .save message) server = after at sends ⊢
  have receives := onward_receiveStartup metadata input.now id
    (after.pending id .lockstep).length after (peer.pump save metadata input.answers).1
  generalize receiveStartup metadata input.now id (after.pending id .lockstep).length after
    (peer.pump save metadata input.answers).1 = result at receives ⊢
  have served := (sends.trans receives).trans (onward_receiveMessage result.2.1 id .desync)
  by_cases misbehaves : result.1 = true ∨
      (result.2.1.receiveMessage id .desync).1.isSome = true ∨
      result.2.2.timedOut input.deadline = true
  · rw [if_pos misbehaves]
    exact served.trans (onward_disconnect _ id)
  · rw [if_neg misbehaves]
    exact served

/-- So does the service of one client in a pass. -/
theorem onward_serve (input : UInt64 → PeerInput) (waiting : Waiting) (id : UInt64) :
    waiting.server.Onward (serve save metadata input waiting id).server := by
  unfold serve
  cases waiting.peers[id]? with
  | none => exact .refl _
  | some peer => exact onward_servePeer save metadata id (input id) waiting.server peer

/-- So does that of all clients. -/
theorem onward_serves (input : UInt64 → PeerInput) (ids : List UInt64) (waiting : Waiting) :
    waiting.server.Onward (ids.foldl (serve save metadata input) waiting).server := by
  induction ids generalizing waiting with
  | nil => exact .refl _
  | cons id ids ih => exact (onward_serve save metadata input waiting id).trans (ih _)

/-- A pass goes on with the connections, whether it announces the start or not. -/
theorem ensures_pass_onward {input : WaitInput} (still : input.actions = []) (waiting : Waiting) :
    Ensures (pass expected save metadata input) waiting
      (fun _ next => waiting.server.Onward next.server) (fun _ _ => True) := by
  unfold pass
  rw [ensures_bind]
  apply (ensures_failWith input.network waiting).mono
  · intro _ start outcome
    rw [outcome.2]
    simp only [ensures_bind, ensures_modify, ensures_ofExcept, ensures_get]
    refine ⟨?_, fun _ _ => trivial⟩
    intro _ _
    rw [still]
    have handled : waiting.server.Onward
        (handleEvents expected input.now { waiting with server := waiting.server.update [] }).server :=
      onward_handleEvents input.now { waiting with server := waiting.server.update [] }
    generalize handleEvents expected input.now
      { waiting with server := waiting.server.update [] } = handled' at handled ⊢
    have served := handled.trans
      (onward_serves save metadata input.peers handled'.peers.keys handled')
    generalize (handled'.peers.keys.foldl (serve save metadata input.peers) handled') = served'
      at served ⊢
    by_cases all : (served'.retain.publishReady expected).ready = expected
    · rw [if_pos all]
      exact served.trans (onward_broadcastMessage _ _ _)
    · rw [if_neg all]
      exact served
  · intro _ _ _
    trivial

variable {save metadata} {waiting : Waiting} {connection : Connection} {id : UInt64}

/-- What was sent before the start: a part of the save. -/
structure Loading (save : Bytes) (metadata : SaveMetadata) (outgoing : Mailbox) : Prop where
  save : outgoing .save <+: transferBytes save metadata 0 (chunkCount save + 1)
  lockstep : outgoing .lockstep = []
  desync : outgoing .desync = []

/-- What a peer sent before the start. -/
theorem loading_of_ran {peer : StartupPeer} (recorded : connection.Recorded)
    (ran : peer.Ran save metadata connection.history) :
    Loading save metadata connection.outgoing where
  save := by
    obtain ⟨sent, _, received, before⟩ := ran.sent
    rw [recorded, before, ← transferBytes_append (Nat.zero_le sent) received.bound]
    exact List.prefix_append _ _
  lockstep := by
    rw [recorded]
    exact ran.silent.1 .lockstep Channel.noConfusion
  desync := by
    rw [recorded]
    exact ran.silent.1 .desync Channel.noConfusion

/-- Between the passes, a connected client was sent a part of the save. -/
theorem loading_of_drains
    (drains : Drains save metadata expected [] waiting waiting.server.events)
    (there : waiting.server.connections id = some connection)
    (opens : connection.disconnected = false) (recorded : connection.Recorded) :
    Loading save metadata connection.outgoing := by
  have settles := drains.settles id
  unfold Settles at settles
  cases last : lastEvent waiting.server.events id with
  | none =>
      rw [last] at settles
      have connected := isConnected_iff.mpr ⟨connection, there, opens⟩
      obtain ⟨_, _, follows⟩ := settles connected
      obtain ⟨other, there', ran⟩ := follows connected
      rw [there] at there'
      cases there'
      exact loading_of_ran recorded ran
  | some event =>
      rw [last] at settles
      cases event with
      | clientConnected =>
          have fresh := settles connection there
          apply loading_of_ran recorded
          rw [fresh]
          exact .new 0
      | clientDisconnected =>
          rw [there] at settles
          cases settles

/-- What was sent up to the ticks of a live loop: the whole save, the start and the ticks. -/
structure Streaming (save : Bytes) (metadata : SaveMetadata) (ticks : List TickAdvance)
    (outgoing : Mailbox) : Prop where
  save : outgoing .save = transferBytes save metadata 0 (chunkCount save + 1)
  lockstep : outgoing .lockstep = lockstepMessages metadata ticks
  desync : outgoing .desync = []

/-- At the start, a connected client was sent the whole save and the start, and it said that it is
ready. -/
theorem streaming_of_started {verified : ExtTreeMap UInt64 UInt64} {server : RenetServer}
    (started : Started expected save metadata verified server)
    (there : server.connections id = some connection) (opens : connection.disconnected = false)
    (recorded : connection.Recorded) :
    Streaming save metadata [] connection.outgoing ∧ ∃ bytes ∈ connection.heard .lockstep,
      decodeClientMessage bytes = .ok (.ready metadata.tick metadata.hash) := by
  have member := (started.connected id).mp (isConnected_iff.mpr ⟨connection, there, opens⟩)
  obtain ⟨other, history, there', admitted, traffic, _, _⟩ := started.admitted id member
  rw [there] at there'
  cases there'
  obtain ⟨peer, ran⟩ := admitted.legal
  obtain ⟨front, bytes, back, split, decodes, whole⟩ := admitted.ready
  have sends (channel : Channel) (other : channel ≠ .lockstep) :
      connection.outgoing channel = sentOn channel history := by
    have elsewhere : ¬ Channel.lockstep = channel := fun same => other same.symm
    rw [recorded, traffic, sentOn_append]
    simp [sentOn, elsewhere]
  refine ⟨⟨?_, ?_, ?_⟩, bytes, ?_, decodes⟩
  · obtain ⟨sent, _, received, before⟩ := ran.sent
    have bound := received.bound
    have least : chunkCount save + 1 ≤ sent := by
      have lengths := congrArg List.length before
      rw [split, sentOn_append, whole, List.length_append] at lengths
      simp only [transferBytes, List.length_map, List.length_range'] at lengths
      omega
    rw [sends .save Channel.noConfusion, before]
    congr 1
    omega
  · rw [recorded, traffic, sentOn_append, admitted.quiet]
    rfl
  · rw [sends .desync Channel.noConfusion]
    exact ran.silent.1 .desync Channel.noConfusion
  · apply List.mem_append_left
    rw [traffic, split, receivedOn_append, receivedOn_append]
    apply List.mem_append_left
    apply List.mem_append_right
    exact List.mem_cons_self

end Waiting

namespace Authority

open RenetServer

variable {σ : Type} {authority next : Authority σ} {input : TickInput} {id : UInt64}
  {connection : Connection}

/-- Whoever is connected once the connection events were handled, was so before, and had not just
connected. -/
theorem connected_entered (still : input.actions = [])
    (there : (authority.entered input).server.connections id = some connection)
    (opens : connection.disconnected = false) :
    authority.server.connections id = some connection ∧
      .clientConnected id ∉ authority.server.events := by
  have events (events : List ServerEvent) (authority : Authority σ)
      (there : (events.foldl handleEvent authority).server.connections id = some connection) :
      authority.server.connections id = some connection ∧ .clientConnected id ∉ events := by
    induction events generalizing authority with
    | nil => exact ⟨there, List.not_mem_nil⟩
    | cons event events ih =>
        obtain ⟨there, unannounced⟩ := ih _ there
        cases event with
        | clientConnected other =>
            change (authority.server.disconnect other).connections id = some connection at there
            have different : id ≠ other := by
              intro same
              subst same
              have closed := isConnected_iff.mpr ⟨connection, there, opens⟩
              rw [isConnected_disconnect] at closed
              cases closed
            have kept : (authority.server.disconnect other).connections id =
                authority.server.connections id := alter_other _ different
            rw [kept] at there
            refine ⟨there, ?_⟩
            intro member
            rcases List.mem_cons.mp member with same | later
            · cases same
              exact different rfl
            · exact unannounced later
        | clientDisconnected other =>
            refine ⟨there, ?_⟩
            intro member
            rcases List.mem_cons.mp member with impossible | later
            · cases impossible
            · exact unannounced later
  unfold entered at there
  rw [still] at there
  have before := events authority.server.events
    { authority with server := { authority.server with events := [] } } there
  exact before

/-- Handling the connection events removes no connection. -/
theorem present_entered (still : input.actions = [])
    (there : authority.server.connections id = some connection) :
    ∃ later, (authority.entered input).server.connections id = some later := by
  have events (events : List ServerEvent) (authority : Authority σ)
      (there : ∃ connection, authority.server.connections id = some connection) :
      ∃ later, (events.foldl handleEvent authority).server.connections id = some later := by
    induction events generalizing authority with
    | nil => exact there
    | cons event events ih =>
        apply ih
        obtain ⟨connection, there⟩ := there
        cases event with
        | clientConnected other =>
            by_cases same : id = other
            · subst same
              exact ⟨{ connection with disconnected := true }, by
                change (authority.server.alter id _).connections id = _
                rw [alter_same, there]
                rfl⟩
            · exact ⟨connection, (alter_other _ same).trans there⟩
        | clientDisconnected => exact ⟨connection, there⟩
  unfold entered
  rw [still]
  have handled := events authority.server.events
    { authority with server := { authority.server with events := [] } } ⟨connection, there⟩
  exact handled

variable [SessionSimulation σ]

/-- An iteration removes no connection. -/
theorem present_of_iterated {advance : TickAdvance} (still : input.actions = [])
    (iterated : Iterated authority next input advance)
    (there : authority.server.connections id = some connection) :
    ∃ later, next.server.connections id = some later := by
  obtain ⟨middle, gathered, server, _⟩ := iterated.gathered
  obtain ⟨after, services, same, _⟩ := gathered.services
  obtain ⟨first, before⟩ := present_entered still there
  obtain ⟨later, there, _⟩ := services.serviced.present id first before
  refine ⟨later.send .lockstep (encode (ServerMessage.tick advance)), ?_⟩
  rw [server]
  change (middle.server.connections id).map _ = _
  rw [same, there]
  rfl

/-- An iteration sends its tick to everyone who is still connected. -/
theorem streaming_of_iterated {advance : TickAdvance} (still : input.actions = [])
    (iterated : Iterated authority next input advance)
    (there : next.server.connections id = some connection)
    (opens : connection.disconnected = false) :
    ∃ earlier, authority.server.connections id = some earlier ∧ earlier.disconnected = false ∧
      .clientConnected id ∉ authority.server.events ∧
      connection.outgoing =
        earlier.outgoing.push .lockstep (encode (ServerMessage.tick advance)) := by
  obtain ⟨middle, gathered, server, _⟩ := iterated.gathered
  obtain ⟨after, services, same, _⟩ := gathered.services
  have serviced : Serviced (authority.entered input).server middle.server := by
    rw [same]
    exact services.serviced
  rw [server] at there
  unfold broadcasting at there
  obtain ⟨between, before, sent⟩ := Option.map_eq_some_iff.mp there
  have opens' : between.disconnected = false := by
    rw [← sent, Connection.disconnected_send] at opens
    exact opens
  cases origin : (authority.entered input).server.connections id with
  | none =>
      have absent := serviced.absent id origin
      rw [before] at absent
      cases absent
  | some first =>
      obtain ⟨later, before', outgoing, closes⟩ := serviced.present id first origin
      rw [before] at before'
      cases before'
      obtain ⟨there, unannounced⟩ := connected_entered still origin (closes opens')
      refine ⟨first, there, closes opens', unannounced, ?_⟩
      rw [← sent, ← outgoing]
      unfold Connection.send
      rw [if_neg (ne_true_of_eq_false opens')]

end Authority

end Synctick
