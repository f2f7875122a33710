import Synctick.System

/-! # What holds in every run of an authority and its replicas

The authority sends each replica a part of the save, and once the replica announced that it is
ready the start and the ticks. So whatever was delivered, a replica agrees with its authority, and
it fails only for its environment or when its own publication does.
-/

namespace Synctick

open SessionSimulation Effect Std RenetServer Waiting

/-- The ticks of some broadcasts. -/
def broadcastTicks (broadcasts : List (Channel × Bytes)) : List TickAdvance :=
  broadcasts.filterMap fun message =>
    match decodeServerMessage message.2 with
    | .ok (.tick advance) => some advance
    | _ => none

/-- Ticks come in the order of their broadcasts. -/
theorem broadcastTicks_append (front back : List (Channel × Bytes)) :
    broadcastTicks (front ++ back) = broadcastTicks front ++ broadcastTicks back :=
  List.filterMap_append

/-- The lockstep stream has the ticks that it was made of. -/
theorem broadcastTicks_lockstepMessages (metadata : SaveMetadata) {ticks : List TickAdvance}
    (broadcastable : ∀ advance ∈ ticks, advance.Broadcastable) :
    broadcastTicks ((lockstepMessages metadata ticks).map (Prod.mk .lockstep)) = ticks := by
  have own (ticks : List TickAdvance) (broadcastable : ∀ advance ∈ ticks, advance.Broadcastable) :
      broadcastTicks ((ticks.map fun advance => encode (ServerMessage.tick advance)).map
        (Prod.mk .lockstep)) = ticks := by
    induction ticks with
    | nil => rfl
    | cons advance ticks ih =>
        obtain ⟨bounded, within⟩ := broadcastable advance List.mem_cons_self
        have rest := ih fun other member => broadcastable other (List.mem_cons_of_mem _ member)
        unfold broadcastTicks at rest ⊢
        rw [List.map_cons, List.map_cons, List.filterMap_cons,
          decodeServerMessage_tick advance bounded within, rest]
  have rest := own ticks broadcastable
  unfold lockstepMessages
  unfold broadcastTicks at rest ⊢
  rw [List.map_cons, List.filterMap_cons, decodeServerMessage_start, rest]

variable {ι σ κ : Type} [SessionSimulation σ]

/-- Commands that an authority accepts are within their limit. -/
def CommandsBounded (σ : Type) [SessionSimulation σ] : Prop :=
  ∀ (sim : σ) (bytes : Bytes), validateCommand sim bytes = .ok () →
    bytes.length ≤ Codec.maxPayloadBytes

/-- A tick that was sequenced can be broadcast. -/
theorem Sequenced.broadcastable {sim : σ} {advance : TickAdvance} (bounded : CommandsBounded σ)
    (sequenced : Sequenced sim advance) : advance.Broadcastable := by
  refine ⟨?_, sequenced.within⟩
  intro command member
  exact bounded sim _ (sequenced.valid command member)

namespace Phase

variable {config : ServerCfg} {save : Bytes} {metadata : SaveMetadata} {base : σ}
  {ticks : List TickAdvance} {phase next : Phase σ}

/-- An authority that was at `base` when it announced its save, and broadcast the ticks since. -/
def Follows (config : ServerCfg) (save : Bytes) (metadata : SaveMetadata) (base : σ)
    (ticks : List TickAdvance) : Phase σ → Prop
  | .waiting session current => ticks = [] ∧ session.sim = base ∧
      Drains save metadata config.expectedClients [] current current.server.events
  | .live authority => Evolves base ticks authority.sim ∧
      authority.server.broadcasts = (lockstepMessages metadata ticks).map (Prod.mk .lockstep)
  | .ended server _ => (∃ current, Evolves base ticks current) ∧
      ticks <+: broadcastTicks server.broadcasts

/-- The ticks that were broadcast lead on from where the save was announced. -/
theorem Follows.evolves (follows : phase.Follows config save metadata base ticks) :
    ∃ current, Evolves base ticks current := by
  cases phase with
  | waiting session current =>
      obtain ⟨none, _, _⟩ := follows
      rw [none]
      exact ⟨base, .here⟩
  | live authority => exact ⟨authority.sim, follows.1⟩
  | ended => exact follows.1

/-- The ticks are among the broadcasts, in their order. -/
theorem Follows.broadcast (follows : phase.Follows config save metadata base ticks)
    (broadcastable : ∀ advance ∈ ticks, advance.Broadcastable) :
    ticks <+: broadcastTicks phase.server.broadcasts := by
  cases phase with
  | waiting session current =>
      obtain ⟨none, _, _⟩ := follows
      rw [none]
      exact List.nil_prefix
  | live authority =>
      change ticks <+: broadcastTicks authority.server.broadcasts
      rw [follows.2, broadcastTicks_lockstepMessages metadata broadcastable]
  | ended => exact follows.2

/-- What the network does broadcasts nothing. -/
theorem broadcasts_act (server : RenetServer) (action : NetAction) :
    (server.act action).broadcasts = server.broadcasts := broadcasts_update server [action]

/-- The network does not change what was broadcast. -/
theorem Follows.act (follows : phase.Follows config save metadata base ticks)
    (action : NetAction) : (phase.act action).Follows config save metadata base ticks := by
  cases phase with
  | waiting session current =>
      obtain ⟨none, same, drains⟩ := follows
      exact ⟨none, same, drains_act drains action⟩
  | live authority =>
      obtain ⟨evolves, broadcasts⟩ := follows
      exact ⟨evolves, (broadcasts_act _ action).trans broadcasts⟩
  | ended server sim =>
      obtain ⟨evolves, broadcast⟩ := follows
      refine ⟨evolves, ?_⟩
      rw [broadcasts_act]
      exact broadcast

/-- A session that ends broadcast what it had broadcast, and maybe one more tick. -/
theorem Follows.ends (follows : phase.Follows config save metadata base ticks)
    (broadcastable : ∀ advance ∈ ticks, advance.Broadcastable)
    (ends : phase.Ends config save metadata next) :
    next.Follows config save metadata base ticks := by
  cases ends with
  | cancelled => exact ⟨follows.evolves, follows.broadcast broadcastable⟩
  | wait =>
      refine ⟨follows.evolves, ?_⟩
      rw [follows.1]
      exact List.nil_prefix
  | @tick current after input error still fails =>
      refine ⟨follows.evolves, ?_⟩
      have broadcast := follows.broadcast broadcastable
      rcases ensures_of_error (Authority.ensures_iteration_broadcasts _ input current) fails with
        same | ⟨advance, _, more⟩
      · rw [same]
        exact broadcast
      · rw [more, broadcastTicks_append]
        exact broadcast.trans (List.prefix_append _ _)

end Phase

namespace Member

variable {save : Bytes} {metadata : SaveMetadata} {initial last : σ}
  {ticks ticks' : List TickAdvance} {member next : Member σ} {server : RenetServer}

omit [SessionSimulation σ] in
/-- The replica announced that it is ready, and the authority was delivered that. -/
def Announced (member : Member σ) : Prop :=
  ∃ bytes ∈ member.said .lockstep, ∃ tick hash, decodeClientMessage bytes = .ok (.ready tick hash)

/-- A replica that agrees with its authority, or stopped for another reason. -/
structure Sound (save : Bytes) (metadata : SaveMetadata) (initial last : σ)
    (ticks : List TickAdvance) (member : Member σ) : Prop where
  runs : member.stopped = none → Replica.Agrees save metadata initial last member.got
    (member.said .lockstep) member.replica
  stops : ∀ error, member.stopped = some error →
    Replica.Placed save initial last ticks member.replica.sim ∨
      Replica.Torn last ticks error member.replica.sim
  delivered : ∀ channel, member.got channel <+: member.sent channel
  saves : member.sent .save <+: transferBytes save metadata 0 (chunkCount save + 1)
  hears : member.sent .lockstep <+: lockstepMessages metadata ticks
  quiet : member.sent .desync = []
  ready : member.sent .lockstep ≠ [] → member.Announced
  apart : member.link = .apart → (∀ channel, member.sent channel = []) ∧ member.said .lockstep = []

/-- A replica that stopped in a tick did so also as further ticks are broadcast. -/
theorem torn_mono (grows : ticks <+: ticks') {error : SessionError} {sim : σ}
    (torn : Replica.Torn last ticks error sim) : Replica.Torn last ticks' error sim := by
  cases torn with
  | start fails => exact .start fails
  | tick split evolves rejects unpublished =>
      obtain ⟨more, same⟩ := grows
      rw [split, List.append_assoc] at same
      exact .tick same.symm evolves rejects unpublished

/-- The authority broadcasts more ticks. -/
theorem Sound.mono (sound : Sound save metadata initial last ticks member)
    (grows : ticks <+: ticks') : Sound save metadata initial last ticks' member where
  runs := sound.runs
  stops := by
    intro error stopped
    rcases sound.stops error stopped with placed | torn
    · exact Or.inl (placed.mono grows)
    · exact Or.inr (torn_mono grows torn)
  delivered := sound.delivered
  saves := sound.saves
  hears := sound.hears.trans (lockstepMessages_mono metadata grows)
  quiet := sound.quiet
  ready := sound.ready
  apart := sound.apart

/-- What may be on its way to a replica. -/
structure Offers (save : Bytes) (metadata : SaveMetadata) (ticks : List TickAdvance)
    (member : Member σ) (outgoing : Mailbox) : Prop where
  sends : ∀ channel, member.sent channel <+: outgoing channel
  saves : outgoing .save <+: transferBytes save metadata 0 (chunkCount save + 1)
  hears : outgoing .lockstep <+: lockstepMessages metadata ticks
  quiet : outgoing .desync = []
  ready : outgoing .lockstep ≠ [] → member.Announced

/-- More may be sent of what the authority offers. -/
theorem Sound.sending (sound : Sound save metadata initial last ticks member)
    {outgoing : Mailbox} (offers : Offers save metadata ticks member outgoing)
    (joined : member.link = .joined) :
    Sound save metadata initial last ticks { member with sent := outgoing } where
  runs := sound.runs
  stops := sound.stops
  delivered channel := (sound.delivered channel).trans (offers.sends channel)
  saves := offers.saves
  hears := offers.hears
  quiet := offers.quiet
  ready := offers.ready
  apart impossible := by
    rw [joined] at impossible
    cases impossible

omit [SessionSimulation σ] in
/-- A flush sends what the connection has, unless it is closed or not that of the replica. -/
theorem flushed_cases (server : RenetServer) (member : Member σ) :
    member.flushed server = member ∧ (member.link = .joined → ∀ connection,
        server.connections member.client = some connection → connection.disconnected = true) ∨
      ∃ connection, member.link = .joined ∧ server.connections member.client = some connection ∧
        connection.disconnected = false ∧
        member.flushed server = { member with sent := connection.outgoing } := by
  unfold flushed
  cases link : member.link with
  | apart => exact Or.inl ⟨rfl, fun impossible => nomatch impossible⟩
  | parted => exact Or.inl ⟨rfl, fun impossible => nomatch impossible⟩
  | joined =>
      cases there : server.connections member.client with
      | none => exact Or.inl ⟨rfl, fun _ _ impossible => nomatch impossible⟩
      | some connection =>
          dsimp only
          cases closed : connection.disconnected with
          | true =>
              rw [if_pos rfl]
              refine Or.inl ⟨rfl, ?_⟩
              intro _ other same
              cases same
              exact closed
          | false =>
              rw [if_neg Bool.false_ne_true]
              exact Or.inr ⟨connection, rfl, rfl, closed, rfl⟩

/-- The transport is handed what was sent. -/
theorem Sound.flushed (sound : Sound save metadata initial last ticks member)
    (offers : member.link = .joined → ∀ connection,
      server.connections member.client = some connection → connection.disconnected = false →
        Offers save metadata ticks member connection.outgoing) :
    Sound save metadata initial last ticks (member.flushed server) := by
  rcases flushed_cases server member with ⟨same, _⟩ | ⟨connection, joined, there, opens, same⟩
  · rw [same]
    exact sound
  · rw [same]
    exact sound.sending (offers joined connection there opens) joined

omit [SessionSimulation σ] in
@[simp] theorem client_flushed (server : RenetServer) (member : Member σ) :
    (member.flushed server).client = member.client := by
  rcases flushed_cases server member with ⟨same, _⟩ | ⟨_, _, _, _, same⟩
  · rw [same]
  · rw [same]

omit [SessionSimulation σ] in
@[simp] theorem link_flushed (server : RenetServer) (member : Member σ) :
    (member.flushed server).link = member.link := by
  rcases flushed_cases server member with ⟨same, _⟩ | ⟨_, _, _, _, same⟩
  · rw [same]
  · rw [same]

omit [SessionSimulation σ] in
@[simp] theorem said_flushed (server : RenetServer) (member : Member σ) :
    (member.flushed server).said = member.said := by
  rcases flushed_cases server member with ⟨same, _⟩ | ⟨_, _, _, _, same⟩
  · rw [same]
  · rw [same]

/-- The messages that were sent and not delivered are delivered next. -/
theorem Sound.delivers (sound : Sound save metadata initial last ticks member) {channel : Channel}
    {bytes : Bytes} {later : List Bytes}
    (first : member.sent channel = member.got channel ++ bytes :: later) (on : Channel) :
    member.got.push channel bytes on <+: member.sent on := by
  by_cases here : on = channel
  · subst here
    rw [Mailbox.push_same, first, List.prefix_append_right_inj]
    exact List.prefix_append [bytes] later
  · rw [Mailbox.push_other _ _ here]
    exact sound.delivered on

/-- A replica that announced that it is ready is past loading. -/
theorem Sound.past (sound : Sound save metadata initial last ticks member)
    (runs : member.stopped = none) (announced : member.Announced) :
    member.replica.Past metadata := by
  obtain ⟨bytes, said, tick, hash, decoded⟩ := announced
  exact (sound.runs runs).announced bytes (List.mem_append_left _ said) tick hash decoded

/-- Whatever happens to a replica, it agrees with its authority. -/
theorem Sound.moves {state : σ → κ} (deterministic : Deterministic state)
    (valid : ValidSave save metadata initial last) (leads : Leads state last ticks)
    (sound : Sound save metadata initial last ticks member) {actions : List NetAction}
    (moves : member.Moves server actions next) :
    Sound save metadata initial last ticks next := by
  cases moves with
  | join fresh free =>
      exact { sound with apart := fun impossible => nomatch impossible }
  | leave joined => exact { sound with apart := fun impossible => nomatch impossible }
  | close joined => exact sound
  | @deliver channel bytes later joined first =>
      refine { sound with runs := ?_, ready := ?_, apart := ?_ }
      · intro runs
        exact (sound.runs runs).speak first
      · intro some
        obtain ⟨ready, said, tick, hash, decoded⟩ := sound.ready some
        refine ⟨ready, ?_, tick, hash, decoded⟩
        change ready ∈ member.said.push channel bytes .lockstep
        by_cases here : .lockstep = channel
        · subst here
          rw [Mailbox.push_same]
          exact List.mem_append_left _ said
        · rw [Mailbox.push_other _ _ here]
          exact said
      · intro apart
        rw [joined] at apart
        cases apart
  | @arrive channel bytes later first =>
      refine { sound with runs := ?_, delivered := sound.delivers first }
      · intro runs
        apply (sound.runs runs).arrive
        · exact (sound.delivers first .save).trans sound.saves
        · intro here
          subst here
          apply sound.past runs (sound.ready _)
          rw [first]
          exact List.append_ne_nil_of_right_ne_nil _ (List.cons_ne_nil _ _)
        · intro here
          subst here
          rw [sound.quiet] at first
          exact List.append_ne_nil_of_right_ne_nil _ (List.cons_ne_nil _ _) first.symm
  | iterate runs returns =>
      have hears := (sound.delivered .lockstep).trans sound.hears
      have agrees := ensures_of_ok (Replica.agrees_iteration deterministic valid leads hears _
        (sound.runs runs)) returns
      refine { sound with runs := fun _ => agrees, stops := ?_ }
      intro error stopped
      rw [runs] at stopped
      cases stopped
  | fail runs fails =>
      have hears := (sound.delivered .lockstep).trans sound.hears
      have outcome := ensures_of_error (Replica.agrees_iteration deterministic valid leads hears _
        (sound.runs runs)) fails
      refine { sound with runs := ?_, stops := ?_ }
      · intro impossible
        cases impossible
      intro error stopped
      cases stopped
      rcases outcome with ⟨_, agrees⟩ | torn
      · exact Or.inl (agrees.placed hears leads.1)
      · exact Or.inr torn

end Member

namespace Phase

variable {config : ServerCfg} {save : Bytes} {metadata : SaveMetadata} {initial last base : σ}
  {ticks : List TickAdvance} {phase next : Phase σ} {member other : Member σ}

/-- What an authority has on the connection of a replica. Before the start, it heard what the
replica said. Since, it sent the whole stream, unless the replica had just connected. -/
def Tracks (save : Bytes) (metadata : SaveMetadata) (ticks : List TickAdvance) (member : Member σ) :
    Phase σ → Prop
  | .waiting _ current => ∃ connection,
      current.server.connections member.client = some connection ∧ connection.Recorded ∧
      connection.heard .lockstep = member.said .lockstep ∧
      (connection.disconnected = false →
        ∀ channel, member.sent channel <+: connection.outgoing channel)
  | .live authority => ∃ connection,
      authority.server.connections member.client = some connection ∧
      (connection.disconnected = false →
        .clientConnected member.client ∈ authority.server.events ∨
          Streaming save metadata ticks connection.outgoing ∧ member.Announced)
  | .ended _ _ => True

omit [SessionSimulation σ] in
/-- What the network does with other clients leaves a connection alone. -/
theorem connections_act {server : RenetServer} {action : NetAction} {id : UInt64}
    (different : id ≠ action.client) : (server.act action).connections id = server.connections id := by
  cases action with
  | connect client =>
      cases there : server.connections client with
      | none =>
          rw [act_connect there]
          exact Function.update_of_ne different _ _
      | some connection => rw [act_connect_again there]
  | remove client =>
      cases there : server.connections client with
      | none => rw [act_remove_again there]
      | some connection =>
          rw [act_remove there]
          exact Function.update_of_ne different _ _
  | close client => exact alter_other _ different
  | deliver client channel bytes => exact alter_other _ different

omit [SessionSimulation σ] in
/-- What the network does to other clients is not tracked. -/
theorem Tracks.others (tracks : phase.Tracks save metadata ticks member) {action : NetAction}
    (different : member.client ≠ action.client) :
    (phase.act action).Tracks save metadata ticks member := by
  cases phase with
  | waiting session current =>
      obtain ⟨connection, there, rest⟩ := tracks
      exact ⟨connection, (connections_act different).trans there, rest⟩
  | live authority =>
      obtain ⟨connection, there, streams⟩ := tracks
      refine ⟨connection, (connections_act different).trans there, ?_⟩
      intro opens
      exact (streams opens).imp_left (events_act _ action _)
  | ended => trivial

omit [SessionSimulation σ] in
/-- A replica whose own part of the connection is the same. -/
theorem Tracks.congr (tracks : phase.Tracks save metadata ticks member)
    (client : other.client = member.client) (sent : other.sent = member.sent)
    (said : other.said = member.said) : phase.Tracks save metadata ticks other := by
  cases phase with
  | waiting session current =>
      unfold Tracks at *
      rw [client, sent, said]
      exact tracks
  | live authority =>
      unfold Tracks Member.Announced at *
      rw [client, said]
      exact tracks
  | ended => trivial

omit [SessionSimulation σ] in
/-- A replica that connects was not sent anything. -/
theorem tracks_join (phase : Phase σ)
    (free : phase.server.connections member.client = none)
    (unsent : ∀ channel, member.sent channel = []) (unsaid : member.said .lockstep = []) :
    (phase.act (.connect member.client)).Tracks save metadata ticks member := by
  cases phase with
  | waiting session current =>
      have connects := act_connect free
      change (current.server.act _) = _ at connects
      refine ⟨{ }, ?_, fun _ => rfl, unsaid.symm, ?_⟩
      · change (current.server.act _).connections _ = _
        rw [connects]
        exact Function.update_self _ _ _
      · intro _ channel
        rw [unsent]
  | live authority =>
      have connects := act_connect free
      change (authority.server.act _) = _ at connects
      refine ⟨{ }, ?_, ?_⟩
      · change (authority.server.act _).connections _ = _
        rw [connects]
        exact Function.update_self _ _ _
      · intro _
        left
        change _ ∈ (authority.server.act _).events
        rw [connects]
        exact List.mem_append_right _ (List.mem_singleton_self _)
  | ended => trivial

omit [SessionSimulation σ] in
/-- A connection that is closed offers nothing new. -/
theorem Tracks.close (tracks : phase.Tracks save metadata ticks member) :
    (phase.act (.close member.client)).Tracks save metadata ticks member := by
  cases phase with
  | waiting session current =>
      obtain ⟨connection, there, recorded, heard, _⟩ := tracks
      refine ⟨{ connection with disconnected := true }, ?_, recorded, heard,
        fun impossible => nomatch impossible⟩
      change (current.server.disconnect _).connections _ = _
      rw [disconnect, alter_same, there]
      rfl
  | live authority =>
      obtain ⟨connection, there, _⟩ := tracks
      refine ⟨{ connection with disconnected := true }, ?_, fun impossible => nomatch impossible⟩
      change (authority.server.disconnect _).connections _ = _
      rw [disconnect, alter_same, there]
      rfl
  | ended => trivial

omit [SessionSimulation σ] in
/-- A message of the replica is delivered. -/
theorem Tracks.deliver (tracks : phase.Tracks save metadata ticks member) (channel : Channel)
    (bytes : Bytes) (client : other.client = member.client) (sent : other.sent = member.sent)
    (said : other.said = member.said.push channel bytes) :
    (phase.act (.deliver member.client channel bytes)).Tracks save metadata ticks other := by
  cases phase with
  | waiting session current =>
      obtain ⟨connection, there, recorded, heard, sends⟩ := tracks
      refine ⟨{ connection with incoming := connection.incoming.push channel bytes }, ?_, recorded,
        ?_, ?_⟩
      · change (current.server.alter _ _).connections _ = _
        rw [client, alter_same, there]
        rfl
      · rw [said]
        change receivedOn .lockstep connection.history ++
          connection.incoming.push channel bytes .lockstep = _
        by_cases here : .lockstep = channel
        · subst here
          rw [Mailbox.push_same, Mailbox.push_same, ← List.append_assoc, ← heard]
          rfl
        · rw [Mailbox.push_other _ _ here, Mailbox.push_other _ _ here, ← heard]
          rfl
      · rw [sent]
        exact sends
  | live authority =>
      obtain ⟨connection, there, streams⟩ := tracks
      refine ⟨{ connection with incoming := connection.incoming.push channel bytes }, ?_, ?_⟩
      · change (authority.server.alter _ _).connections _ = _
        rw [client, alter_same, there]
        rfl
      intro opens
      rw [client]
      apply (streams opens).imp_right
      intro outcome
      obtain ⟨streaming, ready, heard, decoded⟩ := outcome
      refine ⟨streaming, ready, ?_, decoded⟩
      rw [said]
      by_cases here : .lockstep = channel
      · subst here
        rw [Mailbox.push_same]
        exact List.mem_append_left _ heard
      · rw [Mailbox.push_other _ _ here]
        exact heard
  | ended => trivial

omit [SessionSimulation σ] in
/-- Before the start, the authority offers the save. -/
theorem offers_of_loading {outgoing : Mailbox} (loading : Loading save metadata outgoing)
    (sends : ∀ channel, member.sent channel <+: outgoing channel) :
    member.Offers save metadata ticks outgoing where
  sends := sends
  saves := loading.save
  hears := by
    rw [loading.lockstep]
    exact List.nil_prefix
  quiet := loading.desync
  ready some := (some loading.lockstep).elim

/-- Since the start, it offers the stream to those that announced that they are ready. -/
theorem offers_of_streaming {outgoing : Mailbox} (streaming : Streaming save metadata ticks outgoing)
    (announced : member.Announced) (sound : member.Sound save metadata initial last ticks) :
    member.Offers save metadata ticks outgoing where
  sends channel := by
    cases channel with
    | save =>
        rw [streaming.save]
        exact sound.saves
    | lockstep =>
        rw [streaming.lockstep]
        exact sound.hears
    | desync => rw [streaming.desync, sound.quiet]
  saves := by rw [streaming.save]
  hears := by rw [streaming.lockstep]
  quiet := streaming.desync
  ready _ := announced

/-- What holds of a replica after a pass, given what held of it before. -/
def Serves (save : Bytes) (metadata : SaveMetadata) (initial last : σ)
    (ticks ticks' : List TickAdvance) (phase next : Phase σ) : Prop :=
  ∀ member : Member σ, member.Sound save metadata initial last ticks →
    (member.link = .joined → phase.Tracks save metadata ticks member) →
    (member.flushed next.server).Sound save metadata initial last ticks' ∧
      (member.link = .joined →
        next.Tracks save metadata ticks' (member.flushed next.server))

/-- A pass of the waiting loop that does not announce the start. -/
theorem serves_wait {session : ServerSession σ} {current later : Waiting} {input : WaitInput}
    (still : input.actions = [])
    (returns : Waiting.pass config.expectedClients save metadata input current = .ok none later)
    (drains : Drains save metadata config.expectedClients [] later later.server.events) :
    Serves save metadata initial last ticks ticks (.waiting session current)
      (.waiting session later) := by
  have onward := ensures_of_ok (ensures_pass_onward save metadata still current) returns
  intro member sound tracks
  have goes (joined : member.link = .joined) : ∃ connection,
      later.server.connections member.client = some connection ∧ connection.Recorded ∧
      connection.heard .lockstep = member.said .lockstep ∧
      (connection.disconnected = false →
        ∀ channel, member.sent channel <+: connection.outgoing channel) := by
    obtain ⟨connection, there, recorded, heard, sends⟩ := tracks joined
    obtain ⟨connection', there', goes⟩ := onward _ _ there
    refine ⟨connection', there', goes.recorded recorded, (goes.heard _).trans heard, ?_⟩
    intro opens channel
    exact (sends (goes.closes opens) channel).trans (goes.sends channel)
  constructor
  · apply sound.flushed
    intro joined connection there opens
    obtain ⟨connection', there', recorded, _, sends⟩ := goes joined
    change later.server.connections member.client = some connection at there
    rw [there'] at there
    cases there
    exact offers_of_loading (loading_of_drains drains there' opens recorded) (sends opens)
  · intro joined
    obtain ⟨connection, there, recorded, heard, sends⟩ := goes joined
    refine ⟨connection, ?_, recorded, ?_, ?_⟩
    · rw [Member.client_flushed]
      exact there
    · rw [Member.said_flushed]
      exact heard
    · intro opens channel
      rcases Member.flushed_cases (waiting session later).server member with
        ⟨same, _⟩ | ⟨other, _, there', _, same⟩
      · rw [same]
        exact sends opens channel
      · rw [same]
        change later.server.connections member.client = some other at there'
        rw [there] at there'
        cases there'
        exact List.prefix_refl _

/-- The pass that announces the start, however the session goes on. -/
theorem serves_start {session : ServerSession σ} {current later : Waiting} {input : WaitInput}
    {verified : ExtTreeMap UInt64 UInt64} (still : input.actions = [])
    (returns : Waiting.pass config.expectedClients save metadata input current =
      .ok (some verified) later)
    (started : Started config.expectedClients save metadata verified later.server)
    (same : next.server = later.server)
    (elsewhere : ∀ session current, next ≠ .waiting session current) :
    Serves save metadata initial last [] [] (.waiting session current) next := by
  have onward := ensures_of_ok (ensures_pass_onward save metadata still current) returns
  intro member sound tracks
  have streams (joined : member.link = .joined) (connection : Connection)
      (there : next.server.connections member.client = some connection)
      (opens : connection.disconnected = false) :
      Streaming save metadata [] connection.outgoing ∧ member.Announced := by
    obtain ⟨earlier, before, recorded, heard, _⟩ := tracks joined
    obtain ⟨connection', there', goes⟩ := onward _ _ before
    rw [same, there'] at there
    cases there
    obtain ⟨streaming, bytes, member', decoded⟩ :=
      streaming_of_started started there' opens (goes.recorded recorded)
    rw [goes.heard, heard] at member'
    exact ⟨streaming, bytes, member', _, _, decoded⟩
  constructor
  · apply sound.flushed
    intro joined connection there opens
    obtain ⟨streaming, announced⟩ := streams joined connection there opens
    exact offers_of_streaming streaming announced sound
  · intro joined
    cases next with
    | waiting session current => exact (elsewhere session current rfl).elim
    | live authority =>
        obtain ⟨_, before, _⟩ := tracks joined
        obtain ⟨connection, there, _⟩ := onward _ _ before
        rw [← same] at there
        refine ⟨connection, ?_, ?_⟩
        · rw [Member.client_flushed]
          exact there
        intro opens
        right
        unfold Member.Announced
        rw [Member.said_flushed]
        exact streams joined connection there opens
    | ended => trivial

/-- An iteration of the live loop. -/
theorem serves_tick {current later : Authority σ} {input : TickInput} {advance : TickAdvance}
    (still : input.actions = []) (iterated : Authority.Iterated current later input advance) :
    Serves save metadata initial last ticks (ticks ++ [advance]) (.live current) (.live later) := by
  intro member sound tracks
  have streams (joined : member.link = .joined) (connection : Connection)
      (there : later.server.connections member.client = some connection)
      (opens : connection.disconnected = false) :
      Streaming save metadata (ticks ++ [advance]) connection.outgoing ∧ member.Announced := by
    obtain ⟨earlier, before, opens', unannounced, outgoing⟩ :=
      Authority.streaming_of_iterated still iterated there opens
    obtain ⟨earlier', before', streams⟩ := tracks joined
    change current.server.connections member.client = some earlier' at before'
    rw [before] at before'
    cases before'
    obtain ⟨streaming, announced⟩ := (streams opens').resolve_left unannounced
    refine ⟨⟨?_, ?_, ?_⟩, announced⟩
    · rw [outgoing, Mailbox.push_other _ _ Channel.noConfusion]
      exact streaming.save
    · rw [outgoing, Mailbox.push_same, streaming.lockstep, lockstepMessages_concat]
    · rw [outgoing, Mailbox.push_other _ _ Channel.noConfusion]
      exact streaming.desync
  have further := sound.mono (List.prefix_append ticks [advance])
  constructor
  · apply further.flushed
    intro joined connection there opens
    obtain ⟨streaming, announced⟩ := streams joined connection there opens
    exact offers_of_streaming streaming announced further
  · intro joined
    obtain ⟨_, before, _⟩ := tracks joined
    obtain ⟨connection, there⟩ := Authority.present_of_iterated still iterated before
    refine ⟨connection, ?_, ?_⟩
    · rw [Member.client_flushed]
      exact there
    intro opens
    right
    unfold Member.Announced
    rw [Member.said_flushed]
    exact streams joined connection there opens

/-- A pass broadcasts a tick or none, and serves every replica. -/
theorem Follows.passes (bounded : CommandsBounded σ)
    (follows : phase.Follows config save metadata base ticks)
    (broadcastable : ∀ advance ∈ ticks, advance.Broadcastable)
    (passes : phase.Passes config save metadata next) :
    ∃ ticks', ticks <+: ticks' ∧ (∀ advance ∈ ticks', advance.Broadcastable) ∧
      next.Follows config save metadata base ticks' ∧
      Serves save metadata initial last ticks ticks' phase next := by
  cases passes with
  | wait still returns =>
      obtain ⟨none, same, drains⟩ := follows
      have drained := ensures_of_ok (ensures_pass drains _) returns
      exact ⟨ticks, List.prefix_refl _, broadcastable, ⟨none, same, drained⟩,
        serves_wait still returns drained⟩
  | start still returns publishes =>
      obtain ⟨none, same, drains⟩ := follows
      have started := ensures_of_ok (ensures_pass drains _) returns
      subst none same
      refine ⟨[], List.prefix_refl _, broadcastable, ⟨.publish .here publishes, ?_⟩,
        serves_start still returns started rfl ?_⟩
      · exact started.once
      · intro _ _ impossible
        cases impossible
  | unpublished still returns fails =>
      obtain ⟨none, same, drains⟩ := follows
      have started := ensures_of_ok (ensures_pass drains _) returns
      subst none
      refine ⟨[], List.prefix_refl _, broadcastable, ⟨⟨base, .here⟩, List.nil_prefix⟩,
        serves_start still returns started rfl ?_⟩
      intro _ _ impossible
      cases impossible
  | abandoned still returns =>
      obtain ⟨none, same, drains⟩ := follows
      have started := ensures_of_ok (ensures_pass drains _) returns
      subst none
      refine ⟨[], List.prefix_refl _, broadcastable, ⟨⟨base, .here⟩, List.nil_prefix⟩,
        serves_start still returns started rfl ?_⟩
      intro _ _ impossible
      cases impossible
  | @tick current later input still returns =>
      obtain ⟨evolves, broadcasts⟩ := follows
      obtain ⟨advance, iterated⟩ :=
        ensures_of_ok (Authority.ensures_iteration _ input current) returns
      refine ⟨ticks ++ [advance], List.prefix_append _ _, ?_,
        ⟨evolves.tick iterated.applies, ?_⟩, serves_tick still iterated⟩
      · intro other member
        rcases List.mem_append.mp member with earlier | newest
        · exact broadcastable other earlier
        · rw [List.mem_singleton.mp newest]
          exact iterated.sequenced.broadcastable bounded
      · obtain ⟨middle, gathered, server, _⟩ := iterated.gathered
        have before := (Authority.same_entered current input).trans gathered.same
        rw [server, lockstepMessages_concat, List.map_append, ← broadcasts, ← before.broadcasts]
        rfl

/-- A session that goes on. -/
def Serving : Phase σ → Prop
  | .ended _ _ => False
  | _ => True

omit [SessionSimulation σ] in
/-- A replica that is tracked has a connection. -/
theorem Tracks.present (tracks : phase.Tracks save metadata ticks member) (serving : phase.Serving) :
    ∃ connection, phase.server.connections member.client = some connection := by
  cases phase with
  | waiting session current =>
      obtain ⟨connection, there, _⟩ := tracks
      exact ⟨connection, there⟩
  | live authority =>
      obtain ⟨connection, there, _⟩ := tracks
      exact ⟨connection, there⟩
  | ended => exact serving.elim

omit [SessionSimulation σ] in
/-- The network does not end a session. -/
@[simp] theorem serving_act (action : NetAction) :
    (phase.act action).Serving ↔ phase.Serving := by
  cases phase with
  | waiting => exact Iff.rfl
  | live => exact Iff.rfl
  | ended => exact Iff.rfl

/-- A turn of the network broadcasts nothing. -/
theorem Follows.update (follows : phase.Follows config save metadata base ticks)
    (actions : List NetAction) : (phase.update actions).Follows config save metadata base ticks := by
  unfold Phase.update
  induction actions generalizing phase with
  | nil => exact follows
  | cons action actions ih => exact ih (follows.act action)

omit [SessionSimulation σ] in
/-- A turn of the network does not end a session. -/
theorem serving_update (actions : List NetAction) :
    (phase.update actions).Serving ↔ phase.Serving := by
  unfold Phase.update
  induction actions generalizing phase with
  | nil => exact Iff.rfl
  | cons action actions ih => exact ih.trans (serving_act action)

omit [SessionSimulation σ] in
/-- A turn of the network with other clients is not tracked. -/
theorem Tracks.update (tracks : phase.Tracks save metadata ticks member)
    {actions : List NetAction} (different : ∀ action ∈ actions, member.client ≠ action.client) :
    (phase.update actions).Tracks save metadata ticks member := by
  unfold Phase.update
  induction actions generalizing phase with
  | nil => exact tracks
  | cons action actions ih =>
      apply ih (tracks.others (different action List.mem_cons_self))
      intro other later
      exact different other (List.mem_cons_of_mem _ later)

omit [SessionSimulation σ] in
/-- Nobody is tracked at the end of a session. -/
theorem tracks_of_ended (ended : ¬ phase.Serving) : phase.Tracks save metadata ticks member := by
  cases phase with
  | waiting => exact (ended trivial).elim
  | live => exact (ended trivial).elim
  | ended => trivial

/-- A session that ended passes no more. -/
theorem Passes.serving (passes : phase.Passes config save metadata next) : phase.Serving := by
  cases passes with
  | wait => trivial
  | start => trivial
  | unpublished => trivial
  | abandoned => trivial
  | tick => trivial

/-- The end of a session is none that goes on. -/
theorem Ends.ended (ends : phase.Ends config save metadata next) : ¬ next.Serving := by
  cases ends with
  | cancelled => exact id
  | wait => exact id
  | tick => exact id

/-- What happens to a replica is tracked. -/
theorem Tracks.moves (tracks : member.link = .joined → phase.Tracks save metadata ticks member)
    (sound : member.Sound save metadata initial last ticks) {actions : List NetAction}
    (moves : member.Moves phase.server actions other) (joined : other.link = .joined) :
    (phase.update actions).Tracks save metadata ticks other := by
  cases moves with
  | join fresh free =>
      obtain ⟨unsent, unsaid⟩ := sound.apart fresh
      exact (tracks_join phase free unsent unsaid).congr rfl rfl rfl
  | leave => cases joined
  | close joined => exact (tracks joined).close
  | deliver joined first => exact (tracks joined).deliver _ _ rfl rfl rfl
  | arrive => exact (tracks joined).congr rfl rfl rfl
  | iterate => exact (tracks joined).congr rfl rfl rfl
  | fail => exact (tracks joined).congr rfl rfl rfl

end Phase

namespace Member

variable {server : RenetServer} {member later : Member σ} {actions : List NetAction}

/-- The client of a replica that connects or was connected. -/
def Attached (server : RenetServer) (member : Member σ) : Prop :=
  member.link = .joined ∨ server.connections member.client = none

/-- The network acts on the client of the replica only. -/
theorem Moves.about (moves : member.Moves server actions later) :
    later.client = member.client ∧
      (∀ action ∈ actions, action.client = member.client ∧ member.Attached server) ∧
      (later.link = .joined → member.Attached server) := by
  have only (action : NetAction) (about : action.client = member.client)
      (attached : member.Attached server) :
      ∀ other ∈ [action], other.client = member.client ∧ member.Attached server := by
    intro other same
    rw [List.mem_singleton.mp same]
    exact ⟨about, attached⟩
  cases moves with
  | join fresh free => exact ⟨rfl, only _ rfl (Or.inr free), fun _ => Or.inr free⟩
  | leave joined => exact ⟨rfl, only _ rfl (Or.inl joined), fun impossible => nomatch impossible⟩
  | close joined => exact ⟨rfl, only _ rfl (Or.inl joined), Or.inl⟩
  | deliver joined => exact ⟨rfl, only _ rfl (Or.inl joined), Or.inl⟩
  | arrive => exact ⟨rfl, List.forall_mem_nil _, Or.inl⟩
  | iterate => exact ⟨rfl, List.forall_mem_nil _, Or.inl⟩
  | fail => exact ⟨rfl, List.forall_mem_nil _, Or.inl⟩

end Member

namespace System

variable {config : ServerCfg} {save : Bytes} {metadata : SaveMetadata} {initial last base : σ}
  {ticks : List TickAdvance} {system next : System ι σ} {state : σ → κ}

/-- An authority that was at `base` when it announced its save and broadcast the ticks since, and
replicas that agree with it. No two of them have the same connection. -/
structure Sound (config : ServerCfg) (save : Bytes) (metadata : SaveMetadata)
    (initial last base : σ) (ticks : List TickAdvance) (system : System ι σ) : Prop where
  broadcastable : ∀ advance ∈ ticks, advance.Broadcastable
  follows : system.phase.Follows config save metadata base ticks
  members : ∀ i, (system.members i).Sound save metadata initial last ticks
  tracks : ∀ i, (system.members i).link = .joined →
    system.phase.Tracks save metadata ticks (system.members i)
  alone : system.phase.Serving → ∀ i j, (system.members i).link = .joined →
    (system.members j).link = .joined → (system.members i).client = (system.members j).client →
    i = j

/-- In a sound system the authority leads, and each replica follows. -/
theorem Sound.leads (sound : system.Sound config save metadata initial last base ticks)
    (alike : state base = state last) : Leads state last ticks := by
  obtain ⟨current, evolves⟩ := sound.follows.evolves
  exact ⟨sound.broadcastable, base, current, alike, evolves⟩

/-- A pass of the authority. -/
theorem Sound.passes (bounded : CommandsBounded σ)
    (sound : system.Sound config save metadata initial last base ticks) {phase : Phase σ}
    (passes : system.phase.Passes config save metadata phase) :
    ∃ ticks', ticks <+: ticks' ∧
      Sound config save metadata initial last base ticks'
        { phase, members := fun i => (system.members i).flushed phase.server } := by
  obtain ⟨ticks', grows, broadcastable, follows, serves⟩ :=
    sound.follows.passes bounded sound.broadcastable passes
  refine ⟨ticks', grows, broadcastable, follows, ?_, ?_, ?_⟩
  · intro i
    exact (serves _ (sound.members i) (sound.tracks i)).1
  · intro i joined
    rw [Member.link_flushed] at joined
    exact (serves _ (sound.members i) (sound.tracks i)).2 joined
  · intro _ i j first second same
    simp only [Member.link_flushed, Member.client_flushed] at first second same
    exact sound.alone passes.serving i j first second same

/-- What the network does with other clients. -/
theorem Sound.act (sound : system.Sound config save metadata initial last base ticks)
    {action : NetAction} (strange : ∀ i, (system.members i).link = .joined →
      (system.members i).client ≠ action.client) :
    Sound config save metadata initial last base ticks
      { system with phase := system.phase.act action } where
  broadcastable := sound.broadcastable
  follows := sound.follows.act action
  members := sound.members
  tracks i joined := (sound.tracks i joined).others (strange i joined)
  alone serving := sound.alone ((Phase.serving_act action).mp serving)

/-- While the session goes on, nobody else has the connection of a replica. -/
theorem Sound.apart (sound : system.Sound config save metadata initial last base ticks)
    (serving : system.phase.Serving) {i j : ι}
    (attached : (system.members i).Attached system.phase.server) (other : j ≠ i)
    (joined : (system.members j).link = .joined) :
    (system.members j).client ≠ (system.members i).client := by
  intro same
  rcases attached with before | free
  · exact other (sound.alone serving j i joined before same)
  · obtain ⟨connection, there⟩ := (sound.tracks j joined).present serving
    rw [same, free] at there
    cases there

variable [DecidableEq ι]

/-- What happens to a replica. -/
theorem Sound.moves (deterministic : Deterministic state)
    (valid : ValidSave save metadata initial last) (alike : state base = state last)
    (sound : system.Sound config save metadata initial last base ticks) {i : ι}
    {actions : List NetAction} {later : Member σ}
    (moves : (system.members i).Moves system.phase.server actions later) :
    Sound config save metadata initial last base ticks
      { phase := system.phase.update actions
        members := Function.update system.members i later } := by
  obtain ⟨client, about, joins⟩ := moves.about
  refine ⟨sound.broadcastable, sound.follows.update actions, ?_, ?_, ?_⟩
  · rw [Function.forall_update_iff _ fun _ member => Member.Sound save metadata initial last ticks
      member]
    exact ⟨(sound.members i).moves deterministic valid (sound.leads alike) moves,
      fun j _ => sound.members j⟩
  · rw [Function.forall_update_iff _ fun _ member => member.link = .joined →
      (system.phase.update actions).Tracks save metadata ticks member]
    refine ⟨Phase.Tracks.moves (sound.tracks i) (sound.members i) moves, ?_⟩
    intro j other joined
    by_cases serving : system.phase.Serving
    · apply (sound.tracks j joined).update
      intro action member
      obtain ⟨same, attached⟩ := about action member
      rw [same]
      exact sound.apart serving attached other joined
    · exact Phase.tracks_of_ended fun goes => serving ((Phase.serving_update actions).mp goes)
  · intro serving j k first second alike
    have serving := (Phase.serving_update actions).mp serving
    dsimp only at first second alike
    by_cases one : j = i
    · by_cases two : k = i
      · rw [one, two]
      · rw [one, Function.update_self] at first alike
        rw [Function.update_of_ne two] at second alike
        exact (sound.apart serving (joins first) two second (client.symm.trans alike).symm).elim
    · by_cases two : k = i
      · rw [Function.update_of_ne one] at first alike
        rw [two, Function.update_self] at second alike
        exact (sound.apart serving (joins second) one first (alike.trans client)).elim
      · rw [Function.update_of_ne one] at first alike
        rw [Function.update_of_ne two] at second alike
        exact sound.alone serving j k first second alike

/-- Every step goes on with the broadcast ticks. -/
theorem Sound.step (deterministic : Deterministic state) (bounded : CommandsBounded σ)
    (valid : ValidSave save metadata initial last) (alike : state base = state last)
    (sound : system.Sound config save metadata initial last base ticks)
    (steps : system.Step config save metadata next) :
    ∃ ticks', ticks <+: ticks' ∧ next.Sound config save metadata initial last base ticks' := by
  cases steps with
  | authority passes => exact sound.passes bounded passes
  | ends ends =>
      exact ⟨ticks, List.prefix_refl _, sound.broadcastable,
        sound.follows.ends sound.broadcastable ends, sound.members,
        fun _ _ => Phase.tracks_of_ended ends.ended, fun serving => (ends.ended serving).elim⟩
  | member moves =>
      exact ⟨ticks, List.prefix_refl _, sound.moves deterministic valid alike moves⟩
  | stranger strange => exact ⟨ticks, List.prefix_refl _, sound.act strange⟩

/-- Every run goes on with the broadcast ticks. -/
theorem Sound.reaches (deterministic : Deterministic state) (bounded : CommandsBounded σ)
    (valid : ValidSave save metadata initial last) (alike : state base = state last)
    (sound : system.Sound config save metadata initial last base ticks)
    (reaches : system.Reaches config save metadata next) :
    ∃ ticks', ticks <+: ticks' ∧ next.Sound config save metadata initial last base ticks' := by
  induction reaches with
  | here => exact ⟨ticks, List.prefix_refl _, sound⟩
  | step _ steps ih =>
      obtain ⟨ticks', grows, sound⟩ := ih
      obtain ⟨ticks'', grows', sound⟩ := sound.step deterministic bounded valid alike steps
      exact ⟨ticks'', grows.trans grows', sound⟩

end System

end Synctick
