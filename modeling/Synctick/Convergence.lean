import Synctick.Client.Backlog
import Synctick.Invariant

/-! # Replicas catch up

An authority hands its stream to the transport of each replica that takes part. So from every state
of every run, deliveries and iterations of their own take the replicas to the state of the
authority, whatever it is that they are behind with.
-/

namespace Synctick

open SessionSimulation Effect RenetServer

variable {ι σ κ : Type}

namespace Phase

variable {phase : Phase σ} {member other : Member σ}

/-- What an authority sent on the open connection of a replica was handed to the transport, unless
the replica had just connected. -/
def HandsOver (member : Member σ) : Phase σ → Prop
  | .live authority => ∀ connection,
      authority.server.connections member.client = some connection →
      connection.disconnected = false →
        .clientConnected member.client ∈ authority.server.events ∨
          member.sent = connection.outgoing
  | .waiting _ _ => True
  | .ended _ _ => True

/-- A flush hands everything over. -/
theorem handsOver_flushed (phase : Phase σ) (joined : member.link = .joined) :
    phase.HandsOver (member.flushed phase.server) := by
  cases phase with
  | waiting => trivial
  | ended => trivial
  | live authority =>
      intro connection there opens
      rw [Member.client_flushed] at there
      right
      rcases Member.flushed_cases authority.server member with
        ⟨_, closed⟩ | ⟨connection', _, there', _, same⟩
      · rw [closed joined connection there] at opens
        cases opens
      · rw [there] at there'
        cases there'
        exact congrArg Member.sent same

/-- What the network does to others does not concern a replica. -/
theorem HandsOver.others (handsOver : phase.HandsOver member) {action : NetAction}
    (different : member.client ≠ action.client) : (phase.act action).HandsOver member := by
  cases phase with
  | waiting => trivial
  | ended => trivial
  | live authority =>
      intro connection there opens
      change (authority.server.act action).connections _ = _ at there
      rw [connections_act different] at there
      exact (handsOver connection there opens).imp_left (events_act _ action _)

/-- Nor does a turn of the network with others. -/
theorem HandsOver.update (handsOver : phase.HandsOver member) {actions : List NetAction}
    (different : ∀ action ∈ actions, member.client ≠ action.client) :
    (phase.update actions).HandsOver member := by
  unfold Phase.update
  induction actions generalizing phase with
  | nil => exact handsOver
  | cons action actions ih =>
      apply ih (handsOver.others (different action List.mem_cons_self))
      intro later member
      exact different later (List.mem_cons_of_mem _ member)

/-- A replica whose own part of the connection is the same. -/
theorem HandsOver.congr (handsOver : phase.HandsOver member)
    (client : other.client = member.client) (sent : other.sent = member.sent) :
    phase.HandsOver other := by
  cases phase with
  | waiting => trivial
  | ended => trivial
  | live authority =>
      unfold HandsOver at *
      rw [client, sent]
      exact handsOver

/-- A session that ended hands nothing more over. -/
theorem handsOver_of_ended (ended : ¬ phase.Serving) : phase.HandsOver member := by
  cases phase with
  | waiting => trivial
  | ended => trivial
  | live => exact (ended trivial).elim

/-- A replica that connects has nothing to be handed over. -/
theorem handsOver_join (phase : Phase σ) (free : phase.server.connections member.client = none) :
    (phase.act (.connect member.client)).HandsOver member := by
  cases phase with
  | waiting => trivial
  | ended => trivial
  | live authority =>
      intro _ _ _
      left
      change authority.server.connections member.client = none at free
      change _ ∈ (authority.server.act _).events
      rw [act_connect free]
      exact List.mem_append_right _ (List.mem_singleton_self _)

/-- Nor has one whose connection is closed. -/
theorem handsOver_close (phase : Phase σ) :
    (phase.act (.close member.client)).HandsOver member := by
  cases phase with
  | waiting => trivial
  | ended => trivial
  | live authority =>
      intro connection there opens
      change (authority.server.disconnect _).connections _ = _ at there
      have closed := isConnected_iff.mpr ⟨connection, there, opens⟩
      rw [isConnected_disconnect] at closed
      cases closed

/-- What a replica says does not change what it is to be handed. -/
theorem HandsOver.deliver (handsOver : phase.HandsOver member) (channel : Channel) (bytes : Bytes) :
    (phase.act (.deliver member.client channel bytes)).HandsOver member := by
  cases phase with
  | waiting => trivial
  | ended => trivial
  | live authority =>
      intro connection there opens
      change (authority.server.alter _ _).connections _ = _ at there
      rw [alter_same] at there
      obtain ⟨before, there', rfl⟩ := Option.map_eq_some_iff.mp there
      exact handsOver before there' opens

variable [SessionSimulation σ]

/-- Whatever the network does to a replica, it is handed all that its connection has. -/
theorem HandsOver.moves (handsOver : member.link = .joined → phase.HandsOver member)
    {actions : List NetAction} (moves : member.Moves phase.server actions other)
    (joined : other.link = .joined) : (phase.update actions).HandsOver other := by
  cases moves with
  | join _ free => exact (handsOver_join phase free).congr rfl rfl
  | leave => cases joined
  | close => exact handsOver_close phase
  | deliver joined => exact ((handsOver joined).deliver _ _).congr rfl rfl
  | arrive => exact (handsOver joined).congr rfl rfl
  | iterate => exact (handsOver joined).congr rfl rfl
  | fail => exact (handsOver joined).congr rfl rfl

end Phase

namespace Member

/-- How many messages of the lockstep channel a replica was sent and did not handle. -/
def behind (member : Member σ) : Nat :=
  (member.replica.incoming .lockstep).length +
    ((member.sent .lockstep).length - (member.got .lockstep).length)

/-- A replica to which messages of the lockstep channel are delivered. -/
def supply (member : Member σ) (messages : List Bytes) : Member σ :=
  { member with
    got := (messages.map (Prod.mk .lockstep)).foldl
      (fun mailbox message => mailbox.push message.1 message.2) member.got
    replica := member.replica.arrivals (messages.map (Prod.mk .lockstep)) }

/-- A replica to which all that it was sent on the lockstep channel is delivered. -/
def supplied (member : Member σ) : Member σ :=
  member.supply ((member.sent .lockstep).drop (member.got .lockstep).length)

/-- A replica that goes on and takes part in a live session. -/
structure Participates (authority : Authority σ) (member : Member σ) : Prop where
  runs : member.stopped = none
  joined : member.link = .joined
  connected : authority.server.isConnected member.client = true
  known : .clientConnected member.client ∉ authority.server.events

/-- Messages that are delivered in a row come in their order. -/
theorem foldl_push (channel : Channel) (messages : List Bytes) (mailbox : Mailbox) :
    (messages.map (Prod.mk channel)).foldl
      (fun mailbox message => mailbox.push message.1 message.2) mailbox channel =
        mailbox channel ++ messages := by
  induction messages generalizing mailbox with
  | nil => exact (List.append_nil _).symm
  | cons bytes messages ih =>
      rw [List.map_cons, List.foldl_cons, ih, Mailbox.push_same, List.append_assoc]
      rfl

variable [SessionSimulation σ] {server : RenetServer} {member later : Member σ}

/-- What happens to a replica where the network leaves the authority alone. -/
def Goes (server : RenetServer) : Member σ → Member σ → Prop :=
  Relation.ReflTransGen fun member later => member.Moves server [] later

/-- Everything that was sent to a replica can be delivered to it. -/
theorem goes_supply {messages : List Bytes}
    (rest : member.sent .lockstep = member.got .lockstep ++ messages) :
    member.Goes server (member.supply messages) := by
  induction messages generalizing member with
  | nil => exact .refl
  | cons bytes messages ih =>
      refine .head (.arrive rest) (ih ?_)
      change member.sent .lockstep = member.got.push .lockstep bytes .lockstep ++ messages
      rw [rest, Mailbox.push_same, List.append_assoc]
      rfl

/-- Iterations that return can be taken. -/
theorem goes_iterations (inputs : List ClientInput) (runs : member.stopped = none) :
    Ensures (forEach Replica.iteration inputs) member.replica
      (fun _ next => member.Goes server { member with replica := next }) (fun _ _ => True) := by
  induction inputs generalizing member with
  | nil => exact .refl
  | cons input inputs ih =>
      unfold forEach
      rw [ensures_bind]
      apply (ensures_self _ _).mono
      · intro _ middle returns
        have moves : member.Moves server [] { member with replica := middle } :=
          .iterate runs returns
        let advanced : Member σ := { member with replica := middle }
        have onwards := @ih advanced runs
        apply onwards.mono
        · exact fun _ _ goes => .head moves goes
        · exact fun _ _ _ => trivial
      · exact fun _ _ _ => trivial

/-- What is delivered to a sound replica keeps it sound. -/
theorem Sound.goes {state : σ → κ} {save : Bytes} {metadata : SaveMetadata} {initial last : σ}
    {ticks : List TickAdvance} (deterministic : Deterministic state)
    (valid : ValidSave save metadata initial last) (leads : Leads state last ticks)
    (sound : member.Sound save metadata initial last ticks) (goes : member.Goes server later) :
    later.Sound save metadata initial last ticks := by
  induction goes with
  | refl => exact sound
  | tail _ moves ih => exact ih.moves deterministic valid leads moves

end Member

namespace System

variable [DecidableEq ι] [SessionSimulation σ] {config : ServerCfg} {save : Bytes}
  {metadata : SaveMetadata} {initial last base : σ} {ticks : List TickAdvance}
  {system next : System ι σ} {state : σ → κ}

/-- Each replica was handed what an authority sent it. -/
def HandsOver (system : System ι σ) : Prop :=
  ∀ i, (system.members i).link = .joined → system.phase.HandsOver (system.members i)

/-- Each step of the system hands over what was sent in it. -/
theorem HandsOver.step (sound : system.Sound config save metadata initial last base ticks)
    (handsOver : system.HandsOver) (steps : system.Step config save metadata next) :
    next.HandsOver := by
  cases steps with
  | @authority phase passes =>
      intro i joined
      rw [Member.link_flushed] at joined
      exact phase.handsOver_flushed joined
  | @ends phase ends =>
      intro i _
      exact Phase.handsOver_of_ended ends.ended
  | @member i actions later moves =>
      obtain ⟨client, about, joins⟩ := moves.about
      unfold HandsOver
      dsimp only
      rw [Function.forall_update_iff _ fun _ member => member.link = .joined →
        (system.phase.update actions).HandsOver member]
      refine ⟨Phase.HandsOver.moves (handsOver i) moves, ?_⟩
      intro j other joined
      by_cases serving : system.phase.Serving
      · apply (handsOver j joined).update
        intro action member
        obtain ⟨same, attached⟩ := about action member
        rw [same]
        exact sound.apart serving attached other joined
      · exact Phase.handsOver_of_ended (mt (Phase.serving_update actions).mp serving)
  | stranger strange =>
      intro i joined
      exact (handsOver i joined).others (strange i joined)

/-- So does every run of it. -/
theorem Sound.handsOver (deterministic : Deterministic state) (bounded : CommandsBounded σ)
    (valid : ValidSave save metadata initial last) (alike : state base = state last)
    (sound : system.Sound config save metadata initial last base ticks)
    (handsOver : system.HandsOver) (reaches : system.Reaches config save metadata next) :
    next.HandsOver := by
  induction reaches with
  | here => exact handsOver
  | step reaches steps ih =>
      obtain ⟨_, _, before⟩ := sound.reaches deterministic bounded valid alike reaches
      exact ih.step before steps

/-- What happens to a replica where the network leaves the authority alone, changes nothing else. -/
theorem reaches_of_goes {i : ι} {later : Member σ}
    (goes : (system.members i).Goes system.phase.server later) :
    system.Reaches config save metadata
      { phase := system.phase, members := Function.update system.members i later } := by
  induction goes with
  | refl =>
      rw [Function.update_eq_self]
      exact .here
  | @tail middle later _ moves ih =>
      refine .step ih ?_
      have moved : ({ phase := system.phase, members := Function.update system.members i middle } :
          System ι σ).Step config save metadata
            { phase := system.phase.update [], members :=
              Function.update (Function.update system.members i middle) i later } := by
        apply Step.member
        dsimp only
        rw [Function.update_self]
        exact moves
      rw [Function.update_idem] at moved
      exact moved

omit [DecidableEq ι] in
/-- A replica that takes part was handed the whole stream. -/
theorem Sound.stream (sound : system.Sound config save metadata initial last base ticks)
    (handsOver : system.HandsOver) {authority : Authority σ} (live : system.phase = .live authority)
    {i : ι} (takes : (system.members i).Participates authority) :
    (system.members i).sent .lockstep = lockstepMessages metadata ticks := by
  have tracks := sound.tracks i takes.joined
  have handed := handsOver i takes.joined
  rw [live] at tracks handed
  obtain ⟨connection, there, opens⟩ := isConnected_iff.mp takes.connected
  obtain ⟨connection', there', streams⟩ := tracks
  rw [there] at there'
  cases there'
  rw [(handed connection there opens).resolve_left takes.known]
  exact ((streams opens).resolve_left takes.known).1.lockstep

end System

section Runs

variable {G : Game} {state : G.Simulation → κ}

/-- A replica that is live and applied all that its authority applied. -/
structure Abreast (state : G.Simulation → κ) (authority : Authority (Traced (Adapter G)))
    (replica : Replica (Traced (Adapter G))) : Prop where
  live : replica.startup.phase = .live
  handled : replica.incoming .lockstep = []
  applied : replica.sim.applied = authority.sim.applied
  alike : replica.sim.sim.simulation.map state = authority.sim.sim.simulation.map state
  tick : currentTick replica.sim = currentTick authority.sim
  hash : stateHash replica.sim = stateHash authority.sim

variable {config : ServerCfg} {save : Bytes} {metadata : SaveMetadata} {fresh begun : Adapter G}
  {last base : Traced (Adapter G)} {loaded ticks : List TickAdvance}

/-- A replica that is delivered what it was sent, and takes iterations enough to handle it, catches
up. -/
theorem catches_up [DecidableEq ι] {system : System ι (Traced (Adapter G))}
    (game : G.Deterministic state)
    (publishes : ∀ sim : G.Simulation, ∃ next, Simulation.publish sim = .ok () next)
    (handed : Handed save metadata { sim := fresh } { sim := begun } last base loaded)
    (created : begun.simulation.isSome = true)
    (sound : system.Sound config save metadata { sim := fresh } last base ticks)
    (handsOver : system.HandsOver) {authority : Authority (Traced (Adapter G))}
    (live : system.phase = .live authority) {i : ι}
    (takes : (system.members i).Participates authority) {inputs : List ClientInput}
    (undisturbed : ∀ input ∈ inputs, input.Undisturbed)
    (enough : (system.members i).behind ≤ (inputs.map ClientInput.handles).sum) :
    ∃ replica, forEach Replica.iteration inputs (system.members i).supplied.replica =
        .ok () replica ∧ Abreast state authority replica ∧
      (system.members i).Goes system.phase.server
        { (system.members i).supplied with replica } := by
  have deterministic := Traced.deterministic (Adapter.deterministic game)
  have alike := handed.alike deterministic
  have leads : Leads (fun traced : Traced (Adapter G) => traced.sim.simulation.map state) last
      ticks := sound.leads alike
  obtain ⟨_, _, _, _, path, _⟩ := handed.path
  have there : last.created = true := (Traced.created_of_evolves path.evolves).trans created
  -- What was sent is delivered.
  obtain ⟨rest, split⟩ := (sound.members i).delivered .lockstep
  have supplied : (system.members i).supplied = (system.members i).supply rest := by
    unfold Member.supplied
    rw [← split, List.drop_left]
  have supplies : (system.members i).Goes system.phase.server ((system.members i).supply rest) :=
    Member.goes_supply split.symm
  have arrived := (sound.members i).goes deterministic handed.valid leads supplies
  have stream : ((system.members i).supply rest).got .lockstep = lockstepMessages metadata ticks := by
    rw [← sound.stream handsOver live takes, ← split]
    exact Member.foldl_push _ _ _
  -- The iterations handle it.
  have runs : Ensures (forEach Replica.iteration inputs) ((system.members i).supply rest).replica
      (fun _ replica => (Replica.Agrees save metadata { sim := fresh } last
          ((system.members i).supply rest).got ((system.members i).said .lockstep) replica ∧
          replica.incoming .lockstep = []) ∧
        ((system.members i).supply rest).Goes system.phase.server
          { (system.members i).supply rest with replica })
      (fun _ _ => False) := by
    have hears := (arrived.delivered .lockstep).trans arrived.hears
    apply ((Replica.agrees_iterations deterministic handed.valid leads hears undisturbed
      (arrived.runs takes.runs)).and (Member.goes_iterations inputs takes.runs)).mono
    · rintro _ replica ⟨⟨agrees, left⟩, goes⟩
      refine ⟨⟨agrees, ?_⟩, goes⟩
      rw [left, List.drop_eq_nil_iff]
      refine le_trans (le_of_eq ?_) enough
      have incoming : ((system.members i).supply rest).replica.incoming .lockstep =
          (system.members i).replica.incoming .lockstep ++ rest := Member.foldl_push _ _ _
      unfold Member.behind
      rw [incoming, ← split, List.length_append, List.length_append, Nat.add_sub_cancel_left]
    · rintro _ _ ⟨torn, _⟩
      exact not_torn publishes there torn
  obtain ⟨⟨⟩, replica, returns, ⟨agrees, handled⟩, goes⟩ := runs.returns
  rw [supplied]
  refine ⟨replica, returns, ?_, supplies.trans goes⟩
  obtain ⟨isLive, evolves⟩ := agrees.whole sound.broadcastable stream handled
  have follows := sound.follows
  rw [live] at follows
  have same := deterministic.alike_of_evolves evolves follows.1 alike.symm
  exact ⟨isLive, handled, (Traced.applied_of_evolves (path.evolves.trans evolves)).trans
      (Traced.applied_of_evolves (handed.evolves.trans follows.1)).symm,
    same, deterministic.tick same, deterministic.hash same⟩

/-- A client of the tally server that is three ticks behind. -/
def tallyLags : List (Act Unit) :=
  tallyActs ++ [.tick { distinct := List.nodup_nil },
    .tick { inputs := [⟨[5]⟩], distinct := List.nodup_nil }]

/-- Whether the client lags behind so far. -/
def Member.Lags (authority : Authority (Traced (Adapter tallyGame)))
    (member : Member (Traced (Adapter tallyGame))) : Prop :=
  member.stopped = none ∧ member.link = .joined ∧
    authority.server.isConnected member.client = true ∧
    .clientConnected member.client ∉ authority.server.events ∧ member.behind ≤ 3 ∧
    member.replica.sim.applied = []

instance (authority : Authority (Traced (Adapter tallyGame)))
    (member : Member (Traced (Adapter tallyGame))) : Decidable (member.Lags authority) :=
  inferInstanceAs (Decidable (_ ∧ _ ∧ _))

end Runs

end Synctick
