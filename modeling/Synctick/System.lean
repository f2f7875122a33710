import Synctick.Client.Agreement
import Synctick.Server.Origin
import Synctick.Server.Outgoing
import Synctick.Server.Session

/-! # An authority and its replicas

One authority that announced its save, and any number of replicas. The steps of a run are the
passes of the waiting loop, the iterations of the live loop, the iterations of the replicas, and
what the network does; they come in any order. The channels of a connection are reliable and
ordered: what the transport of the authority was handed is delivered in this order or not at all,
and so is what a replica sent. Other clients may connect and send anything.
-/

namespace Synctick

open SessionSimulation Effect Std

/-- The client that an action is about. -/
def NetAction.client : NetAction → UInt64
  | .connect id => id
  | .remove id => id
  | .close id => id
  | .deliver id _ _ => id

/-- Where an authority is that announced its save: in the waiting loop, in the live loop, or at the
end of its session. -/
inductive Phase (σ : Type)
  | waiting (session : ServerSession σ) (waiting : Waiting)
  | live (authority : Authority σ)
  | ended (server : RenetServer) (sim : σ)

namespace Phase

variable {σ : Type}

def server : Phase σ → RenetServer
  | .waiting _ current => current.server
  | .live authority => authority.server
  | .ended server _ => server

def sim : Phase σ → σ
  | .waiting session _ => session.sim
  | .live authority => authority.sim
  | .ended _ sim => sim

/-- The network has its turn. -/
def act (action : NetAction) : Phase σ → Phase σ
  | .waiting session current =>
      .waiting session { current with server := current.server.act action }
  | .live authority => .live { authority with server := authority.server.act action }
  | .ended server sim => .ended (server.act action) sim

def update (phase : Phase σ) (actions : List NetAction) : Phase σ :=
  actions.foldl (fun phase action => phase.act action) phase

variable [SessionSimulation σ]

/-- A pass or an iteration that completes, after which the transport is handed what was sent. Where
the start was announced, the authority goes live, unless it was cancelled or fails to publish its
state. -/
inductive Passes (config : ServerCfg) (save : Bytes) (metadata : SaveMetadata) :
    Phase σ → Phase σ → Prop
  | wait {session : ServerSession σ} {current next : Waiting} {input : WaitInput}
      (still : input.actions = [])
      (returns : Waiting.pass config.expectedClients save metadata input current = .ok none next) :
      Passes config save metadata (.waiting session current) (.waiting session next)
  | start {session : ServerSession σ} {current next : Waiting} {input : WaitInput}
      {verified : ExtTreeMap UInt64 UInt64} {sim : σ} (still : input.actions = [])
      (returns : Waiting.pass config.expectedClients save metadata input current =
        .ok (some verified) next)
      (publishes : publish session.sim = .ok () sim) :
      Passes config save metadata (.waiting session current)
        (.live { server := next.server, sim, writer := session.writer, verified })
  | unpublished {session : ServerSession σ} {current next : Waiting} {input : WaitInput}
      {verified : ExtTreeMap UInt64 UInt64} {error : SessionError} {sim : σ}
      (still : input.actions = [])
      (returns : Waiting.pass config.expectedClients save metadata input current =
        .ok (some verified) next)
      (fails : publish session.sim = .error error sim) :
      Passes config save metadata (.waiting session current) (.ended next.server sim)
  | abandoned {session : ServerSession σ} {current next : Waiting} {input : WaitInput}
      {verified : ExtTreeMap UInt64 UInt64} (still : input.actions = [])
      (returns : Waiting.pass config.expectedClients save metadata input current =
        .ok (some verified) next) :
      Passes config save metadata (.waiting session current) (.ended next.server session.sim)
  | tick {current next : Authority σ} {input : TickInput} (still : input.actions = [])
      (returns : Authority.iteration config.desyncPolicy input current = .ok () next) :
      Passes config save metadata (.live current) (.live next)

/-- The ends of a session at which the transport is handed nothing: it is cancelled, or a pass or
an iteration fails. -/
inductive Ends (config : ServerCfg) (save : Bytes) (metadata : SaveMetadata) :
    Phase σ → Phase σ → Prop
  | cancelled (phase : Phase σ) : Ends config save metadata phase (.ended phase.server phase.sim)
  | wait {session : ServerSession σ} {current next : Waiting} {input : WaitInput}
      {error : SessionError} (still : input.actions = [])
      (fails : Waiting.pass config.expectedClients save metadata input current =
        .error error next) :
      Ends config save metadata (.waiting session current) (.ended next.server session.sim)
  | tick {current next : Authority σ} {input : TickInput} {error : SessionError}
      (still : input.actions = [])
      (fails : Authority.iteration config.desyncPolicy input current = .error error next) :
      Ends config save metadata (.live current) (.ended next.server next.sim)

end Phase

/-- Whether a replica has a connection: not yet, it has, or not any more. -/
inductive Link
  | apart
  | joined
  | parted
  deriving DecidableEq, Repr

/-- A replica and its connection: `sent` is what the transport of the authority was handed for it,
`got` what was delivered to it, and `said` what it sent and was delivered to the authority. -/
structure Member (σ : Type) where
  client : UInt64
  replica : Replica σ
  link : Link := .apart
  sent : Mailbox := fun _ => []
  got : Mailbox := fun _ => []
  said : Mailbox := fun _ => []
  stopped : Option SessionError := none

namespace Member

variable {σ : Type}

/-- The transport of the authority is handed what was sent to a connected client. -/
def flushed (server : RenetServer) (member : Member σ) : Member σ :=
  match member.link, server.connections member.client with
  | .joined, some connection =>
      if connection.disconnected then member else { member with sent := connection.outgoing }
  | _, _ => member

variable [SessionSimulation σ]

/-- What happens to a replica, and what the network does with it at the authority: it connects and
leaves once, each message of either side is delivered after the ones before it, and the replica
takes iterations until one fails. -/
inductive Moves (server : RenetServer) (member : Member σ) : List NetAction → Member σ → Prop
  | join (fresh : member.link = .apart) (free : server.connections member.client = none) :
      Moves server member [.connect member.client] { member with link := .joined }
  | leave (joined : member.link = .joined) :
      Moves server member [.remove member.client] { member with link := .parted }
  | close (joined : member.link = .joined) : Moves server member [.close member.client] member
  | deliver {channel : Channel} {bytes : Bytes} {later : List Bytes}
      (joined : member.link = .joined)
      (first : member.replica.outgoing channel = bytes :: later) :
      Moves server member [.deliver member.client channel bytes] { member with
        said := member.said.push channel bytes
        replica := { member.replica with outgoing := member.replica.outgoing.pop channel } }
  | arrive {channel : Channel} {bytes : Bytes} {later : List Bytes}
      (first : member.sent channel = member.got channel ++ bytes :: later) :
      Moves server member [] { member with
        got := member.got.push channel bytes
        replica := { member.replica with incoming := member.replica.incoming.push channel bytes } }
  | iterate {input : ClientInput} {next : Replica σ} (runs : member.stopped = none)
      (returns : Replica.iteration input member.replica = .ok () next) :
      Moves server member [] { member with replica := next }
  | fail {input : ClientInput} {error : SessionError} {next : Replica σ}
      (runs : member.stopped = none)
      (fails : Replica.iteration input member.replica = .error error next) :
      Moves server member [] { member with replica := next, stopped := some error }

end Member

/-- An authority and its replicas. -/
structure System (ι σ : Type) where
  phase : Phase σ
  members : ι → Member σ

namespace System

variable {ι σ : Type}

/-- An authority that announced its save and bound its server, and replicas that did not connect
yet. -/
def start (session : ServerSession σ) (replica : Replica σ) (clients : ι → UInt64) : System ι σ where
  phase := .waiting session { server := {}, status := session.status }
  members i := { client := clients i, replica }

variable [DecidableEq ι] [SessionSimulation σ]

/-- One step of the authority, of a replica or of the network. -/
inductive Step (config : ServerCfg) (save : Bytes) (metadata : SaveMetadata) (system : System ι σ) :
    System ι σ → Prop
  | authority {next : Phase σ} (passes : system.phase.Passes config save metadata next) :
      Step config save metadata system
        { phase := next, members := fun i => (system.members i).flushed next.server }
  | ends {next : Phase σ} (ends : system.phase.Ends config save metadata next) :
      Step config save metadata system { system with phase := next }
  | member {i : ι} {actions : List NetAction} {next : Member σ}
      (moves : (system.members i).Moves system.phase.server actions next) :
      Step config save metadata system
        { phase := system.phase.update actions
          members := Function.update system.members i next }
  | stranger {action : NetAction} (strange : ∀ i, (system.members i).link = .joined →
        (system.members i).client ≠ action.client) :
      Step config save metadata system { system with phase := system.phase.act action }

/-- A system leads to another one in any number of steps. -/
inductive Reaches (config : ServerCfg) (save : Bytes) (metadata : SaveMetadata)
    (start : System ι σ) : System ι σ → Prop
  | here : Reaches config save metadata start start
  | step {system next : System ι σ} (reaches : Reaches config save metadata start system)
      (steps : system.Step config save metadata next) : Reaches config save metadata start next

/-- What is reached from a reachable state is reachable. -/
theorem Reaches.trans {config : ServerCfg} {save : Bytes} {metadata : SaveMetadata}
    {start middle last : System ι σ} (first : start.Reaches config save metadata middle)
    (second : middle.Reaches config save metadata last) : start.Reaches config save metadata last := by
  induction second with
  | here => exact first
  | step _ steps ih => exact .step ih steps

end System

end Synctick
