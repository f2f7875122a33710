import Mathlib.Logic.Function.Basic
import Synctick.Protocol
import Synctick.Session

/-! # The transport

What the sessions rely on of their transport: each connection has reliable ordered
channels, a server keeps its connections and a queue of connection events, and a
disconnection takes effect at once, for what is received as for what is sent. What
the network does is up to the network (`Synctick.NetAction`).

The memory of a channel is not counted here. The transport drops a peer for which a reliable
channel has no room, and no loop looks at its connections between a message that it sends
without asking for room and its next turn of the network. So such a peer is one that the network
closes in that turn, as it may close any, and what was sent to it last is never delivered.
-/

namespace Synctick

/-- The messages of each channel, the oldest first. -/
abbrev Mailbox := Channel → List Bytes

/-- A mailbox with one more message. -/
def Mailbox.push (mailbox : Mailbox) (channel : Channel) (bytes : Bytes) : Mailbox := fun other =>
  if other = channel then mailbox other ++ [bytes] else mailbox other

/-- A mailbox without the first message of a channel. -/
def Mailbox.pop (mailbox : Mailbox) (channel : Channel) : Mailbox := fun other =>
  if other = channel then (mailbox other).tail else mailbox other

/-- A message is put behind those of its channel. -/
@[simp] theorem Mailbox.push_same (mailbox : Mailbox) (channel : Channel) (bytes : Bytes) :
    mailbox.push channel bytes channel = mailbox channel ++ [bytes] := if_pos rfl

/-- The other channels are as before. -/
@[simp] theorem Mailbox.push_other {channel other : Channel} (mailbox : Mailbox) (bytes : Bytes)
    (different : other ≠ channel) : mailbox.push channel bytes other = mailbox other :=
  if_neg different

/-- The first message of the channel is gone. -/
@[simp] theorem Mailbox.pop_same (mailbox : Mailbox) (channel : Channel) :
    mailbox.pop channel channel = (mailbox channel).tail := if_pos rfl

/-- Taking a message from one channel leaves the others. -/
@[simp] theorem Mailbox.pop_other {channel other : Channel} (mailbox : Mailbox)
    (different : other ≠ channel) : mailbox.pop channel other = mailbox other := if_neg different

/-- What a server did on a connection. -/
inductive Traffic
  | sent (channel : Channel) (bytes : Bytes)
  | received (channel : Channel) (bytes : Bytes)
  deriving DecidableEq, Repr

/-- The messages sent on a channel, in order. -/
def sentOn (channel : Channel) (history : List Traffic) : List Bytes :=
  history.filterMap fun
    | .sent other bytes => if other = channel then some bytes else none
    | .received _ _ => none

/-- What went over a channel is what went over it first and what went over it later. -/
theorem sentOn_append (channel : Channel) (front back : List Traffic) :
    sentOn channel (front ++ back) = sentOn channel front ++ sentOn channel back :=
  List.filterMap_append

/-- The end of a connection at the server: `incoming` was delivered and not yet
received, `outgoing` was handed to its channels, of whatever size; the history is all
that the server did on it. -/
structure Connection where
  disconnected : Bool := false
  incoming : Mailbox := fun _ => []
  outgoing : Mailbox := fun _ => []
  history : List Traffic := []

/-- A message is sent, unless the connection was closed. -/
def Connection.send (connection : Connection) (channel : Channel) (bytes : Bytes) : Connection :=
  if connection.disconnected then connection
  else { connection with
    outgoing := connection.outgoing.push channel bytes
    history := connection.history ++ [.sent channel bytes] }

/-- Sending does not close a connection. -/
@[simp] theorem Connection.disconnected_send (connection : Connection) (channel : Channel)
    (bytes : Bytes) : (connection.send channel bytes).disconnected = connection.disconnected := by
  unfold Connection.send
  by_cases closed : connection.disconnected = true
  · rw [if_pos closed]
  · rw [if_neg closed]

inductive ServerEvent
  | clientConnected (id : UInt64)
  | clientDisconnected (id : UInt64)
  deriving DecidableEq, Repr

/-- The client that an event is about. -/
def ServerEvent.client : ServerEvent → UInt64
  | .clientConnected id => id
  | .clientDisconnected id => id

/-- What the network does to a server. -/
inductive NetAction
  | connect (id : UInt64)
  | remove (id : UInt64)
  | close (id : UInt64)
  | deliver (id : UInt64) (channel : Channel) (bytes : Bytes)
  deriving DecidableEq, Repr

/-- A server with its connections; `broadcasts` is all that it broadcast. -/
structure RenetServer where
  connections : UInt64 → Option Connection := fun _ => none
  events : List ServerEvent := []
  broadcasts : List (Channel × Bytes) := []

namespace RenetServer

variable (server : RenetServer)

/-- Change a connection, where it is. -/
def alter (id : UInt64) (change : Connection → Connection) : RenetServer :=
  { server with
    connections := Function.update server.connections id ((server.connections id).map change) }

def isConnected (id : UInt64) : Bool :=
  match server.connections id with
  | some connection => !connection.disconnected
  | none => false

def disconnect (id : UInt64) : RenetServer :=
  server.alter id fun connection => { connection with disconnected := true }

/-- Hand a message to a channel of a client, whatever room it has. -/
def sendMessage (id : UInt64) (channel : Channel) (bytes : Bytes) : RenetServer :=
  server.alter id fun connection => connection.send channel bytes

/-- Hand a message to a channel of every client, whatever room it has. -/
def broadcastMessage (channel : Channel) (bytes : Bytes) : RenetServer :=
  { server with
    connections := fun id => (server.connections id).map fun connection =>
      connection.send channel bytes
    broadcasts := server.broadcasts ++ [(channel, bytes)] }

/-- The messages of a connected client that were not yet received. -/
def pending (id : UInt64) (channel : Channel) : List Bytes :=
  match server.connections id with
  | some connection => if connection.disconnected then [] else connection.incoming channel
  | none => []

/-- Take a message that a client sent. -/
def take (id : UInt64) (channel : Channel) (bytes : Bytes) : RenetServer :=
  server.alter id fun connection => { connection with
    incoming := connection.incoming.pop channel
    history := connection.history ++ [.received channel bytes] }

/-- Receive the next message of a connected client. -/
def receiveMessage (id : UInt64) (channel : Channel) : Option Bytes × RenetServer :=
  match server.pending id channel with
  | [] => (none, server)
  | bytes :: _ => (some bytes, server.take id channel bytes)

/-- One thing that the network does. A connection is added and removed with an event. -/
def act : NetAction → RenetServer
  | .connect id =>
      match server.connections id with
      | some _ => server
      | none =>
          { server with
            connections := Function.update server.connections id (some {})
            events := server.events ++ [.clientConnected id] }
  | .remove id =>
      match server.connections id with
      | some _ =>
          { server with
            connections := Function.update server.connections id none
            events := server.events ++ [.clientDisconnected id] }
      | none => server
  | .close id => server.disconnect id
  | .deliver id channel bytes => server.alter id fun connection =>
      { connection with incoming := connection.incoming.push channel bytes }

def update (actions : List NetAction) : RenetServer := actions.foldl act server

variable {server} {id other : UInt64}

/-- A new client is connected with nothing on its way. -/
theorem act_connect (fresh : server.connections id = none) :
    server.act (.connect id) = { server with
      connections := Function.update server.connections id (some {})
      events := server.events ++ [.clientConnected id] } := by
  simp only [act, fresh]

/-- A client that is there is not connected a second time. -/
theorem act_connect_again {connection : Connection}
    (there : server.connections id = some connection) : server.act (.connect id) = server := by
  simp only [act, there]

/-- A client that goes leaves an event and no connection. -/
theorem act_remove {connection : Connection} (there : server.connections id = some connection) :
    server.act (.remove id) = { server with
      connections := Function.update server.connections id none
      events := server.events ++ [.clientDisconnected id] } := by
  simp only [act, there]

/-- Nobody leaves twice. -/
theorem act_remove_again (gone : server.connections id = none) :
    server.act (.remove id) = server := by
  simp only [act, gone]

@[simp] theorem alter_same (change : Connection → Connection) :
    (server.alter id change).connections id = (server.connections id).map change :=
  Function.update_self _ _ _

@[simp] theorem alter_other (change : Connection → Connection) (different : other ≠ id) :
    (server.alter id change).connections other = server.connections other :=
  Function.update_of_ne different _ _

/-- A client is connected where its connection is there and not closed. -/
theorem isConnected_iff : server.isConnected id = true ↔
    ∃ connection, server.connections id = some connection ∧ connection.disconnected = false := by
  unfold isConnected
  cases server.connections id with
  | none => simp
  | some connection => simp

/-- Whether a client is connected depends on its own connection only. -/
theorem isConnected_congr {server' : RenetServer}
    (same : server'.connections id = server.connections id) :
    server'.isConnected id = server.isConnected id := by
  unfold isConnected
  rw [same]

/-- A client that was dropped is not connected. -/
@[simp] theorem isConnected_disconnect : (server.disconnect id).isConnected id = false := by
  unfold isConnected disconnect
  rw [alter_same]
  cases server.connections id with
  | none => rfl
  | some connection => rfl

/-- A broadcast hands its bytes to the channels, and closes no connection. -/
@[simp] theorem isConnected_broadcastMessage (channel : Channel) (bytes : Bytes) :
    (server.broadcastMessage channel bytes).isConnected id = server.isConnected id := by
  unfold isConnected broadcastMessage
  dsimp only
  cases server.connections id with
  | none => rfl
  | some connection =>
      rw [Option.map_some]
      exact congrArg not (connection.disconnected_send channel bytes)

/-- What a broadcast does to a connected client. -/
theorem connections_broadcastMessage {connection : Connection} (channel : Channel) (bytes : Bytes)
    (there : server.connections id = some connection) (open' : connection.disconnected = false) :
    (server.broadcastMessage channel bytes).connections id = some { connection with
      outgoing := connection.outgoing.push channel bytes
      history := connection.history ++ [.sent channel bytes] } := by
  unfold broadcastMessage Connection.send
  dsimp only
  rw [there, Option.map_some, if_neg (ne_true_of_eq_false open')]

/-- Nothing more is received of a client that was dropped. -/
@[simp] theorem pending_disconnect (channel : Channel) :
    (server.disconnect id).pending id channel = [] := by
  unfold pending disconnect
  rw [alter_same]
  cases server.connections id with
  | none => rfl
  | some connection => rfl

/-- A connected client that has something pending. -/
theorem connected_of_pending {channel : Channel} {bytes : Bytes} {later : List Bytes}
    (pending : server.pending id channel = bytes :: later) :
    ∃ connection, server.connections id = some connection ∧ connection.disconnected = false ∧
      connection.incoming channel = bytes :: later := by
  unfold RenetServer.pending at pending
  cases there : server.connections id with
  | none =>
      rw [there] at pending
      cases pending
  | some connection =>
      rw [there] at pending
      dsimp only at pending
      cases closed : connection.disconnected with
      | true =>
          rw [closed, if_pos rfl] at pending
          cases pending
      | false =>
          rw [closed, if_neg Bool.false_ne_true] at pending
          exact ⟨connection, rfl, closed, pending⟩

/-- What can be received of a connected client is what came in. -/
theorem pending_of_connected {channel : Channel} {connection : Connection}
    (there : server.connections id = some connection) (open' : connection.disconnected = false) :
    server.pending id channel = connection.incoming channel := by
  unfold pending
  rw [there]
  exact if_neg (ne_true_of_eq_false open')

/-- Receiving takes the first message. -/
@[simp] theorem pending_take (channel : Channel) (bytes : Bytes) :
    (server.take id channel bytes).pending id channel = (server.pending id channel).tail := by
  unfold pending take
  rw [alter_same]
  cases server.connections id with
  | none => rfl
  | some connection =>
      dsimp only [Option.map_some]
      cases connection.disconnected with
      | true => rfl
      | false => exact Mailbox.pop_same _ _

/-- What can be received of a client depends on its own connection only. -/
theorem pending_congr {server' : RenetServer}
    (same : server'.connections id = server.connections id) (channel : Channel) :
    server'.pending id channel = server.pending id channel := by
  unfold pending
  rw [same]

/-- Receiving does nothing, or it takes the next message of the connection. -/
theorem receiveMessage_cases (server : RenetServer) (id : UInt64) (channel : Channel) :
    server.pending id channel = [] ∧ server.receiveMessage id channel = (none, server) ∨
      ∃ connection bytes later, server.connections id = some connection ∧
        connection.disconnected = false ∧ connection.incoming channel = bytes :: later ∧
        server.receiveMessage id channel = (some bytes, server.take id channel bytes) := by
  unfold receiveMessage
  cases pending : server.pending id channel with
  | nil => exact Or.inl ⟨rfl, rfl⟩
  | cons bytes later =>
      obtain ⟨connection, there, open', first⟩ := connected_of_pending pending
      exact Or.inr ⟨connection, bytes, later, there, open', first, rfl⟩

/-- What an operation on one client leaves alone. -/
structure Others (server next : RenetServer) (id : UInt64) : Prop where
  connections : ∀ other, other ≠ id → next.connections other = server.connections other
  events : next.events = server.events
  broadcasts : next.broadcasts = server.broadcasts

theorem Others.refl (server : RenetServer) (id : UInt64) : Others server server id :=
  ⟨fun _ _ => rfl, rfl, rfl⟩

/-- What two steps leave alone, both leave alone. -/
theorem Others.trans {middle next : RenetServer} (first : Others server middle id)
    (second : Others middle next id) : Others server next id where
  connections other different :=
    (second.connections other different).trans (first.connections other different)
  events := second.events.trans first.events
  broadcasts := second.broadcasts.trans first.broadcasts

/-- A change to one connection leaves the others. -/
theorem others_alter (server : RenetServer) (id : UInt64) (change : Connection → Connection) :
    Others server (server.alter id change) id :=
  ⟨fun _ different => alter_other change different, rfl, rfl⟩

/-- Receiving from one client leaves the others. -/
theorem others_receiveMessage (server : RenetServer) (id : UInt64) (channel : Channel) :
    Others server (server.receiveMessage id channel).2 id := by
  rcases receiveMessage_cases server id channel with ⟨_, same⟩ | ⟨_, bytes, _, _, _, _, same⟩
  · rw [same]
    exact .refl server id
  · rw [same]
    exact others_alter server id _

/-- The network broadcasts nothing. -/
theorem broadcasts_update (server : RenetServer) (actions : List NetAction) :
    (server.update actions).broadcasts = server.broadcasts := by
  unfold update
  induction actions generalizing server with
  | nil => rfl
  | cons action actions ih =>
      rw [List.foldl_cons, ih]
      cases action with
      | connect id =>
          cases there : server.connections id with
          | none => rw [act_connect there]
          | some connection => rw [act_connect_again there]
      | remove id =>
          cases there : server.connections id with
          | none => rw [act_remove_again there]
          | some connection => rw [act_remove there]
      | close => rfl
      | deliver => rfl

/-- What servicing connections does: it receives and it closes, and what was sent
stays sent. -/
structure Serviced (server next : RenetServer) : Prop where
  events : next.events = server.events
  broadcasts : next.broadcasts = server.broadcasts
  absent : ∀ id, server.connections id = none → next.connections id = none
  present : ∀ id connection, server.connections id = some connection → ∃ later,
    next.connections id = some later ∧ later.outgoing = connection.outgoing ∧
      (later.disconnected = false → connection.disconnected = false)

theorem Serviced.refl (server : RenetServer) : Serviced server server :=
  ⟨rfl, rfl, fun _ none => none, fun _ connection there => ⟨connection, there, rfl, fun open' => open'⟩⟩

/-- Two services of the clients are one. -/
theorem Serviced.trans {middle next : RenetServer} (first : Serviced server middle)
    (second : Serviced middle next) : Serviced server next where
  events := second.events.trans first.events
  broadcasts := second.broadcasts.trans first.broadcasts
  absent id none := second.absent id (first.absent id none)
  present id connection there := by
    obtain ⟨between, there, kept, opens⟩ := first.present id connection there
    obtain ⟨later, there, kept', opens'⟩ := second.present id between there
    exact ⟨later, there, kept'.trans kept, fun open' => opens (opens' open')⟩

/-- A change that sends nothing and opens no closed connection is part of servicing. -/
theorem serviced_alter (server : RenetServer) (id : UInt64) {change : Connection → Connection}
    (outgoing : ∀ connection, (change connection).outgoing = connection.outgoing)
    (closes : ∀ connection, (change connection).disconnected = false →
      connection.disconnected = false) : Serviced server (server.alter id change) where
  events := rfl
  broadcasts := rfl
  absent other none := by
    by_cases same : other = id
    · subst same
      rw [alter_same, none]
      rfl
    · rw [alter_other _ same, none]
  present other connection there := by
    by_cases same : other = id
    · subst same
      exact ⟨change connection, by rw [alter_same, there]; rfl, outgoing connection,
        closes connection⟩
    · exact ⟨connection, by rw [alter_other _ same, there], rfl, fun open' => open'⟩

/-- So is dropping a client. -/
theorem serviced_disconnect (server : RenetServer) (id : UInt64) :
    Serviced server (server.disconnect id) :=
  serviced_alter server id (fun _ => rfl) fun _ impossible => nomatch impossible

/-- So is receiving a message. -/
theorem serviced_take (server : RenetServer) (id : UInt64) (channel : Channel) (bytes : Bytes) :
    Serviced server (server.take id channel bytes) :=
  serviced_alter server id (fun _ => rfl) fun _ open' => open'

/-- Receiving a message does not close the connection. -/
@[simp] theorem isConnected_take (channel : Channel) (bytes : Bytes) :
    (server.take id channel bytes).isConnected id = server.isConnected id := by
  unfold isConnected take
  rw [alter_same]
  cases server.connections id with
  | none => rfl
  | some connection => rfl

/-- Receiving on one channel leaves what is pending on the others. -/
theorem pending_take_other {channel other : Channel} (bytes : Bytes) (different : other ≠ channel) :
    (server.take id channel bytes).pending id other = server.pending id other := by
  unfold pending take
  rw [alter_same]
  cases server.connections id with
  | none => rfl
  | some connection =>
      dsimp only [Option.map_some]
      rw [Mailbox.pop_other _ different]

end RenetServer

end Synctick
