import Synctick.Client.Loop
import Synctick.Startup.Stream

/-! # One client joining

A peer, the save messages under way, a replica that loads the save, and its
messages under way, with the steps that each of them can take at any time. The
counters of a credit window follow every run (`Synctick.flows_run`): the peer
charges at least what the replica has not consumed, and the transfer goes on until
the replica holds the save.
-/

namespace Synctick

open SessionSimulation Effect CreditWindow

/-- A transfer under way. `wire` was sent by the peer and not yet delivered, `inbox`
was delivered to it and not yet received; the peer is `rejected` the moment it
would be disconnected, and the replica `stopped` when its loop returns an error. -/
structure Joining (σ : Type) where
  peer : StartupPeer
  wire : List Bytes := []
  inbox : List Bytes := []
  replica : Replica σ
  rejected : Bool := false
  stopped : Option SessionError := none

namespace Joining

variable {σ : Type}

/-- Let the replica run a part of its loop. -/
def perform (joining : Joining σ) (program : SessionEffect (Replica σ) Unit) : Joining σ :=
  match program joining.replica with
  | .ok _ replica => { joining with replica }
  | .error error replica => { joining with replica, stopped := some error }

/-- The peer receives a message of the replica. -/
def receive (joining : Joining σ) (metadata : SaveMetadata) (now : Nat) (bytes : Bytes)
    (inbox : List Bytes) : Joining σ :=
  match decodeClientMessage bytes with
  | .error _ => { joining with inbox, rejected := true }
  | .ok message =>
      match joining.peer.receive message metadata now with
      | .ok _ peer => { joining with inbox, peer }
      | .error _ peer => { joining with inbox, peer, rejected := true }

variable [SessionSimulation σ]

/-- The steps of a transfer, one message or one part of the client loop at a time.
The loop reports what it consumed before it replays. -/
inductive Step (save : Bytes) (metadata : SaveMetadata) : Joining σ → Joining σ → Prop
  | pump {joining : Joining σ} (answers : List Capacity) (connected : joining.rejected = false) :
      Step save metadata joining { joining with
        peer := (joining.peer.pump save metadata answers).1
        wire := joining.wire ++ (joining.peer.pump save metadata answers).2 }
  | deliver {joining : Joining σ} {message : Bytes} {later : List Bytes}
      (first : joining.wire = message :: later) :
      Step save metadata joining { joining with
        wire := later
        replica := { joining.replica with
          incoming := joining.replica.incoming.push .save message } }
  | consume {joining : Joining σ} (running : joining.stopped = none)
      (some : joining.replica.incoming .save ≠ []) :
      Step save metadata joining (joining.perform Replica.receiveSave)
  | report {joining : Joining σ} (running : joining.stopped = none) :
      Step save metadata joining (joining.perform Replica.reportConsumption)
  | replay {joining : Joining σ} (passes : Nat) (running : joining.stopped = none)
      (prompt : joining.replica.startup.received = joining.replica.reported.1) :
      Step save metadata joining (joining.perform (Replica.stepStartup passes))
  | reportLoading {joining : Joining σ} (running : joining.stopped = none) :
      Step save metadata joining (joining.perform (Replica.reportLoading true))
  | arrive {joining : Joining σ} {message : Bytes} {later : List Bytes}
      (first : joining.replica.outgoing .lockstep = message :: later) :
      Step save metadata joining { joining with
        inbox := joining.inbox ++ [message]
        replica := { joining.replica with
          outgoing := joining.replica.outgoing.pop .lockstep } }
  | receive {joining : Joining σ} (now : Nat) {message : Bytes} {later : List Bytes}
      (connected : joining.rejected = false) (first : joining.inbox = message :: later) :
      Step save metadata joining (joining.receive metadata now message later)

end Joining

variable {save : Bytes} {metadata : SaveMetadata}

/-- What a startup holds after it consumed `count` messages of the transfer. -/
inductive ClientStartup.Holds (save : Bytes) (metadata : SaveMetadata) : Nat → ClientStartup → Prop
  | silent : Holds save metadata 0 {}
  | receiving {count : Nat} (more : count < chunkCount save) :
      Holds save metadata (count + 1)
        { phase := .receiving (some metadata) (save.take (chunkEnd save count))
          received := UInt64.ofNat (chunkEnd save count) }
  | whole {startup : ClientStartup} (nonempty : save ≠ [])
      (received : startup.received = metadata.totalBytes)
      (received' : ∀ announced bytes, startup.phase ≠ .receiving announced bytes) :
      Holds save metadata (chunkCount save + 1) startup
  | refused (empty : save = []) : Holds save metadata (chunkCount save + 1) {}

theorem length_pos_of_ne {save : Bytes} (nonempty : save ≠ []) : 0 < chunkCount save := by
  have some := List.length_pos_iff.mpr nonempty
  unfold chunkCount maxSaveChunkBytes
  omega

theorem transferMessage_decodes {index : Nat} (within : index ≤ chunkCount save) :
    decodeSaveMessage (encode (transferMessage save metadata index)) =
      .ok (transferMessage save metadata index) := by
  cases index with
  | zero => exact decodeSaveMessage_begin metadata
  | succ index =>
      apply decodeSaveMessage_chunk
      · have longer : chunkEnd save index < chunkEnd save (index + 1) :=
          chunkEnd_strict (Nat.lt_succ_self index) within
        intro empty
        have none := congrArg List.length empty
        rw [length_chunk within, List.length_nil] at none
        omega
      · exact List.length_take_le _ _

theorem toNat_chunkEnd (size : metadata.totalBytes.toNat = save.length) (index : Nat) :
    (UInt64.ofNat (chunkEnd save index)).toNat = chunkEnd save index := by
  apply UInt64.toNat_ofNat_of_lt'
  apply Nat.lt_of_le_of_lt (chunkEnd_le index)
  rw [← size]
  exact metadata.totalBytes.toNat_lt

namespace ClientStartup

/-- What an acceptable message makes of a startup is determined. -/
theorem Accepts.unique {startup : ClientStartup} {message : SaveMessage}
    {announced announced' : SaveMetadata} {bytes bytes' : Bytes} {received received' : UInt64}
    (first : Accepts startup message announced bytes received)
    (second : Accepts startup message announced' bytes' received') :
    announced = announced' ∧ bytes = bytes' ∧ received = received' := by
  cases first with
  | begin receiving =>
      cases second with
      | begin receiving' =>
          rw [receiving] at receiving'
          cases receiving'
          exact ⟨rfl, rfl, rfl⟩
  | chunk receiving =>
      cases second with
      | chunk receiving' =>
          rw [receiving] at receiving'
          cases receiving'
          exact ⟨rfl, rfl, rfl⟩

/-- Taking an acceptable message can fail only when it completes the save. -/
theorem ensures_accepted {message : SaveMessage} {startup : ClientStartup} {announced : SaveMetadata}
    {bytes : Bytes} {received : UInt64} (accepts : Accepts startup message announced bytes received) :
    Ensures (receiveSave message) startup
      (fun _ next =>
        received ≠ announced.totalBytes ∧
            next = { startup with phase := .receiving (some announced) bytes, received } ∨
          received = announced.totalBytes ∧
            ∃ reader, ReplayReader.fromReader (bufReader bytes) = .ok reader ∧
              next = { startup with phase := .replaying announced reader, received })
      (fun _ next => received = announced.totalBytes ∧
        (∃ error, ReplayReader.fromReader (bufReader bytes) = .error error) ∧
        next = { startup with phase := .failed, received }) := by
  refine (ensures_receiveSave message startup).mono ?_ ?_
  · intro _ next taken
    obtain ⟨announced', bytes', received', accepts', outcome⟩ := taken
    obtain ⟨rfl, rfl, rfl⟩ := accepts.unique accepts'
    exact outcome
  · intro error next refused
    rcases refused with ⟨unacceptable, _⟩ | ⟨announced', bytes', received', accepts', outcome⟩
    · exact (unacceptable _ _ _ accepts).elim
    · obtain ⟨rfl, rfl, rfl⟩ := accepts.unique accepts'
      exact outcome

/-- The announcement of an empty save is refused. -/
theorem ensures_refused (empty : metadata.totalBytes = 0) :
    Ensures (receiveSave (.begin metadata)) {} (fun _ _ => False) (fun _ next => next = {}) := by
  have unacceptable : ∀ announced bytes received,
      ¬ Accepts {} (.begin metadata) announced bytes received := by
    intro announced bytes received accepts
    cases accepts with
    | begin _ some =>
        rw [empty] at some
        exact UInt64.lt_irrefl 0 some
  refine (ensures_receiveSave _ _).mono ?_ ?_
  · intro _ next taken
    obtain ⟨announced, bytes, received, accepts, _⟩ := taken
    exact unacceptable _ _ _ accepts
  · intro error next refused
    rcases refused with ⟨_, same⟩ | ⟨announced, bytes, received, accepts, _⟩
    · exact same
    · exact (unacceptable _ _ _ accepts).elim

/-- The next chunk of the save is acceptable. -/
theorem accepts_chunk {count : Nat} (size : metadata.totalBytes.toNat = save.length)
    (more : count < chunkCount save) {startup : ClientStartup}
    (receiving : startup.phase = .receiving (some metadata) (save.take (chunkEnd save count)))
    (received : startup.received = UInt64.ofNat (chunkEnd save count)) :
    Accepts startup (transferMessage save metadata (count + 1)) metadata
      (save.take (chunkEnd save (count + 1))) (UInt64.ofNat (chunkEnd save (count + 1))) := by
  have longer : chunkEnd save count < chunkEnd save (count + 1) :=
    chunkEnd_strict (Nat.lt_succ_self count) more
  have cut := length_chunk more
  have sum : startup.received + UInt64.ofNat
      ((save.drop (count * maxSaveChunkBytes)).take maxSaveChunkBytes).length =
        UInt64.ofNat (chunkEnd save (count + 1)) := by
    rw [received, cut, ← UInt64.ofNat_add, Nat.add_sub_cancel' (Nat.le_of_lt longer)]
  rw [← sum, ← take_chunkEnd_succ more]
  apply Accepts.chunk receiving
  · intro empty
    have none := congrArg List.length empty
    rw [cut, List.length_nil] at none
    omega
  · exact List.length_take_le _ _
  · have within : chunkEnd save (count + 1) ≤ save.length := chunkEnd_le _
    rw [received, toNat_chunkEnd size, cut, size]
    omega

/-- The next message of the transfer is acceptable, before anything was replayed. -/
theorem accepts_next {count : Nat} {startup : ClientStartup}
    (size : metadata.totalBytes.toNat = save.length) (nonempty : save ≠ [])
    (holds : startup.Holds save metadata count) (more : count ≤ chunkCount save) :
    Accepts startup (transferMessage save metadata count) metadata
        (save.take (chunkEnd save count)) (UInt64.ofNat (chunkEnd save count)) ∧
      startup.replayed = 0 ∧ startup.initialized = false := by
  cases holds with
  | silent =>
      have some : (0 : UInt64) < metadata.totalBytes := by
        rw [UInt64.lt_iff_toNat_lt, size]
        exact List.length_pos_iff.mpr nonempty
      have announces : Accepts {} (transferMessage save metadata 0) metadata [] 0 := .begin rfl some
      rw [chunkEnd_zero]
      exact ⟨announces, rfl, rfl⟩
  | receiving before => exact ⟨accepts_chunk size before rfl rfl, rfl, rfl⟩
  | whole => exact absurd more (Nat.not_succ_le_self _)
  | refused => exact absurd more (Nat.not_succ_le_self _)

/-- The last chunk completes the save. -/
theorem complete_iff {count : Nat} (size : metadata.totalBytes.toNat = save.length)
    (within : count ≤ chunkCount save) :
    UInt64.ofNat (chunkEnd save count) = metadata.totalBytes ↔ count = chunkCount save := by
  rw [← UInt64.toNat_inj, toNat_chunkEnd size, size]
  have inside := chunkEnd_lt_iff within
  have bound : chunkEnd save count ≤ save.length := chunkEnd_le count
  omega

/-- What taking the next message of the transfer does. -/
theorem ensures_next {count : Nat} {startup : ClientStartup}
    (size : metadata.totalBytes.toNat = save.length) (nonempty : save ≠ [])
    (holds : startup.Holds save metadata count) (more : count ≤ chunkCount save) :
    Ensures (receiveSave (transferMessage save metadata count)) startup
      (fun _ next =>
        count < chunkCount save ∧ next = {
            phase := .receiving (some metadata) (save.take (chunkEnd save count))
            received := UInt64.ofNat (chunkEnd save count) } ∨
          count = chunkCount save ∧
            ∃ reader, ReplayReader.fromReader (bufReader save) = .ok reader ∧
              next = { phase := .replaying metadata reader, received := metadata.totalBytes })
      (fun _ next => count = chunkCount save ∧
        (∃ error, ReplayReader.fromReader (bufReader save) = .error error) ∧
        next = { phase := .failed, received := metadata.totalBytes }) := by
  obtain ⟨accepts, unreplayed, fresh⟩ := accepts_next size nonempty holds more
  have whole (last : count = chunkCount save) : save.take (chunkEnd save count) = save := by
    rw [last, chunkEnd_count, List.take_length]
  cases startup
  subst unreplayed fresh
  refine (ensures_accepted accepts).mono ?_ ?_
  · intro _ next taken
    rcases taken with ⟨incomplete, rfl⟩ | ⟨complete, reader, opens, rfl⟩
    · left
      rw [ne_eq, complete_iff size more] at incomplete
      exact ⟨Nat.lt_of_le_of_ne more incomplete, rfl⟩
    · right
      rw [whole ((complete_iff size more).mp complete)] at opens
      rw [complete]
      exact ⟨(complete_iff size more).mp complete, reader, opens, rfl⟩
  · intro error next failed
    obtain ⟨complete, ⟨reason, opens⟩, rfl⟩ := failed
    rw [whole ((complete_iff size more).mp complete)] at opens
    rw [complete]
    exact ⟨(complete_iff size more).mp complete, ⟨reason, opens⟩, rfl⟩

/-- Taking the next message of the transfer. -/
theorem holds_receiveSave {count : Nat} {startup : ClientStartup}
    (size : metadata.totalBytes.toNat = save.length) (holds : startup.Holds save metadata count)
    (more : count ≤ chunkCount save) :
    Ensures (receiveSave (transferMessage save metadata count)) startup
      (fun _ next => next.Holds save metadata (count + 1))
      (fun _ next => next.Holds save metadata (count + 1) ∧ count = chunkCount save) := by
  by_cases empty : save = []
  · subst empty
    have none : metadata.totalBytes = 0 := UInt64.toNat_inj.mp size
    cases holds with
    | silent =>
        refine (ensures_refused none).mono ?_ ?_
        · intro _ next impossible
          exact impossible.elim
        · intro error next same
          subst same
          exact ⟨.refused rfl, rfl⟩
    | receiving before => exact (Nat.not_lt_zero _ before).elim
    | whole nonempty => exact (nonempty rfl).elim
    | refused => exact absurd more (Nat.not_succ_le_self _)
  · refine (ensures_next size empty holds more).mono ?_ ?_
    · intro _ next taken
      rcases taken with ⟨before, rfl⟩ | ⟨rfl, reader, _, rfl⟩
      · exact .receiving before
      · exact .whole empty rfl fun _ _ impossible => nomatch impossible
    · intro error next failed
      obtain ⟨rfl, _, rfl⟩ := failed
      exact ⟨.whole empty rfl (fun _ _ impossible => nomatch impossible), rfl⟩

end ClientStartup

end Synctick
