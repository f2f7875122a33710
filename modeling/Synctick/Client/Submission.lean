import Synctick.Api
import Synctick.Codec.Budgets

/-! # Submitting commands

A game submits commands to a bounded queue, and its live replica forwards what it finds there,
while other threads go on submitting. The queue is bounded by the number of its commands and each
command by its bytes, while the channel that takes them is bounded by the bytes of all.
-/

namespace Synctick

open Effect

inductive SubmitError
  | notLive
  | full
  | stopped
  | codec (error : CodecError)
  deriving DecidableEq, Repr

/-- The text of a submit error. -/
def SubmitError.display : SubmitError → String
  | .notLive => "session is not live"
  | .full => "command queue is full"
  | .stopped => "session has stopped"
  | .codec error => error.display

/-- Why a queue did not take a command. -/
inductive TrySendError
  | full
  | disconnected
  deriving DecidableEq, Repr

/-- The queue between a game and its worker, never over its capacity. -/
structure CommandQueue (capacity : Nat) where
  commands : List CommandPayload
  bounded : commands.length ≤ capacity
  disconnected : Bool := false

namespace CommandQueue

variable {capacity : Nat}

def empty : CommandQueue capacity where
  commands := []
  bounded := Nat.zero_le capacity

def trySend (payload : CommandPayload) : Effect TrySendError (CommandQueue capacity) Unit := do
  let queue ← get
  if queue.disconnected then
    throw .disconnected
  if room : queue.commands.length < capacity then
    set { queue with
      commands := queue.commands ++ [payload]
      bounded := Nat.le_trans (Nat.le_of_eq List.length_append) room }
  else throw .full

/-- A queue from which some commands were received. -/
def received (count : Nat) (queue : CommandQueue capacity) : CommandQueue capacity where
  commands := queue.commands.drop count
  bounded := by
    rw [List.length_drop]
    exact Nat.le_trans (Nat.sub_le _ _) queue.bounded
  disconnected := queue.disconnected

/-- A queue takes a command at its end, or stays as it is. -/
theorem ensures_trySend (payload : CommandPayload) (queue : CommandQueue capacity) :
    Ensures (trySend payload) queue
      (fun _ next => next.commands = queue.commands ++ [payload] ∧
        next.disconnected = queue.disconnected)
      (fun _ next => next = queue) := by
  unfold trySend
  rw [ensures_bind, ensures_get]
  dsimp only
  by_cases disconnected : queue.disconnected = true
  · rw [if_pos disconnected]
    rfl
  · rw [if_neg disconnected]
    by_cases room : queue.commands.length < capacity
    · rw [dif_pos room]
      exact ⟨rfl, rfl⟩
    · rw [dif_neg room]
      rfl

/-- A connected queue with room takes a command. -/
theorem returns_trySend (payload : CommandPayload) {queue : CommandQueue capacity}
    (connected : queue.disconnected = false) (room : queue.commands.length < capacity) :
    Ensures (trySend payload) queue (fun _ next => next.commands = queue.commands ++ [payload] ∧
      next.disconnected = false) (fun _ _ => False) := by
  unfold trySend
  rw [ensures_bind, ensures_get]
  dsimp only
  rw [connected, if_neg Bool.false_ne_true, dif_pos room]
  exact ⟨rfl, rfl⟩

end CommandQueue

/-- What a game submits its commands with. -/
structure CommandSender (capacity : Nat) where
  queue : CommandQueue capacity := .empty
  control : SessionControl := {}

namespace CommandSender

variable {capacity : Nat} {C : Type} [Codec.Wire C]

/-- Queue an encoded command. -/
def enqueue (payload : CommandPayload) : Effect SubmitError (CommandSender capacity) Unit := do
  let sender ← get
  match CommandQueue.trySend payload sender.queue with
  | .ok _ queue => set { sender with queue }
  | .error .full _ => throw .full
  | .error .disconnected _ => throw .stopped

/-- Success acknowledges local queue admission, not gameplay acceptance. -/
def submit (command : C) : Effect SubmitError (CommandSender capacity) Unit := do
  let sender ← get
  if sender.control.cancelled then
    throw .stopped
  match sender.control.status with
  | .live =>
      match Codec.encode command with
      | .error error => throw (.codec error)
      | .ok bytes => enqueue ⟨bytes⟩
  | .stopped | .failed _ => throw .stopped
  | _ => throw .notLive

/-- A command is put behind the others, or it is refused and nothing changes. -/
theorem ensures_enqueue (payload : CommandPayload) (sender : CommandSender capacity) :
    Ensures (enqueue payload) sender
      (fun _ next => next.control = sender.control ∧
        next.queue.commands = sender.queue.commands ++ [payload])
      (fun _ next => next = sender) := by
  have sent := CommandQueue.ensures_trySend payload sender.queue
  unfold enqueue
  rw [ensures_bind, ensures_get]
  cases exit : CommandQueue.trySend payload sender.queue with
  | ok _ queue =>
      have queued := ensures_of_ok sent exit
      exact ⟨rfl, queued.1⟩
  | error error queue => cases error <;> rfl

/-- An accepted command is encoded and queued; a rejected one changes nothing. -/
theorem ensures_submit (command : C) (sender : CommandSender capacity) :
    Ensures (submit command) sender
      (fun _ next => next.control = sender.control ∧ ∃ bytes, Codec.encode command = .ok bytes ∧
        next.queue.commands = sender.queue.commands ++ [⟨bytes⟩])
      (fun _ next => next = sender) := by
  unfold submit
  rw [ensures_bind, ensures_get]
  dsimp only
  by_cases cancelled : sender.control.cancelled = true
  · rw [if_pos cancelled]
    rfl
  · rw [if_neg cancelled]
    cases sender.control.status with
    | live =>
        cases Codec.encode command with
        | error error => rfl
        | ok bytes =>
            refine (ensures_enqueue ⟨bytes⟩ sender).mono ?_ ?_
            · rintro _ next ⟨same, queued⟩
              exact ⟨same, bytes, rfl, queued⟩
            · rintro _ next rfl
              rfl
    | _ => rfl

/-- A live sender queues a command that encodes, while its queue has room. -/
theorem returns_submit {command : C} {bytes : Bytes} {sender : CommandSender capacity}
    (encoded : Codec.encode command = .ok bytes)
    (live : sender.control = { status := .live }) (connected : sender.queue.disconnected = false)
    (room : sender.queue.commands.length < capacity) :
    ∃ next, submit command sender = .ok () next ∧
      next.queue.commands = sender.queue.commands ++ [⟨bytes⟩] ∧
      next.control = { status := .live } ∧ next.queue.disconnected = false := by
  obtain ⟨_, queue, sent, queued, still⟩ :=
    (CommandQueue.returns_trySend ⟨bytes⟩ connected room).returns
  refine ⟨{ sender with queue }, ?_, queued, live, still⟩
  apply eq_ok_of_ensures
  unfold submit
  rw [ensures_bind, ensures_get]
  dsimp only
  rw [live, if_neg Bool.false_ne_true, encoded]
  unfold enqueue
  rw [ensures_bind, ensures_get]
  change Ensures (match CommandQueue.trySend ⟨bytes⟩ sender.queue with
    | .ok _ queue => set { sender with queue }
    | .error .full _ => throw SubmitError.full
    | .error .disconnected _ => throw SubmitError.stopped) sender _ _
  rw [sent]
  exact ⟨rfl, congrArg (CommandSender.mk queue) live⟩

/-- What a sender can hold: commands were submitted and received in any order, and the session was
published, cancelled or dropped meanwhile. -/
inductive Queued (C : Type) [Codec.Wire C] {capacity : Nat} : CommandSender capacity → Prop
  | new (control : SessionControl) : Queued C { control }
  | submitted {sender next : CommandSender capacity} (queued : Queued C sender) (command : C)
      (accepted : submit command sender = .ok () next) : Queued C next
  | received {sender : CommandSender capacity} (queued : Queued C sender) (count : Nat) :
      Queued C { sender with queue := sender.queue.received count }
  | published {sender : CommandSender capacity} (queued : Queued C sender)
      (control : SessionControl) : Queued C { sender with control }
  | dropped {sender : CommandSender capacity} (queued : Queued C sender) :
      Queued C { sender with queue := { sender.queue with disconnected := true } }

/-- Every queued command was encoded. -/
theorem Queued.encoded {sender : CommandSender capacity} (queued : Queued C sender) :
    ∀ payload ∈ sender.queue.commands, ∃ command : C,
      Codec.encode command = .ok payload.bytes := by
  induction queued with
  | new control =>
      intro payload member
      cases member
  | @submitted sender next _ command accepted ih =>
      obtain ⟨_, bytes, encoded, appended⟩ := ensures_of_ok (ensures_submit command sender) accepted
      intro payload member
      rw [appended] at member
      rcases List.mem_append.mp member with earlier | last
      · exact ih payload earlier
      · rw [List.mem_singleton.mp last]
        exact ⟨command, encoded⟩
  | received _ count ih =>
      intro payload member
      exact ih payload (List.mem_of_mem_drop member)
  | published _ _ ih => exact ih
  | dropped _ ih => exact ih

/-- A queued command is within the byte budget of one payload. -/
theorem Queued.small {sender : CommandSender capacity} (queued : Queued C sender)
    {payload : CommandPayload} (member : payload ∈ sender.queue.commands) :
    payload.bytes.length ≤ Codec.maxPayloadBytes := by
  obtain ⟨_, encoded⟩ := queued.encoded payload member
  exact Codec.length_le_of_validate (Codec.validate_of_encode encoded)

/-- A queue can hold a command as often as its capacity allows. -/
theorem exists_queued_replicate {command : C} {bytes : Bytes}
    (encoded : Codec.encode command = .ok bytes) {count : Nat} (room : count ≤ capacity) :
    ∃ sender : CommandSender capacity, Queued C sender ∧
      sender.queue.commands = List.replicate count ⟨bytes⟩ ∧
      sender.control = { status := .live } ∧ sender.queue.disconnected = false := by
  induction count with
  | zero => exact ⟨{ control := { status := .live } }, .new _, rfl, rfl, rfl⟩
  | succ count ih =>
      obtain ⟨sender, queued, holds, live, connected⟩ := ih (Nat.le_of_lt room)
      have shorter : sender.queue.commands.length < capacity := by
        rw [holds, List.length_replicate]
        exact room
      obtain ⟨next, accepted, appended, still⟩ := returns_submit encoded live connected shorter
      refine ⟨next, queued.submitted command accepted, ?_, still⟩
      rw [appended, holds, List.replicate_succ']

/-- The commands that a call receives one after another, while other threads submit, publish,
cancel or drop between any two of its passes. -/
inductive Drains (C : Type) [Codec.Wire C] {capacity : Nat} :
    CommandSender capacity → List CommandPayload → Prop
  | done (sender : CommandSender capacity) : Drains C sender []
  | submitted {sender next : CommandSender capacity} {commands : List CommandPayload} (command : C)
      (accepted : submit command sender = .ok () next) (drains : Drains C next commands) :
      Drains C sender commands
  | published {sender : CommandSender capacity} {commands : List CommandPayload}
      (control : SessionControl) (drains : Drains C { sender with control } commands) :
      Drains C sender commands
  | dropped {sender : CommandSender capacity} {commands : List CommandPayload}
      (drains : Drains C
        { sender with queue := { sender.queue with disconnected := true } } commands) :
      Drains C sender commands
  | received {sender : CommandSender capacity} {payload : CommandPayload}
      {rest commands : List CommandPayload} (first : sender.queue.commands = payload :: rest)
      (drains : Drains C { sender with queue := sender.queue.received 1 } commands) :
      Drains C sender (payload :: commands)

/-- With room for one command, a call can find as many as other threads submit. -/
theorem drains_replicate {command : C} {bytes : Bytes} (encoded : Codec.encode command = .ok bytes)
    (room : 0 < capacity) (count : Nat) {sender : CommandSender capacity}
    (live : sender.control = { status := .live }) (connected : sender.queue.disconnected = false)
    (empty : sender.queue.commands = []) :
    Drains C sender (List.replicate count ⟨bytes⟩) := by
  induction count generalizing sender with
  | zero => exact .done sender
  | succ count ih =>
      have shorter : sender.queue.commands.length < capacity := by
        rw [empty]
        exact room
      obtain ⟨next, accepted, queued, live', connected'⟩ :=
        returns_submit encoded live connected shorter
      rw [empty, List.nil_append] at queued
      refine .submitted command accepted (.received queued (ih live' connected' ?_))
      change next.queue.commands.drop 1 = []
      rw [queued]
      rfl

end CommandSender

/-! ## Forwarding -/

/-- The bytes of the messages of a channel. -/
def channelUse (messages : List Bytes) : Nat := (messages.map List.length).sum

/-- The size of a message with a command of that many bytes: two for the variant and the length,
and more for the length of a long command. -/
def framedSize (length : Nat) : Nat :=
  if length < 251 then length + 2
  else if length < 2 ^ 16 then length + 4
  else length + 6

/-- A command takes its bytes and the framing of a message. -/
theorem length_encode_input {payload : CommandPayload}
    (small : payload.bytes.length ≤ Codec.maxPayloadBytes) :
    (encode (ClientMessage.input payload)).length = framedSize payload.bytes.length := by
  change (Bincode.encodeVarint 0 ++ (Bincode.encodeVarint payload.bytes.length ++
    payload.bytes)).length = _
  unfold Codec.maxPayloadBytes at small
  unfold framedSize Bincode.encodeVarint
  by_cases short : payload.bytes.length < 251
  · simp only [short, ↓reduceIte, List.length_append, List.length_cons, List.length_nil,
      Nat.zero_lt_succ]
    omega
  · by_cases medium : payload.bytes.length < 2 ^ 16
    · simp only [short, medium, ↓reduceIte, List.length_append, List.length_cons, List.length_nil,
        length_littleEndian, Nat.zero_lt_succ]
      omega
    · have wide : payload.bytes.length < 2 ^ 32 := by omega
      simp only [short, medium, wide, ↓reduceIte, List.length_append, List.length_cons,
        List.length_nil, length_littleEndian, Nat.zero_lt_succ]
      omega

namespace Replica

variable {σ : Type}

/-- Commands are sent one after another, in their order. -/
theorem ensures_sendAll (payloads : List CommandPayload) (replica : Replica σ) :
    Ensures (Effect.forEach (fun payload =>
      sendMessage .lockstep (encode (ClientMessage.input payload))) payloads) replica
      (fun _ next => next.outgoing .lockstep = replica.outgoing .lockstep ++
        payloads.map fun payload => encode (ClientMessage.input payload))
      (fun _ _ => False) := by
  induction payloads generalizing replica with
  | nil => exact (List.append_nil _).symm
  | cons payload rest ih =>
      change Ensures (do
        sendMessage .lockstep (encode (ClientMessage.input payload))
        Effect.forEach _ rest) replica _ _
      rw [ensures_bind]
      refine (ih { replica with
        outgoing := replica.outgoing.push .lockstep (encode (ClientMessage.input payload)) }).mono
        ?_ fun _ _ impossible => impossible
      intro _ next sent
      rw [sent]
      change replica.outgoing.push .lockstep (encode (ClientMessage.input payload)) .lockstep ++ _ = _
      rw [Mailbox.push_same, List.append_assoc]
      rfl

/-- A live replica sends the first commands that are queued, also when the queue was closed. -/
theorem ensures_forwardInputs_live (input : ClientInput) {replica : Replica σ}
    (live : replica.startup.isLive = true) :
    Ensures (forwardInputs input) replica
      (fun _ next => next.outgoing .lockstep = replica.outgoing .lockstep ++
        (input.inputs.take 256).map fun payload => encode (ClientMessage.input payload))
      (fun _ next => next.outgoing .lockstep = replica.outgoing .lockstep ++
        (input.inputs.take 256).map fun payload => encode (ClientMessage.input payload)) := by
  unfold forwardInputs
  rw [ensures_bind, ensures_get, ensures_bind]
  simp only [live, if_true]
  refine (ensures_sendAll (input.inputs.take 256) replica).mono ?_ ?_
  · intro _ next sent
    by_cases closed : input.inputClosed ∧ input.inputs.length < 256
    · rw [if_pos closed]
      exact sent
    · rw [if_neg closed]
      exact sent
  · intro _ _ impossible
    exact impossible.elim

end Replica

/-- A call that finds these commands one after another, on a live replica whose channel is empty,
leaves in the channel no more bytes than it may buffer. -/
def ForwardFits (commands : List CommandPayload) : Prop :=
  ∀ (σ : Type) (replica : Replica σ) (input : ClientInput), replica.startup.isLive = true →
    replica.outgoing .lockstep = [] → input.inputs = commands →
    channelUse (((Replica.forwardInputs input).final replica).outgoing .lockstep) ≤ channelMaxMem

/-- What one call sends of these commands. -/
def forwardedSize (commands : List CommandPayload) : Nat :=
  ((commands.take 256).map fun payload => framedSize payload.bytes.length).sum

/-- The memory that a call hands to the channel is that of its commands, with their framing. -/
theorem channelUse_forwarded {commands : List CommandPayload}
    (small : ∀ payload ∈ commands, payload.bytes.length ≤ Codec.maxPayloadBytes) :
    channelUse ((commands.take 256).map fun payload => encode (ClientMessage.input payload)) =
      forwardedSize commands := by
  unfold channelUse forwardedSize
  rw [List.map_map]
  congr 1
  apply List.map_congr_left
  intro payload member
  exact length_encode_input (small payload (List.mem_of_mem_take member))

/-- A client right after its start. -/
def liveReplica : Replica Unit where
  sim := ()
  startup := { phase := .live }

/-- It fits where their framed sizes add up to no more than the channel holds. -/
theorem forwardFits_iff {commands : List CommandPayload}
    (small : ∀ payload ∈ commands, payload.bytes.length ≤ Codec.maxPayloadBytes) :
    ForwardFits commands ↔ forwardedSize commands ≤ channelMaxMem := by
  have sends {σ : Type} (replica : Replica σ) (input : ClientInput)
      (live : replica.startup.isLive = true) (empty : replica.outgoing .lockstep = [])
      (finds : input.inputs = commands) :
      channelUse (((Replica.forwardInputs input).final replica).outgoing .lockstep) =
        forwardedSize commands := by
    have spec := Replica.ensures_forwardInputs_live input live
    have final : ((Replica.forwardInputs input).final replica).outgoing .lockstep =
        replica.outgoing .lockstep ++
          (input.inputs.take 256).map fun payload => encode (ClientMessage.input payload) :=
      spec.final
    rw [final, empty, List.nil_append, finds, channelUse_forwarded small]
  constructor
  · intro fits
    have bound := fits Unit liveReplica { inputs := commands } rfl rfl rfl
    rw [sends liveReplica { inputs := commands } rfl rfl rfl] at bound
    exact bound
  · intro bound σ replica input live empty finds
    rw [sends replica input live empty finds]
    exact bound

/-! ## Which commands are safe -/

/-- A longer command takes no less. -/
theorem framedSize_mono {first second : Nat} (le : first ≤ second) :
    framedSize first ≤ framedSize second := by
  unfold framedSize
  split_ifs <;> omega

/-- No more is sent than the largest messages for as many commands. -/
theorem forwardedSize_le {commands : List CommandPayload} {limit : Nat}
    (small : ∀ payload ∈ commands, payload.bytes.length ≤ limit) :
    forwardedSize commands ≤ min 256 commands.length * framedSize limit := by
  unfold forwardedSize
  have bound := List.sum_le_card_nsmul
    ((commands.take 256).map fun payload => framedSize payload.bytes.length) (framedSize limit) (by
      intro size member
      obtain ⟨payload, among, rfl⟩ := List.mem_map.mp member
      exact framedSize_mono (small payload (List.mem_of_mem_take among)))
  rw [List.length_map, List.length_take, Nat.nsmul_eq_mul] at bound
  exact bound

/-- A command type with commands of any length. -/
def blobSchema : Codec.Schema := .vec 1 .u8

def blob (count : Nat) : blobSchema.Value := List.replicate count (0 : UInt8)

def blobPayload (count : Nat) : Bytes := littleEndian 4 count ++ List.replicate count 0

/-- A vector of bytes is encoded with the four bytes of its length. -/
theorem length_blobPayload (count : Nat) : (blobPayload count).length = 4 + count := by
  unfold blobPayload
  rw [List.length_append, length_littleEndian, List.length_replicate]

/-- That is the code of its type. -/
theorem code_blob (count : Nat) : blobSchema.meaning.code (blob count) = blobPayload count := by
  have flat : (List.replicate count (0 : UInt8)).flatMap
      (fun value : UInt8 => littleEndian 1 value.toNat) = List.replicate count 0 := by
    induction count with
    | zero => rfl
    | succ count ih =>
        rw [List.replicate_succ, List.flatMap_cons, ih]
        rfl
  change littleEndian 4 (List.replicate count (0 : UInt8)).length ++
    (List.replicate count (0 : UInt8)).flatMap (fun value : UInt8 => littleEndian 1 value.toNat) = _
  rw [List.length_replicate, flat]
  rfl

theorem footprint_blob (count : Nat) : blobSchema.meaning.footprint (blob count) = count := by
  change (List.replicate count (0 : UInt8)).length * 1 +
    ((List.replicate count (0 : UInt8)).map fun _ => 0).sum = count
  rw [List.map_replicate, List.sum_replicate, List.length_replicate, Nat.nsmul_eq_mul]
  omega

theorem nesting_blob (count : Nat) : blobSchema.meaning.nesting (blob count) = 1 := by
  change 1 + ((List.replicate count (0 : UInt8)).map fun _ => 0).foldr max 0 = 1
  have flat : (List.replicate count 0).foldr max 0 = 0 := by
    induction count with
    | zero => rfl
    | succ count ih =>
        rw [List.replicate_succ, List.foldr_cons, ih]
        rfl
  rw [List.map_replicate, flat]

/-- Commands are encoded up to the one that fills a payload. -/
theorem encode_blob {count : Nat} (short : count ≤ 65_532) :
    Codec.encode (blob count) = .ok (blobPayload count) := by
  have within : (blobSchema.meaning.code (blob count)).length ≤ Codec.maxPayloadBytes := by
    rw [code_blob, length_blobPayload]
    unfold Codec.maxPayloadBytes
    omega
  have memory : blobSchema.meaning.footprint (blob count) ≤ Codec.maxAllocationBytes := by
    rw [footprint_blob]
    unfold Codec.maxAllocationBytes
    omega
  have depth : blobSchema.meaning.nesting (blob count) ≤ Codec.maxDepth := by
    rw [nesting_blob]
    decide
  have generated := Codec.Generated.self blobSchema
  have read := Codec.readsWhole_code generated rfl within memory depth
  have fits := (blobSchema.accepting rfl).fits (blob count) within
  apply (Codec.encode_iff (Codec.Generated.self blobSchema) (blob count) _).mpr
  refine ⟨fits, (code_blob count).symm, ?_, ?_⟩
  · rw [← code_blob]
    exact within
  · rw [Codec.validate_iff generated, ← code_blob]
    exact read

/-- Many large commands are more than the channel may buffer. -/
theorem overrun {commands : List CommandPayload} {count length : Nat}
    (burst : commands = List.replicate count ⟨blobPayload length⟩)
    (full : 4 + length ≤ Codec.maxPayloadBytes)
    (excess : channelMaxMem < min 256 count * framedSize (4 + length)) : ¬ ForwardFits commands := by
  have small : ∀ payload ∈ commands, payload.bytes.length ≤ Codec.maxPayloadBytes := by
    intro payload member
    rw [burst] at member
    rw [List.eq_of_mem_replicate member, length_blobPayload]
    exact full
  rw [forwardFits_iff small, burst]
  unfold forwardedSize
  rw [List.take_replicate, List.map_replicate, List.sum_replicate, length_blobPayload,
    Nat.nsmul_eq_mul]
  exact Nat.not_le.mpr excess

/-- At its default capacity, a queue can hold commands that a single call hands to an empty channel
beyond the bytes that it may buffer. -/
theorem forward_overruns : ∃ sender : CommandSender 256, validateCapacity 256 = .ok () ∧
    CommandSender.Queued blobSchema.Value sender ∧
    sender.queue.commands = List.replicate 16 ⟨blobPayload 65_532⟩ ∧
    ¬ ForwardFits sender.queue.commands := by
  have room : 16 ≤ 256 := by decide
  obtain ⟨sender, queued, holds, _⟩ :=
    CommandSender.exists_queued_replicate (encode_blob (Nat.le_refl 65_532)) room
  exact ⟨sender, rfl, queued, holds, overrun holds (by decide) (by decide)⟩

/-- A valid capacity holds a command. -/
theorem pos_of_validateCapacity {capacity : Nat} (valid : validateCapacity capacity = .ok ()) :
    0 < capacity := by
  apply Nat.pos_of_ne_zero
  rintro rfl
  cases valid

/-- Whatever is submitted before a call and while it runs, at any capacity, what the call finds
fits the channel if no command is longer than 4092 bytes, and need not at any larger bound. Where
nothing is submitted while the call runs, exactly the capacities up to fifteen are those at which
every queue fits. -/
theorem forward_within_channel {capacity : Nat} (valid : validateCapacity capacity = .ok ()) :
    (∀ limit : Nat, (∀ (C : Type) [Codec.Wire C] (sender : CommandSender capacity)
        (commands : List CommandPayload), CommandSender.Queued C sender →
        CommandSender.Drains C sender commands →
        (∀ payload ∈ commands, payload.bytes.length ≤ limit) → ForwardFits commands) ↔
      limit ≤ 4_092) ∧
    ((∀ (C : Type) [Codec.Wire C] (sender : CommandSender capacity),
        CommandSender.Queued C sender → ForwardFits sender.queue.commands) ↔ capacity ≤ 15) := by
  refine ⟨fun limit => ⟨?_, ?_⟩, ?_, ?_⟩
  · intro fits
    by_contra large
    have short : 4_089 ≤ 65_532 := by decide
    have drains := CommandSender.drains_replicate (encode_blob short)
      (pos_of_validateCapacity valid) 256
      (rfl : ({ control := { status := .live } } : CommandSender capacity).control = _) rfl rfl
    refine overrun rfl (by decide) (by decide) (fits blobSchema.Value _ _ (.new _) drains ?_)
    intro payload member
    rw [List.eq_of_mem_replicate member, length_blobPayload]
    omega
  · intro short C _ sender commands _ _ small
    have within : ∀ payload ∈ commands, payload.bytes.length ≤ 4_092 := fun payload member =>
      Nat.le_trans (small payload member) short
    rw [forwardFits_iff fun payload member => Nat.le_trans (within payload member) (by decide)]
    calc forwardedSize commands
        ≤ min 256 commands.length * framedSize 4_092 := forwardedSize_le within
      _ ≤ 256 * framedSize 4_092 := Nat.mul_le_mul_right _ (Nat.min_le_left _ _)
      _ ≤ channelMaxMem := by decide
  · intro fits
    by_contra large
    obtain ⟨sender, queued, holds, _⟩ :=
      CommandSender.exists_queued_replicate (encode_blob (Nat.le_refl 65_532))
        (Nat.lt_of_not_le large)
    exact overrun holds (by decide) (by decide) (fits blobSchema.Value sender queued)
  · intro few C _ sender queued
    rw [forwardFits_iff fun payload member => queued.small member]
    calc forwardedSize sender.queue.commands
        ≤ min 256 sender.queue.commands.length * framedSize Codec.maxPayloadBytes :=
          forwardedSize_le fun payload member => queued.small member
      _ ≤ 15 * framedSize Codec.maxPayloadBytes := by
          apply Nat.mul_le_mul_right
          exact Nat.le_trans (Nat.min_le_right _ _) (Nat.le_trans sender.queue.bounded few)
      _ ≤ channelMaxMem := by decide

/-- A call finds two commands at a queue with room for one. -/
theorem forward_within_channel_blob : ∃ sender : CommandSender 1,
    CommandSender.Queued blobSchema.Value sender ∧
    CommandSender.Drains blobSchema.Value sender (List.replicate 2 ⟨blobPayload 4_088⟩) ∧
    ForwardFits (List.replicate 2 ⟨blobPayload 4_088⟩) := by
  have short : 4_088 ≤ 65_532 := by decide
  have drains := CommandSender.drains_replicate (encode_blob short) Nat.one_pos 2
    (rfl : ({ control := { status := .live } } : CommandSender 1).control = _) rfl rfl
  have queued : CommandSender.Queued blobSchema.Value
      ({ control := { status := .live } } : CommandSender 1) := .new _
  refine ⟨_, queued, drains, ((forward_within_channel rfl).1 4_092).mpr (Nat.le_refl _)
    blobSchema.Value _ _ queued drains ?_⟩
  intro payload member
  rw [List.eq_of_mem_replicate member, length_blobPayload]

end Synctick
