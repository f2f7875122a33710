import Synctick.Startup.Flow

/-! # The books of a peer

Whatever a client sends to its peer, and whenever the peer is pumped, what the peer charges is
what it sent and was not reported consumed, and no more than the client's receive channel holds.
No subtraction of the two loops underflows, and no credit is given for what was not sent.
-/

namespace Synctick

open Effect CreditWindow

/-- Subtraction of machine integers, where it does not underflow. -/
def checkedSub (first second : Nat) : Option Nat :=
  if second ≤ first then some (first - second) else none

theorem checkedSub_of_le {first second : Nat} (enough : second ≤ first) :
    checkedSub first second = some (first - second) := if_pos enough

namespace StartupPeer

/-- The loop over the chunks, with its subtraction checked. -/
def pumpChunksChecked (save : Bytes) :
    List Capacity → StartupPeer → Option (StartupPeer × List Bytes)
  | answers, peer =>
    if peer.offset < save.length then
      let endOffset := min (peer.offset + maxSaveChunkBytes) save.length
      match answers with
      | [] => some (peer, [])
      | answer :: answers =>
          if answer.available < endOffset - peer.offset then some (peer, [])
          else do
            let message := encode
              (SaveMessage.chunk ((save.drop peer.offset).take (endOffset - peer.offset)))
            let memory := Synctick.receiveMemory message.length
            let room ← checkedSub channelSaveMaxMem peer.receiveMemory
            if memory > room ∨ ¬ answer.admits then some (peer, [])
            else do
              let (peer, sent) ← pumpChunksChecked save answers
                { peer.charge endOffset memory with offset := endOffset }
              some (peer, message :: sent)
    else some ({ peer with phase := .awaitingReadiness }, [])

/-- A pump, with its subtractions checked. -/
def pumpChecked (save : Bytes) (metadata : SaveMetadata) (answers : List Capacity)
    (peer : StartupPeer) : Option (StartupPeer × List Bytes) :=
  if peer.phase ≠ .transferring then some (peer, [])
  else if peer.began then pumpChunksChecked save answers peer
  else
    match answers with
    | [] => some (peer, [])
    | answer :: answers =>
        let message := encode (SaveMessage.begin metadata)
        if ¬ answer.admits then some (peer, [])
        else do
          let (peer, sent) ← pumpChunksChecked save answers
            { peer.charge 0 (Synctick.receiveMemory message.length) with began := true }
          some (peer, message :: sent)

/-- The loop that pops what a report proves consumed, with its subtractions checked. -/
def releaseChecked (received : UInt64) : List (Nat × Nat) → Nat → Option (List (Nat × Nat) × Nat)
  | [], charged => some ([], charged)
  | (endOffset, memory) :: rest, charged =>
      if received = 0 ∨ ¬ endOffset ≤ received.toNat then
        some ((endOffset, memory) :: rest, charged)
      else do
        let left ← checkedSub charged memory
        releaseChecked received rest left

/-- Within the window, no pass of the loop over the chunks underflows. -/
theorem pumpChunksChecked_eq (save : Bytes) (answers : List Capacity) (peer : StartupPeer)
    (within : peer.receiveMemory ≤ channelSaveMaxMem) :
    pumpChunksChecked save answers peer = some (pumpChunks save answers peer) := by
  induction answers generalizing peer with
  | nil =>
      unfold pumpChunksChecked pumpChunks
      by_cases more : peer.offset < save.length
      · rw [if_pos more, if_pos more]
      · rw [if_neg more, if_neg more]
  | cons answer answers ih =>
      unfold pumpChunksChecked pumpChunks
      by_cases more : peer.offset < save.length
      · rw [if_pos more, if_pos more]
        dsimp only
        generalize min (peer.offset + maxSaveChunkBytes) save.length = endOffset
        generalize encode (SaveMessage.chunk
          ((save.drop peer.offset).take (endOffset - peer.offset))) = message
        by_cases narrow : answer.available < endOffset - peer.offset
        · rw [if_pos narrow, if_pos narrow]
        rw [if_neg narrow, if_neg narrow, checkedSub_of_le within, Option.bind_eq_bind,
          Option.bind_some]
        by_cases refused : Synctick.receiveMemory message.length >
            channelSaveMaxMem - peer.receiveMemory ∨ ¬ answer.admits
        · rw [if_pos refused, if_pos refused]
        · rw [if_neg refused, if_neg refused]
          rw [not_or, Nat.not_lt] at refused
          have next : (peer.charge endOffset (Synctick.receiveMemory message.length)).receiveMemory ≤
              channelSaveMaxMem := by
            change peer.receiveMemory + _ ≤ _
            omega
          rw [ih { peer.charge endOffset (Synctick.receiveMemory message.length) with
            offset := endOffset } next, Option.bind_eq_bind, Option.bind_some]
      · rw [if_neg more, if_neg more]

/-- Where the charges add up, no pass of the loop over them underflows. -/
theorem releaseChecked_eq (received : UInt64) (outstanding : List (Nat × Nat)) :
    releaseChecked received outstanding (outstanding.map Prod.snd).sum =
      some (release received outstanding (outstanding.map Prod.snd).sum) := by
  induction outstanding with
  | nil => rfl
  | cons entry rest ih =>
      obtain ⟨endOffset, memory⟩ := entry
      unfold releaseChecked release
      by_cases stops : received = 0 ∨ ¬ endOffset ≤ received.toNat
      · rw [if_pos stops, if_pos stops]
      · rw [if_neg stops, if_neg stops, List.map_cons, List.sum_cons,
          checkedSub_of_le (Nat.le_add_right _ _), Nat.add_sub_cancel_left]
        exact ih

variable {save : Bytes} {metadata : SaveMetadata}

/-- The chunks of the messages up to `count`. -/
def chunks (save : Bytes) (count : Nat) : List Bytes :=
  (List.range count).map fun index =>
    (save.drop (index * maxSaveChunkBytes)).take maxSaveChunkBytes

theorem flatten_chunks {count : Nat} (within : count ≤ chunkCount save) :
    (chunks save count).flatten = save.take (chunkEnd save count) := by
  induction count with
  | zero => rw [chunkEnd_zero, List.take_zero]; rfl
  | succ count ih =>
      unfold chunks at *
      rw [List.range_succ, List.map_append, List.flatten_append, ih (by omega), List.map_singleton,
        List.flatten_singleton, take_chunkEnd_succ within]

/-- The messages that a transfer begins with are the metadata and its first chunks. -/
theorem transferBytes_chunks (count : Nat) :
    transferBytes save metadata 0 (count + 1) = encode (SaveMessage.begin metadata) ::
      (chunks save count).map fun chunk => encode (SaveMessage.chunk chunk) := by
  rw [transferBytes_cons (Nat.succ_pos count)]
  unfold transferBytes chunks
  rw [Nat.zero_add, Nat.succ_sub_one, List.range'_eq_map_range, List.map_map, List.map_map]
  congr 1
  apply List.map_congr_left
  intro index _
  change encode (transferMessage save metadata (1 + index)) = _
  rw [Nat.add_comm]
  rfl

/-- What a call on a peer is made with. -/
inductive PeerCall
  | pump (answers : List Capacity)
  | receive (message : ClientMessage) (now : Nat)

/-- A peer, and the messages that it sent so far. -/
structure Served where
  peer : StartupPeer
  sent : List Bytes := []

namespace Served

/-- A call on the peer. A message that is rejected is as if it never came. -/
def call (save : Bytes) (metadata : SaveMetadata) (served : Served) : PeerCall → Served
  | .pump answers =>
      let (peer, messages) := served.peer.pump save metadata answers
      { peer, sent := served.sent ++ messages }
  | .receive message now =>
      { served with peer := (StartupPeer.receive message metadata now).final served.peer }

def calls (save : Bytes) (metadata : SaveMetadata) (served : Served) : List PeerCall → Served :=
  List.foldl (call save metadata) served

end Served

/-- The books of a peer: its charges, its progress, and what it sent. -/
structure Books (save : Bytes) (metadata : SaveMetadata) (served : Served) : Prop where
  charged : served.peer.receiveMemory = (served.peer.outstanding.map Prod.snd).sum
  within : served.peer.receiveMemory ≤ channelSaveMaxMem
  pumps : ∀ answers, served.peer.pumpChecked save metadata answers =
    some (served.peer.pump save metadata answers)
  releases : ∀ received,
    releaseChecked received served.peer.outstanding served.peer.receiveMemory =
      some (release received served.peer.outstanding served.peer.receiveMemory)
  increasing : (served.peer.outstanding.map Prod.fst).Pairwise (· < ·)
  last : ∀ entry, served.peer.outstanding.getLast? = some entry → entry.1 = served.peer.offset
  received : served.peer.received.toNat ≤ served.peer.offset
  offset : served.peer.offset ≤ save.length
  loaded : served.peer.replayed ≠ 0 → served.peer.received.toNat = save.length
  replayed : served.peer.replayed ≤ metadata.tick
  sent : ∃ chunks : List Bytes, chunks.flatten = save.take served.peer.offset ∧
    served.sent = (if served.peer.began then [encode (SaveMessage.begin metadata)] else []) ++
      chunks.map fun chunk => encode (SaveMessage.chunk chunk)
  whole : served.peer.phase ≠ .transferring → served.peer.offset = save.length

/-- What a run of calls keeps: the counters of the messages sent and released. -/
structure Counted (save : Bytes) (metadata : SaveMetadata) (served : Served) (sent released : Nat) :
    Prop extends Received save metadata served.peer sent released where
  sent : served.sent = transferBytes save metadata 0 sent
  loaded : served.peer.replayed ≠ 0 → served.peer.received = metadata.totalBytes
  replayed : served.peer.replayed ≤ metadata.tick

/-- Before anything is sent, the metadata fits in the window. -/
theorem Counted.room {served : Served} {sent released : Nat}
    (counted : Counted save metadata served sent released) (none : sent = 0) :
    served.peer.receiveMemory + transferSize save metadata 0 ≤ channelSaveMaxMem := by
  have ordered := counted.ordered
  rw [none, Nat.le_zero] at ordered
  have empty : served.peer.receiveMemory = 0 := by
    rw [counted.charged, none, ordered, total_self]
  have small : transferSize save metadata 0 ≤ 264_000 := transferSize_le 0
  rw [empty]
  unfold channelSaveMaxMem
  omega

/-- No pass of a pump underflows. -/
theorem pumpChecked_eq {served : Served} {sent released : Nat}
    (counted : Counted save metadata served sent released) (answers : List Capacity) :
    served.peer.pumpChecked save metadata answers =
      some (served.peer.pump save metadata answers) := by
  unfold pumpChecked pump
  by_cases finished : served.peer.phase ≠ .transferring
  · rw [if_pos finished, if_pos finished]
  rw [if_neg finished, if_neg finished]
  by_cases began : served.peer.began = true
  · rw [if_pos began, if_pos began]
    exact pumpChunksChecked_eq save answers served.peer counted.within
  rw [if_neg began, if_neg began]
  cases answers with
  | nil => rfl
  | cons answer answers =>
      dsimp only
      by_cases refused : ¬ answer.admits
      · rw [if_pos refused, if_pos refused]
      rw [if_neg refused, if_neg refused, pumpChunksChecked_eq, Option.bind_eq_bind,
        Option.bind_some]
      rw [counted.began, decide_eq_true_eq, Nat.not_lt, Nat.le_zero] at began
      exact counted.room began

/-- The charges are in the order in which their chunks end. -/
theorem Counted.increasing {served : Served} {sent released : Nat}
    (counted : Counted save metadata served sent released) :
    (served.peer.outstanding.map Prod.fst).Pairwise (· < ·) := by
  have bound := counted.bound
  have ends : served.peer.outstanding.map Prod.fst =
      (List.range' released (sent - released)).map (chunkEnd save) := by
    rw [counted.outstanding, List.map_map]
    rfl
  rw [ends, List.pairwise_map]
  apply (List.pairwise_lt_range').imp_of_mem
  intro first second _ member before
  rw [List.mem_range'_1] at member
  exact chunkEnd_strict before (by omega)

/-- The last charge is for the chunk sent last. -/
theorem Counted.last {served : Served} {sent released : Nat}
    (counted : Counted save metadata served sent released) (entry : Nat × Nat)
    (final : served.peer.outstanding.getLast? = some entry) : entry.1 = served.peer.offset := by
  rw [counted.outstanding, List.getLast?_map, Option.map_eq_some_iff] at final
  obtain ⟨index, final, rfl⟩ := final
  have same : index = sent - 1 := by
    rw [List.getLast?_range'] at final
    by_cases none : sent - released = 0
    · rw [if_pos none] at final
      cases final
    · rw [if_neg none] at final
      have same := Option.some.inj final
      omega
  rw [counted.offset, same]

theorem Counted.books {served : Served} {sent released : Nat}
    (size : metadata.totalBytes.toNat = save.length)
    (counted : Counted save metadata served sent released) : Books save metadata served := by
  have bound := counted.bound
  have ordered := counted.ordered
  have charged : served.peer.receiveMemory = (served.peer.outstanding.map Prod.snd).sum := by
    rw [counted.charged, counted.outstanding, List.map_map]
    exact (Multiset.sum_coe _).symm
  refine {
    charged
    within := counted.within
    pumps := ?_
    releases := ?_
    increasing := ?_
    last := ?_
    received := ?_
    offset := by rw [counted.offset]; exact chunkEnd_le _
    loaded := fun some => by rw [counted.loaded some, size]
    replayed := counted.replayed
    sent := ?_
    whole := ?_ }
  · exact pumpChecked_eq counted
  · intro received
    rw [charged]
    exact releaseChecked_eq received served.peer.outstanding
  · exact counted.increasing
  · exact counted.last
  · rw [counted.received, counted.offset, chunkEnd_le_iff (by omega) (by omega)]
    omega
  · rw [counted.sent, counted.began, counted.offset]
    cases sent with
    | zero => exact ⟨[], by rw [chunkEnd_zero]; rfl, by rw [transferBytes_self]; rfl⟩
    | succ count =>
        refine ⟨chunks save count, flatten_chunks (by omega), ?_⟩
        rw [transferBytes_chunks, decide_eq_true (Nat.succ_pos count), if_pos rfl,
          List.singleton_append]
  · intro finished
    have all : ¬ sent ≤ chunkCount save := fun more => finished (counted.phase.mpr more)
    have last : sent - 1 = chunkCount save := by omega
    rw [counted.offset, last, chunkEnd_count]

/-- What an accepted report does to the credit of a client. -/
theorem ensures_progress (receivedBytes replayedTick : UInt64) (now : Nat) (peer : StartupPeer) :
    Ensures (receive (.progress receivedBytes replayedTick) metadata now) peer
      (fun _ next => AcceptsProgress metadata peer receivedBytes replayedTick ∧
        next.received = receivedBytes ∧ next.replayed = replayedTick) (fun _ next => next = peer) := by
  unfold receive
  rw [ensures_bind, ensures_get]
  dsimp only
  by_cases accepts : AcceptsProgress metadata peer receivedBytes replayedTick
  · rw [if_pos accepts]
    by_cases changes : receivedBytes > peer.received ∨ replayedTick > peer.replayed
    · rw [if_pos changes]
      exact ⟨accepts, rfl, rfl⟩
    · rw [if_neg changes]
      have ⟨_, more, _, later, _⟩ := accepts
      rw [not_or, gt_iff_lt, gt_iff_lt, UInt64.not_lt, UInt64.not_lt] at changes
      exact ⟨accepts, UInt64.le_antisymm more changes.1, UInt64.le_antisymm later changes.2⟩
  · rw [if_neg accepts]
    rfl

/-- What a message leaves behind: it is rejected, or it moves the credit on. -/
theorem credit_receive (message : ClientMessage) (now : Nat) (peer : StartupPeer) :
    Ensures (receive message metadata now) peer
      (fun _ next => peer.received ≤ next.received ∧
        (peer.replayed ≤ metadata.tick → next.replayed ≤ metadata.tick) ∧
        ((peer.replayed ≠ 0 → peer.received = metadata.totalBytes) →
          next.replayed ≠ 0 → next.received = metadata.totalBytes))
      (fun _ next => next = peer) := by
  cases message with
  | progress receivedBytes replayedTick =>
      apply (ensures_progress receivedBytes replayedTick now peer).mono
      · rintro _ next ⟨⟨_, more, _, _, early, loaded⟩, rfl, rfl⟩
        exact ⟨more, fun _ => early, fun _ some => loaded.resolve_left some⟩
      · exact fun _ _ same => same
  | ready tick hash =>
      apply (receive_ready tick hash now peer).mono
      · rintro _ _ ⟨_, _, _, rfl⟩
        exact ⟨UInt64.le_refl _, id, id⟩
      · exact fun _ _ same => same.1
  | input payload => exact rfl

/-- A call keeps the counters, and takes no credit back. -/
theorem counted_call {served : Served} {sent released : Nat}
    (counted : Counted save metadata served sent released) (call : PeerCall) :
    (∃ sent released, Counted save metadata (served.call save metadata call) sent released) ∧
      served.peer.received ≤ (served.call save metadata call).peer.received := by
  cases call with
  | pump answers =>
      obtain ⟨last, further, received, sends, keeps⟩ := received_pump answers counted.toReceived
      refine ⟨⟨last, released, { received with sent := ?_, loaded := ?_, replayed := ?_ }⟩, ?_⟩
      · change served.sent ++ (pump save metadata answers served.peer).2 = _
        rw [counted.sent, sends, transferBytes_append (Nat.zero_le _) further]
      · change (pump save metadata answers served.peer).1.replayed ≠ 0 →
          (pump save metadata answers served.peer).1.received = _
        rw [keeps.replayed, keeps.received]
        exact counted.loaded
      · change (pump save metadata answers served.peer).1.replayed ≤ _
        rw [keeps.replayed]
        exact counted.replayed
      · change _ ≤ (pump save metadata answers served.peer).1.received
        rw [keeps.received]
        exact UInt64.le_refl _
  | receive message now =>
      change (∃ sent released, Counted save metadata { served with
          peer := (receive message metadata now).final served.peer } sent released) ∧
        served.peer.received ≤ ((receive message metadata now).final served.peer).received
      cases exit : receive message metadata now served.peer with
      | error error next =>
          rw [final_of_error exit, receive_rejected exit]
          exact ⟨⟨sent, released, counted⟩, UInt64.le_refl _⟩
      | ok _ next =>
          rw [final_of_ok exit]
          obtain ⟨more, early, loaded⟩ :=
            ensures_of_ok (credit_receive message now served.peer) exit
          obtain ⟨⟨released, received⟩, _⟩ := received_accepted counted.toReceived exit
          exact ⟨⟨sent, released, { received with
            sent := counted.sent
            loaded := loaded counted.loaded
            replayed := early counted.replayed }⟩, more⟩

theorem counted_calls {served : Served} {sent released : Nat}
    (counted : Counted save metadata served sent released) (calls : List PeerCall) :
    (∃ sent released, Counted save metadata (served.calls save metadata calls) sent released) ∧
      served.peer.received ≤ (served.calls save metadata calls).peer.received := by
  induction calls generalizing served sent released with
  | nil => exact ⟨⟨sent, released, counted⟩, UInt64.le_refl _⟩
  | cons call later ih =>
      obtain ⟨⟨sent, released, counted⟩, more⟩ := counted_call counted call
      obtain ⟨kept, further⟩ := ih counted
      exact ⟨kept, UInt64.le_trans more further⟩

variable (save metadata) in
theorem counted_new (now : Nat) : Counted save metadata { peer := new now } 0 0 where
  toReceived := received_new now
  sent := (transferBytes_self 0).symm
  loaded some := (some rfl).elim
  replayed := UInt64.zero_le

/-- Whatever is called on a new peer, its books are in order. Its credit never decreases, and a
message that it rejects leaves it as it was. -/
theorem books_in_order (size : metadata.totalBytes.toNat = save.length) (now : Nat)
    (calls later : List PeerCall) :
    Books save metadata (Served.calls save metadata { peer := new now } calls) ∧
      (Served.calls save metadata { peer := new now } calls).peer.received ≤
        (Served.calls save metadata { peer := new now } (calls ++ later)).peer.received ∧
      ∀ message now' error next, receive message metadata now'
          (Served.calls save metadata { peer := new now } calls).peer = .error error next →
        next = (Served.calls save metadata { peer := new now } calls).peer := by
  obtain ⟨⟨sent, released, counted⟩, _⟩ :=
    counted_calls (counted_new save metadata now) calls
  refine ⟨counted.books size, ?_, fun _ _ _ _ rejects => receive_rejected rejects⟩
  obtain ⟨_, more⟩ := counted_calls counted later
  unfold Served.calls at *
  rw [List.foldl_append]
  exact more

/-- A client that is sent all of the save, acknowledges it, and is ready. -/
def threeBytesCalls : List PeerCall :=
  [.pump Joining.twoAdmitted, .receive (.progress 7 0) 1, .receive (.progress 3 0) 2,
    .receive (.ready 0 0) 3]

theorem books_in_order_threeBytes :
    Books Joining.threeBytes Joining.threeBytesMetadata (Served.calls Joining.threeBytes
      Joining.threeBytesMetadata { peer := new 0 } threeBytesCalls) ∧
    (Served.calls Joining.threeBytes Joining.threeBytesMetadata { peer := new 0 }
      threeBytesCalls).peer.phase = .ready :=
  ⟨(books_in_order rfl 0 threeBytesCalls []).1, by decide⟩

end StartupPeer

end Synctick
