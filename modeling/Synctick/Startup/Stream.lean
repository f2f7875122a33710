import Synctick.Foundation.CreditWindow
import Synctick.Startup.Peer

/-! # The messages of a save and the window of its peer

The messages of a transfer are numbered: the metadata, then the chunks of the
save. The fields of a peer are functions of two counters, of the messages it sent
and of those it released, and `pump` and `receive` move these counters as a credit
window does whose items have the slice-rounded sizes of the messages.
-/

namespace Synctick

open Bincode Effect CreditWindow

section Stream

variable (save : Bytes) (metadata : SaveMetadata)

/-- The number of chunks of a save. -/
def chunkCount : Nat := (save.length + maxSaveChunkBytes - 1) / maxSaveChunkBytes

/-- The offset in the save at which message `index` ends. -/
def chunkEnd (index : Nat) : Nat := min (index * maxSaveChunkBytes) save.length

/-- Message `index` of a transfer. -/
def transferMessage : Nat → SaveMessage
  | 0 => .begin metadata
  | index + 1 => .chunk ((save.drop (index * maxSaveChunkBytes)).take maxSaveChunkBytes)

/-- Its size in the receive channel of the client. -/
def transferSize (index : Nat) : Nat := receiveMemory (encode (transferMessage save metadata index)).length

/-- The encodings of the messages from `first` up to `last`. -/
def transferBytes (first last : Nat) : List Bytes :=
  (List.range' first (last - first)).map fun index => encode (transferMessage save metadata index)

end Stream

variable {save : Bytes} {metadata : SaveMetadata}

@[simp] theorem chunkEnd_zero : chunkEnd save 0 = 0 := by simp [chunkEnd]

theorem chunkEnd_le (index : Nat) : chunkEnd save index ≤ save.length := Nat.min_le_right _ _

/-- A chunk that is there begins where those before it end. -/
theorem chunkEnd_of_lt {index : Nat} (before : index < chunkCount save) :
    chunkEnd save index = index * maxSaveChunkBytes ∧
      index * maxSaveChunkBytes < save.length := by
  unfold chunkCount maxSaveChunkBytes at *
  unfold chunkEnd maxSaveChunkBytes
  omega

/-- The last chunk ends with the save. -/
theorem chunkEnd_count : chunkEnd save (chunkCount save) = save.length := by
  unfold chunkCount chunkEnd maxSaveChunkBytes
  omega

/-- Bytes are left exactly where chunks are. -/
theorem chunkEnd_lt_iff {index : Nat} (within : index ≤ chunkCount save) :
    chunkEnd save index < save.length ↔ index < chunkCount save := by
  unfold chunkCount chunkEnd maxSaveChunkBytes at *
  omega

/-- No chunk is empty. -/
theorem chunkEnd_strict {first last : Nat} (ordered : first < last)
    (within : last ≤ chunkCount save) : chunkEnd save first < chunkEnd save last := by
  unfold chunkCount chunkEnd maxSaveChunkBytes at *
  omega

/-- Chunks end in their order. -/
theorem chunkEnd_le_iff {first last : Nat} (left : first ≤ chunkCount save)
    (_ : last ≤ chunkCount save) :
    chunkEnd save first ≤ chunkEnd save last ↔ first ≤ last := by
  unfold chunkCount chunkEnd maxSaveChunkBytes at *
  omega

/-- Where the chunk after `index` ends, as the peer computes it. -/
theorem chunkEnd_succ (index : Nat) :
    min (chunkEnd save index + maxSaveChunkBytes) save.length = chunkEnd save (index + 1) := by
  unfold chunkEnd maxSaveChunkBytes
  omega

/-- No chunk is longer than allowed. -/
theorem chunkEnd_step (index : Nat) :
    chunkEnd save (index + 1) - chunkEnd save index ≤ maxSaveChunkBytes := by
  unfold chunkEnd maxSaveChunkBytes
  omega

/-- The chunk after `index`, as the peer cuts it. -/
theorem chunk_succ {index : Nat} (before : index < chunkCount save) :
    (save.drop (chunkEnd save index)).take (chunkEnd save (index + 1) - chunkEnd save index) =
      (save.drop (index * maxSaveChunkBytes)).take maxSaveChunkBytes := by
  obtain ⟨start, inside⟩ := chunkEnd_of_lt before
  rw [start, List.take_eq_take_iff, List.length_drop]
  unfold chunkEnd
  rw [Nat.succ_mul]
  generalize maxSaveChunkBytes = size at *
  omega

/-- The bytes of a chunk reach from one end to the next. -/
theorem length_chunk {index : Nat} (before : index < chunkCount save) :
    ((save.drop (index * maxSaveChunkBytes)).take maxSaveChunkBytes).length =
      chunkEnd save (index + 1) - chunkEnd save index := by
  obtain ⟨start, inside⟩ := chunkEnd_of_lt before
  rw [List.length_take, List.length_drop, start]
  unfold chunkEnd
  rw [Nat.succ_mul]
  omega

/-- The prefix of a save up to a chunk, and the chunk. -/
theorem take_chunkEnd_succ {index : Nat} (before : index < chunkCount save) :
    save.take (chunkEnd save index) ++ (save.drop (index * maxSaveChunkBytes)).take maxSaveChunkBytes =
      save.take (chunkEnd save (index + 1)) := by
  obtain ⟨start, inside⟩ := chunkEnd_of_lt before
  rw [start, ← List.take_add]
  unfold chunkEnd
  rw [Nat.succ_mul]
  by_cases full : index * maxSaveChunkBytes + maxSaveChunkBytes ≤ save.length
  · rw [Nat.min_eq_left full]
  · rw [Nat.min_eq_right (by omega), List.take_of_length_le (by omega), List.take_length]

/-- Nothing lies between a message and itself. -/
theorem transferBytes_self (count : Nat) : transferBytes save metadata count count = [] := by
  rw [transferBytes, Nat.sub_self, List.range'_zero, List.map_nil]

/-- A range of messages begins with its first one. -/
theorem transferBytes_cons {first last : Nat} (before : first < last) :
    transferBytes save metadata first last =
      encode (transferMessage save metadata first) :: transferBytes save metadata (first + 1) last := by
  have count : last - first = (last - (first + 1)) + 1 := by omega
  rw [transferBytes, count, List.range'_succ, List.map_cons]
  rfl

/-- Neighbouring ranges are one. -/
theorem transferBytes_append {first middle last : Nat} (left : first ≤ middle)
    (right : middle ≤ last) :
    transferBytes save metadata first middle ++ transferBytes save metadata middle last =
      transferBytes save metadata first last := by
  have count : last - first = (middle - first) + (last - middle) := by omega
  have start : middle = first + 1 * (middle - first) := by omega
  rw [transferBytes, transferBytes, transferBytes, ← List.map_append, count]
  congr 1
  conv_lhs => rw [start]
  rw [← List.range'_append]
  congr 2
  · omega
  · omega

/-- The memory that a range of messages takes is the sum of their sizes. -/
theorem sum_receiveMemory (first last : Nat) :
    ((transferBytes save metadata first last).map fun message =>
      receiveMemory message.length).sum = total (transferSize save metadata) first last := by
  rw [transferBytes, List.map_map]
  exact (Multiset.sum_coe _).symm

/-- No message is larger than the window. -/
theorem transferSize_le (index : Nat) : transferSize save metadata index ≤ 264_000 := by
  have small : (encode (transferMessage save metadata index)).length ≤ maxSaveChunkBytes + 1000 := by
    cases index with
    | zero =>
        have first := length_encodeVarint_le 0
        have second := length_encodeVarint_le metadata.totalBytes.toNat
        have third := length_encodeVarint_le metadata.tick.toNat
        have fourth := length_encodeVarint_le metadata.hash.toNat
        change (encodeVarint 0 ++ (encodeVarint metadata.totalBytes.toNat ++
          (encodeVarint metadata.tick.toNat ++ encodeVarint metadata.hash.toNat))).length ≤ _
        simp only [List.length_append]
        omega
    | succ index =>
        have first := length_encodeVarint_le 1
        have second := length_encodeVarint_le
          ((save.drop (index * maxSaveChunkBytes)).take maxSaveChunkBytes).length
        have cut := List.length_take_le maxSaveChunkBytes (save.drop (index * maxSaveChunkBytes))
        change (encodeVarint 1 ++ (encodeVarint _ ++ _)).length ≤ _
        simp only [List.length_append]
        omega
  unfold transferSize receiveMemory renetSliceBytes
  unfold maxSaveChunkBytes at small
  omega

namespace StartupPeer

/-- The fields of a peer but its phase, from the messages it sent and released. -/
structure Charged (save : Bytes) (metadata : SaveMetadata) (peer : StartupPeer)
    (sent released : Nat) : Prop where
  began : peer.began = decide (0 < sent)
  offset : peer.offset = chunkEnd save (sent - 1)
  bound : sent ≤ chunkCount save + 1
  ordered : released ≤ sent
  outstanding : peer.outstanding = (List.range' released (sent - released)).map fun index =>
    (chunkEnd save index, transferSize save metadata index)
  charged : peer.receiveMemory = total (transferSize save metadata) released sent
  within : peer.receiveMemory ≤ channelSaveMaxMem

/-- The fields of a peer between its calls. -/
structure Tracks (save : Bytes) (metadata : SaveMetadata) (peer : StartupPeer)
    (sent released : Nat) : Prop extends Charged save metadata peer sent released where
  phase : peer.phase = .transferring ↔ sent ≤ chunkCount save

/-- A new peer sent nothing. -/
theorem tracks_new (now : Nat) : Tracks save metadata (new now) 0 0 where
  began := rfl
  offset := by simp [new]
  bound := Nat.zero_le _
  ordered := Nat.le_refl 0
  outstanding := rfl
  charged := by rw [total_self]; rfl
  within := Nat.zero_le _
  phase := by simp [new]

/-- A peer tells how many messages it sent. -/
theorem Tracks.unique {peer : StartupPeer} {sent sent' released released' : Nat}
    (tracks : Tracks save metadata peer sent released)
    (tracks' : Tracks save metadata peer sent' released') : sent = sent' := by
  have began := decide_eq_decide.mp (tracks.began.symm.trans tracks'.began)
  have offset := tracks.offset.symm.trans tracks'.offset
  have bound := tracks.bound
  have bound' := tracks'.bound
  rcases Nat.lt_trichotomy (sent - 1) (sent' - 1) with before | same | after
  · have strict : chunkEnd save (sent - 1) < chunkEnd save (sent' - 1) :=
      chunkEnd_strict before (by omega)
    omega
  · omega
  · have strict : chunkEnd save (sent' - 1) < chunkEnd save (sent - 1) :=
      chunkEnd_strict after (by omega)
    omega

/-- What a pump leaves alone. -/
structure Keeps (peer next : StartupPeer) : Prop where
  received : next.received = peer.received
  replayed : next.replayed = peer.replayed
  lastProgress : next.lastProgress = peer.lastProgress
  unready : peer.phase ≠ .ready → next.phase ≠ .ready

/-- The peer after it sent message `index`. -/
def sends (save : Bytes) (metadata : SaveMetadata) (peer : StartupPeer) (index : Nat) :
    StartupPeer :=
  { peer.charge (chunkEnd save index) (transferSize save metadata index) with
    began := true, offset := chunkEnd save index }

/-- Sending a message leaves what was reported. -/
theorem keeps_sends (peer : StartupPeer) (index : Nat) :
    Keeps peer (peer.sends save metadata index) := ⟨rfl, rfl, rfl, id⟩

/-- What two sends leave alone, both leave alone. -/
theorem Keeps.trans {peer middle next : StartupPeer} (first : Keeps peer middle)
    (second : Keeps middle next) : Keeps peer next where
  received := second.received.trans first.received
  replayed := second.replayed.trans first.replayed
  lastProgress := second.lastProgress.trans first.lastProgress
  unready := second.unready ∘ first.unready

/-- A message for which there is room is charged, and stays within the budget. -/
theorem charged_sends {peer : StartupPeer} {sent released : Nat}
    (charged : Charged save metadata peer sent released) (more : sent ≤ chunkCount save)
    (room : transferSize save metadata sent ≤ channelSaveMaxMem - peer.receiveMemory) :
    Charged save metadata (peer.sends save metadata sent) (sent + 1) released where
  began := by simp [sends]
  offset := rfl
  bound := Nat.succ_le_succ more
  ordered := Nat.le_succ_of_le charged.ordered
  outstanding := by
    have ordered := charged.ordered
    have count : sent + 1 - released = (sent - released) + 1 := by omega
    have last : released + (sent - released) = sent := by omega
    change peer.outstanding ++ [_] = _
    rw [charged.outstanding, count, List.range'_concat, List.map_append, Nat.one_mul, last]
    rfl
  charged := by
    change peer.receiveMemory + _ = _
    rw [charged.charged, total_succ charged.ordered]
  within := by
    have within := charged.within
    change peer.receiveMemory + _ ≤ _
    omega

/-- Behind the last chunk the peer awaits that its client is ready. -/
theorem pumpChunks_done {peer : StartupPeer} (answers : List Capacity)
    (done : peer.offset = save.length) :
    pumpChunks save answers peer = ({ peer with phase := .awaitingReadiness }, []) := by
  have outside : ¬ peer.offset < save.length := by omega
  cases answers with
  | nil => rw [pumpChunks, if_neg outside]
  | cons => rw [pumpChunks, if_neg outside]

/-- A channel that answers no more ends the pump. -/
theorem pumpChunks_nil {peer : StartupPeer} (more : peer.offset < save.length) :
    pumpChunks save [] peer = (peer, []) := by
  rw [pumpChunks, if_pos more]

variable (metadata) in
/-- One pass of the loop over the chunks. -/
theorem pumpChunks_cons (answer : Capacity) (answers : List Capacity) {peer : StartupPeer}
    {sent : Nat} (began : peer.began = true) (offset : peer.offset = chunkEnd save sent)
    (more : sent < chunkCount save) :
    pumpChunks save (answer :: answers) peer =
      if answer.available < chunkEnd save (sent + 1) - chunkEnd save sent then (peer, [])
      else if transferSize save metadata (sent + 1) > channelSaveMaxMem - peer.receiveMemory ∨
          ¬ answer.admits then (peer, [])
      else
        ((pumpChunks save answers (peer.sends save metadata (sent + 1))).1,
          encode (transferMessage save metadata (sent + 1)) ::
            (pumpChunks save answers (peer.sends save metadata (sent + 1))).2) := by
  have inside : peer.offset < save.length := by
    rw [offset]
    exact (chunkEnd_lt_iff (Nat.le_of_lt more)).mpr more
  rw [pumpChunks, if_pos inside, offset]
  dsimp only
  rw [chunkEnd_succ, chunk_succ more]
  have next : { peer.charge (chunkEnd save (sent + 1)) (transferSize save metadata (sent + 1)) with
      offset := chunkEnd save (sent + 1) } = peer.sends save metadata (sent + 1) := by
    cases peer
    cases began
    rfl
  rw [← next]
  rfl

/-- What the loop over the chunks does to a peer that began. -/
theorem pumpChunks_spec (answers : List Capacity) (peer : StartupPeer) (sent released : Nat)
    (charged : Charged save metadata peer (sent + 1) released)
    (transferring : peer.phase = .transferring) :
    ∃ last, sent ≤ last ∧ Tracks save metadata (pumpChunks save answers peer).1 (last + 1) released ∧
      (pumpChunks save answers peer).2 = transferBytes save metadata (sent + 1) (last + 1) ∧
      Keeps peer (pumpChunks save answers peer).1 := by
  induction answers generalizing peer sent with
  | nil =>
      have offset : peer.offset = chunkEnd save sent := charged.offset
      have bound := charged.bound
      by_cases more : sent < chunkCount save
      · have inside : peer.offset < save.length := by
          rw [offset]
          exact (chunkEnd_lt_iff (Nat.le_of_lt more)).mpr more
        rw [pumpChunks_nil inside]
        exact still charged transferring more
      · have all : sent = chunkCount save := by omega
        rw [pumpChunks_done _ (by rw [offset, all, chunkEnd_count])]
        exact done charged all
  | cons answer answers ih =>
      have offset : peer.offset = chunkEnd save sent := charged.offset
      have bound := charged.bound
      by_cases more : sent < chunkCount save
      · have began : peer.began = true := charged.began.trans (decide_eq_true (Nat.succ_pos sent))
        rw [pumpChunks_cons metadata answer answers began offset more]
        by_cases narrow : answer.available < chunkEnd save (sent + 1) - chunkEnd save sent
        · rw [if_pos narrow]
          exact still charged transferring more
        rw [if_neg narrow]
        by_cases refused : transferSize save metadata (sent + 1) >
            channelSaveMaxMem - peer.receiveMemory ∨ ¬ answer.admits
        · rw [if_pos refused]
          exact still charged transferring more
        rw [if_neg refused]
        rw [not_or, Nat.not_lt] at refused
        have next := charged_sends charged (by omega) refused.1
        obtain ⟨last, further, tracks, rest, keeps⟩ := ih _ (sent + 1) next transferring
        refine ⟨last, by omega, tracks, ?_, (keeps_sends peer (sent + 1)).trans keeps⟩
        rw [transferBytes_cons (by omega), rest]
      · have all : sent = chunkCount save := by omega
        rw [pumpChunks_done _ (by rw [offset, all, chunkEnd_count])]
        exact done charged all
where
  still {peer : StartupPeer} {sent released : Nat}
      (charged : Charged save metadata peer (sent + 1) released)
      (transferring : peer.phase = .transferring) (more : sent < chunkCount save) :
      ∃ last, sent ≤ last ∧ Tracks save metadata peer (last + 1) released ∧
        [] = transferBytes save metadata (sent + 1) (last + 1) ∧ Keeps peer peer := by
    refine ⟨sent, Nat.le_refl _, ⟨charged, ?_⟩, (transferBytes_self _).symm, rfl, rfl, rfl, id⟩
    rw [transferring]
    exact ⟨fun _ => more, fun _ => rfl⟩
  done {peer : StartupPeer} {sent released : Nat}
      (charged : Charged save metadata peer (sent + 1) released) (all : sent = chunkCount save) :
      ∃ last, sent ≤ last ∧
        Tracks save metadata { peer with phase := .awaitingReadiness } (last + 1) released ∧
        [] = transferBytes save metadata (sent + 1) (last + 1) ∧
        Keeps peer { peer with phase := .awaitingReadiness } := by
    refine ⟨sent, Nat.le_refl _, ⟨{ charged with }, ?_⟩, (transferBytes_self _).symm, rfl, rfl, rfl,
      fun _ => TransferPhase.noConfusion⟩
    constructor
    · intro impossible
      cases impossible
    · intro impossible
      omega

/-- A peer that is not transferring sends nothing. -/
theorem pump_of_phase {peer : StartupPeer} (answers : List Capacity)
    (finished : peer.phase ≠ .transferring) : pump save metadata answers peer = (peer, []) := by
  unfold pump
  rw [if_pos finished]

/-- Behind the `Begin` only chunks are sent. -/
theorem pump_of_began {peer : StartupPeer} (answers : List Capacity)
    (transferring : peer.phase = .transferring) (began : peer.began = true) :
    pump save metadata answers peer = pumpChunks save answers peer := by
  unfold pump
  rw [if_neg (not_not.mpr transferring), if_pos began]

/-- The announcement of a transfer, and the chunks that follow it at once. -/
theorem pump_cons (answer : Capacity) (answers : List Capacity) {peer : StartupPeer}
    (transferring : peer.phase = .transferring) (fresh : ¬ peer.began = true)
    (start : peer.offset = 0) :
    pump save metadata (answer :: answers) peer =
      if ¬ answer.admits then (peer, [])
      else
        ((pumpChunks save answers (peer.sends save metadata 0)).1,
          encode (transferMessage save metadata 0) ::
            (pumpChunks save answers (peer.sends save metadata 0)).2) := by
  have first : { peer.charge 0 (transferSize save metadata 0) with began := true } =
      peer.sends save metadata 0 := by
    rw [sends, chunkEnd_zero]
    generalize transferSize save metadata 0 = memory
    cases peer
    cases start
    rfl
  rw [pump, if_neg (not_not.mpr transferring), if_neg fresh, ← first]
  rfl

/-- Without an answer of the channel not even the `Begin` is sent. -/
theorem pump_nil {peer : StartupPeer} (fresh : ¬ peer.began = true) :
    pump save metadata [] peer = (peer, []) := by
  by_cases transferring : peer.phase = .transferring
  · rw [pump, if_neg (not_not.mpr transferring), if_neg fresh]
  · exact pump_of_phase [] transferring

/-- A pump sends the next messages of the transfer, as far as the window allows. -/
theorem pump_spec (answers : List Capacity) {peer : StartupPeer} {sent released : Nat}
    (tracks : Tracks save metadata peer sent released) :
    ∃ last, sent ≤ last ∧ Tracks save metadata (pump save metadata answers peer).1 last released ∧
      (pump save metadata answers peer).2 = transferBytes save metadata sent last ∧
      Keeps peer (pump save metadata answers peer).1 := by
  have idle : ∃ last, sent ≤ last ∧ Tracks save metadata peer last released ∧
      [] = transferBytes save metadata sent last ∧ Keeps peer peer :=
    ⟨sent, Nat.le_refl _, tracks, (transferBytes_self _).symm, rfl, rfl, rfl, id⟩
  by_cases finished : peer.phase ≠ .transferring
  · rw [pump_of_phase answers finished]
    exact idle
  have transferring : peer.phase = .transferring := not_not.mp finished
  by_cases began : peer.began = true
  · rw [pump_of_began answers transferring began]
    rw [tracks.began, decide_eq_true_eq] at began
    obtain ⟨count, rfl⟩ : ∃ count, sent = count + 1 := ⟨sent - 1, by omega⟩
    obtain ⟨last, further, rest⟩ :=
      pumpChunks_spec answers peer count released tracks.toCharged transferring
    exact ⟨last + 1, by omega, rest⟩
  have none : sent = 0 := by
    rw [tracks.began, decide_eq_true_eq] at began
    omega
  subst none
  cases answers with
  | nil =>
      rw [pump_nil began]
      exact idle
  | cons answer answers =>
      rw [pump_cons answer answers transferring began (tracks.offset.trans chunkEnd_zero)]
      by_cases refused : ¬ answer.admits
      · rw [if_pos refused]
        exact idle
      rw [if_neg refused]
      have empty : peer.receiveMemory = 0 := by
        have ordered := tracks.ordered
        rw [tracks.charged, Nat.le_zero.mp ordered, total_self]
      have room : transferSize save metadata 0 ≤ channelSaveMaxMem - peer.receiveMemory := by
        have small : transferSize save metadata 0 ≤ 264_000 := transferSize_le 0
        rw [empty]
        unfold channelSaveMaxMem
        omega
      obtain ⟨last, further, tracked, rest, keeps⟩ := pumpChunks_spec answers
        (peer.sends save metadata 0) 0 released
        (charged_sends tracks.toCharged (Nat.zero_le _) room) transferring
      refine ⟨last + 1, Nat.zero_le _, tracked, ?_, (keeps_sends peer 0).trans keeps⟩
      rw [transferBytes_cons (Nat.succ_pos _), rest]

/-- A pump sends something when the next message fits and the transport takes it. -/
theorem pump_sends {answer : Capacity} (answers : List Capacity) {peer : StartupPeer}
    {sent released : Nat} (tracks : Tracks save metadata peer sent released)
    (more : sent ≤ chunkCount save)
    (fits : peer.receiveMemory + transferSize save metadata sent ≤ channelSaveMaxMem)
    (wide : maxSaveChunkBytes ≤ answer.available) (admits : answer.admits = true) :
    (pump save metadata (answer :: answers) peer).2 ≠ [] := by
  have transferring := tracks.phase.mpr more
  by_cases began : peer.began = true
  · rw [pump_of_began _ transferring began]
    have positive := began
    rw [tracks.began, decide_eq_true_eq] at positive
    obtain ⟨count, rfl⟩ : ∃ count, sent = count + 1 := ⟨sent - 1, by omega⟩
    have offset : peer.offset = chunkEnd save count := tracks.offset
    rw [pumpChunks_cons metadata answer answers began offset more]
    rw [if_neg (Nat.not_lt.mpr (Nat.le_trans (chunkEnd_step count) wide)), if_neg]
    · exact List.cons_ne_nil _ _
    · rw [not_or, Nat.not_lt, not_not]
      exact ⟨Nat.le_sub_of_add_le' fits, admits⟩
  · have none : sent = 0 := by
      rw [tracks.began, decide_eq_true_eq] at began
      omega
    subst none
    rw [pump_cons answer answers transferring began (tracks.offset.trans chunkEnd_zero),
      if_neg (not_not.mpr admits)]
    exact List.cons_ne_nil _ _

variable (metadata) in
/-- A report releases exactly the messages up to the byte that it names. -/
theorem release_range {received : UInt64} {count sent : Nat} (released : Nat)
    (reported : received.toNat = chunkEnd save (count - 1)) (some : 2 ≤ count)
    (ordered : released ≤ count) (within : count ≤ sent) (bound : sent ≤ chunkCount save + 1) :
    release received ((List.range' released (sent - released)).map fun index =>
        (chunkEnd save index, transferSize save metadata index))
        (total (transferSize save metadata) released sent) =
      ((List.range' count (sent - count)).map fun index =>
        (chunkEnd save index, transferSize save metadata index),
        total (transferSize save metadata) count sent) := by
  have positive : received ≠ 0 := by
    intro zero
    have above : chunkEnd save 0 < chunkEnd save (count - 1) :=
      chunkEnd_strict (by omega) (by omega)
    rw [← reported, zero] at above
    exact Nat.not_lt_zero _ above
  induction gap : count - released generalizing released with
  | zero =>
      have same : released = count := by omega
      subst same
      cases left : sent - released with
      | zero => rfl
      | succ left =>
          have beyond : ¬ chunkEnd save released ≤ received.toNat := by
            rw [reported, chunkEnd_le_iff (by omega) (by omega)]
            omega
          rw [List.range'_succ, List.map_cons, release, if_pos (Or.inr beyond)]
  | succ gap ih =>
      have left : sent - released = (sent - (released + 1)) + 1 := by omega
      have consumed : ¬ (received = 0 ∨ ¬ chunkEnd save released ≤ received.toNat) := by
        rw [not_or, not_not, reported, chunkEnd_le_iff (by omega) (by omega)]
        exact ⟨positive, by omega⟩
      have split : total (transferSize save metadata) released (released + 1) +
          total (transferSize save metadata) (released + 1) sent =
            total (transferSize save metadata) released sent :=
        total_split (Nat.le_succ released) (by omega)
      rw [total_succ (Nat.le_refl _), total_self, Nat.zero_add] at split
      rw [left, List.range'_succ, List.map_cons, release, if_neg consumed, ← split,
        Nat.add_sub_cancel_left]
      exact ih (released + 1) (by omega) (by omega)

/-- What the counters say about the reports that arrived. -/
structure Received (save : Bytes) (metadata : SaveMetadata) (peer : StartupPeer)
    (sent released : Nat) : Prop extends Tracks save metadata peer sent released where
  received : peer.received.toNat = chunkEnd save (released - 1)
  announced : released ≠ 1

/-- A new peer received nothing. -/
theorem received_new (now : Nat) : Received save metadata (new now) 0 0 where
  toTracks := tracks_new now
  received := chunkEnd_zero.symm
  announced := Nat.zero_ne_one

/-- A pump sends the next messages of the transfer, and changes nothing that was received. -/
theorem received_pump (answers : List Capacity) {peer : StartupPeer} {sent released : Nat}
    (received : Received save metadata peer sent released) :
    ∃ last, sent ≤ last ∧ Received save metadata (pump save metadata answers peer).1 last released ∧
      (pump save metadata answers peer).2 = transferBytes save metadata sent last ∧
      Keeps peer (pump save metadata answers peer).1 := by
  obtain ⟨last, further, tracks, sends, keeps⟩ := pump_spec answers received.toTracks
  refine ⟨last, further, ⟨tracks, ?_, received.announced⟩, sends, keeps⟩
  rw [keeps.received, received.received]

/-- An accepted report releases what it proves consumed. -/
theorem receive_accepted (now : Nat) {peer : StartupPeer} {sent released count : Nat}
    {receivedBytes replayedTick : UInt64} (received : Received save metadata peer sent released)
    (reported : receivedBytes.toNat = chunkEnd save (count - 1)) (some : 2 ≤ count)
    (ordered : released ≤ count) (within : count ≤ sent)
    (accepts : AcceptsProgress metadata peer receivedBytes replayedTick) :
    ∃ next, receive (.progress receivedBytes replayedTick) metadata now peer = .ok () next ∧
      Received save metadata next sent count ∧ next.replayed = replayedTick ∧
      next.phase = peer.phase := by
  have bound := received.bound
  by_cases changes : receivedBytes > peer.received ∨ replayedTick > peer.replayed
  · have left := release_range metadata released reported some ordered within bound
    rw [← received.outstanding, ← received.charged] at left
    refine ⟨{ peer with
      lastProgress := now
      received := receivedBytes
      replayed := replayedTick
      outstanding := (release receivedBytes peer.outstanding peer.receiveMemory).1
      receiveMemory := (release receivedBytes peer.outstanding peer.receiveMemory).2 }, ?_, ?_, rfl, rfl⟩
    · apply eq_ok_of_ensures
      simp only [receive, ensures_bind, ensures_get]
      rw [if_pos accepts, if_pos changes]
      exact ⟨trivial, rfl⟩
    · rw [left]
      have less : total (transferSize save metadata) count sent ≤
          total (transferSize save metadata) released sent := total_le ordered
      have capped := received.within
      rw [received.charged] at capped
      exact {
        began := received.began
        offset := received.offset
        bound := bound
        ordered := within
        outstanding := rfl
        charged := rfl
        within := Nat.le_trans less capped
        phase := received.phase
        received := reported
        announced := by omega }
  · have same : receivedBytes = peer.received ∧ replayedTick = peer.replayed := by
      obtain ⟨_, more, _, later, _⟩ := accepts
      rw [not_or, gt_iff_lt, gt_iff_lt, UInt64.not_lt, UInt64.not_lt] at changes
      exact ⟨UInt64.le_antisymm changes.1 more, UInt64.le_antisymm changes.2 later⟩
    have unmoved : count = released := by
      have again := received.received
      rw [← same.1, reported] at again
      by_contra moved
      have strict : chunkEnd save (released - 1) < chunkEnd save (count - 1) := by
        apply chunkEnd_strict
        · have announced := received.announced
          omega
        · omega
      omega
    subst unmoved
    refine ⟨peer, ?_, received, same.2.symm, rfl⟩
    apply eq_ok_of_ensures
    simp only [receive, ensures_bind, ensures_get]
    rw [if_pos accepts, if_neg changes]
    exact ⟨trivial, rfl⟩

/-- A report of consumed messages that does not fall behind is acceptable. -/
theorem accepts_report {peer : StartupPeer} {sent released count : Nat}
    {receivedBytes replayedTick : UInt64} (received : Received save metadata peer sent released)
    (reported : receivedBytes.toNat = chunkEnd save (count - 1)) (some : 2 ≤ count)
    (ordered : released ≤ count) (within : count ≤ sent) (unready : peer.phase ≠ .ready)
    (later : peer.replayed ≤ replayedTick) (early : replayedTick ≤ metadata.tick)
    (loaded : replayedTick = 0 ∨ receivedBytes = metadata.totalBytes) :
    AcceptsProgress metadata peer receivedBytes replayedTick := by
  have bound := received.bound
  refine ⟨unready, ?_, ?_, later, early, loaded⟩
  · rw [UInt64.le_iff_toNat_le, received.received, reported, chunkEnd_le_iff (by omega) (by omega)]
    omega
  · by_cases moved : released = count
    · left
      apply UInt64.toNat_inj.mp
      rw [reported, received.received, moved]
    · right
      refine ⟨(chunkEnd save (count - 1), transferSize save metadata (count - 1)), ?_, reported.symm⟩
      rw [received.outstanding, List.mem_map]
      refine ⟨count - 1, ?_, rfl⟩
      rw [List.mem_range'_1]
      omega

/-- A rejected message leaves the peer as it was. -/
theorem receive_rejected {message : ClientMessage} {now : Nat} {peer next : StartupPeer}
    {error : SessionError} (rejects : receive message metadata now peer = .error error next) :
    next = peer := by
  have spec : Ensures (receive message metadata now) peer (fun _ _ => True)
      (fun _ next => next = peer) := by
    unfold receive
    rw [ensures_bind, ensures_get]
    cases message with
    | progress receivedBytes replayedTick =>
        dsimp only
        by_cases accepts : AcceptsProgress metadata peer receivedBytes replayedTick
        · rw [if_pos accepts]
          by_cases changes : receivedBytes > peer.received ∨ replayedTick > peer.replayed
          · rw [if_pos changes]
            trivial
          · rw [if_neg changes]
            trivial
        · rw [if_neg accepts]
          rfl
    | ready tick hash =>
        dsimp only
        by_cases matching : peer.phase = .awaitingReadiness ∧ tick = metadata.tick ∧
            hash = metadata.hash
        · rw [if_pos matching]
          trivial
        · rw [if_neg matching]
          rfl
    | input payload => rfl
  have same := ensures_of_error spec rejects
  exact same

/-- A progress report that is received without an error is one that is accepted. -/
theorem accepts_of_receive {receivedBytes replayedTick : UInt64} {now : Nat}
    {peer next : StartupPeer}
    (accepted : receive (.progress receivedBytes replayedTick) metadata now peer = .ok () next) :
    AcceptsProgress metadata peer receivedBytes replayedTick := by
  by_contra refused
  have spec : Ensures (receive (.progress receivedBytes replayedTick) metadata now) peer
      (fun _ _ => False) (fun _ _ => True) := by
    unfold receive
    rw [ensures_bind, ensures_get]
    dsimp only
    rw [if_neg refused]
    trivial
  exact ensures_of_ok spec accepted

/-- Readiness is accepted once, when it was awaited. -/
theorem receive_ready (tick hash : UInt64) (now : Nat) (peer : StartupPeer) :
    Ensures (receive (.ready tick hash) metadata now) peer
      (fun _ next => peer.phase = .awaitingReadiness ∧ tick = metadata.tick ∧
        hash = metadata.hash ∧ next = { peer with phase := .ready, lastProgress := now })
      (fun _ next => next = peer ∧
        ¬ (peer.phase = .awaitingReadiness ∧ tick = metadata.tick ∧ hash = metadata.hash)) := by
  unfold receive
  rw [ensures_bind, ensures_get]
  dsimp only
  by_cases matching : peer.phase = .awaitingReadiness ∧ tick = metadata.tick ∧ hash = metadata.hash
  · rw [if_pos matching]
    exact ⟨matching.1, matching.2.1, matching.2.2, rfl⟩
  · rw [if_neg matching]
    exact ⟨rfl, matching⟩

/-- A peer that awaited its client may find it ready. -/
theorem received_ready {peer : StartupPeer} {sent released now : Nat}
    (received : Received save metadata peer sent released)
    (awaiting : peer.phase = .awaitingReadiness) :
    Received save metadata { peer with phase := .ready, lastProgress := now } sent released where
  toCharged := { received.toCharged with }
  phase := by
    have waiting := received.phase
    rw [awaiting] at waiting
    constructor
    · intro impossible
      cases impossible
    · intro more
      cases waiting.mpr more
  received := received.received
  announced := received.announced

/-- Reporting nothing received releases nothing. -/
theorem release_zero (outstanding : List (Nat × Nat)) (charged : Nat) :
    release 0 outstanding charged = (outstanding, charged) := by
  cases outstanding with
  | nil => rfl
  | cons entry rest => rw [release, if_pos (Or.inl rfl)]

/-- Whatever a client reports, an accepted report releases messages that were sent. -/
theorem received_progress {peer next : StartupPeer} {sent released now : Nat}
    {receivedBytes replayedTick : UInt64} (received : Received save metadata peer sent released)
    (accepted : receive (.progress receivedBytes replayedTick) metadata now peer = .ok () next) :
    (∃ released, Received save metadata next sent released) ∧ next.phase = peer.phase := by
  have accepts := accepts_of_receive accepted
  have bound := received.bound
  have ordered := received.ordered
  have advance (count : Nat) (reported : receivedBytes.toNat = chunkEnd save (count - 1))
      (some : 2 ≤ count) (later : released ≤ count) (within : count ≤ sent) :
      (∃ released, Received save metadata next sent released) ∧ next.phase = peer.phase := by
    obtain ⟨next', returned, kept, _, phase⟩ :=
      receive_accepted now received reported some later within accepts
    rw [accepted] at returned
    cases returned
    exact ⟨⟨count, kept⟩, phase⟩
  have idle (none : receivedBytes = 0) (same : peer.received = 0) :
      (∃ released, Received save metadata next sent released) ∧ next.phase = peer.phase := by
    subst none
    have spec : Ensures (receive (.progress 0 replayedTick) metadata now) peer
        (fun _ next => (∃ released, Received save metadata next sent released) ∧
          next.phase = peer.phase) (fun _ _ => True) := by
      unfold receive
      rw [ensures_bind, ensures_get]
      dsimp only
      rw [if_pos accepts, release_zero, ← same]
      by_cases changes : peer.received > peer.received ∨ replayedTick > peer.replayed
      · rw [if_pos changes]
        exact ⟨⟨released, { received with }⟩, rfl⟩
      · rw [if_neg changes]
        exact ⟨⟨released, received⟩, rfl⟩
    have both := ensures_of_ok spec accepted
    exact both
  obtain ⟨_, _, known, _⟩ := accepts
  rcases known with same | ⟨entry, member, reported⟩
  · by_cases some : 2 ≤ released
    · apply advance released _ some (Nat.le_refl _) ordered
      rw [same, received.received]
    · have none : peer.received = 0 := by
        apply UInt64.toNat_inj.mp
        have start : released - 1 = 0 := by omega
        rw [received.received, start, chunkEnd_zero]
        rfl
      exact idle (same.trans none) none
  · rw [received.outstanding, List.mem_map] at member
    obtain ⟨index, inside, rfl⟩ := member
    rw [List.mem_range'_1] at inside
    by_cases some : index = 0
    · subst some
      have none : receivedBytes = 0 := by
        apply UInt64.toNat_inj.mp
        rw [← reported, chunkEnd_zero]
        rfl
      have same : peer.received = 0 := by
        apply UInt64.toNat_inj.mp
        have start : released - 1 = 0 := by omega
        rw [received.received, start, chunkEnd_zero]
        rfl
      exact idle none same
    · apply advance (index + 1) _ (by omega) (by omega) (by omega)
      rw [Nat.add_sub_cancel]
      exact reported.symm

/-- Whatever a client sends, what the peer accepts keeps its counters in order, and
only the awaited readiness moves its phase. -/
theorem received_accepted {message : ClientMessage} {peer next : StartupPeer}
    {sent released now : Nat} (received : Received save metadata peer sent released)
    (accepted : receive message metadata now peer = .ok () next) :
    (∃ released, Received save metadata next sent released) ∧
      (next.phase = peer.phase ∨
        message = .ready metadata.tick metadata.hash ∧ peer.phase = .awaitingReadiness) := by
  cases message with
  | progress receivedBytes replayedTick =>
      obtain ⟨kept, phase⟩ := received_progress received accepted
      exact ⟨kept, Or.inl phase⟩
  | ready tick hash =>
      obtain ⟨awaiting, rfl, rfl, rfl⟩ := ensures_of_ok (receive_ready tick hash now peer) accepted
      exact ⟨⟨released, received_ready received awaiting⟩, Or.inr ⟨rfl, awaiting⟩⟩
  | input payload => cases accepted

end StartupPeer

end Synctick
