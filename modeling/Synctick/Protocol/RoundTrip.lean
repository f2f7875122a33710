import Synctick.Protocol.Decode

/-! # Messages are read back from their encodings

The encoding of every message is derived from its type, and its decoder is
written by hand over a cursor. Within the limits of the protocol the decoder
returns the encoded message. A limit concerns the payload of a command or of a
chunk, and the encoded size of a tick.
-/

namespace Synctick

open Bincode Effect

/-- A cursor over a slice reads a value from its code. -/
abbrev CursorReads {α : Type} (read : Effect DecodeError Bytes α) (code : Bytes) (value : α) :
    Prop := Reads ByteSource.view read code value

/-- The length of a collection is accepted when its bytes are there. -/
theorem ensures_cursor_length {count : Nat} {state rest : Bytes} (fits : count < 2 ^ 64)
    (input : state = encodeVarint count ++ rest) (enough : count ≤ rest.length) :
    Ensures Cursor.length state (fun value next => value = count ∧ next = rest)
      fun _ _ => False := by
  have same : (UInt64.ofNat count).toNat = count := UInt64.toNat_ofNat_of_lt' fits
  have front : ByteSource.view state = encodeVarint (UInt64.ofNat count).toNat ++ rest := by
    rw [same]
    exact input
  have reads := (reads_u64 (UInt64.ofNat count)).ensures front
  unfold Cursor.length
  rw [ensures_bind]
  refine reads.mono ?_ fun _ _ impossible => impossible
  rintro _ next ⟨rfl, rfl⟩
  simpa [same] using enough

/-- A payload within the limit is read back. -/
theorem reads_payload (materialize : Bool) (payload : CommandPayload)
    (small : payload.bytes.length ≤ Codec.maxPayloadBytes) :
    CursorReads (Cursor.payload materialize) (encode payload)
      ⟨if materialize then payload.bytes else []⟩ := by
  refine reads_of_ensures fun state rest input => ?_
  have split : state = encodeVarint payload.bytes.length ++ (payload.bytes ++ rest) := by
    rw [← List.append_assoc]
    exact input
  have fits : payload.bytes.length < 2 ^ 64 := by
    unfold Codec.maxPayloadBytes at small
    omega
  unfold Cursor.payload
  rw [ensures_bind]
  refine (ensures_cursor_length fits split (by simp)).mono ?_ fun _ _ impossible => impossible
  rintro _ next ⟨rfl, rfl⟩
  simp [small]

/-- So is a participant. -/
theorem reads_participant (participant : ParticipantId) :
    CursorReads Cursor.participant (encode participant) participant := by
  cases participant with
  | host =>
      have read : CursorReads Cursor.participant (encodeVarint 0 ++ []) .host :=
        (reads_u32 0).bind (Reads.pure _)
      exact read
  | remote id =>
      refine (reads_u32 1).bind ?_
      exact (reads_u64 id).last _

/-- What a pass makes of a command: its payload is empty until it materializes. -/
def Command.pass (materialize : Bool) (command : Command) : Command :=
  { command with payload := ⟨if materialize then command.payload.bytes else []⟩ }

/-- So is a command. -/
theorem reads_command (materialize : Bool) (command : Command)
    (small : command.payload.bytes.length ≤ Codec.maxPayloadBytes) :
    CursorReads (Cursor.command materialize) (encode command) (command.pass materialize) := by
  refine (reads_participant command.participant).bind ?_
  exact (reads_payload materialize command.payload small).last _

/-- No command is empty. -/
theorem length_encode_command_pos (command : Command) : 0 < (encode command).length := by
  have payload := length_encodeVarint_pos command.payload.bytes.length
  change 0 < (encode command.participant ++ encodeBytes command.payload.bytes).length
  unfold encodeBytes
  simp only [List.length_append]
  omega

/-- A tick holds at most one command for each byte of its encoding. -/
theorem length_inputs_le (inputs : List Command) :
    inputs.length ≤ (inputs.flatMap encode).length := by
  induction inputs with
  | nil => exact Nat.le_refl 0
  | cons command inputs ih =>
      have positive := length_encode_command_pos command
      rw [List.flatMap_cons, List.length_cons, List.length_append]
      omega

/-- A tick whose payloads are within the limit of one command. -/
def TickAdvance.Bounded (advance : TickAdvance) : Prop :=
  ∀ command ∈ advance.inputs, command.payload.bytes.length ≤ Codec.maxPayloadBytes

/-- A tick is read back, by the first pass without its commands. -/
theorem reads_tick (materialize : Bool) (advance : TickAdvance) (bounded : advance.Bounded)
    (few : advance.inputs.length < 2 ^ 64) :
    CursorReads (Cursor.tick materialize) (encode advance)
      { advance with inputs := if materialize then advance.inputs else [] } := by
  refine (reads_u64 advance.tick).bind (reads_of_ensures fun state rest input => ?_)
  have split : state = encodeVarint advance.inputs.length ++
      (advance.inputs.flatMap encode ++ rest) := by
    rw [← List.append_assoc]
    exact input
  have enough : advance.inputs.length ≤ (advance.inputs.flatMap encode ++ rest).length := by
    have counted := length_inputs_le advance.inputs
    rw [List.length_append]
    omega
  rw [ensures_bind]
  refine (ensures_cursor_length few split enough).mono ?_ fun _ _ impossible => impossible
  rintro _ next ⟨rfl, rfl⟩
  have inputs : CursorReads (readMany (Cursor.command materialize) advance.inputs.length)
      (advance.inputs.flatMap encode) (advance.inputs.map (Command.pass materialize)) :=
    Reads.manyMap encode _ advance.inputs fun command member =>
      reads_command materialize command (bounded command member)
  have front : ByteSource.view (advance.inputs.flatMap encode ++ rest) =
      advance.inputs.flatMap encode ++ rest := rfl
  rw [ensures_bind]
  refine (inputs.ensures front).mono ?_ fun _ _ impossible => impossible
  rintro _ last ⟨rfl, left⟩
  refine ⟨?_, left⟩
  cases materialize with
  | false => rfl
  | true =>
      have same : (Command.pass true) = id := rfl
      simp only [same, List.map_id, ↓reduceIte]

/-- A message of a client is read back, by the first pass without its payload. -/
theorem reads_clientMessage (materialize : Bool) (message : ClientMessage)
    (small : ∀ payload, message = .input payload →
      payload.bytes.length ≤ Codec.maxPayloadBytes) :
    CursorReads (Cursor.clientMessage materialize) (encode message)
      (match message with
      | .input payload => .input ⟨if materialize then payload.bytes else []⟩
      | other => other) := by
  cases message with
  | input payload =>
      refine (reads_u32 0).bind ?_
      exact (reads_payload materialize payload (small payload rfl)).last _
  | progress receivedBytes replayedTick =>
      refine (reads_u32 1).bind ((reads_u64 receivedBytes).bind ?_)
      exact (reads_u64 replayedTick).last _
  | ready tick hash =>
      refine (reads_u32 2).bind ((reads_u64 tick).bind ?_)
      exact (reads_u64 hash).last _

/-- So is one of the server. -/
theorem reads_serverMessage (materialize : Bool) (message : ServerMessage)
    (bounded : ∀ advance, message = .tick advance →
      advance.Bounded ∧ advance.inputs.length < 2 ^ 64) :
    CursorReads (Cursor.serverMessage materialize) (encode message)
      (match message with
      | .tick advance => .tick { advance with
          inputs := if materialize then advance.inputs else [] }
      | other => other) := by
  cases message with
  | start tick hash =>
      refine (reads_u32 0).bind ((reads_u64 tick).bind ?_)
      exact (reads_u64 hash).last _
  | tick advance =>
      obtain ⟨small, few⟩ := bounded advance rfl
      refine (reads_u32 1).bind ?_
      exact (reads_tick materialize advance small few).last _

/-- So is the metadata of a save. -/
theorem reads_saveMetadata (metadata : SaveMetadata) :
    CursorReads Cursor.saveMetadata (encode metadata) metadata := by
  refine (reads_u64 metadata.totalBytes).bind ((reads_u64 metadata.tick).bind ?_)
  exact (reads_u64 metadata.hash).last _

/-- So is its announcement. -/
theorem reads_begin (materialize : Bool) (metadata : SaveMetadata) :
    CursorReads (Cursor.saveMessage materialize) (encode (SaveMessage.begin metadata))
      (.begin metadata) := by
  refine (reads_u32 0).bind ?_
  exact (reads_saveMetadata metadata).last _

/-- So is a chunk that is neither empty nor too long. -/
theorem reads_chunk (materialize : Bool) (bytes : Bytes) (nonempty : bytes ≠ [])
    (small : bytes.length ≤ maxSaveChunkBytes) :
    CursorReads (Cursor.saveMessage materialize) (encode (SaveMessage.chunk bytes))
      (.chunk (if materialize then bytes else [])) := by
  refine (reads_u32 1).bind (reads_of_ensures fun state rest input => ?_)
  have split : state = encodeVarint bytes.length ++ (bytes ++ rest) := by
    rw [← List.append_assoc]
    exact input
  have fits : bytes.length < 2 ^ 64 := by
    unfold maxSaveChunkBytes at small
    omega
  refine (ensures_bind _ _ _ _ _).mpr ?_
  refine (ensures_cursor_length fits split (by simp)).mono ?_ fun _ _ impossible => impossible
  rintro _ next ⟨rfl, rfl⟩
  simp [nonempty, small]

/-- So is a report. -/
theorem reads_desyncHash (report : DesyncHash) :
    CursorReads Cursor.desyncHash (encode report) report := by
  refine (reads_u64 report.tick).bind ?_
  exact (reads_u64 report.hash).last _

/-- A reader that reads a code reads it from a slice of just that code. -/
theorem readWhole_of_reads {α : Type} {read : Effect DecodeError Bytes α} {code : Bytes} {value : α}
    (reads : CursorReads read code value) : readWhole read code = .ok value := by
  obtain ⟨next, returned, left⟩ := reads.whole (view_bytes code)
  cases left
  simp only [readWhole, returned, List.isEmpty_nil, ↓reduceIte]

/-- Two passes that both read a code return what the second one materializes. -/
theorem validated_of_reads {α : Type} {read : Bool → Effect DecodeError Bytes α} {code : Bytes}
    {value : Bool → α} (reads : ∀ materialize, CursorReads (read materialize) code
      (value materialize)) : validated code read = .ok (value true) := by
  unfold validated
  rw [readWhole_of_reads (reads false)]
  exact readWhole_of_reads (reads true)

/-- A message of a client is decoded as it was. -/
theorem decodeClientMessage_encode (message : ClientMessage)
    (small : ∀ payload, message = .input payload →
      payload.bytes.length ≤ Codec.maxPayloadBytes) :
    decodeClientMessage (encode message) = .ok message := by
  have decoded := validated_of_reads fun materialize =>
    reads_clientMessage materialize message small
  rw [decodeClientMessage, decoded]
  cases message <;> rfl

/-- A tick within the budget of a record has no more commands than can be counted. -/
theorem TickAdvance.few_of_length_encode_le {advance : TickAdvance}
    (within : (encode advance).length ≤ maxReplayRecordBytes) :
    advance.inputs.length < 2 ^ 64 := by
  have counted := length_inputs_le advance.inputs
  have parts : (encode advance).length = (encode advance.tick).length +
      ((encodeVarint advance.inputs.length).length + (advance.inputs.flatMap encode).length) := by
    change (encode advance.tick ++ (encodeVarint advance.inputs.length ++
      advance.inputs.flatMap encode)).length = _
    rw [List.length_append, List.length_append]
  unfold maxReplayRecordBytes at within
  omega

/-- A tick within the record budget is read back from its record. -/
theorem decodeTickAdvance_encode (advance : TickAdvance) (bounded : advance.Bounded)
    (within : (encode advance).length ≤ maxReplayRecordBytes) :
    decodeTickAdvance (encode advance) = .ok advance := by
  unfold decodeTickAdvance
  simp only [gt_iff_lt, Nat.not_lt.mpr within, ↓reduceIte]
  exact validated_of_reads fun materialize => reads_tick materialize advance bounded
    (TickAdvance.few_of_length_encode_le within)

/-- A `Start` is decoded as it was. -/
theorem decodeServerMessage_start (tick hash : UInt64) :
    decodeServerMessage (encode (ServerMessage.start tick hash)) = .ok (.start tick hash) := by
  have within : (encode (ServerMessage.start tick hash)).length ≤ maxReplayRecordBytes := by
    have first := length_encodeVarint_le tick.toNat
    have second := length_encodeVarint_le hash.toNat
    have variant := length_encodeVarint_le 0
    change (encodeVarint 0 ++ (encodeVarint tick.toNat ++ encodeVarint hash.toNat)).length ≤ _
    rw [List.length_append, List.length_append]
    unfold maxReplayRecordBytes
    omega
  unfold decodeServerMessage
  simp only [gt_iff_lt, Nat.not_lt.mpr within, ↓reduceIte]
  exact validated_of_reads fun materialize =>
    reads_serverMessage materialize (.start tick hash) (by rintro _ ⟨⟩)

/-- The tick that a server message carries is no longer than the message. -/
theorem length_encode_tick_le (advance : TickAdvance) :
    (encode advance).length ≤ (encode (ServerMessage.tick advance)).length := by
  change _ ≤ (encodeVarint 1 ++ encode advance).length
  rw [List.length_append]
  exact Nat.le_add_left _ _

/-- So is a tick within the budget. -/
theorem decodeServerMessage_tick (advance : TickAdvance) (bounded : advance.Bounded)
    (within : (encode (ServerMessage.tick advance)).length ≤ maxReplayRecordBytes) :
    decodeServerMessage (encode (ServerMessage.tick advance)) = .ok (.tick advance) := by
  unfold decodeServerMessage
  simp only [gt_iff_lt, Nat.not_lt.mpr within, ↓reduceIte]
  refine validated_of_reads fun materialize =>
    reads_serverMessage materialize (.tick advance) ?_
  rintro _ ⟨⟩
  exact ⟨bounded, TickAdvance.few_of_length_encode_le
    (Nat.le_trans (length_encode_tick_le advance) within)⟩

/-- So is the announcement of a save. -/
theorem decodeSaveMessage_begin (metadata : SaveMetadata) :
    decodeSaveMessage (encode (SaveMessage.begin metadata)) = .ok (.begin metadata) :=
  validated_of_reads fun materialize => reads_begin materialize metadata

/-- So is a chunk that is neither empty nor too long. -/
theorem decodeSaveMessage_chunk (bytes : Bytes) (nonempty : bytes ≠ [])
    (small : bytes.length ≤ maxSaveChunkBytes) :
    decodeSaveMessage (encode (SaveMessage.chunk bytes)) = .ok (.chunk bytes) :=
  validated_of_reads fun materialize => reads_chunk materialize bytes nonempty small

/-- A report is decoded as it was. -/
theorem decodeDesyncHash_encode (report : DesyncHash) :
    decodeDesyncHash (encode report) = .ok report :=
  validated_of_reads fun _ => reads_desyncHash report

example : encode (ClientMessage.progress 251 1) = [1, 251, 251, 0, 1] := by decide

end Synctick
