import Synctick.Protocol.Accepted

/-! # The formats of the protocol

Each message is read back from its encoding, and from no proper prefix or extension of
it. The first of the two passes decides: the second one reads the same and only fills
in the collections. What is accepted is within the limits, however it was encoded.
-/

namespace Synctick

open Bincode Effect

namespace Cursor

/-- A length does not depend on what follows it. -/
theorem stable_length : Stable ByteSource.view Cursor.length := by
  apply stable_u64.bind
  intro length state value next returned longer extra input
  have input : longer = state ++ extra := input
  subst input
  change (if length.toNat > state.length then _ else _ : Effect DecodeError Bytes Nat) state = _
    at returned
  change ∃ last, (if length.toNat > (state ++ extra).length then _ else _ :
    Effect DecodeError Bytes Nat) (state ++ extra) = _ ∧ _
  by_cases excess : length.toNat > state.length
  · rw [if_pos excess] at returned
    cases returned
  · rw [if_neg excess] at returned
    have enough : ¬ length.toNat > (state ++ extra).length := by
      rw [List.length_append]
      omega
    rw [if_neg enough]
    cases returned
    exact ⟨_, rfl, rfl⟩

/-- The bytes of an accepted length are there to be taken. -/
theorem length_then_take {α : Type} (check : Nat → Prop) [DecidablePred check] (error : DecodeError)
    (fill : Bytes → α) :
    (do
      let length ← Cursor.length
      if check length then
        throw error
      let remaining ← get
      set (remaining.drop length)
      pure (fill (remaining.take length)) : Effect DecodeError Bytes α) = (do
      let length ← Cursor.length
      if check length then
        throw error
      let bytes ← ByteSource.take length
      pure (fill bytes)) := by
  funext state
  change EStateM.bind _ _ state = EStateM.bind _ _ state
  unfold EStateM.bind
  cases read : Cursor.length state with
  | error error next => rfl
  | ok length next =>
      have enough := (ensures_of_ok (consumes_cursor_length state) read).2
      by_cases refused : check length
      · simp only [refused, ↓reduceIte]
        rfl
      · have taken : (ByteSource.take length : Effect DecodeError Bytes Bytes) next =
            .ok (next.take length) (next.drop length) := if_pos enough
        simp only [refused, ↓reduceIte]
        apply Eq.symm
        apply eq_ok_of_ensures
        rw [ensures_bind, ensures_ok taken]
        exact ⟨rfl, rfl⟩

/-- Reading a payload: its length is checked before its bytes are there. -/
theorem payload_eq (materialize : Bool) : Cursor.payload materialize = (do
    let length ← Cursor.length
    if length > Codec.maxPayloadBytes then
      throw (.other "command byte budget exceeded")
    let bytes ← ByteSource.take length
    pure ⟨if materialize then bytes else []⟩) := by
  unfold payload
  exact length_then_take (· > Codec.maxPayloadBytes) (.other "command byte budget exceeded")
    fun bytes => (⟨if materialize then bytes else []⟩ : CommandPayload)

/-- The body of a chunk. -/
def chunk (materialize : Bool) : Effect DecodeError Bytes SaveMessage := do
  let length ← Cursor.length
  if length = 0 ∨ length > maxSaveChunkBytes then
    throw (.other "invalid save chunk size")
  let bytes ← ByteSource.take length
  pure (.chunk (if materialize then bytes else []))

/-- Reading a message of the save: its variant decides on the rest. -/
theorem saveMessage_eq (materialize : Bool) : Cursor.saveMessage materialize = (do
    let variant ← readU32
    if variant = 0 then do
      let metadata ← Cursor.saveMetadata
      pure (.begin metadata)
    else if variant = 1 then chunk materialize
    else throw (.other "invalid save message variant")) := by
  have same := length_then_take (fun length => length = 0 ∨ length > maxSaveChunkBytes)
    (.other "invalid save chunk size") fun bytes =>
      SaveMessage.chunk (if materialize then bytes else [])
  unfold saveMessage chunk
  rw [← same]

theorem stable_payload (materialize : Bool) :
    Stable ByteSource.view (Cursor.payload materialize) := by
  rw [payload_eq]
  apply stable_length.bind
  intro length
  exact .ite (Stable.bind (.throw _) fun _ => (stable_take length).bind fun _ => .pure _)
    ((stable_take length).bind fun _ => .pure _)

theorem stable_participant : Stable ByteSource.view Cursor.participant := by
  apply stable_u32.bind
  intro variant
  exact .ite (.pure _) (.ite (stable_u64.bind fun _ => .pure _) (.throw _))

theorem stable_command (materialize : Bool) :
    Stable ByteSource.view (Cursor.command materialize) :=
  stable_participant.bind fun _ => (stable_payload materialize).bind fun _ => .pure _

/-- A tick does not depend on what follows it. Its commands are read one after another. -/
theorem stable_tick (materialize : Bool) : Stable ByteSource.view (Cursor.tick materialize) :=
  stable_u64.bind fun _ => stable_length.bind fun count =>
    ((stable_command materialize).readMany count).bind fun _ => .pure _

/-- A message of a client does not depend on what follows it. -/
theorem stable_clientMessage (materialize : Bool) :
    Stable ByteSource.view (Cursor.clientMessage materialize) := by
  have two {α : Type} (value : UInt64 → UInt64 → α) : Stable ByteSource.view (do
      let first ← readU64
      let second ← readU64
      pure (value first second) : Effect DecodeError Bytes α) :=
    stable_u64.bind fun _ => stable_u64.bind fun _ => .pure _
  apply stable_u32.bind
  intro variant
  exact .ite ((stable_payload materialize).bind fun _ => .pure _)
    (.ite (two _) (.ite (two _) (.throw _)))

/-- Nor does one of the server. -/
theorem stable_serverMessage (materialize : Bool) :
    Stable ByteSource.view (Cursor.serverMessage materialize) := by
  apply stable_u32.bind
  intro variant
  exact .ite (stable_u64.bind fun _ => stable_u64.bind fun _ => .pure _)
    (.ite ((stable_tick materialize).bind fun _ => .pure _) (.throw _))

theorem stable_saveMetadata : Stable ByteSource.view Cursor.saveMetadata :=
  stable_u64.bind fun _ => stable_u64.bind fun _ => stable_u64.bind fun _ => .pure _

/-- Nor does one of the save. -/
theorem stable_saveMessage (materialize : Bool) :
    Stable ByteSource.view (Cursor.saveMessage materialize) := by
  have body : Stable ByteSource.view (chunk materialize) := by
    apply stable_length.bind
    intro length
    exact .ite (Stable.bind (.throw _) fun _ => (stable_take length).bind fun _ => .pure _)
      ((stable_take length).bind fun _ => .pure _)
  rw [saveMessage_eq]
  apply stable_u32.bind
  intro variant
  exact .ite (stable_saveMetadata.bind fun _ => .pure _) (.ite body (.throw _))

/-- Nor does a report. -/
theorem stable_desyncHash : Stable ByteSource.view Cursor.desyncHash :=
  stable_u64.bind fun _ => stable_u64.bind fun _ => .pure _

end Cursor

/-! ## The two passes -/

/-- What the first pass sees of a message. -/
def CommandPayload.shape (_ : CommandPayload) : CommandPayload := ⟨[]⟩

def Command.shape (command : Command) : Command := { command with payload := command.payload.shape }

def TickAdvance.shape (advance : TickAdvance) : TickAdvance := { advance with inputs := [] }

def ClientMessage.shape : ClientMessage → ClientMessage
  | .input payload => .input payload.shape
  | other => other

def ServerMessage.shape : ServerMessage → ServerMessage
  | .tick advance => .tick advance.shape
  | other => other

def SaveMessage.shape : SaveMessage → SaveMessage
  | .chunk _ => .chunk []
  | other => other

namespace Cursor

/-- The first pass over a payload sees that it is there, and not its bytes. -/
theorem payload_shape : Cursor.payload false = CommandPayload.shape <$> Cursor.payload true := by
  unfold payload
  rw [map_bind]
  apply bind_congr
  intro length
  by_cases excess : length > Codec.maxPayloadBytes
  · rw [if_pos excess, if_pos excess]
    rfl
  · rw [if_neg excess, if_neg excess]
    rfl

theorem command_shape : Cursor.command false = Command.shape <$> Cursor.command true := by
  unfold command
  rw [payload_shape]
  simp only [map_bind, bind_map_left, map_pure]
  rfl

/-- Of a tick it sees the number. -/
theorem tick_shape : Cursor.tick false = TickAdvance.shape <$> Cursor.tick true := by
  unfold tick
  rw [command_shape]
  simp only [readMany_map, map_bind, bind_map_left, map_pure]
  rfl

/-- It sees which message of a client there is. -/
theorem clientMessage_shape :
    Cursor.clientMessage false = ClientMessage.shape <$> Cursor.clientMessage true := by
  unfold clientMessage
  rw [payload_shape, map_bind]
  apply bind_congr
  intro variant
  by_cases input : variant = 0
  · rw [if_pos input, if_pos input]
    simp only [map_bind, bind_map_left, map_pure]
    rfl
  · rw [if_neg input, if_neg input]
    by_cases progress : variant = 1
    · rw [if_pos progress]
      simp only [map_bind, map_pure]
      rfl
    · rw [if_neg progress]
      by_cases ready : variant = 2
      · rw [if_pos ready]
        simp only [map_bind, map_pure]
        rfl
      · rw [if_neg ready]
        rfl

/-- It sees which message of the server there is. -/
theorem serverMessage_shape :
    Cursor.serverMessage false = ServerMessage.shape <$> Cursor.serverMessage true := by
  unfold serverMessage
  rw [tick_shape, map_bind]
  apply bind_congr
  intro variant
  by_cases start : variant = 0
  · rw [if_pos start, if_pos start]
    simp only [map_bind, map_pure]
    rfl
  · rw [if_neg start, if_neg start]
    by_cases advance : variant = 1
    · rw [if_pos advance, if_pos advance]
      simp only [map_bind, bind_map_left, map_pure]
      rfl
    · rw [if_neg advance, if_neg advance]
      rfl

/-- It sees which message of the save there is. -/
theorem saveMessage_shape :
    Cursor.saveMessage false = SaveMessage.shape <$> Cursor.saveMessage true := by
  unfold saveMessage
  rw [map_bind]
  apply bind_congr
  intro variant
  by_cases begins : variant = 0
  · rw [if_pos begins, if_pos begins]
    simp only [map_bind, map_pure]
    rfl
  · rw [if_neg begins, if_neg begins]
    by_cases body : variant = 1
    · rw [if_pos body, if_pos body, map_bind]
      apply bind_congr
      intro length
      by_cases refused : length = 0 ∨ length > maxSaveChunkBytes
      · rw [if_pos refused, if_pos refused]
        rfl
      · rw [if_neg refused, if_neg refused]
        rfl
    · rw [if_neg body, if_neg body]
      rfl

end Cursor

/-- A pass that sees only the shape of a value accepts the same bytes. -/
theorem readWhole_map {α β : Type} (read : Effect DecodeError Bytes α) (shape : α → β)
    (bytes : Bytes) : readWhole (shape <$> read) bytes = (readWhole read bytes).map shape := by
  unfold readWhole
  cases returned : read bytes with
  | error error next =>
      have mapped : (shape <$> read) bytes = .error error next := by
        change EStateM.map shape read bytes = .error error next
        unfold EStateM.map
        rw [returned]
      rw [mapped]
      rfl
  | ok value next =>
      have mapped : (shape <$> read) bytes = .ok (shape value) next := by
        change EStateM.map shape read bytes = .ok (shape value) next
        unfold EStateM.map
        rw [returned]
      rw [mapped]
      dsimp only
      by_cases finished : next.isEmpty = true
      · rw [if_pos finished, if_pos finished]
        rfl
      · rw [if_neg finished, if_neg finished]
        rfl

/-- The first pass decides. -/
theorem validated_eq {α : Type} {read : Bool → Effect DecodeError Bytes α} {shape : α → α}
    (passes : read false = shape <$> read true) (bytes : Bytes) :
    validated bytes read = readWhole (read true) bytes := by
  unfold validated
  rw [passes, readWhole_map]
  cases readWhole (read true) bytes with
  | error error => rfl
  | ok value => rfl

/-! ## What is accepted -/

/-- The limits on a message. -/
def ClientMessage.Within : ClientMessage → Prop
  | .input payload => payload.bytes.length ≤ Codec.maxPayloadBytes
  | _ => True

def TickAdvance.Within (advance : TickAdvance) : Prop :=
  advance.Bounded ∧ (encode advance).length ≤ maxReplayRecordBytes

def ServerMessage.Within (message : ServerMessage) : Prop :=
  (∀ advance, message = .tick advance → advance.Bounded) ∧
    (encode message).length ≤ maxReplayRecordBytes

def SaveMessage.Within : SaveMessage → Prop
  | .chunk bytes => bytes ≠ [] ∧ bytes.length ≤ maxSaveChunkBytes
  | .begin _ => True

/-- Reading takes at least the size of its value, of which `credit` was already read. -/
def Spends {α : Type} (credit : Nat) (read : Effect DecodeError Bytes α) (size : α → Nat)
    (accepted : α → Prop) : Prop :=
  ∀ state, Ensures read state
    (fun value next => size value + next.length ≤ credit + state.length ∧ accepted value)
    fun _ _ => True

namespace Spends

variable {α β : Type} {credit : Nat} {size : α → Nat} {accepted : α → Prop}

/-- What the first reader takes is credited to the second. -/
theorem bind {first : Effect DecodeError Bytes β} {next : β → Effect DecodeError Bytes α}
    {front : β → Nat} {valid : β → Prop} (head : ∀ state, Consumes first state front valid)
    (tail : ∀ value, valid value → Spends (credit + front value) (next value) size accepted) :
    Spends credit (first >>= next) size accepted := by
  intro state
  rw [ensures_bind]
  apply (head state).mono
  · intro value middle outcome
    obtain ⟨taken, holds⟩ := outcome
    apply (tail value holds middle).mono
    · intro result last rest
      obtain ⟨spent, fine⟩ := rest
      exact ⟨by omega, fine⟩
    · intro _ _ _
      trivial
  · intro _ _ _
    trivial

/-- A value that the credit covers may be returned. -/
theorem pure {value : α} (covered : size value ≤ credit) (fine : accepted value) :
    Spends credit (Pure.pure value) size accepted := by
  intro state
  exact ⟨Nat.add_le_add_right covered _, fine⟩

/-- A reader that fails returns nothing to account for. -/
theorem throw (error : DecodeError) : Spends credit (MonadExcept.throw error) size accepted := by
  intro state
  trivial

/-- Both branches have the credit. -/
theorem ite {condition : Prop} [Decidable condition] {yes no : Effect DecodeError Bytes α}
    (first : condition → Spends credit yes size accepted)
    (second : ¬ condition → Spends credit no size accepted) :
    Spends credit (if condition then yes else no) size accepted := by
  by_cases holds : condition
  · rw [if_pos holds]
    exact first holds
  · rw [if_neg holds]
    exact second holds

/-- The code of an integer that is read is credited. -/
theorem u64 {next : UInt64 → Effect DecodeError Bytes α}
    (tail : ∀ value, Spends (credit + (encode value).length) (next value) size accepted) :
    Spends credit (readU64 >>= next) size accepted :=
  bind consumes_readU64 fun value _ => tail value

theorem u32 {next : UInt32 → Effect DecodeError Bytes α}
    (tail : ∀ value : UInt32,
      Spends (credit + (encodeVarint value.toNat).length) (next value) size accepted) :
    Spends credit (readU32 >>= next) size accepted :=
  bind consumes_readU32 fun value _ => tail value

end Spends

/-- A message of a client is read from at least the bytes of its own code, and is within its limits.
-/
theorem spends_clientMessage :
    Spends 0 (Cursor.clientMessage true) (fun message => (encode message).length)
      ClientMessage.Within := by
  apply Spends.u32
  intro variant
  apply Spends.ite
  · intro input
    subst input
    apply Spends.bind consumes_payload
    intro payload small
    apply Spends.pure
    · change (encodeVarint 0 ++ encode payload).length ≤ _
      rw [List.length_append]
      exact Nat.le_of_eq (by rw [Nat.zero_add]; rfl)
    · exact small
  · intro _
    apply Spends.ite
    · intro progress
      subst progress
      apply Spends.u64
      intro first
      apply Spends.u64
      intro second
      apply Spends.pure
      · change (encodeVarint 1 ++ (encode first ++ encode second)).length ≤ _
        rw [List.length_append, List.length_append]
        exact Nat.le_of_eq (by rw [Nat.zero_add, Nat.add_assoc]; rfl)
      · trivial
    · intro _
      apply Spends.ite
      · intro ready
        subst ready
        apply Spends.u64
        intro first
        apply Spends.u64
        intro second
        apply Spends.pure
        · change (encodeVarint 2 ++ (encode first ++ encode second)).length ≤ _
          rw [List.length_append, List.length_append]
          exact Nat.le_of_eq (by rw [Nat.zero_add, Nat.add_assoc]; rfl)
        · trivial
      · intro _
        exact Spends.throw _

/-- So is one of the server. -/
theorem spends_serverMessage :
    Spends 0 (Cursor.serverMessage true) (fun message => (encode message).length)
      (fun message => ∀ advance, message = .tick advance → advance.Bounded) := by
  apply Spends.u32
  intro variant
  apply Spends.ite
  · intro start
    subst start
    apply Spends.u64
    intro first
    apply Spends.u64
    intro second
    apply Spends.pure
    · change (encodeVarint 0 ++ (encode first ++ encode second)).length ≤ _
      rw [List.length_append, List.length_append]
      exact Nat.le_of_eq (by rw [Nat.zero_add, Nat.add_assoc]; rfl)
    · intro advance impossible
      cases impossible
  · intro _
    apply Spends.ite
    · intro tick
      subst tick
      apply Spends.bind consumes_tick
      intro advance bounded
      apply Spends.pure
      · change (encodeVarint 1 ++ encode advance).length ≤ _
        rw [List.length_append]
        exact Nat.le_of_eq (by rw [Nat.zero_add]; rfl)
      · intro other same
        cases same
        exact bounded
    · intro _
      exact Spends.throw _

/-- So is a chunk, whose variant was read before. -/
theorem spends_chunk :
    Spends (encodeVarint 1).length (Cursor.chunk true) (fun message => (encode message).length)
      SaveMessage.Within := by
  intro state
  unfold Cursor.chunk
  rw [ensures_bind]
  apply (consumes_cursor_length state).mono
  · intro length next outcome
    obtain ⟨shorter, there⟩ := outcome
    by_cases refused : length = 0 ∨ length > maxSaveChunkBytes
    · rw [if_pos refused]
      trivial
    · rw [if_neg refused]
      simp only [ensures_bind, ensures_pure]
      apply (ensures_take length next).mono
      · intro bytes last taken
        obtain ⟨size, left⟩ := taken
        simp only [↓reduceIte]
        have nonempty : bytes ≠ [] := by
          intro none
          rw [none] at size
          exact refused (Or.inl size.symm)
        have small : bytes.length ≤ maxSaveChunkBytes := by omega
        refine ⟨?_, nonempty, small⟩
        change (encodeVarint 1 ++ (encodeVarint bytes.length ++ bytes)).length + _ ≤ _
        rw [List.length_append, List.length_append, size]
        omega
      · intro _ _ _
        trivial
  · intro _ _ _
    trivial

/-- So is a message of the save. -/
theorem spends_saveMessage :
    Spends 0 (Cursor.saveMessage true) (fun message => (encode message).length)
      SaveMessage.Within := by
  rw [Cursor.saveMessage_eq]
  apply Spends.u32
  intro variant
  apply Spends.ite
  · intro begins
    subst begins
    rw [Cursor.saveMetadata]
    simp only [bind_assoc, pure_bind]
    apply Spends.u64
    intro totalBytes
    apply Spends.u64
    intro tick
    apply Spends.u64
    intro hash
    apply Spends.pure
    · change (encodeVarint 0 ++ (encode totalBytes ++ (encode tick ++ encode hash))).length ≤ _
      simp only [List.length_append]
      exact Nat.le_of_eq (by rw [Nat.zero_add, Nat.add_assoc, Nat.add_assoc]; rfl)
    · trivial
  · intro _
    apply Spends.ite
    · intro body
      subst body
      rw [Nat.zero_add]
      exact spends_chunk
    · intro _
      exact Spends.throw _

/-- So is a report. -/
theorem spends_desyncHash :
    Spends 0 Cursor.desyncHash (fun report => (encode report).length) fun _ => True := by
  apply Spends.u64
  intro first
  apply Spends.u64
  intro second
  apply Spends.pure
  · change (encode first ++ encode second).length ≤ _
    rw [List.length_append, Nat.zero_add]
  · trivial

/-- What is read from a whole slice takes no more bytes when it is encoded again, and is within its
limits. -/
theorem Spends.of_readWhole {α : Type} {read : Effect DecodeError Bytes α} {size : α → Nat}
    {accepted : α → Prop} (spends : Spends 0 read size accepted) {bytes : Bytes} {value : α}
    (decoded : readWhole read bytes = .ok value) : size value ≤ bytes.length ∧ accepted value := by
  have consumes := spends bytes
  rw [Nat.zero_add] at consumes
  exact Synctick.of_readWhole consumes decoded

/-! ## What is rejected -/

/-- The length of a collection is read modulo the width of its type. -/
theorem ensures_length_of_code {count : Nat} {state rest : Bytes}
    (input : state = encodeVarint count ++ rest) :
    Ensures Cursor.length state
      (fun value next => value = (UInt64.ofNat count).toNat ∧ next = rest) fun _ _ => True := by
  have front : ByteSource.view state = encodeVarint count ++ rest := input
  unfold Cursor.length
  rw [ensures_bind]
  apply ((reads_wrapped count).ensures front).mono
  · intro length next outcome
    obtain ⟨same, left⟩ := outcome
    have left : next = rest := left
    subst same left
    by_cases excess : (UInt64.ofNat count).toNat > next.length
    · simp only [ensures_bind, ensures_get, excess, ↓reduceIte, ensures_throw]
    · simp only [ensures_bind, ensures_get, excess, ↓reduceIte, ensures_pure, and_self]
  · intro _ _ impossible
    cases impossible

/-- The body of an oversize collection is refused, unless its length wraps; then it is not read to
its end. -/
theorem ensures_oversize {α : Type} {read : Effect DecodeError Bytes α} {check : Nat → Prop}
    [DecidablePred check] {error : DecodeError} {fill : Bytes → α} {limit : Nat}
    (limited : ∀ length, ¬ check length → length ≤ limit)
    (reading : read = do
      let length ← Cursor.length
      if check length then
        throw error
      let bytes ← ByteSource.take length
      pure (fill bytes)) {bytes rest : Bytes} (excess : limit < bytes.length) :
    Ensures read (encodeBytes bytes ++ rest)
      (fun _ next => rest.length < next.length ∧ 2 ^ 64 ≤ bytes.length) fun _ _ => True := by
  have split : encodeBytes bytes ++ rest = encodeVarint bytes.length ++ (bytes ++ rest) := by
    unfold encodeBytes
    rw [List.append_assoc]
  rw [reading, ensures_bind]
  apply (ensures_length_of_code split).mono
  · intro length next outcome
    obtain ⟨wrapped, left⟩ := outcome
    subst left
    by_cases refused : check length
    · rw [if_pos refused]
      trivial
    · have few := limited length refused
      have long : 2 ^ 64 ≤ bytes.length := by
        by_contra short
        rw [UInt64.toNat_ofNat_of_lt' (Nat.lt_of_not_le short)] at wrapped
        omega
      rw [if_neg refused]
      simp only [ensures_bind, ensures_pure]
      apply (ensures_take length (bytes ++ rest)).mono
      · intro _ last taken
        obtain ⟨_, left⟩ := taken
        rw [List.length_append] at left
        exact ⟨by omega, long⟩
      · intro _ _ _
        trivial
  · intro _ _ _
    trivial

/-- An oversize payload is refused, unless its length wraps; then bytes are left over. -/
theorem ensures_oversize_payload (materialize : Bool) {payload : CommandPayload} {rest : Bytes}
    (excess : Codec.maxPayloadBytes < payload.bytes.length) :
    Ensures (Cursor.payload materialize) (encode payload ++ rest)
      (fun _ next => rest.length < next.length ∧ 2 ^ 64 ≤ payload.bytes.length)
      fun _ _ => True :=
  ensures_oversize (fun _ accepted => Nat.le_of_not_lt accepted) (Cursor.payload_eq materialize)
    excess

/-- A sequence of commands of which one is oversize is refused there. -/
theorem ensures_oversize_commands (materialize : Bool) (inputs : List Command) (rest : Bytes)
    (representable : ∀ command ∈ inputs, command.payload.bytes.length < 2 ^ 64)
    (excess : ¬ ∀ command ∈ inputs, command.payload.bytes.length ≤ Codec.maxPayloadBytes) :
    Ensures (readMany (Cursor.command materialize) inputs.length)
      (inputs.flatMap encode ++ rest) (fun _ _ => False) fun _ _ => True := by
  induction inputs with
  | nil =>
      apply absurd _ excess
      intro command member
      cases member
  | cons command inputs ih =>
      have small := representable command List.mem_cons_self
      have later := ih fun other member => representable other (List.mem_cons_of_mem _ member)
      rw [List.length_cons, readMany, ensures_bind, List.flatMap_cons, List.append_assoc]
      by_cases fits : command.payload.bytes.length ≤ Codec.maxPayloadBytes
      · have front := (reads_command materialize command fits).ensures
          (view_bytes (encode command ++ (inputs.flatMap encode ++ rest)))
        apply front.mono
        · intro _ next outcome
          obtain ⟨_, left⟩ := outcome
          have left : next = inputs.flatMap encode ++ rest := left
          subst left
          rw [ensures_bind]
          apply (later _).mono
          · intro _ _ impossible
            cases impossible
          · intro _ _ _
            trivial
          · intro each
            apply excess
            intro other member
            rcases List.mem_cons.mp member with same | member
            · rw [same]
              exact fits
            · exact each other member
        · intro _ _ impossible
          cases impossible
      · change Ensures (Cursor.command materialize) ((encode command.participant ++
          encode command.payload) ++ (inputs.flatMap encode ++ rest)) _ _
        rw [Cursor.command, ensures_bind, List.append_assoc]
        apply ((reads_participant command.participant).ensures (view_bytes _)).mono
        · intro participant next outcome
          obtain ⟨_, left⟩ := outcome
          have left : next = encode command.payload ++ (inputs.flatMap encode ++ rest) := left
          subst left
          rw [ensures_bind]
          apply (ensures_oversize_payload materialize (Nat.lt_of_not_le fits)).mono
          · intro _ _ impossible
            omega
          · intro _ _ _
            trivial
        · intro _ _ impossible
          cases impossible

/-- A tick of which one command is oversize is refused. -/
theorem ensures_oversize_tick (materialize : Bool) {advance : TickAdvance} (rest : Bytes)
    (excess : ¬ advance.Bounded) (short : (encode advance).length < 2 ^ 64) :
    Ensures (Cursor.tick materialize) (encode advance ++ rest) (fun _ _ => False)
      fun _ _ => True := by
  have parts : (encode advance).length = (encode advance.tick).length +
      ((encodeVarint advance.inputs.length).length + (advance.inputs.flatMap encode).length) := by
    change (encode advance.tick ++ (encodeVarint advance.inputs.length ++
      advance.inputs.flatMap encode)).length = _
    rw [List.length_append, List.length_append]
  have representable : ∀ command ∈ advance.inputs, command.payload.bytes.length < 2 ^ 64 := by
    intro command member
    have part : (encode command).length ≤ (advance.inputs.flatMap encode).length :=
      (List.sublist_flatten_of_mem (List.mem_map_of_mem member)).length_le
    have inside : command.payload.bytes.length ≤ (encode command).length := by
      change _ ≤ (encode command.participant ++ (encodeVarint command.payload.bytes.length ++
        command.payload.bytes)).length
      rw [List.length_append, List.length_append]
      omega
    omega
  have counted := length_inputs_le advance.inputs
  change Ensures _ ((encode advance.tick ++ (encodeVarint advance.inputs.length ++
    advance.inputs.flatMap encode)) ++ rest) _ _
  rw [Cursor.tick, ensures_bind, List.append_assoc, List.append_assoc]
  apply ((reads_u64 advance.tick).ensures (view_bytes _)).mono
  · intro tick next outcome
    obtain ⟨_, left⟩ := outcome
    have left : next = encodeVarint advance.inputs.length ++
      (advance.inputs.flatMap encode ++ rest) := left
    rw [ensures_bind]
    apply (ensures_length_of_code left).mono
    · intro count middle outcome
      obtain ⟨same, left⟩ := outcome
      rw [UInt64.toNat_ofNat_of_lt' (by change advance.inputs.length < 2 ^ 64; omega)] at same
      subst same left
      rw [ensures_bind]
      apply (ensures_oversize_commands materialize advance.inputs rest representable excess).mono
      · intro _ _ impossible
        cases impossible
      · intro _ _ _
        trivial
    · intro _ _ _
      trivial
  · intro _ _ impossible
    cases impossible

/-- A pass that leaves some of its bytes, or stops, does not accept them. -/
theorem readWhole_rejects {α : Type} {read : Effect DecodeError Bytes α} {bytes : Bytes}
    (spec : Ensures read bytes (fun _ next => 0 < next.length) fun _ _ => True) :
    ∃ error, readWhole read bytes = .error error := by
  unfold readWhole
  cases pass : read bytes with
  | error error next => exact ⟨error, rfl⟩
  | ok value next =>
      have left := ensures_of_ok spec pass
      have more : ¬ next.isEmpty = true := by
        rw [List.isEmpty_iff]
        intro none
        rw [none] at left
        cases left
      exact ⟨_, if_neg more⟩

/-! ## Formats -/

/-- A format that is read back and self-delimiting: `decode` is two passes of `read`, of which the
first one sees the `shape` of a message, and `Within` its limits. -/
structure Format {α : Type} [Serialize α] (decode : Bytes → Except DecodeError α)
    (read : Bool → Effect DecodeError Bytes α) (shape : α → α) (Within : α → Prop) : Prop where
  roundTrip : ∀ message, Within message → decode (encode message) = .ok message
  truncated : ∀ message front back, Within message → encode message = front ++ back → back ≠ [] →
    ∃ error, decode front = .error error
  extended : ∀ message extra, Within message → extra ≠ [] →
    ∃ error, decode (encode message ++ extra) = .error error
  outside : ∀ message, ¬ Within message → ∃ error, decode (encode message) = .error error
  materialized : ∀ bytes seen, readWhole (read false) bytes = .ok seen →
    ∃ message, readWhole (read true) bytes = .ok message ∧ shape message = seen
  accepted : ∀ bytes message, decode bytes = .ok message →
    readWhole (read false) bytes = .ok (shape message) ∧
      readWhole (read true) bytes = .ok message ∧ Within message ∧
      (encode message).length ≤ bytes.length ∧ decode (encode message) = .ok message

/-- A reader leaves what follows the code that it reads. -/
theorem readWhole_extended {α : Type} {read : Effect DecodeError Bytes α} {code extra : Bytes}
    {value : α} (reads : CursorReads read code value) (more : extra ≠ []) :
    ∃ error, readWhole read (code ++ extra) = .error error := by
  apply readWhole_rejects
  apply (reads.ensures (view_bytes (code ++ extra))).mono
  · intro _ next outcome
    obtain ⟨_, left⟩ := outcome
    have left : next = extra := left
    rw [left]
    exact List.length_pos_iff.mpr more
  · intro _ _ impossible
    cases impossible

/-- A stable reader reads no proper prefix of a code. -/
theorem readWhole_truncated {α : Type} {read : Effect DecodeError Bytes α}
    {code front back : Bytes} {value : α} (stable : Stable ByteSource.view read)
    (reads : CursorReads read code value) (split : code = front ++ back) (more : back ≠ []) :
    ∃ error, readWhole read front = .error error := by
  cases pass : readWhole read front with
  | error error => exact ⟨error, rfl⟩
  | ok other =>
      unfold readWhole at pass
      cases returned : read front with
      | error error next =>
          rw [returned] at pass
          cases pass
      | ok result next =>
          exact absurd (stable.nothing_left reads split (view_bytes front) (view_bytes code)
            returned) more

/-- A reader whose first pass sees the shape, which reads its codes back and does not look behind
them, makes a format. -/
theorem Format.of {α : Type} [Serialize α] {decode : Bytes → Except DecodeError α}
    {read : Bool → Effect DecodeError Bytes α} {shape : α → α} {Within : α → Prop}
    (refused : Bytes → Prop) [DecidablePred refused] (tooLong : DecodeError)
    (decoding : ∀ bytes,
      decode bytes = if refused bytes then .error tooLong else validated bytes read)
    (passes : read false = shape <$> read true) (stable : Stable ByteSource.view (read true))
    (reads : ∀ message, Within message → CursorReads (read true) (encode message) message)
    (fits : ∀ message, Within message → ¬ refused (encode message))
    (spends : ∀ bytes message, ¬ refused bytes → readWhole (read true) bytes = .ok message →
      (encode message).length ≤ bytes.length ∧ Within message)
    (rejects : ∀ message, ¬ Within message → ¬ refused (encode message) →
      ∃ error, readWhole (read true) (encode message) = .error error) :
    Format decode read shape Within := by
  have whole (bytes : Bytes) : decode bytes =
      if refused bytes then .error tooLong else readWhole (read true) bytes := by
    rw [decoding, validated_eq passes]
  have rejected {bytes : Bytes} (stops : ¬ refused bytes →
      ∃ error, readWhole (read true) bytes = .error error) :
      ∃ error, decode bytes = .error error := by
    rw [whole]
    by_cases long : refused bytes
    · rw [if_pos long]
      exact ⟨tooLong, rfl⟩
    · rw [if_neg long]
      exact stops long
  have roundTrip (message : α) (within : Within message) :
      decode (encode message) = .ok message := by
    rw [whole, if_neg (fits message within)]
    exact readWhole_of_reads (reads message within)
  constructor
  · exact roundTrip
  · intro message front back within split more
    apply rejected
    intro _
    exact readWhole_truncated stable (reads message within) split more
  · intro message extra within more
    apply rejected
    intro _
    exact readWhole_extended (reads message within) more
  · intro message outside
    exact rejected (rejects message outside)
  · intro bytes seen first
    rw [passes, readWhole_map] at first
    cases second : readWhole (read true) bytes with
    | error error =>
        rw [second] at first
        cases first
    | ok message =>
        rw [second] at first
        cases first
        exact ⟨message, rfl, rfl⟩
  · intro bytes message decoded
    rw [whole] at decoded
    by_cases long : refused bytes
    · rw [if_pos long] at decoded
      cases decoded
    · rw [if_neg long] at decoded
      obtain ⟨shorter, within⟩ := spends bytes message long decoded
      have seen : readWhole (read false) bytes = .ok (shape message) := by
        rw [passes, readWhole_map, decoded]
        rfl
      exact ⟨seen, decoded, within, shorter, roundTrip message within⟩

/-- The tick budget of server messages and of records. -/
theorem gated_eq {α : Type} (bytes : Bytes) (read : Bool → Effect DecodeError Bytes α) :
    (do
      if bytes.length > maxReplayRecordBytes then
        throw (.other "tick byte budget exceeded")
      validated bytes read : Except DecodeError α) =
      if bytes.length > maxReplayRecordBytes then .error (.other "tick byte budget exceeded")
      else validated bytes read := by
  by_cases long : bytes.length > maxReplayRecordBytes
  · rw [if_pos long, if_pos long]
    rfl
  · rw [if_neg long, if_neg long]

/-- Messages of a client have a format. -/
theorem format_clientMessage :
    Format decodeClientMessage Cursor.clientMessage ClientMessage.shape ClientMessage.Within := by
  apply Format.of (fun _ => False) (.other "")
  · intro bytes
    rw [if_neg not_false]
    rfl
  · exact Cursor.clientMessage_shape
  · exact Cursor.stable_clientMessage true
  · intro message within
    have read := reads_clientMessage true message fun payload input => by
      rw [input] at within
      exact within
    cases message <;> exact read
  · exact fun _ _ => not_false
  · exact fun _ _ _ decoded => spends_clientMessage.of_readWhole decoded
  · intro message outside _
    cases message with
    | progress receivedBytes replayedTick => exact absurd trivial outside
    | ready tick hash => exact absurd trivial outside
    | input payload =>
        have excess : Codec.maxPayloadBytes < payload.bytes.length := Nat.lt_of_not_le outside
        apply readWhole_rejects
        change Ensures _ (encodeVarint 0 ++ encode payload) _ _
        rw [Cursor.clientMessage, ensures_bind]
        apply ((reads_u32 0).ensures (view_bytes (encodeVarint 0 ++ encode payload))).mono
        · intro variant next outcome
          obtain ⟨same, left⟩ := outcome
          have left : next = encode payload ++ [] := by
            rw [List.append_nil]
            exact left
          subst same left
          rw [if_pos rfl, ensures_bind]
          apply (ensures_oversize_payload true excess).mono
          · intro _ _ kept
            exact kept.1
          · intro _ _ _
            trivial
        · intro _ _ impossible
          cases impossible

/-- So have those of the save. -/
theorem format_saveMessage :
    Format decodeSaveMessage Cursor.saveMessage SaveMessage.shape SaveMessage.Within := by
  apply Format.of (fun _ => False) (.other "")
  · intro bytes
    rw [if_neg not_false]
    rfl
  · exact Cursor.saveMessage_shape
  · exact Cursor.stable_saveMessage true
  · intro message within
    cases message with
    | begin metadata => exact reads_begin true metadata
    | chunk bytes => exact reads_chunk true bytes within.1 within.2
  · exact fun _ _ => not_false
  · exact fun _ _ _ decoded => spends_saveMessage.of_readWhole decoded
  · intro message outside _
    cases message with
    | begin metadata => exact absurd trivial outside
    | chunk bytes =>
        by_cases empty : bytes = []
        · subst empty
          exact ⟨.other "invalid save chunk size", by decide⟩
        · have excess : maxSaveChunkBytes < bytes.length :=
            Nat.lt_of_not_le fun small => outside ⟨empty, small⟩
          apply readWhole_rejects
          change Ensures _ (encodeVarint 1 ++ encodeBytes bytes) _ _
          rw [Cursor.saveMessage_eq, ensures_bind]
          apply ((reads_u32 1).ensures (view_bytes (encodeVarint 1 ++ encodeBytes bytes))).mono
          · intro variant next outcome
            obtain ⟨same, left⟩ := outcome
            have left : next = encodeBytes bytes ++ [] := by
              rw [List.append_nil]
              exact left
            subst same left
            rw [if_neg (by decide), if_pos rfl]
            have oversize : Ensures (Cursor.chunk true) (encodeBytes bytes ++ [])
                (fun _ next => ([] : Bytes).length < next.length ∧ 2 ^ 64 ≤ bytes.length)
                fun _ _ => True :=
              ensures_oversize (fun _ accepted => Nat.le_of_not_lt fun excess => accepted (Or.inr excess))
                rfl excess
            apply oversize.mono
            · intro _ _ kept
              exact kept.1
            · intro _ _ _
              trivial
          · intro _ _ impossible
            cases impossible

/-- So have ticks, within the budget of a record. -/
theorem format_tickAdvance :
    Format decodeTickAdvance Cursor.tick TickAdvance.shape TickAdvance.Within := by
  apply Format.of (fun bytes => bytes.length > maxReplayRecordBytes)
    (.other "tick byte budget exceeded")
  · exact fun bytes => gated_eq bytes Cursor.tick
  · exact Cursor.tick_shape
  · exact Cursor.stable_tick true
  · intro advance within
    exact reads_tick true advance within.1 (TickAdvance.few_of_length_encode_le within.2)
  · exact fun advance within => Nat.not_lt.mpr within.2
  · intro bytes advance short decoded
    obtain ⟨shorter, bounded⟩ := of_readWhole (consumes_tick bytes) decoded
    exact ⟨shorter, bounded, by omega⟩
  · intro advance outside short
    have excess : ¬ advance.Bounded := fun bounded => outside ⟨bounded, Nat.le_of_not_lt short⟩
    have small : (encode advance).length < 2 ^ 64 := by
      unfold maxReplayRecordBytes at short
      omega
    have rejected := ensures_oversize_tick true [] excess small
    rw [List.append_nil] at rejected
    apply readWhole_rejects
    apply rejected.mono
    · intro _ _ impossible
      cases impossible
    · intro _ _ _
      trivial

/-- So have messages of the server, within the same budget. -/
theorem format_serverMessage :
    Format decodeServerMessage Cursor.serverMessage ServerMessage.shape ServerMessage.Within := by
  apply Format.of (fun bytes => bytes.length > maxReplayRecordBytes)
    (.other "tick byte budget exceeded")
  · exact fun bytes => gated_eq bytes Cursor.serverMessage
  · exact Cursor.serverMessage_shape
  · exact Cursor.stable_serverMessage true
  · intro message within
    have read := reads_serverMessage true message fun advance tick => by
      subst tick
      exact ⟨within.1 advance rfl, TickAdvance.few_of_length_encode_le
        (Nat.le_trans (length_encode_tick_le advance) within.2)⟩
    cases message <;> exact read
  · exact fun message within => Nat.not_lt.mpr within.2
  · intro bytes message short decoded
    obtain ⟨shorter, bounded⟩ := spends_serverMessage.of_readWhole decoded
    exact ⟨shorter, bounded, by omega⟩
  · intro message outside short
    cases message with
    | start tick hash =>
        apply absurd _ outside
        refine ⟨?_, Nat.le_of_not_lt short⟩
        intro advance impossible
        cases impossible
    | tick advance =>
        have excess : ¬ advance.Bounded := by
          intro bounded
          apply outside
          refine ⟨?_, Nat.le_of_not_lt short⟩
          intro other same
          cases same
          exact bounded
        have small : (encode advance).length < 2 ^ 64 := by
          have part := length_encode_tick_le advance
          unfold maxReplayRecordBytes at short
          omega
        have rejected := ensures_oversize_tick true [] excess small
        rw [List.append_nil] at rejected
        apply readWhole_rejects
        change Ensures _ (encodeVarint 1 ++ encode advance) _ _
        rw [Cursor.serverMessage, ensures_bind]
        apply ((reads_u32 1).ensures (view_bytes (encodeVarint 1 ++ encode advance))).mono
        · intro variant next outcome
          obtain ⟨same, left⟩ := outcome
          have left : next = encode advance := left
          subst same left
          rw [if_neg (by decide), if_pos rfl, ensures_bind]
          apply rejected.mono
          · intro _ _ impossible
            cases impossible
          · intro _ _ _
            trivial
        · intro _ _ impossible
          cases impossible

/-- So have reports. -/
theorem format_desyncHash :
    Format decodeDesyncHash (fun _ => Cursor.desyncHash) id fun _ => True := by
  apply Format.of (fun _ => False) (.other "")
  · intro bytes
    rw [if_neg not_false]
    rfl
  · exact (id_map _).symm
  · exact Cursor.stable_desyncHash
  · exact fun report _ => reads_desyncHash report
  · exact fun _ _ => not_false
  · exact fun _ _ _ decoded => spends_desyncHash.of_readWhole decoded
  · exact fun _ outside => absurd trivial outside

/-- Every message of the protocol has a format that is read back, and is read from no proper prefix
or extension of its encoding; what is accepted is within its limits. -/
theorem formats_self_delimiting :
    Format decodeClientMessage Cursor.clientMessage ClientMessage.shape ClientMessage.Within ∧
    Format decodeServerMessage Cursor.serverMessage ServerMessage.shape ServerMessage.Within ∧
    Format decodeSaveMessage Cursor.saveMessage SaveMessage.shape SaveMessage.Within ∧
    Format decodeDesyncHash (fun _ => Cursor.desyncHash) id (fun _ => True) ∧
    Format decodeTickAdvance Cursor.tick TickAdvance.shape TickAdvance.Within :=
  ⟨format_clientMessage, format_serverMessage, format_saveMessage, format_desyncHash,
    format_tickAdvance⟩

end Synctick
