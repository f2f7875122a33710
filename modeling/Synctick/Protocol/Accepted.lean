import Synctick.Protocol.RoundTrip

/-! # What a decoder accepts is well formed

A decoder may accept an integer in a longer form than the encoder writes, so an
accepted message need not be the encoding of its value. Its value is within the
limits of the protocol all the same, and encodes to no more bytes than were read.
-/

namespace Synctick

open Bincode Effect

/-- Reading leaves at most what is left by a value that takes `size` bytes. -/
abbrev Consumes {α : Type} (read : Effect DecodeError Bytes α) (state : Bytes)
    (size : α → Nat) (accepted : α → Prop) : Prop :=
  Ensures read state (fun value next => size value + next.length ≤ state.length ∧ accepted value)
    fun _ _ => True

/-- Taking bytes takes exactly so many. -/
theorem ensures_take (count : Nat) (state : Bytes) :
    Ensures (ByteSource.take count) state
      (fun bytes next => bytes.length = count ∧ count + next.length = state.length)
      fun _ _ => True := by
  by_cases enough : count ≤ state.length
  · have returned : (ByteSource.take count : Effect DecodeError Bytes Bytes) state =
        .ok (state.take count) (state.drop count) := by
      simp only [ByteSource.take, enough, ↓reduceIte]
    simp only [Ensures, returned, List.length_take, List.length_drop]
    omega
  · have stopped : (ByteSource.take count : Effect DecodeError Bytes Bytes) state =
        .error .unexpectedEnd state := by
      simp only [ByteSource.take, enough, ↓reduceIte]
    simp only [Ensures, stopped]

/-- A number that fits a form is encoded in no more bytes than that form. -/
theorem length_encodeVarint_le_of_lt_pow {value width : Nat}
    (form : width = 2 ∨ width = 4 ∨ width = 8) (fits : value < 256 ^ width) :
    (encodeVarint value).length ≤ 1 + width := by
  unfold encodeVarint
  rcases form with rfl | rfl | rfl
  · split_ifs <;> simp <;> omega
  · split_ifs <;> simp
    omega
  · split_ifs <;> simp

/-- The remainder of an integer after its marker. -/
private theorem consumes_wide (width : Nat) (form : width = 2 ∨ width = 4 ∨ width = 8)
    (state : Bytes) :
    Ensures (do
      let bytes ← ByteSource.take width
      pure (ofLittleEndian bytes)) state
      (fun value next => (encodeVarint value).length + next.length ≤ 1 + state.length ∧
        value < 256 ^ width) fun _ _ => True := by
  rw [ensures_bind]
  refine (ensures_take width state).mono ?_ fun _ _ stopped => stopped
  rintro bytes next ⟨taken, left⟩
  have fits := ofLittleEndian_lt bytes
  rw [taken] at fits
  have short := length_encodeVarint_le_of_lt_pow form fits
  refine ⟨?_, fits⟩
  omega

/-- An integer is read from at least the bytes of its own code, and fits its type. -/
theorem consumes_readVarint (wide : Bool) (state : Bytes) :
    Consumes (readVarint wide) state (fun value => (encodeVarint value).length)
      (fun value => value < 2 ^ 32 ∨ wide ∧ value < 2 ^ 64) := by
  unfold readVarint readByte
  simp only [ensures_bind, Consumes]
  refine (ensures_take 1 state).mono ?_ fun _ _ stopped => stopped
  rintro bytes next ⟨taken, left⟩
  rw [ensures_pure]
  generalize bytes.headD 0 = marker
  by_cases one : marker.toNat < 251
  · have single : (encodeVarint marker.toNat).length = 1 := by simp [encodeVarint, one]
    simp only [one, ↓reduceIte, ensures_pure, single]
    omega
  by_cases two : marker = 251
  · rw [if_neg one, if_pos two]
    refine (consumes_wide 2 (by omega) next).mono ?_ fun _ _ stopped => stopped
    rintro value rest ⟨shorter, fits⟩
    omega
  by_cases four : marker = 252
  · rw [if_neg one, if_neg two, if_pos four]
    refine (consumes_wide 4 (by omega) next).mono ?_ fun _ _ stopped => stopped
    rintro value rest ⟨shorter, fits⟩
    omega
  by_cases eight : marker = 253 ∧ wide
  · rw [if_neg one, if_neg two, if_neg four, if_pos eight]
    refine (consumes_wide 8 (by omega) next).mono ?_ fun _ _ stopped => stopped
    rintro value rest ⟨shorter, fits⟩
    exact ⟨by omega, Or.inr ⟨eight.2, by omega⟩⟩
  · rw [if_neg one, if_neg two, if_neg four, if_neg eight, ensures_throw]
    trivial

theorem consumes_readU64 (state : Bytes) :
    Consumes readU64 state (fun value => (encode value).length) fun _ => True := by
  unfold readU64
  rw [Consumes, ensures_bind]
  refine (consumes_readVarint true state).mono ?_ fun _ _ stopped => stopped
  rintro value next ⟨shorter, fits⟩
  have same : (UInt64.ofNat value).toNat = value := UInt64.toNat_ofNat_of_lt' (by
    change value < 2 ^ 64
    omega)
  rw [ensures_pure]
  refine ⟨?_, trivial⟩
  change (encodeVarint (UInt64.ofNat value).toNat).length + _ ≤ _
  rwa [same]

theorem consumes_readU32 (state : Bytes) :
    Consumes readU32 state (fun value => (encodeVarint value.toNat).length) fun _ => True := by
  unfold readU32
  rw [Consumes, ensures_bind]
  refine (consumes_readVarint false state).mono ?_ fun _ _ stopped => stopped
  rintro value next ⟨shorter, fits⟩
  have same : (UInt32.ofNat value).toNat = value := UInt32.toNat_ofNat_of_lt' (by
    change value < 2 ^ 32
    rcases fits with small | ⟨impossible, _⟩
    · exact small
    · cases impossible)
  rw [ensures_pure, same]
  exact ⟨shorter, trivial⟩

/-- An accepted length is there to be read. -/
theorem consumes_cursor_length (state : Bytes) :
    Ensures Cursor.length state
      (fun value next => (encodeVarint value).length + next.length ≤ state.length ∧
        value ≤ next.length) fun _ _ => True := by
  unfold Cursor.length
  rw [ensures_bind]
  refine (consumes_readU64 state).mono ?_ fun _ _ stopped => stopped
  rintro length next ⟨shorter, _⟩
  by_cases excess : length.toNat > next.length
  · simp only [ensures_bind, ensures_get, excess, ↓reduceIte, ensures_throw]
  · simp only [ensures_bind, ensures_get, excess, ↓reduceIte, ensures_pure]
    exact ⟨shorter, by omega⟩

/-- A payload is read from at least the bytes of its own code, and is within its limit. -/
theorem consumes_payload (state : Bytes) :
    Consumes (Cursor.payload true) state (fun payload => (encode payload).length)
      (fun payload => payload.bytes.length ≤ Codec.maxPayloadBytes) := by
  unfold Cursor.payload
  rw [Consumes, ensures_bind]
  refine (consumes_cursor_length state).mono ?_ fun _ _ stopped => stopped
  rintro length next ⟨shorter, there⟩
  by_cases excess : length > Codec.maxPayloadBytes
  · simp only [excess, ↓reduceIte, ensures_bind, ensures_throw]
  · simp only [excess, ↓reduceIte, ensures_bind, ensures_get, ensures_set, ensures_pure]
    have size : (next.take length).length = length := by
      rw [List.length_take, Nat.min_eq_left there]
    change (encodeVarint (next.take length).length ++ next.take length).length + _ ≤ _ ∧ _
    rw [List.length_append, size, List.length_drop]
    omega

theorem consumes_participant (state : Bytes) :
    Consumes Cursor.participant state (fun participant => (encode participant).length)
      fun _ => True := by
  unfold Cursor.participant
  rw [Consumes, ensures_bind]
  refine (consumes_readU32 state).mono ?_ fun _ _ stopped => stopped
  rintro variant next ⟨shorter, _⟩
  by_cases host : variant = 0
  · simp only [host, ↓reduceIte, ensures_pure, and_true]
    rw [host] at shorter
    exact shorter
  by_cases remote : variant = 1
  · rw [if_neg host, if_pos remote, ensures_bind]
    refine (consumes_readU64 next).mono ?_ fun _ _ stopped => stopped
    rintro id rest ⟨left, _⟩
    dsimp only at left
    rw [remote] at shorter
    refine ⟨?_, trivial⟩
    change (encodeVarint 1 ++ encode id).length + _ ≤ _
    rw [List.length_append]
    change (encodeVarint 1).length + _ ≤ _ at shorter
    omega
  · simp only [host, remote, ↓reduceIte, ensures_throw]

theorem consumes_command (state : Bytes) :
    Consumes (Cursor.command true) state (fun command => (encode command).length)
      (fun command => command.payload.bytes.length ≤ Codec.maxPayloadBytes) := by
  unfold Cursor.command
  rw [Consumes, ensures_bind]
  refine (consumes_participant state).mono ?_ fun _ _ stopped => stopped
  rintro participant next ⟨front, _⟩
  rw [ensures_bind]
  refine (consumes_payload next).mono ?_ fun _ _ stopped => stopped
  rintro payload rest ⟨back, small⟩
  dsimp only at front back
  refine ⟨?_, small⟩
  change (encode participant ++ encode payload).length + _ ≤ _
  rw [List.length_append]
  omega

/-- Commands are read from at least the bytes of their codes, as many as were announced. -/
theorem consumes_commands (count : Nat) (state : Bytes) :
    Consumes (readMany (Cursor.command true) count) state
      (fun commands => (commands.flatMap encode).length)
      (fun commands => commands.length = count ∧
        ∀ command ∈ commands, command.payload.bytes.length ≤ Codec.maxPayloadBytes) := by
  induction count generalizing state with
  | zero => exact ⟨by simp, rfl, by simp⟩
  | succ count ih =>
      unfold readMany
      rw [Consumes, ensures_bind]
      refine (consumes_command state).mono ?_ fun _ _ stopped => stopped
      rintro command next ⟨front, small⟩
      rw [ensures_bind]
      refine (ih next).mono ?_ fun _ _ stopped => stopped
      rintro commands rest ⟨back, counted, each⟩
      dsimp only at front back
      refine ⟨?_, ?_, ?_⟩
      · rw [List.flatMap_cons, List.length_append]
        omega
      · rw [List.length_cons, counted]
      · intro other member
        rcases List.mem_cons.mp member with rfl | member
        · exact small
        · exact each other member

/-- So is a tick with all its commands. -/
theorem consumes_tick (state : Bytes) :
    Consumes (Cursor.tick true) state (fun advance => (encode advance).length)
      TickAdvance.Bounded := by
  unfold Cursor.tick
  rw [Consumes, ensures_bind]
  refine (consumes_readU64 state).mono ?_ fun _ _ stopped => stopped
  rintro tick next ⟨front, _⟩
  rw [ensures_bind]
  refine (consumes_cursor_length next).mono ?_ fun _ _ stopped => stopped
  rintro count middle ⟨counter, _⟩
  rw [ensures_bind]
  refine (consumes_commands count middle).mono ?_ fun _ _ stopped => stopped
  rintro inputs rest ⟨back, counted, each⟩
  dsimp only at front back
  refine ⟨?_, each⟩
  change (encode tick ++ (encodeVarint inputs.length ++ inputs.flatMap encode)).length + _ ≤ _
  rw [List.length_append, List.length_append, counted]
  omega

/-- What a pass that accepts its bytes ensures of its value. -/
theorem of_readWhole {α : Type} {read : Effect DecodeError Bytes α} {size : α → Nat}
    {accepted : α → Prop} {bytes : Bytes} {value : α} (consumes : Consumes read bytes size accepted)
    (decoded : readWhole read bytes = .ok value) : size value ≤ bytes.length ∧ accepted value := by
  unfold readWhole at decoded
  cases pass : read bytes with
  | error error next =>
      rw [pass] at decoded
      cases decoded
  | ok result next =>
      have kept := ensures_of_ok consumes pass
      rw [pass] at decoded
      by_cases finished : next.isEmpty = true
      · simp only [finished, ↓reduceIte, Except.ok.injEq] at decoded
        subst decoded
        exact ⟨by omega, kept.2⟩
      · simp only [finished] at decoded
        cases decoded

/-- What the last pass over an accepted message ensures of its value. -/
theorem of_validated {α : Type} {bytes : Bytes} {read : Bool → Effect DecodeError Bytes α}
    {value : α} {size : α → Nat} {accepted : α → Prop}
    (consumes : Consumes (read true) bytes size accepted)
    (decoded : validated bytes read = .ok value) : size value ≤ bytes.length ∧ accepted value := by
  obtain ⟨_, _, second⟩ := except_bind_eq_ok.mp decoded
  exact of_readWhole consumes second

/-- An accepted tick is within the limits of the protocol: its record is no longer than the one
it was read from. -/
theorem accepted_of_decodeTickAdvance {bytes : Bytes} {advance : TickAdvance}
    (decoded : decodeTickAdvance bytes = .ok advance) :
    advance.Bounded ∧ (encode advance).length ≤ maxReplayRecordBytes := by
  unfold decodeTickAdvance at decoded
  by_cases excess : bytes.length > maxReplayRecordBytes
  · simp only [excess, ↓reduceIte] at decoded
    cases decoded
  · simp only [excess, ↓reduceIte] at decoded
    obtain ⟨shorter, bounded⟩ := of_validated (consumes_tick bytes) decoded
    exact ⟨bounded, by omega⟩

end Synctick
