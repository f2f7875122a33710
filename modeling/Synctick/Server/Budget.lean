import Synctick.Replay.Reader
import Synctick.Server.TickLoop

/-! # The byte budget of a tick

Each command is accounted with 32 bytes of framing. It takes fewer, so a tick whose
commands are within the budget is within it when it is encoded.
-/

namespace Synctick

open Bincode Effect

/-- The byte budget that commands take. -/
def cost (commands : List Command) : Nat :=
  (commands.map fun command => command.payload.bytes.length + 32).sum

@[simp] theorem cost_nil : cost [] = 0 := rfl

@[simp] theorem cost_cons (command : Command) (commands : List Command) :
    cost (command :: commands) = command.payload.bytes.length + 32 + cost commands :=
  List.sum_cons

/-- Commands in a row cost what they cost alone. -/
@[simp] theorem cost_append (front back : List Command) :
    cost (front ++ back) = cost front + cost back := by
  unfold cost
  rw [List.map_append, List.sum_append]

/-- The text of a tick that exceeds its budget. -/
def budgetExceeded : SessionError := .protocol "tick byte budget exceeded"

/-- A command is accounted for where the total stays within the budget. It never wraps. -/
theorem accountInput_eq (total payload : Nat) : accountInput total payload =
    if total + payload + 32 > maxReplayRecordBytes then .error budgetExceeded
    else .ok (total + payload + 32) := by
  unfold accountInput
  by_cases excess : total + payload + 32 > maxReplayRecordBytes
  · rw [if_pos excess, if_pos excess]
    by_cases wide : total + payload + 32 ≥ 2 ^ 64
    · rw [if_pos wide]
      rfl
    · rw [if_neg wide]
      rfl
  · have narrow : ¬ total + payload + 32 ≥ 2 ^ 64 := by
      unfold maxReplayRecordBytes at excess
      omega
    rw [if_neg narrow, if_neg excess, if_neg excess]

/-- The framing of a command takes at most 15 bytes, where 32 are budgeted. -/
theorem length_encode_commands_le {commands : List Command}
    (small : ∀ command ∈ commands, command.payload.bytes.length < 2 ^ 32) :
    (commands.flatMap encode).length + 17 * commands.length ≤ cost commands := by
  induction commands with
  | nil => exact Nat.le_refl 0
  | cons command commands ih =>
      have rest := ih fun other member => small other (List.mem_cons_of_mem _ member)
      have participant : (encode command.participant).length ≤ 10 := by
        cases command.participant with
        | host => exact Nat.le_of_ble_eq_true rfl
        | remote id =>
            have length := length_encodeVarint_le id.toNat
            change (encodeVarint 1 ++ encodeVarint id.toNat).length ≤ 10
            rw [List.length_append]
            have variant : (encodeVarint 1).length = 1 := rfl
            omega
      have payload : (encode command.payload).length ≤ 5 + command.payload.bytes.length := by
        change (encodeVarint command.payload.bytes.length ++ command.payload.bytes).length ≤ _
        rw [List.length_append]
        exact Nat.add_le_add_right
          (length_encodeVarint_le_of_lt (small command List.mem_cons_self)) _
      have whole : (encode command).length =
          (encode command.participant).length + (encode command.payload).length :=
        List.length_append
      rw [List.flatMap_cons, List.length_append, List.length_cons, cost_cons, whole]
      omega

/-- A command costs no more than all of them. -/
theorem length_le_cost {commands : List Command} {command : Command} (member : command ∈ commands) :
    command.payload.bytes.length + 32 ≤ cost commands :=
  List.single_le_sum (fun _ _ => Nat.zero_le _) _
    (List.mem_map.mpr ⟨command, member, rfl⟩)

/-- Each command costs at least its framing. -/
theorem length_le_of_cost (commands : List Command) : 32 * commands.length ≤ cost commands := by
  induction commands with
  | nil => exact Nat.le_refl 0
  | cons command commands ih =>
      rw [List.length_cons, cost_cons]
      omega

/-- A tick whose commands are within the budget is, with its framing. -/
theorem encoded_of_affordable (tick : UInt64) {inputs : List Command}
    (affordable : cost inputs ≤ maxReplayRecordBytes) :
    (encode (ServerMessage.tick { tick, inputs })).length ≤ maxReplayRecordBytes := by
  have size : maxReplayRecordBytes = 262144 := rfl
  have framed : (inputs.flatMap encode).length + 17 * inputs.length ≤ cost inputs := by
    apply length_encode_commands_le
    intro command member
    have short := length_le_cost member
    omega
  have few := length_le_of_cost inputs
  have number := length_encodeVarint_le tick.toNat
  have count : (encodeVarint inputs.length).length ≤ 5 :=
    length_encodeVarint_le_of_lt (by omega)
  have variant : (encodeVarint 1).length = 1 := rfl
  have whole : (encode (ServerMessage.tick { tick, inputs })).length = (encodeVarint 1).length +
      ((encodeVarint tick.toNat).length + ((encodeVarint inputs.length).length +
        (inputs.flatMap encode).length)) := by
    change (encodeVarint 1 ++ (encodeVarint tick.toNat ++ (encodeVarint inputs.length ++
      inputs.flatMap encode))).length = _
    rw [List.length_append, List.length_append, List.length_append]
  rcases Nat.eq_zero_or_pos inputs.length with none | some
  · have nothing := List.length_eq_zero_iff.mp none
    subst nothing
    have empty : (List.flatMap encode ([] : List Command)).length = 0 := rfl
    omega
  · omega

/-- Account for the commands of a tick, one after another. -/
def account (inputs : List Command) (total : Nat) : SessionResult Nat :=
  inputs.foldlM (fun total command => accountInput total command.payload.bytes.length) total

/-- What is accounted is what the commands cost, and it is within the budget. -/
theorem cost_of_accounted {inputs : List Command} {start total : Nat}
    (accounted : account inputs start = .ok total) :
    total = start + cost inputs ∧ (start ≤ maxReplayRecordBytes → total ≤ maxReplayRecordBytes) := by
  induction inputs generalizing start with
  | nil =>
      cases accounted
      exact ⟨rfl, fun within => within⟩
  | cons command inputs ih =>
      rw [account, List.foldlM_cons] at accounted
      obtain ⟨middle, first, rest⟩ := except_bind_eq_ok.mp accounted
      obtain ⟨sum, within⟩ := ih rest
      rw [accountInput_eq] at first
      by_cases excess : start + command.payload.bytes.length + 32 > maxReplayRecordBytes
      · rw [if_pos excess] at first
        cases first
      · rw [if_neg excess] at first
        cases first
        refine ⟨?_, fun _ => within (Nat.le_of_not_lt excess)⟩
        rw [sum, cost_cons]
        omega

/-- A tick whose commands were all accounted is encoded, recorded, and read back by peers
and from the recording. -/
theorem accounted_tick_fits (tick : UInt64) (inputs : List Command) (total : Nat)
    (small : ∀ command ∈ inputs, command.payload.bytes.length ≤ Codec.maxPayloadBytes)
    (accounted : account inputs 0 = .ok total) :
    (encode (ServerMessage.tick { tick, inputs })).length ≤ maxReplayRecordBytes ∧
      (∀ writer : ReplayWriter, Ensures (ReplayWriter.append { tick, inputs }) writer
        (fun _ next => next.written = writer.written ++ record { tick, inputs })
        (fun _ _ => ¬ writer.Healthy)) ∧
      decodeServerMessage (encode (ServerMessage.tick { tick, inputs })) =
        .ok (.tick { tick, inputs }) ∧
      ∀ (reader : ReplayReader) (rest : Bytes),
        reader.source.bytes = record { tick, inputs } ++ rest →
          ∃ next, ReplayReader.nextRecord reader = .ok (some { tick, inputs }) next ∧
            next.source.bytes = rest := by
  obtain ⟨sum, within⟩ := cost_of_accounted accounted
  have affordable : cost inputs ≤ maxReplayRecordBytes := by
    have bounded := within (Nat.zero_le _)
    rwa [sum, Nat.zero_add] at bounded
  have encoded := encoded_of_affordable tick affordable
  have bounded : TickAdvance.Bounded { tick, inputs } := small
  have recorded := Nat.le_trans (length_encode_tick_le { tick, inputs }) encoded
  refine ⟨encoded, ?_, decodeServerMessage_tick _ small encoded, ?_⟩
  · intro writer
    apply (ReplayWriter.ensures_append { tick, inputs } writer).mono
    · intro _ next outcome
      exact outcome.2.1
    · intro _ _ outcome healthy
      exact Nat.not_lt.mpr recorded (outcome.2 healthy).1
  · intro reader rest front
    exact ReplayReader.reads_record bounded recorded reader rest front

/-- Four commands of three participants, which take up the whole budget. -/
def crowdedInputs : List Command :=
  [⟨.host, ⟨List.replicate 65504 7⟩⟩, ⟨.remote 1, ⟨List.replicate 65504 8⟩⟩,
    ⟨.remote 2, ⟨List.replicate 65504 9⟩⟩, ⟨.remote 1, ⟨List.replicate 65504 10⟩⟩]

theorem accounted_tick_fits_crowded :
    account crowdedInputs 0 = .ok maxReplayRecordBytes ∧
      (encode (ServerMessage.tick { tick := 5, inputs := crowdedInputs })).length ≤
        maxReplayRecordBytes ∧
      decodeServerMessage (encode (ServerMessage.tick { tick := 5, inputs := crowdedInputs })) =
        .ok (.tick { tick := 5, inputs := crowdedInputs }) := by
  have small : ∀ command ∈ crowdedInputs,
      command.payload.bytes.length ≤ Codec.maxPayloadBytes := by
    simp only [crowdedInputs, List.forall_mem_cons, List.length_replicate, Codec.maxPayloadBytes]
    exact ⟨by decide, by decide, by decide, by decide, List.forall_mem_nil _⟩
  have accounted : account crowdedInputs 0 = .ok maxReplayRecordBytes := by
    simp only [account, crowdedInputs, List.foldlM_cons, List.foldlM_nil, accountInput_eq,
      List.length_replicate]
    rfl
  obtain ⟨encoded, _, decoded, _⟩ := accounted_tick_fits 5 crowdedInputs _ small accounted
  exact ⟨accounted, encoded, decoded⟩

end Synctick
