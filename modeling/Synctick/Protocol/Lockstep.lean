import Synctick.Protocol.Format

/-! # The lockstep stream

After the save, an authority sends the start and then its ticks. A replica can tell the messages
of the stream apart.
-/

namespace Synctick

/-- What an authority broadcasts: the start, and the ticks since. -/
def lockstepMessages (metadata : SaveMetadata) (ticks : List TickAdvance) : List Bytes :=
  encode (ServerMessage.start metadata.tick metadata.hash) ::
    ticks.map fun advance => encode (ServerMessage.tick advance)

theorem lockstepMessages_concat (metadata : SaveMetadata) (ticks : List TickAdvance)
    (advance : TickAdvance) : lockstepMessages metadata (ticks ++ [advance]) =
      lockstepMessages metadata ticks ++ [encode (ServerMessage.tick advance)] := by
  rw [lockstepMessages, List.map_append]
  rfl

/-- The first message that is not of the first ticks is of the next one. -/
theorem next_lockstepMessage {metadata : SaveMetadata} {applied ticks : List TickAdvance}
    {bytes : Bytes} {later : List Bytes}
    (heard : lockstepMessages metadata applied ++ bytes :: later <+: lockstepMessages metadata ticks) :
    ∃ earlier advance rest, ticks = earlier ++ advance :: rest ∧
      earlier.map (fun advance => encode (ServerMessage.tick advance)) =
        applied.map (fun advance => encode (ServerMessage.tick advance)) ∧
      bytes = encode (ServerMessage.tick advance) := by
  obtain ⟨unheard, split⟩ := heard
  unfold lockstepMessages at split
  rw [List.cons_append, List.cons_append, List.cons.injEq, List.append_assoc,
    List.cons_append] at split
  obtain ⟨earlier, back, same, first, rest⟩ := List.map_eq_append_iff.mp split.2.symm
  obtain ⟨advance, rest, same', newest, _⟩ := List.map_eq_cons_iff.mp rest
  exact ⟨earlier, advance, rest, by rw [same, same'], first, newest.symm⟩

/-- A tick that an authority can broadcast. -/
def TickAdvance.Broadcastable (advance : TickAdvance) : Prop :=
  advance.Bounded ∧ (encode (ServerMessage.tick advance)).length ≤ maxReplayRecordBytes

/-- Ticks are told apart by their messages. -/
theorem eq_of_messages {first second : List TickAdvance}
    (sound : ∀ advance ∈ first, advance.Broadcastable)
    (sound' : ∀ advance ∈ second, advance.Broadcastable)
    (same : first.map (fun advance => encode (ServerMessage.tick advance)) =
      second.map (fun advance => encode (ServerMessage.tick advance))) : first = second := by
  induction first generalizing second with
  | nil =>
      cases second with
      | nil => rfl
      | cons => cases same
  | cons advance first ih =>
      cases second with
      | nil => cases same
      | cons other second =>
          rw [List.map_cons, List.map_cons, List.cons.injEq] at same
          obtain ⟨bounded, within⟩ := sound advance List.mem_cons_self
          obtain ⟨bounded', within'⟩ := sound' other List.mem_cons_self
          have decoded := decodeServerMessage_tick advance bounded within
          rw [same.1, decodeServerMessage_tick other bounded' within'] at decoded
          cases decoded
          rw [ih (fun advance member => sound advance (List.mem_cons_of_mem _ member))
            (fun advance member => sound' advance (List.mem_cons_of_mem _ member)) same.2]

/-- A part of the stream is of the first ticks. -/
theorem prefix_of_lockstepMessages {metadata : SaveMetadata} {applied ticks : List TickAdvance}
    (sound : ∀ advance ∈ applied, advance.Broadcastable)
    (sound' : ∀ advance ∈ ticks, advance.Broadcastable)
    (heard : lockstepMessages metadata applied <+: lockstepMessages metadata ticks) :
    applied <+: ticks := by
  obtain ⟨unheard, split⟩ := heard
  unfold lockstepMessages at split
  rw [List.cons_append, List.cons.injEq] at split
  obtain ⟨earlier, rest, same, first, _⟩ := List.map_eq_append_iff.mp split.2.symm
  rw [same]
  have follows : earlier = applied := by
    apply eq_of_messages _ sound first
    intro advance member
    apply sound'
    rw [same]
    exact List.mem_append_left _ member
  rw [follows]
  exact List.prefix_append _ _

theorem lockstepMessages_mono {ticks ticks' : List TickAdvance} (metadata : SaveMetadata)
    (grows : ticks <+: ticks') :
    lockstepMessages metadata ticks <+: lockstepMessages metadata ticks' := by
  obtain ⟨more, same⟩ := grows
  rw [← same, lockstepMessages, lockstepMessages, List.map_append, ← List.cons_append]
  exact List.prefix_append _ _

end Synctick
