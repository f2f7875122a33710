import Synctick.Server.Live

/-! # Ticks are recorded before they are broadcast, and broadcast before they are applied

However a live loop stops, the applied ticks are a prefix of those it broadcast, and
these of those it recorded, each at most one shorter. So no peer receives a tick that the
recording lacks.
-/

namespace Synctick

open SessionSimulation Effect

variable {G : Game}

/-- A tick that is admitted after others: it has the number that follows, fits its
budget, and its payloads are valid commands of at most 64 KiB. -/
def Admissible (first : Traced (Adapter G)) (front : List TickAdvance) (advance : TickAdvance) :
    Prop :=
  ∃ sim, Lives first front sim ∧ Sequenced sim advance ∧ advance.Bounded

/-- How far a live loop got: `torn` is what a failed append left of a record. -/
structure WriteAhead (start : Authority (Traced (Adapter G))) (writer : ReplayWriter)
    (next : Authority (Traced (Adapter G))) (applied broadcast appended : List TickAdvance)
    (torn : Bytes) : Prop where
  applies : next.sim.applied = start.sim.applied ++ applied
  broadcasts : next.server.broadcasts = start.server.broadcasts ++
    broadcast.map fun advance => (.lockstep, encode (ServerMessage.tick advance))
  appends : ∃ recording, next.writer = some recording ∧
    recording.written = writer.written ++ (records appended ++ torn)
  applied_prefix : applied <+: broadcast
  broadcast_prefix : broadcast <+: appended
  applied_behind : broadcast.length ≤ applied.length + 1
  broadcast_behind : appended.length ≤ broadcast.length + 1
  admissible : ∀ front advance back, appended = front ++ advance :: back →
    Admissible start.sim front advance
  partly : torn = [] ∨ appended = broadcast ∧ ∃ advance, Admissible start.sim appended advance ∧
    torn <+: record advance

theorem bounded_of_sequenced {sim : Traced (Adapter G)} {advance : TickAdvance}
    (sequenced : Sequenced sim advance) : advance.Bounded := by
  have traced : Sequenced sim.sim advance := ⟨sequenced.continues, sequenced.within, sequenced.valid⟩
  exact traced.bounded

theorem applied_of_lives {σ : Type} [SessionSimulation σ] {first last : Traced σ}
    {ticks : List TickAdvance} (lives : Lives first ticks last) :
    last.applied = first.applied ++ ticks := by
  induction lives with
  | here => exact (List.append_nil _).symm
  | tick _ _ applies ih =>
      rw [Traced.applied_of_tickApplied applies, ih, List.append_assoc]

theorem admissible_of_lives {first last : Traced (Adapter G)} {ticks : List TickAdvance}
    (lives : Lives first ticks last) (front : List TickAdvance) (advance : TickAdvance)
    (back : List TickAdvance) (split : ticks = front ++ advance :: back) :
    Admissible first front advance := by
  obtain ⟨sim, earlier, sequenced⟩ := lives.sequenced split
  exact ⟨sim, earlier, sequenced, bounded_of_sequenced sequenced⟩

namespace Authority

variable {start current next : Authority (Traced (Adapter G))} {writer : ReplayWriter}
  {ticks : List TickAdvance}

/-- Between two ticks, everything that was recorded was broadcast and applied. -/
theorem writeAhead_of_same (recording : start.writer = some writer)
    (running : Running start current ticks) (same : Same current next) :
    WriteAhead start writer next ticks ticks ticks [] where
  applies := by rw [same.sim, applied_of_lives running.lives]
  broadcasts := same.broadcasts.trans running.broadcasts
  appends := by
    obtain ⟨grown, there, written, _⟩ := running.recorded.written writer recording
    exact ⟨grown, same.writer.trans there, by rw [written, List.append_nil]⟩
  applied_prefix := List.prefix_refl _
  broadcast_prefix := List.prefix_refl _
  applied_behind := Nat.le_succ _
  broadcast_behind := Nat.le_succ _
  admissible := admissible_of_lives running.lives
  partly := Or.inl rfl

/-- The number, the budget and the commands of the tick under way are fine once it was
gathered and encoded. -/
theorem sequenced_of_gathered {middle : Authority (Traced (Adapter G))} {input : TickInput}
    {tick : UInt64} (gathered : Gathered (current.entered input) middle input)
    (continues : checkedAdd (currentTick middle.sim) 1 = some tick)
    (within : (encode (ServerMessage.tick
      { tick, inputs := (current.entered input).available input })).length ≤
        maxReplayRecordBytes) :
    Sequenced current.sim { tick, inputs := (current.entered input).available input } := by
  have enters := same_entered current input
  rw [gathered.same.sim, enters.sim] at continues
  refine ⟨continues, within, ?_⟩
  rw [← enters.sim]
  exact gathered.valid

/-- A record that fails to be appended is of the next tick, which nobody receives. -/
theorem writeAhead_of_unrecorded {torn grown : ReplayWriter} {error : IoError}
    {advance : TickAdvance} (recording : start.writer = some writer)
    (running : Running start current ticks) (same : Same current next)
    (sequenced : Sequenced current.sim advance) (there : next.writer = some grown)
    (fails : ReplayWriter.append advance grown = .error error torn) :
    ∃ rest, WriteAhead start writer { next with writer := some torn } ticks ticks ticks rest := by
  obtain ⟨⟨rest, partly, written⟩, _⟩ :=
    ensures_of_error (ReplayWriter.ensures_append advance grown) fails
  have before := writeAhead_of_same recording running same
  refine ⟨rest, { before with appends := ?_, partly := ?_ }⟩
  · obtain ⟨recorded, there', whole⟩ := before.appends
    rw [there] at there'
    cases there'
    refine ⟨torn, rfl, ?_⟩
    rw [written, whole, List.append_nil, List.append_assoc]
  · exact Or.inr ⟨rfl, advance, ⟨current.sim, running.lives, sequenced,
      bounded_of_sequenced sequenced⟩, partly⟩

/-- A tick that fails to be applied was recorded and broadcast. -/
theorem writeAhead_of_rejected {middle : Authority (Traced (Adapter G))}
    {recording' : Option ReplayWriter} {error : SessionError} {sim : Traced (Adapter G)}
    {advance : TickAdvance} (recording : start.writer = some writer)
    (running : Running start current ticks) (same : Same current middle)
    (sequenced : Sequenced current.sim advance)
    (recorded : Mirrors [advance] middle.writer recording')
    (rejects : TickRejected advance .live middle.sim error sim) :
    ∃ applied, WriteAhead start writer
      { middle with writer := recording', server := middle.broadcasting advance, sim }
      applied (ticks ++ [advance]) (ticks ++ [advance]) [] := by
  have before : middle.sim.applied = start.sim.applied ++ ticks := by
    rw [same.sim, applied_of_lives running.lives]
  have mirrored : Mirrors (ticks ++ [advance]) start.writer recording' := by
    rw [same.writer] at recorded
    exact running.recorded.trans recorded
  have progress (applied : List TickAdvance) (applies : sim.applied = start.sim.applied ++ applied)
      (earlier : applied <+: ticks ++ [advance]) (behind : ticks.length ≤ applied.length) :
      WriteAhead start writer
        { middle with writer := recording', server := middle.broadcasting advance, sim }
        applied (ticks ++ [advance]) (ticks ++ [advance]) [] := by
    refine ⟨applies, ?_, ?_, earlier, List.prefix_refl _, ?_, Nat.le_succ _, ?_, Or.inl rfl⟩
    · exact broadcasts_broadcasting (same.broadcasts.trans running.broadcasts) advance
    · obtain ⟨grown, there, written, _⟩ := mirrored.written writer recording
      exact ⟨grown, there, by rw [written, List.append_nil]⟩
    · rw [List.length_append]
      exact Nat.succ_le_succ behind
    · intro front last back split
      rcases split_concat split with ⟨same, rfl⟩ | ⟨others, split⟩
      · rw [same]
        exact ⟨current.sim, running.lives, sequenced, bounded_of_sequenced sequenced⟩
      · exact admissible_of_lives running.lives front last others split
  rcases Traced.applied_of_tickRejected rejects with none | ⟨_, one⟩
  · exact ⟨ticks, progress ticks (none.trans before) (List.prefix_append _ _) (Nat.le_refl _)⟩
  · refine ⟨ticks ++ [advance], progress _ ?_ (List.prefix_refl _) ?_⟩
    · rw [one, before, List.append_assoc]
    · rw [List.length_append]
      exact Nat.le_add_right _ _

/-- However an iteration fails, the order is kept. -/
theorem writeAhead_of_stopped {policy : DesyncPolicy} {input : TickInput} {error : SessionError}
    (recording : start.writer = some writer) (running : Running start current ticks)
    (stopped : IterationStopped policy current input error next) :
    ∃ applied broadcast appended torn,
      WriteAhead start writer next applied broadcast appended torn := by
  have enters := same_entered current input
  cases stopped with
  | network =>
      exact ⟨ticks, ticks, ticks, [], writeAhead_of_same recording running ⟨rfl, rfl, rfl, rfl⟩⟩
  | gathering _ same => exact ⟨ticks, ticks, ticks, [], writeAhead_of_same recording running same⟩
  | @sequencing _ middle _ _ gathered fails =>
      have same := enters.trans gathered.same
      cases fails with
      | exhausted => exact ⟨ticks, ticks, ticks, [], writeAhead_of_same recording running same⟩
      | oversized => exact ⟨ticks, ticks, ticks, [], writeAhead_of_same recording running same⟩
      | unrecorded continues within there fails =>
          have sequenced := sequenced_of_gathered gathered continues within
          obtain ⟨torn, ahead⟩ :=
            writeAhead_of_unrecorded recording running same sequenced there fails
          exact ⟨ticks, ticks, ticks, torn, ahead⟩
      | rejected continues within recorded rejects =>
          have sequenced := sequenced_of_gathered gathered continues within
          obtain ⟨applied, ahead⟩ :=
            writeAhead_of_rejected recording running same sequenced recorded rejects
          exact ⟨applied, _, _, [], ahead⟩
  | @unflushed middle after advance grown flushed _ sequenced gathered sequences there kept =>
      have same := enters.trans gathered.same
      have applies : TickApplied advance current.sim .live after.sim := by
        rw [← same.sim]
        exact sequences.applies
      have recorded : Mirrors [advance] current.writer after.writer := by
        rw [← same.writer]
        exact sequences.recorded
      have further : Running start after (ticks ++ [advance]) := by
        refine ⟨.tick running.lives sequenced applies, ?_, running.recorded.trans recorded⟩
        rw [sequences.broadcast]
        exact broadcasts_broadcasting (same.broadcasts.trans running.broadcasts) advance
      have ahead := writeAhead_of_same recording further ⟨rfl, rfl, rfl, rfl⟩
      refine ⟨_, _, _, [], { ahead with appends := ?_ }⟩
      obtain ⟨recorded, there', whole⟩ := ahead.appends
      rw [there] at there'
      cases there'
      exact ⟨flushed, rfl, kept.trans whole⟩

/-- At every point where a live loop can stop, its ticks were recorded before they were
broadcast, and broadcast before they were applied. -/
theorem ticks_write_ahead (policy : DesyncPolicy) (inputs : List TickInput)
    (start : Authority (Traced (Adapter G))) (writer : ReplayWriter) :
    Ensures (tickLoop policy inputs) { start with writer := some writer }
      (fun _ next => ∃ applied broadcast appended torn, WriteAhead
        { start with writer := some writer } writer next applied broadcast appended torn)
      (fun _ next => ∃ applied broadcast appended torn, WriteAhead
        { start with writer := some writer } writer next applied broadcast appended torn) := by
  generalize first : { start with writer := some writer } = begins
  have recording : begins.writer = some writer := by rw [← first]
  apply (ensures_forEach (iteration policy) (fun current => ∃ ticks, Running begins current ticks)
    (fun _ next => ∃ applied broadcast appended torn,
      WriteAhead begins writer next applied broadcast appended torn) inputs _ begins
    ⟨[], .refl begins⟩).mono
  · intro _ next outcome
    obtain ⟨ticks, running⟩ := outcome
    exact ⟨ticks, ticks, ticks, [], writeAhead_of_same recording running ⟨rfl, rfl, rfl, rfl⟩⟩
  · intro _ _ stopped
    exact stopped
  · intro input _ current outcome
    obtain ⟨ticks, running⟩ := outcome
    apply (ensures_iteration policy input current).mono
    · intro _ next outcome
      obtain ⟨advance, iterated⟩ := outcome
      exact ⟨ticks ++ [advance], running.iterated iterated⟩
    · intro error next stopped
      exact writeAhead_of_stopped recording running stopped

end Authority

end Synctick
