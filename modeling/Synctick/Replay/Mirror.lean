import Synctick.Replay.Log

/-! # What a mirrored recording holds

A tick is mirrored after its number was checked and before the simulation
executes it. The recording is therefore in step with the simulation exactly as
long as the simulation refuses no tick that the replay reaches: a refused tick
is in the recording, although it was never applied.
-/

namespace Synctick

open SessionSimulation Effect

variable {σ : Type} [SessionSimulation σ]

/-- The new recording holds the ticks applied to the simulation, in order. -/
def MirrorInStep (writer : ReplayWriter) (replay : Replay (Traced σ)) : Prop :=
  ∃ grown, replay.mirror = some grown ∧
    grown.written = writer.written ++ records replay.sim.applied

/-- The simulation applies every tick that a replay of at most `limit` records
reads and that continues the ticks before it. -/
def NoRefusal (sim : σ) (reader : ReplayReader) (limit : Nat) : Prop :=
  ∀ ticks advance reached here there, Replays sim reader ticks reached here →
    ticks.length < limit → ReplayReader.nextRecord here = .ok (some advance) there →
    checkedAdd (currentTick reached) 1 = some advance.tick →
    ∃ next, TickApplied advance reached .replay next

/-- Where a replay with room for `limit` records ends up. -/
inductive Ran (limit : Nat) (replay : Replay σ) : Replay σ → Prop
  | finished {next : Replay σ} {ticks : List TickAdvance} (progress : Progress replay next ticks)
      (clean : ReplayReader.nextRecord next.reader = .ok none next.reader) : Ran limit replay next
  | full {next : Replay σ} {ticks : List TickAdvance} (progress : Progress replay next ticks)
      (all : ticks.length = limit) : Ran limit replay next
  | stopped {middle next : Replay σ} {ticks : List TickAdvance} {error : SessionError}
      (progress : Progress replay middle ticks) (early : ticks.length < limit)
      (stops : ReplayStopped middle error next) : Ran limit replay next

theorem ran_replayBatch (passes : Nat) (replay : Replay σ) :
    Ran (min passes 128) replay ((replayBatch passes).final replay) := by
  apply Ensures.final
  refine (ensures_replayBatch passes replay).mono ?_ ?_
  · intro batch next done
    obtain ⟨ticks, progress, _, exit⟩ := done
    rcases exit with ⟨_, _, clean⟩ | ⟨_, all⟩
    · exact .finished progress clean
    · exact .full progress all
  · intro error next stopped
    obtain ⟨ticks, middle, progress, early, stops⟩ := stopped
    exact .stopped progress early stops

theorem ran_replayInto (batches : List Nat) (replay : Replay σ) :
    Ran (room batches) replay ((replayInto batches).final replay) := by
  apply Ensures.final
  refine (ensures_replayInto batches replay).mono ?_ ?_
  · intro total next done
    obtain ⟨ticks, progress, _, exit⟩ := done
    rcases exit with ⟨_, clean⟩ | all
    · exact .finished progress clean
    · exact .full progress all
  · intro error next stopped
    obtain ⟨ticks, middle, progress, early, stops⟩ := stopped
    exact .stopped progress early stops

/-- A record that a replay got past was applied. -/
theorem applied_of_past {sim reached last : σ} {reader here there final : ReplayReader}
    {past ticks : List TickAdvance} {advance : TickAdvance}
    (path : Replays sim reader past reached here) (whole : Replays sim reader ticks last final)
    (before : past.length < ticks.length)
    (reads : ReplayReader.nextRecord here = .ok (some advance) there) :
    ∃ next, TickApplied advance reached .replay next := by
  obtain ⟨back, split, onwards⟩ := path.continues whole (Nat.le_of_lt before)
  cases onwards with
  | here =>
      rw [split, List.append_nil] at before
      exact (Nat.lt_irrefl _ before).elim
  | tick reads' applies _ =>
      rw [reads] at reads'
      cases reads'
      exact ⟨_, applies⟩

/-- With a working device a replay stops before it mirrors anything, at a record
that does not continue its ticks, or after it mirrored a tick that is refused. -/
theorem stopped_healthy {middle next : Replay σ} {error : SessionError}
    (stops : ReplayStopped middle error next)
    (healthy : ∀ writer, middle.mirror = some writer → writer.Healthy) :
    (next.sim = middle.sim ∧ next.mirror = middle.mirror ∧ ∀ advance later,
        ReplayReader.nextRecord middle.reader = .ok (some advance) later →
        checkedAdd (currentTick middle.sim) 1 ≠ some advance.tick) ∨
      ∃ advance later, ReplayReader.nextRecord middle.reader = .ok (some advance) later ∧
        checkedAdd (currentTick middle.sim) 1 = some advance.tick ∧
        Mirrors [advance] middle.mirror next.mirror ∧
        TickRejected advance .replay middle.sim error next.sim := by
  cases stops with
  | malformed unread =>
      refine Or.inl ⟨rfl, rfl, ?_⟩
      intro advance later reads
      rw [unread] at reads
      cases reads
  | gap reads discontinuous =>
      refine Or.inl ⟨rfl, rfl, ?_⟩
      intro advance later again
      rw [reads] at again
      cases again
      exact discontinuous
  | unmirrored reads _ recorded fails =>
      exact (append_of_read reads (healthy _ recorded) fails).elim
  | rejected reads continues mirrored rejects =>
      exact Or.inr ⟨_, _, reads, continues, mirrored, rejects⟩

theorem applied_of_replays {traced last : Traced σ} {reader final : ReplayReader}
    {ticks : List TickAdvance} (path : Replays traced reader ticks last final) :
    last.applied = traced.applied ++ ticks := by
  induction path with
  | here => exact (List.append_nil _).symm
  | tick _ applies _ ih =>
      rw [ih, Traced.applied_of_tickApplied applies, List.append_assoc]
      rfl

theorem records_append_singleton_ne (ticks : List TickAdvance) (advance : TickAdvance)
    (before : Bytes) : before ++ records (ticks ++ [advance]) ≠ before ++ records ticks := by
  intro same
  have longer := congrArg List.length same
  rw [records_append, records_singleton, List.length_append, List.length_append,
    List.length_append, length_record] at longer
  omega

/-- A replay whose mirror starts in step ends in step exactly when it meets no refusal. -/
theorem inStep_iff_of_ran {limit : Nat} {replay final : Replay (Traced σ)} {writer : ReplayWriter}
    (ran : Ran limit replay final) (mirrored : replay.mirror = some writer)
    (healthy : writer.Healthy) (fresh : replay.sim.applied = []) :
    MirrorInStep writer final ↔ NoRefusal replay.sim replay.reader limit := by
  have inStep (next : Replay (Traced σ)) (ticks : List TickAdvance)
      (progress : Progress replay next ticks) :
      ∃ grown, next.mirror = some grown ∧ next.sim.applied = ticks ∧ grown.Healthy ∧
        grown.written = writer.written ++ records ticks := by
    obtain ⟨grown, there, gained, sound⟩ := progress.mirrored.written writer mirrored
    have counted := applied_of_replays progress.path
    rw [fresh, List.nil_append] at counted
    exact ⟨grown, there, counted, sound healthy, gained⟩
  cases ran with
  | @finished _ ticks progress clean =>
      obtain ⟨grown, there, counted, _, gained⟩ := inStep _ _ progress
      refine ⟨fun _ => ?_, fun _ => ⟨grown, there, by rw [counted, gained]⟩⟩
      intro past advance reached here later path _ reads _
      by_cases before : past.length < ticks.length
      · exact applied_of_past path progress.path before reads
      · obtain ⟨back, _, onwards⟩ := progress.path.continues path (Nat.le_of_not_lt before)
        cases onwards with
        | here =>
            rw [clean] at reads
            cases reads
        | tick reads' _ _ =>
            rw [clean] at reads'
            cases reads'
  | full progress all =>
      obtain ⟨grown, there, counted, _, gained⟩ := inStep _ _ progress
      refine ⟨fun _ => ?_, fun _ => ⟨grown, there, by rw [counted, gained]⟩⟩
      intro past advance reached here later path before reads _
      rw [← all] at before
      exact applied_of_past path progress.path before reads
  | @stopped middle _ ticks error progress early stops =>
      obtain ⟨grown, there, counted, sound, gained⟩ := inStep _ _ progress
      have healthier (other : ReplayWriter) (present : middle.mirror = some other) :
          other.Healthy := by
        rw [there] at present
        cases present
        exact sound
      rcases stopped_healthy stops healthier with
        ⟨sameSim, sameMirror, refused⟩ | ⟨advance, later, reads, continues, more, rejects⟩
      · refine ⟨fun _ => ?_, fun _ => ⟨grown, sameMirror.trans there, ?_⟩⟩
        · intro past advance reached here later path _ reads continues
          by_cases before : past.length < ticks.length
          · exact applied_of_past path progress.path before reads
          · obtain ⟨back, split, onwards⟩ := progress.path.continues path (Nat.le_of_not_lt before)
            cases onwards with
            | here => exact (refused advance later reads continues).elim
            | tick reads' applies _ =>
                rcases applies with ⟨continues', _, _⟩
                exact (refused _ _ reads' continues').elim
        · rw [sameSim, counted, gained]
      · constructor
        · intro step
          exfalso
          obtain ⟨last, here, same⟩ := step
          obtain ⟨last', here', gained', _⟩ := more.written grown there
          rw [here] at here'
          cases here'
          have kept : final.sim.applied = middle.sim.applied := by
            rcases Traced.applied_of_tickRejected rejects with kept | ⟨live, _⟩
            · exact kept
            · cases live
          rw [gained', gained, kept, counted, List.append_assoc, ← records_append] at same
          exact records_append_singleton_ne ticks advance writer.written same
        · intro accepts
          exfalso
          obtain ⟨next, applies⟩ := accepts ticks advance middle.sim middle.reader later
            progress.path early reads continues
          exact not_rejected_of_applied applies rejects

/-- Where a replay with a working mirror stops, the recording holds exactly the
ticks that were applied if and only if no tick that it reached was refused. -/
theorem mirror_inStep_iff (sim : σ) (reader : ReplayReader) (writer : ReplayWriter)
    (healthy : writer.Healthy) :
    (∀ passes, MirrorInStep writer
        ((replayBatch passes).final { sim := ({ sim } : Traced σ), reader, mirror := some writer }) ↔
      NoRefusal ({ sim } : Traced σ) reader (min passes 128)) ∧
    (∀ batches, MirrorInStep writer
        ((replayInto batches).final { sim := ({ sim } : Traced σ), reader, mirror := some writer }) ↔
      NoRefusal ({ sim } : Traced σ) reader (room batches)) := by
  constructor
  · intro passes
    exact inStep_iff_of_ran (ran_replayBatch passes _) rfl healthy rfl
  · intro batches
    exact inStep_iff_of_ran (ran_replayInto batches _) rfl healthy rfl

theorem mirror_inStep_iff_tally :
    (∀ passes, MirrorInStep { written := encode tallyHeader } ((replayBatch passes).final
        { sim := ({ sim := tallyAdapter } : Traced (Adapter tallyGame))
          reader := { source := ⟨[record { tick := 1, inputs := [] }]⟩, header := tallyHeader }
          mirror := some { written := encode tallyHeader } }) ↔
      NoRefusal ({ sim := tallyAdapter } : Traced (Adapter tallyGame))
        { source := ⟨[record { tick := 1, inputs := [] }]⟩, header := tallyHeader }
        (min passes 128)) ∧
    (∀ batches, MirrorInStep { written := encode tallyHeader } ((replayInto batches).final
        { sim := ({ sim := tallyAdapter } : Traced (Adapter tallyGame))
          reader := { source := ⟨[record { tick := 1, inputs := [] }]⟩, header := tallyHeader }
          mirror := some { written := encode tallyHeader } }) ↔
      NoRefusal ({ sim := tallyAdapter } : Traced (Adapter tallyGame))
        { source := ⟨[record { tick := 1, inputs := [] }]⟩, header := tallyHeader }
        (room batches)) :=
  mirror_inStep_iff tallyAdapter _ { written := encode tallyHeader } (by
    intro outcome member
    cases member)

/-- The tick that `tallyGame` refuses: its command has a byte too many. -/
def refusedTick : TickAdvance := { tick := 1, inputs := [⟨.host, ⟨[1, 2]⟩⟩] }

/-- A replay of a log whose only record the game refuses, under a new recording. -/
def refusedReplay : Replay (Traced (Adapter tallyGame)) where
  sim := { sim := tallyAdapter }
  reader := { source := ⟨[record refusedTick]⟩, header := tallyHeader }
  mirror := some { written := encode tallyHeader }

/-- The refused tick enters the recording. -/
theorem mirror_holds_refusedTick :
    (∃ grown, ((replayInto [1]).final refusedReplay).mirror = some grown ∧
      grown.written = encode tallyHeader ++ records [refusedTick]) ∧
    ((replayInto [1]).final refusedReplay).sim.applied = [] ∧
    ¬ MirrorInStep { written := encode tallyHeader } ((replayInto [1]).final refusedReplay) := by
  have recorded : ((replayInto [1]).final refusedReplay).mirror =
      some { written := encode tallyHeader ++ records [refusedTick] } := by decide
  have unapplied : ((replayInto [1]).final refusedReplay).sim.applied = [] := by decide
  refine ⟨⟨_, recorded, rfl⟩, unapplied, ?_⟩
  intro step
  obtain ⟨grown, there, same⟩ := step
  rw [recorded] at there
  cases there
  rw [unapplied] at same
  exact records_append_singleton_ne [] refusedTick _ same

end Synctick
