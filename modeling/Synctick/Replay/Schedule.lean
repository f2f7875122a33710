import Synctick.Replay.Batch

/-! # Replays do not depend on their batches

A batch stops for the clock, for its cap or for a cancellation, and a later one goes on
with the same reader, simulation and mirror. Whatever the batches are, they add up to a
single uninterrupted pass over as many records as they have room for, and a pass over a
log finishes or fails after boundedly many records.
-/

namespace Synctick

open SessionSimulation Effect

variable {σ : Type} [SessionSimulation σ]

/-- An uninterrupted pass over at most `bound` records, of which `records` were counted before. -/
def onePass (records : Nat) : Nat → SessionEffect (Replay σ) ReplayBatch
  | 0 => pure { records, finished := false }
  | bound + 1 => do
      let more ← replayRecord
      if more then onePass (records + 1) bound
      else pure { records, finished := true }

/-- Successive batches, each with its number of passes, until one finishes or the schedule ends. -/
def runBatches (total : Nat) : List Nat → SessionEffect (Replay σ) ReplayBatch
  | [] => pure { records := total, finished := false }
  | passes :: later => do
      let batch ← replayBatch passes
      if batch.finished then pure { records := total + batch.records, finished := true }
      else runBatches (total + batch.records) later

/-- Records counted before a batch. -/
def ReplayBatch.after (before : Nat) (batch : ReplayBatch) : ReplayBatch :=
  { batch with records := before + batch.records }

/-- A pass goes on where a shorter one is out of records. -/
theorem onePass_add (records first second : Nat) :
    (onePass records (first + second) : SessionEffect (Replay σ) ReplayBatch) = (do
      let batch ← onePass records first
      if batch.finished then pure batch else onePass batch.records second) := by
  induction first generalizing records with
  | zero => rw [Nat.zero_add, onePass, pure_bind, if_neg Bool.false_ne_true]
  | succ first ih =>
      rw [Nat.succ_add, onePass, onePass, bind_assoc]
      apply bind_congr
      intro more
      cases more with
      | true =>
          rw [if_pos rfl, if_pos rfl]
          exact ih (records + 1)
      | false => rw [if_neg Bool.false_ne_true, if_neg Bool.false_ne_true, pure_bind, if_pos rfl]

theorem onePass_after (before records bound : Nat) :
    (onePass (before + records) bound : SessionEffect (Replay σ) ReplayBatch) =
      ReplayBatch.after before <$> onePass records bound := by
  induction bound generalizing records with
  | zero => rfl
  | succ bound ih =>
      rw [onePass, onePass, map_bind]
      apply bind_congr
      intro more
      cases more with
      | true =>
          rw [if_pos rfl, if_pos rfl]
          exact ih (records + 1)
      | false => rfl

/-- A batch is a pass over what its cap leaves of its passes. -/
theorem replayBatch_loop_eq (records passes : Nat) :
    (replayBatch.loop records passes : SessionEffect (Replay σ) ReplayBatch) =
      onePass records (min passes (128 - records)) := by
  induction passes generalizing records with
  | zero => rw [Nat.zero_min, replayBatch.loop, onePass]
  | succ passes ih =>
      unfold replayBatch.loop
      by_cases below : records < 128
      · have left : min (passes + 1) (128 - records) = min passes (128 - (records + 1)) + 1 := by
          omega
        rw [if_pos below, left, onePass, ih]
      · have none : min (passes + 1) (128 - records) = 0 := by omega
        rw [if_neg below, none, onePass]

theorem replayBatch_eq (passes : Nat) :
    (replayBatch passes : SessionEffect (Replay σ) ReplayBatch) = onePass 0 (min passes 128) :=
  replayBatch_loop_eq 0 passes

/-- Batches are one pass over the records that they have room for. -/
theorem runBatches_eq (total : Nat) (batches : List Nat) :
    (runBatches total batches : SessionEffect (Replay σ) ReplayBatch) =
      onePass total (room batches) := by
  induction batches generalizing total with
  | nil => rfl
  | cons passes later ih =>
      have split : room (passes :: later) = min passes 128 + room later := by
        simp only [room, List.map_cons, List.sum_cons]
      have front := onePass_after (σ := σ) total 0 (min passes 128)
      rw [Nat.add_zero] at front
      rw [split, onePass_add, front, bind_map_left, runBatches, replayBatch_eq]
      apply bind_congr
      intro batch
      rcases batch with ⟨records, finished⟩
      cases finished with
      | true => rfl
      | false => exact ih (total + records)

/-- A replay to the end counts what its batches do. -/
theorem replayInto_eq (batches : List Nat) :
    (replayInto batches : SessionEffect (Replay σ) Nat) =
      ReplayBatch.records <$> runBatches 0 batches := by
  have loop (total : Nat) : (replayInto.loop total batches : SessionEffect (Replay σ) Nat) =
      ReplayBatch.records <$> runBatches total batches := by
    induction batches generalizing total with
    | nil => rfl
    | cons passes later ih =>
        rw [replayInto.loop, runBatches, map_bind]
        apply bind_congr
        intro batch
        rcases batch with ⟨records, finished⟩
        cases finished with
        | true => rfl
        | false => exact ih (total + records)
  exact loop 0

/-- A pass that finished, or that failed, does the same with room for more. -/
theorem onePass_more {records bound : Nat} {replay next : Replay σ} {batch : ReplayBatch}
    (returned : onePass records bound replay = .ok batch next) (finished : batch.finished = true)
    (more : Nat) : onePass records (bound + more) replay = .ok batch next := by
  rw [onePass_add]
  apply eq_ok_of_ensures
  rw [ensures_bind, ensures_ok returned, if_pos finished]
  exact ⟨rfl, rfl⟩

theorem onePass_more_error {records bound : Nat} {replay next : Replay σ} {error : SessionError}
    (stopped : onePass records bound replay = .error error next) (more : Nat) :
    onePass records (bound + more) replay = .error error next := by
  rw [onePass_add]
  change EStateM.bind _ _ replay = _
  unfold EStateM.bind
  rw [stopped]

/-- A pass goes along its log, and uses it up unless it finishes. -/
theorem ensures_onePass (records bound : Nat) (replay : Replay σ) :
    Ensures (onePass records bound) replay
      (fun batch next => ∃ ticks, Progress replay next ticks ∧
        batch.records = records + ticks.length ∧
        (batch.finished = true ∧ ReplayReader.nextRecord next.reader = .ok none next.reader ∨
          batch.finished = false ∧ ticks.length = bound ∧
            bound + next.reader.source.bytes.length ≤ replay.reader.source.bytes.length))
      (fun error next => ∃ ticks middle, Progress replay middle ticks ∧
        ticks.length < bound ∧ ReplayStopped middle error next) := by
  induction bound generalizing records replay with
  | zero =>
      refine ⟨[], .refl replay, rfl, Or.inr ⟨rfl, rfl, ?_⟩⟩
      rw [Nat.zero_add]
  | succ bound ih =>
      rw [onePass, ensures_bind]
      apply (ensures_replayRecord replay).mono
      · intro more next outcome
        rcases outcome with ⟨rfl, advance, reads, applies, mirrored⟩ | ⟨rfl, ended, rfl⟩
        · have one : Progress replay next [advance] := ⟨.tick reads applies (.here _ _), mirrored⟩
          have shorter : next.reader.source.bytes.length + 1 ≤
              replay.reader.source.bytes.length := by
            have spec := ensures_of_ok (ReplayReader.ensures_nextRecord replay.reader) reads
            obtain ⟨_, length, payload, width, _, _, split, _⟩ := spec
            have sizes := congrArg List.length split
            rw [List.length_append, List.length_append] at sizes
            omega
          rw [if_pos rfl]
          apply (ih (records + 1) next).mono
          · intro batch last done
            obtain ⟨ticks, progress, counted, exit⟩ := done
            refine ⟨advance :: ticks, one.trans progress, ?_, ?_⟩
            · rw [counted, List.length_cons]
              omega
            · rw [List.length_cons]
              rcases exit with clean | ⟨unfinished, full, used⟩
              · exact Or.inl clean
              · exact Or.inr ⟨unfinished, by omega, by omega⟩
          · intro error last stopped
            obtain ⟨ticks, middle, progress, fewer, stops⟩ := stopped
            refine ⟨advance :: ticks, middle, one.trans progress, ?_, stops⟩
            rw [List.length_cons]
            omega
        · exact ⟨[], .refl _, rfl, Or.inl ⟨rfl, ended⟩⟩
      · intro error next stops
        exact ⟨[], replay, .refl replay, Nat.succ_pos bound, stops⟩

/-- One uninterrupted pass over the whole log, which has a byte for each of its records. -/
def wholePass : SessionEffect (Replay σ) ReplayBatch := fun replay =>
  onePass 0 (replay.reader.source.bytes.length + 1) replay

/-- A pass over the whole log finishes or fails. -/
theorem ensures_wholePass (replay : Replay σ) :
    Ensures wholePass replay (fun batch _ => batch.finished = true) fun _ _ => True := by
  apply (ensures_onePass 0 (replay.reader.source.bytes.length + 1) replay).mono
  · intro batch next outcome
    obtain ⟨_, _, _, exit⟩ := outcome
    rcases exit with ⟨finished, _⟩ | ⟨_, _, used⟩
    · exact finished
    · omega
  · intro _ _ _
    trivial

/-- A pass with room for the whole log is one over the whole log. -/
theorem onePass_eq_wholePass {bound : Nat} {replay : Replay σ}
    (enough : replay.reader.source.bytes.length < bound) :
    onePass 0 bound replay = wholePass replay := by
  obtain ⟨more, split⟩ := Nat.exists_eq_add_of_le (Nat.succ_le_of_lt enough)
  have settled := ensures_wholePass replay
  rw [split]
  cases whole : wholePass replay with
  | ok batch next =>
      have finished := ensures_of_ok settled whole
      exact onePass_more whole finished more
  | error error next => exact onePass_more_error whole more

/-- A pass that finished or failed is one over the whole log. -/
theorem wholePass_eq_onePass {bound : Nat} {replay : Replay σ} :
    Ensures (onePass 0 bound) replay
      (fun batch next => batch.finished = true → wholePass replay = .ok batch next)
      (fun error next => wholePass replay = .error error next) := by
  have whole := onePass_eq_wholePass
    (Nat.lt_add_left bound (Nat.lt_succ_self replay.reader.source.bytes.length))
  apply (ensures_self _ _).mono
  · intro batch next returned finished
    rw [← whole]
    exact onePass_more returned finished _
  · intro error next stopped
    rw [← whole]
    exact onePass_more_error stopped _

/-- Whatever its batches are, a replay that finishes or fails leaves the state, the count and the
error of one uninterrupted pass over the log, and it does so once the batches have room for the log.
Before, it has applied the records that it counted, and no others. -/
theorem batching_irrelevant (batches : List Nat) (replay : Replay σ) :
    replayInto batches replay = (ReplayBatch.records <$> runBatches 0 batches :
      SessionEffect (Replay σ) Nat) replay ∧
    (replay.reader.source.bytes.length < room batches →
      runBatches 0 batches replay = wholePass replay) ∧
    Ensures wholePass replay (fun batch _ => batch.finished = true) (fun _ _ => True) ∧
    Ensures (runBatches 0 batches) replay
      (fun batch next => (batch.finished = true → wholePass replay = .ok batch next) ∧
        (batch.finished = false → ∀ later, runBatches 0 (batches ++ later) replay =
          runBatches batch.records later next) ∧
        ∃ ticks, Progress replay next ticks ∧ batch.records = ticks.length)
      (fun error next => wholePass replay = .error error next ∧
        ∃ ticks middle, Progress replay middle ticks ∧ ReplayStopped middle error next) := by
  refine ⟨?_, ?_, ensures_wholePass replay, ?_⟩
  · rw [replayInto_eq]
  · intro enough
    rw [runBatches_eq]
    exact onePass_eq_wholePass enough
  · rw [runBatches_eq]
    apply ((wholePass_eq_onePass.and (ensures_onePass 0 _ replay)).and (ensures_self _ _)).mono
    · intro batch next outcome
      obtain ⟨⟨whole, ticks, progress, counted, _⟩, returned⟩ := outcome
      refine ⟨whole, ?_, ticks, progress, by rw [counted, Nat.zero_add]⟩
      intro unfinished later
      have joined : room (batches ++ later) = room batches + room later := by
        simp only [room, List.map_append, List.sum_append]
      rw [runBatches_eq, runBatches_eq, joined, onePass_add]
      change EStateM.bind _ _ replay = _
      unfold EStateM.bind
      rw [returned]
      simp only [unfinished, Bool.false_eq_true, ↓reduceIte]
    · intro error next outcome
      obtain ⟨⟨whole, ticks, middle, progress, _, stops⟩, _⟩ := outcome
      exact ⟨whole, ticks, middle, progress, stops⟩

end Synctick
