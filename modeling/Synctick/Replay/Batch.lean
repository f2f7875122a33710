import Synctick.Protocol.Accepted
import Synctick.Replay.Reader
import Synctick.Game

/-! # Replaying a session input log

A replay reads records, checks that each continues the current tick, mirrors it
into a new recording, and drives the simulation with it. It proceeds in batches,
between which the caller may cancel it. `Synctick.Replays` is the path a replay
takes through its log, and every replay is such a path up to where it stops.
-/

namespace Synctick

open SessionSimulation Effect

/-- A replay under way. -/
structure Replay (σ : Type) where
  sim : σ
  reader : ReplayReader
  mirror : Option ReplayWriter := none

structure ReplayBatch where
  records : Nat
  finished : Bool
  deriving DecidableEq, Repr

section Program

variable {σ : Type} [SessionSimulation σ]

/-- Mirror a tick into the new recording, if there is one. -/
def mirrorAppend (advance : TickAdvance) : SessionEffect (Replay σ) Unit := do
  let replay ← get
  match replay.mirror with
  | none => pure ()
  | some writer =>
      ((ReplayWriter.append advance).mapError SessionError.io).zoom (fun _ => writer)
        fun replay writer => { replay with mirror := some writer }

/-- Replay the next record, unless the log ends. -/
def replayRecord : SessionEffect (Replay σ) Bool := do
  let next ← (ReplayReader.nextRecord.mapError SessionError.io).zoom Replay.reader
    fun replay reader => { replay with reader }
  match next with
  | none => pure false
  | some advance => do
      -- Validate before mirroring: a rejected tick must never enter a recording.
      ((validateTick advance.tick).mapError fun error =>
        SessionError.io ⟨.invalidData, error.display⟩).zoom Replay.sim
          fun replay sim => { replay with sim }
      mirrorAppend advance
      (advanceTick advance .replay).zoom Replay.sim fun replay sim => { replay with sim }
      pure true

/-- The loop of a batch. `passes` is how often its head finds time left and no
cancellation. -/
def replayBatch.loop (records : Nat) : Nat → SessionEffect (Replay σ) ReplayBatch
  | 0 => pure { records, finished := false }
  | passes + 1 =>
      if records < 128 then do
        let more ← replayRecord
        if more then replayBatch.loop (records + 1) passes
        else pure { records, finished := true }
      else pure { records, finished := false }

/-- Execute at most 128 records, or as many as time and the control allow. -/
def replayBatch (passes : Nat) : SessionEffect (Replay σ) ReplayBatch :=
  replayBatch.loop 0 passes

/-- Replay to the end, one batch for each time the control is not cancelled. -/
def replayInto.loop (total : Nat) : List Nat → SessionEffect (Replay σ) Nat
  | [] => pure total
  | passes :: later => do
      let batch ← replayBatch passes
      if batch.finished then pure (total + batch.records)
      else replayInto.loop (total + batch.records) later

def replayInto (batches : List Nat) : SessionEffect (Replay σ) Nat :=
  replayInto.loop 0 batches

end Program

section Path

variable {σ : Type} [SessionSimulation σ]

/-- From `sim` and `reader`, successive records are read and applied. -/
inductive Replays : σ → ReplayReader → List TickAdvance → σ → ReplayReader → Prop
  | here (sim : σ) (reader : ReplayReader) : Replays sim reader [] sim reader
  | tick {sim next last : σ} {reader later final : ReplayReader} {advance : TickAdvance}
      {rest : List TickAdvance}
      (reads : ReplayReader.nextRecord reader = .ok (some advance) later)
      (applies : TickApplied advance sim .replay next)
      (onwards : Replays next later rest last final) :
      Replays sim reader (advance :: rest) last final

/-- Records may be read in parts. -/
theorem Replays.append {sim next last : σ} {reader later final : ReplayReader}
    {front back : List TickAdvance} (first : Replays sim reader front next later)
    (second : Replays next later back last final) :
    Replays sim reader (front ++ back) last final := by
  induction first with
  | here => exact second
  | tick reads applies _ ih => exact .tick reads applies (ih second)

/-- A tick is applied in one way. -/
theorem TickApplied.unique {advance : TickAdvance} {sim first second : σ}
    (applies : TickApplied advance sim .replay first)
    (again : TickApplied advance sim .replay second) : first = second := by
  rcases applies with ⟨_, executes, _⟩
  rcases again with ⟨_, executes', _⟩
  rw [executes] at executes'
  cases executes'
  rfl

/-- Two replays of one log go the same way: the longer continues the shorter. -/
theorem Replays.continues {sim next last : σ} {reader later final : ReplayReader}
    {front whole : List TickAdvance} (first : Replays sim reader front next later)
    (second : Replays sim reader whole last final) (shorter : front.length ≤ whole.length) :
    ∃ back, whole = front ++ back ∧ Replays next later back last final := by
  induction first generalizing whole with
  | here => exact ⟨whole, rfl, second⟩
  | tick reads applies _ ih =>
      cases second with
      | here =>
          rw [List.length_cons, List.length_nil] at shorter
          omega
      | tick reads' applies' onwards =>
          rw [reads] at reads'
          cases reads'
          have same := applies.unique applies'
          subst same
          rw [List.length_cons, List.length_cons] at shorter
          obtain ⟨back, split, rest⟩ := ih onwards (by omega)
          exact ⟨back, by rw [split, List.cons_append], rest⟩

/-- What a recording gained while ticks were replayed. -/
structure Mirrors (ticks : List TickAdvance) (before after : Option ReplayWriter) : Prop where
  absent : before = none → after = none
  written : ∀ writer, before = some writer → ∃ grown, after = some grown ∧
    grown.written = writer.written ++ records ticks ∧ (writer.Healthy → grown.Healthy)

theorem Mirrors.refl (mirror : Option ReplayWriter) : Mirrors [] mirror mirror where
  absent none := none
  written writer present := ⟨writer, present, by simp, id⟩

/-- A mirror of two parts mirrors them in a row. -/
theorem Mirrors.trans {front back : List TickAdvance} {before middle after : Option ReplayWriter}
    (first : Mirrors front before middle) (second : Mirrors back middle after) :
    Mirrors (front ++ back) before after where
  absent none := second.absent (first.absent none)
  written writer present := by
    obtain ⟨grown, there, gained, healthy⟩ := first.written writer present
    obtain ⟨last, here, more, healthier⟩ := second.written grown there
    refine ⟨last, here, ?_, fun sound => healthier (healthy sound)⟩
    rw [more, gained, records_append, List.append_assoc]

/-- How a replay of one record stops with an error. -/
inductive ReplayStopped (replay : Replay σ) : SessionError → Replay σ → Prop
  | malformed {error : IoError} {reader : ReplayReader}
      (unread : ReplayReader.nextRecord replay.reader = .error error reader) :
      ReplayStopped replay (.io error) { replay with reader }
  | gap {advance : TickAdvance} {reader : ReplayReader}
      (reads : ReplayReader.nextRecord replay.reader = .ok (some advance) reader)
      (discontinuous : checkedAdd (currentTick replay.sim) 1 ≠ some advance.tick) :
      ReplayStopped replay (.io ⟨.invalidData, (SessionError.protocol
        s!"tick gap: {advance.tick} after {currentTick replay.sim}").display⟩)
        { replay with reader }
  | unmirrored {advance : TickAdvance} {reader : ReplayReader} {error : IoError}
      {writer torn : ReplayWriter}
      (reads : ReplayReader.nextRecord replay.reader = .ok (some advance) reader)
      (continues : checkedAdd (currentTick replay.sim) 1 = some advance.tick)
      (recorded : replay.mirror = some writer)
      (fails : ReplayWriter.append advance writer = .error error torn) :
      ReplayStopped replay (.io error) { replay with reader, mirror := some torn }
  | rejected {advance : TickAdvance} {reader : ReplayReader} {error : SessionError}
      {mirror : Option ReplayWriter} {sim : σ}
      (reads : ReplayReader.nextRecord replay.reader = .ok (some advance) reader)
      (continues : checkedAdd (currentTick replay.sim) 1 = some advance.tick)
      (mirrored : Mirrors [advance] replay.mirror mirror)
      (rejects : TickRejected advance .replay replay.sim error sim) :
      ReplayStopped replay error { sim, reader, mirror }

omit [SessionSimulation σ] in
/-- A record is appended to the mirror, if there is one, or its device fails. -/
theorem ensures_mirrorAppend (advance : TickAdvance) (replay : Replay σ) :
    Ensures (mirrorAppend advance) replay
      (fun _ next => ∃ mirror, next = { replay with mirror } ∧
        Mirrors [advance] replay.mirror mirror)
      (fun error next => ∃ writer torn ioError, replay.mirror = some writer ∧
        error = .io ioError ∧ ReplayWriter.append advance writer = .error ioError torn ∧
        next = { replay with mirror := some torn }) := by
  rcases replay with ⟨sim, reader, mirror⟩
  unfold mirrorAppend
  cases mirror with
  | none => exact ⟨none, rfl, fun _ => rfl, fun writer present => nomatch present⟩
  | some writer =>
      simp only [ensures_bind, ensures_get, ensures_zoom, ensures_mapError]
      refine ((ReplayWriter.ensures_append advance writer).and (ensures_self _ _)).mono ?_ ?_
      · intro _ grown outcome
        obtain ⟨⟨_, gained, healthy⟩, _⟩ := outcome
        refine ⟨some grown, rfl, ?_, ?_⟩
        · intro absent
          cases absent
        · intro other present
          cases present
          exact ⟨grown, rfl, by rw [gained, records_singleton], healthy⟩
      · intro error torn outcome
        exact ⟨writer, torn, error, rfl, rfl, outcome.2, rfl⟩

/-- Everything that replaying one record can do. -/
theorem ensures_replayRecord (replay : Replay σ) :
    Ensures replayRecord replay
      (fun more next =>
        (more = true ∧ ∃ advance,
          ReplayReader.nextRecord replay.reader = .ok (some advance) next.reader ∧
          TickApplied advance replay.sim .replay next.sim ∧
          Mirrors [advance] replay.mirror next.mirror) ∨
        (more = false ∧ ReplayReader.nextRecord replay.reader = .ok none replay.reader ∧
          next = replay))
      (fun error next => ReplayStopped replay error next) := by
  unfold replayRecord
  rw [ensures_bind, ensures_zoom, ensures_mapError]
  refine ((ReplayReader.ensures_nextRecord replay.reader).and (ensures_self _ _)).mono ?_ ?_
  · intro result reader outcome
    obtain ⟨spec, returned⟩ := outcome
    cases result with
    | none =>
        obtain ⟨_, same, _⟩ := spec
        subst same
        exact Or.inr ⟨rfl, returned, rfl⟩
    | some advance =>
        simp only [ensures_bind, ensures_zoom, ensures_mapError]
        refine (ensures_validateTick advance.tick replay.sim).mono ?_ ?_
        · intro _ sim valid
          obtain ⟨same, continues⟩ := valid
          subst same
          refine (ensures_mirrorAppend advance _).mono ?_ ?_
          · intro _ next grown
            obtain ⟨mirror, same, mirrored⟩ := grown
            subst same
            refine (ensures_advanceTick advance .replay _).mono ?_ ?_
            · intro _ sim applies
              exact Or.inl ⟨rfl, advance, returned, applies, mirrored⟩
            · intro error sim rejects
              exact .rejected returned continues mirrored rejects
          · intro error next stopped
            obtain ⟨writer, torn, ioError, recorded, same, fails, left⟩ := stopped
            subst same left
            exact .unmirrored returned continues recorded fails
        · intro error sim invalid
          obtain ⟨same, discontinuous, text⟩ := invalid
          subst same text
          exact .gap returned discontinuous
  · intro error reader outcome
    exact .malformed outcome.2

/-- A replay went from `replay` to `next` over `ticks`. -/
structure Progress (replay next : Replay σ) (ticks : List TickAdvance) : Prop where
  path : Replays replay.sim replay.reader ticks next.sim next.reader
  mirrored : Mirrors ticks replay.mirror next.mirror

theorem Progress.refl (replay : Replay σ) : Progress replay replay [] where
  path := .here _ _
  mirrored := .refl _

/-- Progress in two parts is progress. -/
theorem Progress.trans {replay next last : Replay σ} {front back : List TickAdvance}
    (first : Progress replay next front) (second : Progress next last back) :
    Progress replay last (front ++ back) where
  path := first.path.append second.path
  mirrored := first.mirrored.trans second.mirrored

/-- A batch goes along its log until it is out of passes, at the clean end of the log, or stopped. -/
theorem ensures_replayBatch_loop (passes : Nat) (records : Nat) (replay : Replay σ) :
    Ensures (replayBatch.loop records passes) replay
      (fun batch next => ∃ ticks, Progress replay next ticks ∧
        batch.records = records + ticks.length ∧
        (batch.finished = true ∧ ticks.length < min passes (128 - records) ∧
            ReplayReader.nextRecord next.reader = .ok none next.reader ∨
          batch.finished = false ∧ ticks.length = min passes (128 - records)))
      (fun error next => ∃ ticks middle, Progress replay middle ticks ∧
        ticks.length < min passes (128 - records) ∧ ReplayStopped middle error next) := by
  induction passes generalizing records replay with
  | zero =>
      refine ⟨[], .refl replay, rfl, Or.inr ⟨rfl, ?_⟩⟩
      rw [Nat.zero_min, List.length_nil]
  | succ passes ih =>
      unfold replayBatch.loop
      by_cases room : records < 128
      · rw [if_pos room, ensures_bind]
        refine (ensures_replayRecord replay).mono ?_ ?_
        · intro more next outcome
          rcases outcome with ⟨rfl, advance, reads, applies, mirrored⟩ | ⟨rfl, ended, rfl⟩
          · have one : Progress replay next [advance] := ⟨.tick reads applies (.here _ _), mirrored⟩
            rw [if_pos rfl]
            refine (ih (records + 1) next).mono ?_ ?_
            · intro batch last done
              obtain ⟨ticks, progress, counted, exit⟩ := done
              refine ⟨advance :: ticks, one.trans progress, ?_, ?_⟩
              · rw [counted, List.length_cons]
                omega
              · rw [List.length_cons]
                rcases exit with ⟨finished, fewer, clean⟩ | ⟨unfinished, full⟩
                · exact Or.inl ⟨finished, by omega, clean⟩
                · exact Or.inr ⟨unfinished, by omega⟩
            · intro error last stopped
              obtain ⟨ticks, middle, progress, fewer, stops⟩ := stopped
              refine ⟨advance :: ticks, middle, one.trans progress, ?_, stops⟩
              rw [List.length_cons]
              omega
          · refine ⟨[], .refl _, rfl, Or.inl ⟨rfl, ?_, ended⟩⟩
            rw [List.length_nil]
            omega
        · intro error next stops
          refine ⟨[], replay, .refl replay, ?_, stops⟩
          rw [List.length_nil]
          omega
      · rw [if_neg room]
        refine ⟨[], .refl replay, rfl, Or.inr ⟨rfl, ?_⟩⟩
        rw [List.length_nil]
        omega

/-- A batch applies as many records as it may, unless the log ends before, and stops at the first
that fails. -/
theorem ensures_replayBatch (passes : Nat) (replay : Replay σ) :
    Ensures (replayBatch passes) replay
      (fun batch next => ∃ ticks, Progress replay next ticks ∧ batch.records = ticks.length ∧
        (batch.finished = true ∧ ticks.length < min passes 128 ∧
            ReplayReader.nextRecord next.reader = .ok none next.reader ∨
          batch.finished = false ∧ ticks.length = min passes 128))
      (fun error next => ∃ ticks middle, Progress replay middle ticks ∧
        ticks.length < min passes 128 ∧ ReplayStopped middle error next) := by
  have spec := ensures_replayBatch_loop passes 0 replay
  unfold replayBatch
  simpa only [Nat.zero_add, Nat.sub_zero] using spec

/-- The records that batches have room for. -/
def room (batches : List Nat) : Nat := (batches.map (min · 128)).sum

/-- So do batches in a row, which count their records. -/
theorem ensures_replayInto_loop (batches : List Nat) (total : Nat) (replay : Replay σ) :
    Ensures (replayInto.loop total batches) replay
      (fun result next => ∃ ticks, Progress replay next ticks ∧ result = total + ticks.length ∧
        (ticks.length < room batches ∧
            ReplayReader.nextRecord next.reader = .ok none next.reader ∨
          ticks.length = room batches))
      (fun error next => ∃ ticks middle, Progress replay middle ticks ∧
        ticks.length < room batches ∧ ReplayStopped middle error next) := by
  induction batches generalizing total replay with
  | nil => exact ⟨[], .refl replay, rfl, Or.inr rfl⟩
  | cons passes later ih =>
      have split : room (passes :: later) = min passes 128 + room later := by
        simp only [room, List.map_cons, List.sum_cons]
      unfold replayInto.loop
      rw [ensures_bind, split]
      refine (ensures_replayBatch passes replay).mono ?_ ?_
      · intro batch next done
        obtain ⟨ticks, progress, counted, exit⟩ := done
        rcases exit with ⟨finished, fewer, clean⟩ | ⟨unfinished, full⟩
        · rw [if_pos finished]
          exact ⟨ticks, progress, by rw [counted], Or.inl ⟨by omega, clean⟩⟩
        · rw [unfinished, if_neg Bool.false_ne_true]
          refine (ih (total + batch.records) next).mono ?_ ?_
          · intro result last rest
            obtain ⟨back, onwards, sum, exit⟩ := rest
            refine ⟨ticks ++ back, progress.trans onwards, ?_, ?_⟩
            · rw [sum, counted, List.length_append, Nat.add_assoc]
            · rw [List.length_append]
              rcases exit with ⟨fewer, clean⟩ | full
              · exact Or.inl ⟨by omega, clean⟩
              · exact Or.inr (by omega)
          · intro error last stopped
            obtain ⟨back, middle, onwards, fewer, stops⟩ := stopped
            refine ⟨ticks ++ back, middle, progress.trans onwards, ?_, stops⟩
            rw [List.length_append]
            omega
      · intro error next stopped
        obtain ⟨ticks, middle, progress, fewer, stops⟩ := stopped
        exact ⟨ticks, middle, progress, by omega, stops⟩

/-- A replay goes along its log until it is cancelled, at the clean end of the log, or stopped. -/
theorem ensures_replayInto (batches : List Nat) (replay : Replay σ) :
    Ensures (replayInto batches) replay
      (fun result next => ∃ ticks, Progress replay next ticks ∧ result = ticks.length ∧
        (ticks.length < room batches ∧
            ReplayReader.nextRecord next.reader = .ok none next.reader ∨
          ticks.length = room batches))
      (fun error next => ∃ ticks middle, Progress replay middle ticks ∧
        ticks.length < room batches ∧ ReplayStopped middle error next) := by
  have spec := ensures_replayInto_loop batches 0 replay
  unfold replayInto
  simpa only [Nat.zero_add] using spec

end Path

end Synctick
