import Synctick.Replay.Batch

/-! # Logs that replay to a clean end

A log holds whole a run of ticks: it can be opened, the simulation can be
initialized from it, and each record is read and applied up to the clean end of
the data. Whatever batches it is replayed in, such a replay never stops with an
error, and it ends where the log does.
-/

namespace Synctick

open SessionSimulation Effect

/-- A recording whose device works takes every tick that was read from a log. -/
theorem append_of_read {reader later : ReplayReader} {advance : TickAdvance}
    {writer : ReplayWriter} (reads : ReplayReader.nextRecord reader = .ok (some advance) later)
    (healthy : writer.Healthy) {error : IoError} {torn : ReplayWriter}
    (fails : ReplayWriter.append advance writer = .error error torn) : False := by
  have spec := ensures_of_ok (ReplayReader.ensures_nextRecord reader) reads
  obtain ⟨_, _, payload, _, _, _, _, decoded⟩ := spec
  have within := (accepted_of_decodeTickAdvance decoded).2
  have refused := ensures_of_error (ReplayWriter.ensures_append advance writer) fails
  have excess := (refused.2 healthy).1
  omega

section Path

variable {σ : Type} [SessionSimulation σ]

/-- The bytes read as a log from its header to its clean end, and replaying them
takes the simulation from `initial` to `last`. -/
def ReadsAsLog (data : Bytes) (initial last : σ) : Prop :=
  ∃ opened begun ticks final, ReplayReader.fromReader (bufReader data) = .ok opened ∧
    initializeWith opened.header initial = .ok () begun ∧
    Replays begun opened ticks last final ∧ ReplayReader.nextRecord final = .ok none final

/-- Up to `reader`, the bytes were read as a log that took the simulation to `sim`. -/
def ReadSoFar (data : Bytes) (initial sim : σ) (initialized : Bool) (reader : ReplayReader) : Prop :=
  ∃ opened, ReplayReader.fromReader (bufReader data) = .ok opened ∧
    (initialized = false ∧ sim = initial ∧ reader = opened ∨
      initialized = true ∧ ∃ begun ticks, initializeWith opened.header initial = .ok () begun ∧
        Replays begun opened ticks sim reader)

/-- A tick that is rejected is not applied. -/
theorem not_rejected_of_applied {advance : TickAdvance} {sim next rejected : σ}
    {error : SessionError} (applies : TickApplied advance sim .replay next)
    (rejects : TickRejected advance .replay sim error rejected) : False := by
  rcases applies with ⟨continues, executes, ends⟩
  cases rejects with
  | gap discontinuous => exact discontinuous continues
  | refused _ fails =>
      rw [executes] at fails
      cases fails
  | misplaced _ executes' misplaced =>
      rw [executes] at executes'
      cases executes'
      exact misplaced ends
  | unpublished _ _ _ live _ => cases live

variable {sim next last : σ} {reader later final : ReplayReader} {front whole : List TickAdvance}

/-- A replay of a log goes no further than its clean end. -/
theorem Replays.length_le (first : Replays sim reader front next later)
    (second : Replays sim reader whole last final)
    (clean : ReplayReader.nextRecord final = .ok none final) : front.length ≤ whole.length := by
  by_contra longer
  obtain ⟨back, split, onwards⟩ := second.continues first (by omega)
  cases onwards with
  | here =>
      rw [split, List.append_nil] at longer
      exact longer (Nat.le_refl _)
  | tick reads =>
      rw [clean] at reads
      cases reads

/-- A replay of a log goes along it. -/
theorem Replays.remaining (first : Replays sim reader front next later)
    (second : Replays sim reader whole last final)
    (clean : ReplayReader.nextRecord final = .ok none final) :
    ∃ back, whole = front ++ back ∧ Replays next later back last final :=
  first.continues second (first.length_le second clean)

/-- Where no record is left, the replay has ended. -/
theorem Replays.ended (path : Replays sim reader whole last final)
    (clean : ReplayReader.nextRecord reader = .ok none reader) :
    whole = [] ∧ last = sim ∧ final = reader := by
  cases path with
  | here => exact ⟨rfl, rfl, rfl⟩
  | tick reads =>
      rw [clean] at reads
      cases reads

/-- Before the clean end, a replay stops only for its recording. -/
theorem Replays.not_stopped (path : Replays sim reader whole last final)
    (clean : ReplayReader.nextRecord final = .ok none final) {mirror : Option ReplayWriter}
    (healthy : ∀ writer, mirror = some writer → writer.Healthy) {error : SessionError}
    {stopped : Replay σ} (stops : ReplayStopped { sim, reader, mirror } error stopped) : False := by
  cases path with
  | here =>
      cases stops with
      | malformed unread =>
          rw [clean] at unread
          cases unread
      | gap reads =>
          rw [clean] at reads
          cases reads
      | unmirrored reads =>
          rw [clean] at reads
          cases reads
      | rejected reads =>
          rw [clean] at reads
          cases reads
  | tick reads applies =>
      cases stops with
      | malformed unread =>
          rw [reads] at unread
          cases unread
      | gap reads' discontinuous =>
          rw [reads] at reads'
          cases reads'
          rcases applies with ⟨continues, _, _⟩
          exact discontinuous continues
      | unmirrored reads' _ recorded fails => exact append_of_read reads' (healthy _ recorded) fails
      | rejected reads' _ _ rejects =>
          rw [reads] at reads'
          cases reads'
          exact not_rejected_of_applied applies rejects

theorem toNat_of_checkedAdd {current tick : UInt64} (continues : checkedAdd current 1 = some tick) :
    tick.toNat = current.toNat + 1 := by
  unfold checkedAdd at continues
  by_cases fits : current.toNat + (1 : UInt64).toNat < 2 ^ 64
  · rw [if_pos fits] at continues
    cases continues
    rw [UInt64.toNat_add, Nat.mod_eq_of_lt fits]
    rfl
  · rw [if_neg fits] at continues
    cases continues

/-- A counter that cannot be incremented is at its end. -/
theorem exhausted_of_checkedAdd {count : UInt64} (fails : checkedAdd count 1 = none) :
    count.toNat + 1 = 2 ^ 64 := by
  unfold checkedAdd at fails
  have beyond := (ite_eq_right_iff.mp fails).mt (Option.some_ne_none _)
  have bound := count.toNat_lt
  change ¬ count.toNat + 1 < 2 ^ 64 at beyond
  omega

/-- Each replayed tick counts. -/
theorem Replays.currentTick (keeps : FinishKeepsTick σ)
    (path : Replays sim reader whole last final) :
    (SessionSimulation.currentTick last).toNat =
      (SessionSimulation.currentTick sim).toNat + whole.length := by
  induction path with
  | here => rfl
  | tick _ applies _ ih =>
      rcases applies with ⟨continues, _, ends⟩
      rw [ih, keeps, ends, toNat_of_checkedAdd continues, List.length_cons, Nat.add_assoc,
        Nat.add_comm 1]

end Path

/-- A log of `tallyGame` with one tick. -/
def tallyLog : Bytes := encode tallyHeader ++ record { tick := 1, inputs := [⟨.host, ⟨[7]⟩⟩] }

/-- `tallyGame` after the log. -/
def tallyLast : Adapter tallyGame where
  header := tallyHeader
  simulation := some ({ tick := 1, total := 7 } : Tally)

theorem readsAsLog_tallyLog :
    ReadsAsLog tallyLog { header := tallyHeader : Adapter tallyGame } tallyLast := by
  have opens : ReplayReader.fromReader (bufReader tallyLog) =
      .ok { source := ⟨[record { tick := 1, inputs := [⟨.host, ⟨[7]⟩⟩] }]⟩, header := tallyHeader } := by
    decide
  refine ⟨_, tallyAdapter, _, _, opens, rfl, .tick rfl (.replay rfl rfl rfl) (.here _ _), rfl⟩

end Synctick
