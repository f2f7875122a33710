import Synctick.Replay.Log

/-! # The receiving side of a startup transfer

A joining client accumulates a save, replays it in bounded batches, and announces
that it is ready; it goes live on a `Start` that repeats what it announced.
-/

namespace Synctick

open SessionSimulation Effect

inductive ClientPhase
  | receiving (metadata : Option SaveMetadata) (bytes : Bytes)
  | replaying (metadata : SaveMetadata) (reader : ReplayReader)
  | awaitingStart (metadata : SaveMetadata)
  | live
  | failed
  deriving DecidableEq

structure ClientStartup where
  phase : ClientPhase := .receiving none []
  received : UInt64 := 0
  replayed : UInt64 := 0
  initialized : Bool := false
  deriving DecidableEq

namespace ClientStartup

/-- More bytes than announced, or than can be counted. -/
def exceeds (received size total : UInt64) : Bool :=
  match checkedAdd received size with
  | none => true
  | some sum => sum > total

/-- Take one message of the transfer into the save received so far. -/
def acceptSave (message : SaveMessage) (metadata : Option SaveMetadata) (bytes : Bytes) :
    SessionEffect ClientStartup (Option SaveMetadata × Bytes) := do
  let startup ← get
  match message with
  | .begin start =>
      if metadata.isNone ∧ start.totalBytes > 0 then pure (some start, bytes)
      else throw (.protocol "invalid or duplicate Begin")
  | .chunk chunk =>
      match metadata with
      | none => throw (.protocol "chunk before Begin")
      | some start =>
          let size := UInt64.ofNat chunk.length
          if chunk.isEmpty ∨ chunk.length > maxSaveChunkBytes ∨
              exceeds startup.received size start.totalBytes then
            throw (.protocol "invalid save chunk size")
          else do
            set { startup with received := startup.received + size }
            pure (metadata, bytes ++ chunk)

def receiveSave (message : SaveMessage) : SessionEffect ClientStartup Unit := do
  let startup ← get
  match startup.phase with
  | .receiving metadata bytes => do
      let (metadata, bytes) ← acceptSave message metadata bytes
      modify fun startup => { startup with phase := .receiving metadata bytes }
      let startup ← get
      match metadata with
      | some start =>
          if startup.received = start.totalBytes then do
            -- Leave a terminal state if header decoding fails.
            set { startup with phase := .failed }
            match ReplayReader.fromReader (bufReader bytes) with
            | .ok reader => set { startup with phase := .replaying start reader }
            | .error error => throw (.io error)
      | none => pure ()
  | _ => throw (.protocol "save data outside receiving phase")

section Step

variable {σ : Type} [SessionSimulation σ]

/-- The batch of a step, and the check once the log has ended. -/
def stepBatch (passes : Nat) (metadata : SaveMetadata) (reader : ReplayReader) :
    SessionEffect (ClientStartup × σ) (Option ClientMessage) := do
  let batch ← (replayBatch passes).zoom (fun state => { sim := state.2, reader })
    fun state replay => ({ state.1 with phase := .replaying metadata replay.reader }, replay.sim)
  modify fun (startup, sim) => ({ startup with replayed := currentTick sim }, sim)
  let (startup, sim) ← get
  if startup.replayed > metadata.tick then
    throw (.protocol "replay exceeds declared final tick")
  if batch.finished then do
    if startup.replayed ≠ metadata.tick ∨ stateHash sim ≠ metadata.hash then
      throw (.protocol "loaded save fingerprint mismatch")
    set ({ startup with phase := .awaitingStart metadata }, sim)
    pure (some (.ready metadata.tick metadata.hash))
  else pure none

/-- Replay the save with the simulation, one batch at a time. -/
def step (passes : Nat) : SessionEffect (ClientStartup × σ) (Option ClientMessage) := do
  let (startup, _) ← get
  match startup.phase with
  | .replaying metadata reader => do
      if ¬ startup.initialized then do
        (initializeWith reader.header).zoom Prod.snd fun state sim => (state.1, sim)
        modify fun (startup, sim) => ({ startup with initialized := true }, sim)
      stepBatch passes metadata reader
  | _ => pure none

end Step

def start (tick hash : UInt64) : SessionEffect ClientStartup Unit := do
  let startup ← get
  match startup.phase with
  | .awaitingStart expected =>
      if tick = expected.tick ∧ hash = expected.hash then set { startup with phase := .live }
      else throw (.protocol "invalid Start")
  | _ => throw (.protocol "invalid Start")

def isLive (startup : ClientStartup) : Bool :=
  match startup.phase with
  | .live => true
  | _ => false

def isLoading (startup : ClientStartup) : Bool :=
  match startup.phase with
  | .receiving .. => true
  | .replaying .. => true
  | _ => false

def progress (startup : ClientStartup) : UInt64 × UInt64 := (startup.received, startup.replayed)

/-- The message is acceptable, and makes `bytes` of the save announced by
`metadata`, of which `received` were counted. -/
inductive Accepts (startup : ClientStartup) : SaveMessage → SaveMetadata → Bytes → UInt64 → Prop
  | begin {metadata : SaveMetadata} {bytes : Bytes} (receiving : startup.phase = .receiving none bytes)
      (some : metadata.totalBytes > 0) :
      Accepts startup (.begin metadata) metadata bytes startup.received
  | chunk {metadata : SaveMetadata} {bytes chunk : Bytes}
      (receiving : startup.phase = .receiving (some metadata) bytes) (nonempty : chunk ≠ [])
      (small : chunk.length ≤ maxSaveChunkBytes)
      (within : startup.received.toNat + chunk.length ≤ metadata.totalBytes.toNat) :
      Accepts startup (.chunk chunk) metadata (bytes ++ chunk)
        (startup.received + UInt64.ofNat chunk.length)

theorem exceeds_iff (received : UInt64) (length : Nat) (total : UInt64)
    (small : length ≤ maxSaveChunkBytes) :
    exceeds received (UInt64.ofNat length) total = true ↔
      total.toNat < received.toNat + length := by
  have size : (UInt64.ofNat length).toNat = length := UInt64.toNat_ofNat_of_lt' (by
    unfold maxSaveChunkBytes at small
    change length < 2 ^ 64
    omega)
  have bound := total.toNat_lt
  unfold exceeds checkedAdd
  rw [size]
  by_cases fits : received.toNat + length < 2 ^ 64
  · have sum : (received + UInt64.ofNat length).toNat = received.toNat + length := by
      rw [UInt64.toNat_add, size, Nat.mod_eq_of_lt fits]
    simp only [fits, ↓reduceIte, gt_iff_lt, decide_eq_true_eq, UInt64.lt_iff_toNat_lt, sum]
  · simp only [fits, ↓reduceIte, true_iff]
    omega

theorem ensures_acceptSave (message : SaveMessage) (metadata : Option SaveMetadata) (bytes : Bytes)
    (startup : ClientStartup) (receiving : startup.phase = .receiving metadata bytes) :
    Ensures (acceptSave message metadata bytes) startup
      (fun result next => ∃ announced whole received,
        Accepts startup message announced whole received ∧ result = (some announced, whole) ∧
          next = { startup with received })
      (fun _ next => (∀ announced whole received, ¬ Accepts startup message announced whole received) ∧
        next = startup) := by
  unfold acceptSave
  rw [ensures_bind, ensures_get]
  cases message with
  | begin announced =>
      by_cases acceptable : metadata.isNone ∧ announced.totalBytes > 0
      · obtain ⟨fresh, some⟩ := acceptable
        rw [Option.isNone_iff_eq_none] at fresh
        subst fresh
        simp only [Option.isNone_none, some, and_self, ↓reduceIte, ensures_pure]
        exact ⟨announced, bytes, _, .begin receiving some, rfl, rfl⟩
      · dsimp only
        rw [if_neg acceptable, ensures_throw]
        refine ⟨?_, rfl⟩
        intro other whole received accepts
        cases accepts with
        | begin receiving' some =>
            rw [receiving] at receiving'
            cases receiving'
            exact acceptable ⟨rfl, some⟩
  | chunk chunk =>
      cases metadata with
      | none =>
          refine ⟨?_, rfl⟩
          intro other whole received accepts
          cases accepts with
          | chunk receiving' =>
              rw [receiving] at receiving'
              cases receiving'
      | some announced =>
          simp only [List.isEmpty_iff]
          by_cases large : chunk.length > maxSaveChunkBytes
          · rw [if_pos (Or.inr (Or.inl large)), ensures_throw]
            refine ⟨?_, rfl⟩
            intro other whole received accepts
            cases accepts with
            | chunk _ _ small => omega
          have small : chunk.length ≤ maxSaveChunkBytes := by omega
          have count := exceeds_iff startup.received chunk.length announced.totalBytes small
          by_cases refused : chunk = [] ∨ chunk.length > maxSaveChunkBytes ∨
              exceeds startup.received (UInt64.ofNat chunk.length) announced.totalBytes
          · rw [if_pos refused, ensures_throw]
            refine ⟨?_, rfl⟩
            intro other whole received accepts
            cases accepts with
            | chunk receiving' nonempty _ within =>
                rw [receiving] at receiving'
                cases receiving'
                rcases refused with empty | excess | exceeds
                · exact nonempty empty
                · exact large excess
                · rw [count] at exceeds
                  omega
          · rw [if_neg refused]
            rw [not_or, not_or, count] at refused
            obtain ⟨nonempty, _, fits⟩ := refused
            exact ⟨announced, bytes ++ chunk, _, .chunk receiving nonempty small (by omega), rfl, rfl⟩

/-- Everything that taking a message can do. -/
theorem ensures_receiveSave (message : SaveMessage) (startup : ClientStartup) :
    Ensures (receiveSave message) startup
      (fun _ next => ∃ metadata bytes received, Accepts startup message metadata bytes received ∧
        (received ≠ metadata.totalBytes ∧
            next = { startup with phase := .receiving (some metadata) bytes, received } ∨
          received = metadata.totalBytes ∧
            ∃ reader, ReplayReader.fromReader (bufReader bytes) = .ok reader ∧
              next = { startup with phase := .replaying metadata reader, received }))
      (fun _ next =>
        ((∀ metadata bytes received, ¬ Accepts startup message metadata bytes received) ∧
            next = startup) ∨
          ∃ metadata bytes received, Accepts startup message metadata bytes received ∧
            received = metadata.totalBytes ∧
            (∃ error, ReplayReader.fromReader (bufReader bytes) = .error error) ∧
            next = { startup with phase := .failed, received }) := by
  have elsewhere (outside : ∀ metadata bytes, startup.phase ≠ .receiving metadata bytes) :
      ∀ metadata bytes received, ¬ Accepts startup message metadata bytes received := by
    intro metadata bytes received accepts
    cases accepts with
    | begin receiving => exact outside _ _ receiving
    | chunk receiving => exact outside _ _ receiving
  unfold receiveSave
  rw [ensures_bind, ensures_get]
  cases phase : startup.phase with
  | receiving metadata bytes =>
      simp only [ensures_bind]
      refine (ensures_acceptSave message metadata bytes startup phase).mono ?_ ?_
      · intro result next accepted
        obtain ⟨announced, whole, received, accepts, same, left⟩ := accepted
        subst same left
        simp only [ensures_modify, ensures_get]
        by_cases complete : received = announced.totalBytes
        · simp only [complete, ↓reduceIte, ensures_bind, ensures_set]
          cases opened : ReplayReader.fromReader (bufReader whole) with
          | ok reader =>
              rw [complete] at accepts
              exact ⟨announced, whole, _, accepts, Or.inr ⟨rfl, reader, opened, rfl⟩⟩
          | error error =>
              rw [complete] at accepts
              exact Or.inr ⟨announced, whole, _, accepts, rfl, ⟨error, opened⟩, rfl⟩
        · simp only [complete, ↓reduceIte, ensures_pure]
          exact ⟨announced, whole, received, accepts, Or.inl ⟨complete, rfl⟩⟩
      · intro error next refused
        obtain ⟨unacceptable, same⟩ := refused
        exact Or.inl ⟨unacceptable, same⟩
  | replaying metadata reader => exact Or.inl ⟨elsewhere (by simp [phase]), rfl⟩
  | awaitingStart metadata => exact Or.inl ⟨elsewhere (by simp [phase]), rfl⟩
  | live => exact Or.inl ⟨elsewhere (by simp [phase]), rfl⟩
  | failed => exact Or.inl ⟨elsewhere (by simp [phase]), rfl⟩

theorem ensures_start (tick hash : UInt64) (startup : ClientStartup) :
    Ensures (start tick hash) startup
      (fun _ next => ∃ metadata, startup.phase = .awaitingStart metadata ∧ tick = metadata.tick ∧
        hash = metadata.hash ∧ next = { startup with phase := .live })
      (fun error next => next = startup ∧ error = .protocol "invalid Start" ∧
        ∀ metadata, startup.phase = .awaitingStart metadata →
          ¬ (tick = metadata.tick ∧ hash = metadata.hash)) := by
  unfold start
  rw [ensures_bind, ensures_get]
  cases phase : startup.phase with
  | awaitingStart metadata =>
      dsimp only
      by_cases same : tick = metadata.tick ∧ hash = metadata.hash
      · rw [if_pos same]
        exact ⟨metadata, rfl, same.1, same.2, rfl⟩
      · rw [if_neg same]
        refine ⟨rfl, rfl, ?_⟩
        intro other awaiting
        cases awaiting
        exact same
  | receiving metadata bytes => exact ⟨rfl, rfl, fun _ impossible => nomatch impossible⟩
  | replaying metadata reader => exact ⟨rfl, rfl, fun _ impossible => nomatch impossible⟩
  | live => exact ⟨rfl, rfl, fun _ impossible => nomatch impossible⟩
  | failed => exact ⟨rfl, rfl, fun _ impossible => nomatch impossible⟩

section Step

variable {σ : Type} [SessionSimulation σ]

/-- The simulation that a step replays with: it is initialized from the log once. -/
inductive Begins (startup : ClientStartup) (reader : ReplayReader) (sim : σ) : σ → Prop
  | again (initialized : startup.initialized = true) : Begins startup reader sim sim
  | first {begun : σ} (fresh : startup.initialized = false)
      (initializes : initializeWith reader.header sim = .ok () begun) :
      Begins startup reader sim begun

/-- The log read so far, after a batch. -/
theorem readSoFar_batch {data : Bytes} {initial sim begun : σ} {startup : ClientStartup}
    {reader : ReplayReader} {ticks : List TickAdvance} {replay : Replay σ}
    (read : ReadSoFar data initial sim startup.initialized reader)
    (begins : Begins startup reader sim begun)
    (progress : Progress { sim := begun, reader } replay ticks) :
    ∃ opened begun ticks, ReplayReader.fromReader (bufReader data) = .ok opened ∧
      initializeWith opened.header initial = .ok () begun ∧
      Replays begun opened ticks replay.sim replay.reader := by
  obtain ⟨opened, reads, ⟨fresh, rfl, rfl⟩ | ⟨initialized, first, front, initializes, path⟩⟩ := read
  · cases begins with
    | again initialized =>
        rw [fresh] at initialized
        cases initialized
    | first _ initializes => exact ⟨_, _, ticks, reads, initializes, progress.path⟩
  · cases begins with
    | again _ => exact ⟨opened, first, _, reads, initializes, path.append progress.path⟩
    | first fresh _ =>
        rw [initialized] at fresh
        cases fresh

/-- A step after a batch that ended in `replay`. -/
def stepped (startup : ClientStartup) (phase : ClientPhase) (replay : Replay σ) :
    ClientStartup × σ :=
  ({ startup with phase, replayed := currentTick replay.sim, initialized := true }, replay.sim)

inductive StepReturns (startup : ClientStartup) (sim : σ) (metadata : SaveMetadata)
    (reader : ReplayReader) : Option ClientMessage → ClientStartup × σ → Prop
  | more {begun : σ} {ticks : List TickAdvance} {replay : Replay σ}
      (begins : Begins startup reader sim begun)
      (progress : Progress { sim := begun, reader } replay ticks)
      (within : currentTick replay.sim ≤ metadata.tick) :
      StepReturns startup sim metadata reader none
        (stepped startup (.replaying metadata replay.reader) replay)
  | ready {begun : σ} {ticks : List TickAdvance} {replay : Replay σ}
      (begins : Begins startup reader sim begun)
      (progress : Progress { sim := begun, reader } replay ticks)
      (clean : ReplayReader.nextRecord replay.reader = .ok none replay.reader)
      (tick : currentTick replay.sim = metadata.tick)
      (hash : stateHash replay.sim = metadata.hash) :
      StepReturns startup sim metadata reader (some (.ready metadata.tick metadata.hash))
        (stepped startup (.awaitingStart metadata) replay)

inductive StepFails (startup : ClientStartup) (sim : σ) (metadata : SaveMetadata)
    (reader : ReplayReader) : SessionError → ClientStartup × σ → Prop
  | uninitialized {error : SessionError} {failed : σ} (fresh : startup.initialized = false)
      (fails : initializeWith reader.header sim = .error error failed) :
      StepFails startup sim metadata reader error (startup, failed)
  | stopped {error : SessionError} {begun : σ} {ticks : List TickAdvance}
      {middle replay : Replay σ} (begins : Begins startup reader sim begun)
      (progress : Progress { sim := begun, reader } middle ticks)
      (stops : ReplayStopped middle error replay) :
      StepFails startup sim metadata reader error
        ({ startup with phase := .replaying metadata replay.reader, initialized := true },
          replay.sim)
  | exceeds {begun : σ} {ticks : List TickAdvance} {replay : Replay σ}
      (begins : Begins startup reader sim begun)
      (progress : Progress { sim := begun, reader } replay ticks)
      (beyond : currentTick replay.sim > metadata.tick) :
      StepFails startup sim metadata reader (.protocol "replay exceeds declared final tick")
        (stepped startup (.replaying metadata replay.reader) replay)
  | mismatch {begun : σ} {ticks : List TickAdvance} {replay : Replay σ}
      (begins : Begins startup reader sim begun)
      (progress : Progress { sim := begun, reader } replay ticks)
      (clean : ReplayReader.nextRecord replay.reader = .ok none replay.reader)
      (differs : currentTick replay.sim ≠ metadata.tick ∨ stateHash replay.sim ≠ metadata.hash) :
      StepFails startup sim metadata reader (.protocol "loaded save fingerprint mismatch")
        (stepped startup (.replaying metadata replay.reader) replay)

theorem ensures_stepBatch (passes : Nat) {startup : ClientStartup} {metadata : SaveMetadata}
    {reader : ReplayReader} {sim begun : σ} (begins : Begins startup reader sim begun) :
    Ensures (stepBatch passes metadata reader) ({ startup with initialized := true }, begun)
      (StepReturns startup sim metadata reader) (StepFails startup sim metadata reader) := by
  unfold stepBatch
  rw [ensures_bind, ensures_zoom]
  refine (ensures_replayBatch passes _).mono ?_ ?_
  · intro batch replay done
    obtain ⟨ticks, progress, _, exit⟩ := done
    simp only [ensures_bind, ensures_modify, ensures_get]
    by_cases beyond : currentTick replay.sim > metadata.tick
    · rw [if_pos beyond]
      exact .exceeds begins progress beyond
    rw [if_neg beyond]
    have within : currentTick replay.sim ≤ metadata.tick := UInt64.not_lt.mp beyond
    rcases exit with ⟨finished, _, clean⟩ | ⟨unfinished, _⟩
    · rw [if_pos finished]
      by_cases differs : currentTick replay.sim ≠ metadata.tick ∨ stateHash replay.sim ≠ metadata.hash
      · rw [if_pos differs]
        exact .mismatch begins progress clean differs
      · rw [if_neg differs]
        rw [not_or, not_not, not_not] at differs
        exact .ready begins progress clean differs.1 differs.2
    · rw [unfinished, if_neg Bool.false_ne_true]
      exact .more begins progress within
  · intro error replay stopped
    obtain ⟨ticks, middle, progress, _, stops⟩ := stopped
    exact .stopped begins progress stops

/-- Everything that a step can do while the save is replayed. -/
theorem ensures_step (passes : Nat) {startup : ClientStartup} {metadata : SaveMetadata}
    {reader : ReplayReader} (sim : σ) (replaying : startup.phase = .replaying metadata reader) :
    Ensures (step passes) (startup, sim) (StepReturns startup sim metadata reader)
      (StepFails startup sim metadata reader) := by
  unfold step
  rw [ensures_bind, ensures_get]
  simp only [replaying]
  cases flag : startup.initialized with
  | true =>
      have batch : Ensures (stepBatch passes metadata reader)
          ({ startup with initialized := true }, sim) (StepReturns startup sim metadata reader)
          (StepFails startup sim metadata reader) := ensures_stepBatch passes (.again flag)
      have same : { startup with initialized := true } = startup := by
        rw [← flag]
      rw [same] at batch
      simpa only [not_true_eq_false, ↓reduceIte] using batch
  | false =>
      simp only [Bool.false_eq_true, not_false_eq_true, ↓reduceIte, ensures_bind, ensures_zoom]
      refine (ensures_self _ sim).mono ?_ ?_
      · intro _ begun initializes
        exact ensures_stepBatch passes (.first flag initializes)
      · intro error failed fails
        exact .uninitialized flag fails

/-- Outside a replay a step does nothing. -/
theorem step_elsewhere (passes : Nat) {startup : ClientStartup} (sim : σ)
    (elsewhere : ∀ metadata reader, startup.phase ≠ .replaying metadata reader) :
    step passes (startup, sim) = .ok none (startup, sim) := by
  apply eq_ok_of_ensures
  unfold step
  rw [ensures_bind, ensures_get]
  cases phase : startup.phase with
  | replaying metadata reader => exact (elsewhere metadata reader phase).elim
  | receiving metadata bytes => simp only [phase, ensures_pure, and_self]
  | awaitingStart metadata => simp only [phase, ensures_pure, and_self]
  | live => simp only [phase, ensures_pure, and_self]
  | failed => simp only [phase, ensures_pure, and_self]

end Step

end ClientStartup

end Synctick
