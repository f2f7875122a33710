import Synctick.Startup.Client

/-! # A replica goes live only on verified state

Whatever messages a client receives, and in whatever order its startup is called,
it accepts one announcement and no more bytes than announced, and it goes live
only when its simulation reached the announced tick and fingerprint. A step that
fails leaves the startup replaying, behind the record at which it failed; a caller
that steps again after an error may therefore skip part of the log.
-/

namespace Synctick

open SessionSimulation Effect ClientStartup

inductive StartupCall
  | receiveSave (message : SaveMessage)
  | step (passes : Nat)
  | start (tick hash : UInt64)
  deriving DecidableEq

/-- A startup and the simulation it drives, with what its calls did so far. -/
structure StartupRun (σ : Type) where
  startup : ClientStartup := {}
  sim : σ
  /-- The metadata of the accepted announcements. -/
  begins : List SaveMetadata := []
  /-- The bytes of the accepted chunks. -/
  accepted : Bytes := []
  /-- The accepted starts. -/
  starts : List (UInt64 × UInt64) := []
  stepFailed : Bool := false

/-- A phase is followed by itself or by one of its successors. -/
inductive ClientPhase.Moves : ClientPhase → ClientPhase → Prop
  | receiving {metadata metadata' : Option SaveMetadata} {bytes bytes' : Bytes} :
      Moves (.receiving metadata bytes) (.receiving metadata' bytes')
  | received {metadata : Option SaveMetadata} {bytes : Bytes} {announced : SaveMetadata}
      {reader : ReplayReader} : Moves (.receiving metadata bytes) (.replaying announced reader)
  | rejected {metadata : Option SaveMetadata} {bytes : Bytes} :
      Moves (.receiving metadata bytes) .failed
  | replaying {metadata : SaveMetadata} {reader reader' : ReplayReader} :
      Moves (.replaying metadata reader) (.replaying metadata reader')
  | replayed {metadata : SaveMetadata} {reader : ReplayReader} :
      Moves (.replaying metadata reader) (.awaitingStart metadata)
  | awaitingStart {metadata : SaveMetadata} :
      Moves (.awaitingStart metadata) (.awaitingStart metadata)
  | started {metadata : SaveMetadata} : Moves (.awaitingStart metadata) .live
  | live : Moves .live .live
  | failed : Moves .failed .failed

/-- A phase may be kept. -/
theorem ClientPhase.Moves.refl (phase : ClientPhase) : phase.Moves phase := by
  cases phase with
  | receiving => exact .receiving
  | replaying => exact .replaying
  | awaitingStart => exact .awaitingStart
  | live => exact .live
  | failed => exact .failed

section Run

variable {σ : Type} [SessionSimulation σ]

namespace StartupRun

/-- Make a call and keep going, whatever it returns. -/
def call (run : StartupRun σ) : StartupCall → StartupRun σ
  | .receiveSave message =>
      match ClientStartup.receiveSave message run.startup with
      | .ok _ startup =>
          match message with
          | .begin metadata => { run with startup, begins := run.begins ++ [metadata] }
          | .chunk bytes => { run with startup, accepted := run.accepted ++ bytes }
      | .error _ startup => { run with startup }
  | .step passes =>
      match ClientStartup.step passes (run.startup, run.sim) with
      | .ok _ (startup, sim) => { run with startup, sim }
      | .error _ (startup, sim) => { run with startup, sim, stepFailed := true }
  | .start tick hash =>
      match ClientStartup.start tick hash run.startup with
      | .ok _ startup => { run with startup, starts := run.starts ++ [(tick, hash)] }
      | .error _ startup => { run with startup }

/-- The run of a new startup through successive calls. -/
def after (sim : σ) (calls : List StartupCall) : StartupRun σ := calls.foldl call { sim }

end StartupRun

/-- How the phase of a startup, its counters and what it accepted hang together. -/
inductive StartupRun.Consistent (initial : σ) (run : StartupRun σ) : Prop
  | silent (phase : run.startup.phase = .receiving none []) (begins : run.begins = [])
      (accepted : run.accepted = []) (received : run.startup.received = 0)
      (starts : run.starts = []) (fresh : run.startup.initialized = false)
      (untouched : run.sim = initial)
  | receiving {metadata : SaveMetadata} (phase : run.startup.phase = .receiving metadata run.accepted)
      (begins : run.begins = [metadata]) (received : run.startup.received.toNat = run.accepted.length)
      (within : run.accepted.length ≤ metadata.totalBytes.toNat) (starts : run.starts = [])
      (fresh : run.startup.initialized = false) (untouched : run.sim = initial)
  | replaying {metadata : SaveMetadata} {reader : ReplayReader}
      (phase : run.startup.phase = .replaying metadata reader) (begins : run.begins = [metadata])
      (whole : run.accepted.length = metadata.totalBytes.toNat) (starts : run.starts = [])
      (read : run.stepFailed = false →
        ReadSoFar run.accepted initial run.sim run.startup.initialized reader)
  | awaitingStart {metadata : SaveMetadata} (phase : run.startup.phase = .awaitingStart metadata)
      (begins : run.begins = [metadata])
      (whole : run.accepted.length = metadata.totalBytes.toNat) (starts : run.starts = [])
      (tick : currentTick run.sim = metadata.tick) (hash : stateHash run.sim = metadata.hash)
      (read : run.stepFailed = false → ReadsAsLog run.accepted initial run.sim)
  | live {metadata : SaveMetadata} (phase : run.startup.phase = .live)
      (begins : run.begins = [metadata])
      (whole : run.accepted.length = metadata.totalBytes.toNat)
      (starts : run.starts = [(metadata.tick, metadata.hash)])
      (tick : currentTick run.sim = metadata.tick) (hash : stateHash run.sim = metadata.hash)
      (read : run.stepFailed = false → ReadsAsLog run.accepted initial run.sim)
  | failed {metadata : SaveMetadata} (phase : run.startup.phase = .failed)
      (begins : run.begins = [metadata])
      (within : run.accepted.length ≤ metadata.totalBytes.toNat) (starts : run.starts = [])

namespace StartupRun

/-- A `Begin` is accepted only before anything else was: there was no other one, no chunk, no
`Start`, and the simulation was not begun. -/
theorem consistent_begin {initial : σ} {run : StartupRun σ} (consistent : run.Consistent initial)
    {announced metadata : SaveMetadata} {bytes : Bytes} {received : UInt64}
    (accepts : Accepts run.startup (.begin announced) metadata bytes received) :
    metadata = announced ∧ bytes = [] ∧ received = 0 ∧ metadata.totalBytes > 0 ∧ run.begins = [] ∧
      run.accepted = [] ∧ run.starts = [] ∧ run.startup.initialized = false ∧ run.sim = initial := by
  cases accepts with
  | begin receiving some =>
      cases consistent with
      | silent phase begins accepted received starts fresh untouched =>
          rw [receiving] at phase
          cases phase
          exact ⟨rfl, rfl, received, some, begins, accepted, starts, fresh, untouched⟩
      | receiving phase => rw [receiving] at phase; cases phase
      | replaying phase => rw [receiving] at phase; cases phase
      | awaitingStart phase => rw [receiving] at phase; cases phase
      | live phase => rw [receiving] at phase; cases phase
      | failed phase => rw [receiving] at phase; cases phase

/-- A chunk is accepted only behind the one `Begin`: the save is what was accepted and this chunk,
within the announced size, and nothing was replayed. -/
theorem consistent_chunk {initial : σ} {run : StartupRun σ} (consistent : run.Consistent initial)
    {chunk : Bytes} {metadata : SaveMetadata} {bytes : Bytes} {received : UInt64}
    (accepts : Accepts run.startup (.chunk chunk) metadata bytes received) :
    bytes = run.accepted ++ chunk ∧ received.toNat = bytes.length ∧
      bytes.length ≤ metadata.totalBytes.toNat ∧ run.begins = [metadata] ∧
      run.starts = [] ∧ run.startup.initialized = false ∧ run.sim = initial := by
  cases accepts with
  | chunk receiving nonempty small within =>
      cases consistent with
      | silent phase => rw [receiving] at phase; cases phase
      | receiving phase begins received _ starts fresh untouched =>
          rw [receiving] at phase
          cases phase
          have bound := metadata.totalBytes.toNat_lt
          have size : (UInt64.ofNat chunk.length).toNat = chunk.length :=
            UInt64.toNat_ofNat_of_lt' (by
              change chunk.length < 2 ^ 64
              omega)
          have sum : (run.startup.received + UInt64.ofNat chunk.length).toNat =
              run.startup.received.toNat + chunk.length := by
            rw [UInt64.toNat_add, size, Nat.mod_eq_of_lt (by omega)]
          refine ⟨rfl, ?_, ?_, begins, starts, fresh, untouched⟩
          · rw [sum, received, List.length_append]
          · rw [List.length_append]
            omega
      | replaying phase => rw [receiving] at phase; cases phase
      | awaitingStart phase => rw [receiving] at phase; cases phase
      | live phase => rw [receiving] at phase; cases phase
      | failed phase => rw [receiving] at phase; cases phase

/-- A `Begin` that is accepted is recorded. -/
theorem call_begin {run : StartupRun σ} {metadata : SaveMetadata} {startup : ClientStartup}
    (returned : ClientStartup.receiveSave (.begin metadata) run.startup = .ok () startup) :
    run.call (.receiveSave (.begin metadata)) =
      { run with startup, begins := run.begins ++ [metadata] } := by
  simp only [call, returned]

/-- The bytes of a chunk that is accepted are recorded. -/
theorem call_chunk {run : StartupRun σ} {bytes : Bytes} {startup : ClientStartup}
    (returned : ClientStartup.receiveSave (.chunk bytes) run.startup = .ok () startup) :
    run.call (.receiveSave (.chunk bytes)) =
      { run with startup, accepted := run.accepted ++ bytes } := by
  simp only [call, returned]

/-- A message that is refused is not recorded. -/
theorem call_receiveSave_error {run : StartupRun σ} {message : SaveMessage} {error : SessionError}
    {startup : ClientStartup}
    (stopped : ClientStartup.receiveSave message run.startup = .error error startup) :
    run.call (.receiveSave message) = { run with startup } := by
  simp only [call, stopped]

/-- A step that returns leads to its startup and its simulation. -/
theorem call_step {run : StartupRun σ} {passes : Nat} {result : Option ClientMessage}
    {next : ClientStartup × σ}
    (returned : ClientStartup.step passes (run.startup, run.sim) = .ok result next) :
    run.call (.step passes) = { run with startup := next.1, sim := next.2 } := by
  simp only [call, returned]

/-- So does one that fails, and the failure is recorded. -/
theorem call_step_error {run : StartupRun σ} {passes : Nat} {error : SessionError}
    {next : ClientStartup × σ}
    (stopped : ClientStartup.step passes (run.startup, run.sim) = .error error next) :
    run.call (.step passes) = { run with startup := next.1, sim := next.2, stepFailed := true } := by
  simp only [call, stopped]

/-- A `Start` that is accepted is recorded. -/
theorem call_start {run : StartupRun σ} {tick hash : UInt64} {startup : ClientStartup}
    (returned : ClientStartup.start tick hash run.startup = .ok () startup) :
    run.call (.start tick hash) = { run with startup, starts := run.starts ++ [(tick, hash)] } := by
  simp only [call, returned]

/-- One that is refused is not. -/
theorem call_start_error {run : StartupRun σ} {tick hash : UInt64} {error : SessionError}
    {startup : ClientStartup}
    (stopped : ClientStartup.start tick hash run.startup = .error error startup) :
    run.call (.start tick hash) = { run with startup } := by
  simp only [call, stopped]

/-- A message of the save, accepted or not, takes one of the transitions and keeps the records
consistent. -/
theorem consistent_receiveSave {initial : σ} {run : StartupRun σ}
    (consistent : run.Consistent initial) (message : SaveMessage) :
    run.startup.phase.Moves (run.call (.receiveSave message)).startup.phase ∧
      (run.call (.receiveSave message)).Consistent initial := by
  have spec := ensures_receiveSave message run.startup
  cases exit : ClientStartup.receiveSave message run.startup with
  | ok _ startup =>
      obtain ⟨metadata, bytes, received, accepts, outcome⟩ := ensures_of_ok spec exit
      have receiving : ∃ earlier front, run.startup.phase = .receiving earlier front := by
        cases accepts with
        | begin receiving => exact ⟨_, _, receiving⟩
        | chunk receiving => exact ⟨_, _, receiving⟩
      obtain ⟨earlier, front, was⟩ := receiving
      cases message with
      | begin announced =>
          rw [call_begin exit]
          obtain ⟨rfl, rfl, rfl, some, begins, accepted, starts, fresh, untouched⟩ :=
            consistent_begin consistent accepts
          rcases outcome with ⟨_, rfl⟩ | ⟨complete, _⟩
          · refine ⟨by rw [was]; exact .receiving, ?_⟩
            refine .receiving (by rw [accepted]) ?_ ?_ ?_ starts fresh untouched
            · rw [begins, List.nil_append]
            · rw [accepted]
              rfl
            · rw [accepted]
              exact Nat.zero_le _
          · rw [← complete] at some
            exact (UInt64.lt_irrefl _ some).elim
      | chunk chunk =>
          rw [call_chunk exit]
          obtain ⟨rfl, counted, within, begins, starts, fresh, untouched⟩ :=
            consistent_chunk consistent accepts
          rcases outcome with ⟨_, rfl⟩ | ⟨complete, reader, opened, rfl⟩
          · exact ⟨by rw [was]; exact .receiving,
              .receiving rfl begins counted within starts fresh untouched⟩
          · refine ⟨by rw [was]; exact .received, .replaying rfl begins ?_ starts ?_⟩
            · rw [← complete]
              exact counted.symm
            · intro _
              exact ⟨reader, opened, Or.inl ⟨fresh, untouched, rfl⟩⟩
  | error _ startup =>
      rw [call_receiveSave_error exit]
      rcases ensures_of_error spec exit with ⟨_, rfl⟩ | ⟨metadata, bytes, received, accepts, complete, _, rfl⟩
      · exact ⟨.refl _, consistent⟩
      · have receiving : ∃ earlier front, run.startup.phase = .receiving earlier front := by
          cases accepts with
          | begin receiving => exact ⟨_, _, receiving⟩
          | chunk receiving => exact ⟨_, _, receiving⟩
        obtain ⟨earlier, front, was⟩ := receiving
        cases message with
        | begin announced =>
            obtain ⟨rfl, rfl, rfl, some, _⟩ := consistent_begin consistent accepts
            rw [← complete] at some
            exact (UInt64.lt_irrefl _ some).elim
        | chunk chunk =>
            obtain ⟨rfl, _, within, begins, starts, _⟩ := consistent_chunk consistent accepts
            refine ⟨by rw [was]; exact .rejected, .failed rfl begins ?_ starts⟩
            rw [List.length_append] at within
            exact Nat.le_trans (Nat.le_add_right _ _) within

/-- So does a step of the replay, also one that fails. -/
theorem consistent_step {initial : σ} {run : StartupRun σ} (consistent : run.Consistent initial)
    (passes : Nat) :
    run.startup.phase.Moves (run.call (.step passes)).startup.phase ∧
      (run.call (.step passes)).Consistent initial := by
  have idle (elsewhere : ∀ metadata reader, run.startup.phase ≠ .replaying metadata reader) :
      run.call (.step passes) = run := by
    rw [call_step (step_elsewhere passes run.sim elsewhere)]
  by_cases phase : ∃ metadata reader, run.startup.phase = .replaying metadata reader
  · obtain ⟨metadata, reader, was⟩ := phase
    cases consistent with
    | @replaying announced reader' phase begins whole starts read =>
        rw [was] at phase
        cases phase
        have spec := ensures_step passes run.sim was
        cases exit : ClientStartup.step passes (run.startup, run.sim) with
        | ok result next =>
            rw [call_step exit]
            cases ensures_of_ok spec exit with
            | more inits progress within =>
                refine ⟨by rw [was]; exact .replaying, .replaying rfl begins whole starts ?_⟩
                intro unfailed
                obtain ⟨opened, begun, ticks, opens, initializes, path⟩ :=
                  readSoFar_batch (read unfailed) inits progress
                exact ⟨opened, opens, Or.inr ⟨rfl, begun, ticks, initializes, path⟩⟩
            | ready inits progress clean tick hash =>
                refine ⟨by rw [was]; exact .replayed, .awaitingStart rfl begins whole starts tick hash ?_⟩
                intro unfailed
                obtain ⟨opened, begun, ticks, opens, initializes, path⟩ :=
                  readSoFar_batch (read unfailed) inits progress
                exact ⟨opened, begun, ticks, _, opens, initializes, path, clean⟩
        | error error next =>
            rw [call_step_error exit]
            have replaying : ∃ reader, next.1.phase = .replaying metadata reader := by
              cases ensures_of_error spec exit with
              | uninitialized => exact ⟨reader, was⟩
              | stopped => exact ⟨_, rfl⟩
              | exceeds => exact ⟨_, rfl⟩
              | mismatch => exact ⟨_, rfl⟩
            obtain ⟨later, is⟩ := replaying
            refine ⟨by rw [was, is]; exact .replaying, .replaying is begins whole starts ?_⟩
            intro unfailed
            cases unfailed
    | silent phase => rw [was] at phase; cases phase
    | receiving phase => rw [was] at phase; cases phase
    | awaitingStart phase => rw [was] at phase; cases phase
    | live phase => rw [was] at phase; cases phase
    | failed phase => rw [was] at phase; cases phase
  · rw [idle fun metadata reader was => phase ⟨metadata, reader, was⟩]
    exact ⟨.refl _, consistent⟩

/-- So does a `Start`. -/
theorem consistent_start {initial : σ} {run : StartupRun σ} (consistent : run.Consistent initial)
    (tick hash : UInt64) :
    run.startup.phase.Moves (run.call (.start tick hash)).startup.phase ∧
      (run.call (.start tick hash)).Consistent initial := by
  have spec := ensures_start tick hash run.startup
  cases exit : ClientStartup.start tick hash run.startup with
  | ok _ startup =>
      rw [call_start exit]
      obtain ⟨metadata, was, sameTick, sameHash, rfl⟩ := ensures_of_ok spec exit
      cases consistent with
      | awaitingStart phase begins whole starts tick hash read =>
          rw [was] at phase
          cases phase
          refine ⟨by rw [was]; exact .started, .live rfl begins whole ?_ tick hash read⟩
          rw [starts, sameTick, sameHash, List.nil_append]
      | silent phase => rw [was] at phase; cases phase
      | receiving phase => rw [was] at phase; cases phase
      | replaying phase => rw [was] at phase; cases phase
      | live phase => rw [was] at phase; cases phase
      | failed phase => rw [was] at phase; cases phase
  | error error startup =>
      rw [call_start_error exit]
      obtain ⟨rfl, _⟩ := ensures_of_error spec exit
      exact ⟨.refl _, consistent⟩

/-- Every call moves the phase forward and keeps the run consistent. -/
theorem consistent_call {initial : σ} {run : StartupRun σ} (consistent : run.Consistent initial)
    (call : StartupCall) :
    run.startup.phase.Moves (run.call call).startup.phase ∧ (run.call call).Consistent initial := by
  cases call with
  | receiveSave message => exact consistent_receiveSave consistent message
  | step passes => exact consistent_step consistent passes
  | start tick hash => exact consistent_start consistent tick hash

/-- Whatever is called in whatever order, the records are consistent. -/
theorem consistent_after (sim : σ) (calls : List StartupCall) : (after sim calls).Consistent sim := by
  have along (run : StartupRun σ) (consistent : run.Consistent sim) :
      (calls.foldl StartupRun.call run).Consistent sim := by
    induction calls generalizing run with
    | nil => exact consistent
    | cons call calls ih => exact ih _ (consistent_call consistent call).2
  exact along _ (.silent rfl rfl rfl rfl rfl rfl rfl)

/-- At most one `Begin` was accepted, no chunk before it, and no more bytes than it announced. -/
theorem accepted_le {initial : σ} {run : StartupRun σ} (consistent : run.Consistent initial) :
    run.begins.length ≤ 1 ∧ (run.begins = [] → run.accepted = []) ∧
      ∀ metadata ∈ run.begins, run.accepted.length ≤ metadata.totalBytes.toNat := by
  have single (metadata : SaveMetadata) (begins : run.begins = [metadata])
      (within : run.accepted.length ≤ metadata.totalBytes.toNat) :
      run.begins.length ≤ 1 ∧ (run.begins = [] → run.accepted = []) ∧
        ∀ metadata ∈ run.begins, run.accepted.length ≤ metadata.totalBytes.toNat := by
    rw [begins]
    refine ⟨Nat.le_refl _, fun impossible => (List.cons_ne_nil _ _ impossible).elim, ?_⟩
    intro other member
    rw [List.mem_singleton.mp member]
    exact within
  cases consistent with
  | silent _ begins accepted =>
      rw [begins, accepted]
      exact ⟨Nat.zero_le _, fun _ => rfl, fun _ member => nomatch member⟩
  | receiving _ begins _ within => exact single _ begins within
  | replaying _ begins whole => exact single _ begins (Nat.le_of_eq whole)
  | awaitingStart _ begins whole => exact single _ begins (Nat.le_of_eq whole)
  | live _ begins whole => exact single _ begins (Nat.le_of_eq whole)
  | failed _ begins within => exact single _ begins within

/-- Only the chunk that completes a save with a bad header changes a startup
that rejects it. -/
theorem receiveSave_rejected {initial : σ} {run : StartupRun σ}
    (consistent : run.Consistent initial) {message : SaveMessage} {error : SessionError}
    {next : ClientStartup}
    (rejected : ClientStartup.receiveSave message run.startup = .error error next) :
    next = run.startup ∨ next.phase = .failed ∧ ∃ chunk reason, message = .chunk chunk ∧
      ReplayReader.fromReader (bufReader (run.accepted ++ chunk)) = .error reason := by
  rcases ensures_of_error (ensures_receiveSave message run.startup) rejected with
    ⟨_, same⟩ | ⟨metadata, bytes, received, accepts, complete, ⟨reason, bad⟩, rfl⟩
  · exact Or.inl same
  · cases message with
    | begin announced =>
        obtain ⟨rfl, rfl, rfl, some, _⟩ := consistent_begin consistent accepts
        rw [← complete] at some
        exact (UInt64.lt_irrefl _ some).elim
    | chunk chunk =>
        obtain ⟨rfl, _⟩ := consistent_chunk consistent accepts
        exact Or.inr ⟨rfl, chunk, reason, rfl, bad⟩

end StartupRun

open StartupRun

/-- In every state that calls reach, the phase only moves forward; the accepted
bytes are within the single accepted announcement; only a replay touches the
simulation; a live startup accepted exactly what was announced, verified it, and,
when no step failed, read all of it as a log; and a rejected call changes nothing
but for a bad header. -/
theorem startup_live_verified (sim : σ) (calls : List StartupCall) :
    (∀ call, (after sim calls).startup.phase.Moves ((after sim calls).call call).startup.phase) ∧
    ((after sim calls).begins.length ≤ 1 ∧
      ((after sim calls).begins = [] → (after sim calls).accepted = []) ∧
      ∀ metadata ∈ (after sim calls).begins,
        (after sim calls).accepted.length ≤ metadata.totalBytes.toNat) ∧
    (∀ passes, (∀ metadata reader, (after sim calls).startup.phase ≠ .replaying metadata reader) →
      ClientStartup.step passes ((after sim calls).startup, (after sim calls).sim) =
        .ok none ((after sim calls).startup, (after sim calls).sim)) ∧
    ((after sim calls).startup.phase = .live → ∃ metadata,
      (after sim calls).begins = [metadata] ∧
      (after sim calls).accepted.length = metadata.totalBytes.toNat ∧
      currentTick (after sim calls).sim = metadata.tick ∧
      stateHash (after sim calls).sim = metadata.hash ∧
      (after sim calls).starts = [(metadata.tick, metadata.hash)] ∧
      ((after sim calls).stepFailed = false →
        ReadsAsLog (after sim calls).accepted sim (after sim calls).sim)) ∧
    (∀ message error next,
      ClientStartup.receiveSave message (after sim calls).startup = .error error next →
      next = (after sim calls).startup ∨ next.phase = .failed ∧ ∃ chunk reason,
        message = .chunk chunk ∧ ReplayReader.fromReader
          (bufReader ((after sim calls).accepted ++ chunk)) = .error reason) ∧
    (∀ tick hash error next,
      ClientStartup.start tick hash (after sim calls).startup = .error error next →
      next = (after sim calls).startup) := by
  have consistent := consistent_after sim calls
  refine ⟨?_, accepted_le consistent, ?_, ?_, ?_, ?_⟩
  · intro call
    exact (consistent_call consistent call).1
  · intro passes elsewhere
    exact step_elsewhere passes _ elsewhere
  · intro isLive
    cases consistent with
    | @live metadata phase begins whole starts tick hash read =>
        exact ⟨metadata, begins, whole, tick, hash, starts, read⟩
    | silent phase => rw [isLive] at phase; cases phase
    | receiving phase => rw [isLive] at phase; cases phase
    | replaying phase => rw [isLive] at phase; cases phase
    | awaitingStart phase => rw [isLive] at phase; cases phase
    | failed phase => rw [isLive] at phase; cases phase
  · intro message error next rejected
    exact receiveSave_rejected consistent rejected
  · intro tick hash error next rejected
    exact (ensures_of_error (ensures_start tick hash _) rejected).1

end Run

/-- A log of `tallyGame` without a tick, torn after one byte of a record. -/
def tornLog : Bytes := encode tallyHeader ++ [0]

/-- The transfer of the torn log, and a second step after the one that failed. -/
def tornCalls : List StartupCall :=
  [.receiveSave (.begin ⟨UInt64.ofNat tornLog.length, 0, 0⟩), .receiveSave (.chunk tornLog),
    .step 1, .step 1, .start 0 0]

/-- Those calls on a new startup of a replica of `tallyGame`. -/
def tornRun : StartupRun (Adapter tallyGame) :=
  StartupRun.after { header := tallyHeader : Adapter tallyGame } tornCalls

/-- A startup that is stepped again after an error goes live on a torn log. -/
theorem live_on_tornLog :
    tornRun.startup.phase = .live ∧ tornRun.accepted = tornLog ∧
      ¬ ReadsAsLog tornRun.accepted { header := tallyHeader : Adapter tallyGame } tornRun.sim := by
  have accepted : tornRun.accepted = tornLog := by decide
  refine ⟨by decide, accepted, ?_⟩
  rw [accepted]
  intro log
  obtain ⟨opened, begun, ticks, final, opens, _, path, clean⟩ := log
  have torn : ∃ reader, ReplayReader.fromReader (bufReader tornLog) = .ok reader ∧
      ∃ error next, ReplayReader.nextRecord reader = .error error next :=
    ⟨⟨⟨[[0]]⟩, tallyHeader⟩, by decide, _, _, rfl⟩
  obtain ⟨reader, opens', error, next, fails⟩ := torn
  rw [opens] at opens'
  cases opens'
  cases path with
  | here =>
      rw [clean] at fails
      cases fails
  | tick reads =>
      rw [reads] at fails
      cases fails

end Synctick
