import Synctick.Replay.Writer

/-! # The simulation contract of live sessions and replay

A session drives an engine-owned state one tick at a time: a tick is checked to
continue the current one, executed, checked again, published when live, and then
finished. `Traced` instruments a state with the calls the driver makes on it.
-/

namespace Synctick

inductive TickPhase
  | replay
  | live
  deriving DecidableEq, Repr

/-- Engine-owned state. A call that can fail leaves a state on both exits.
`state_hash` borrows the state mutably only to query it. -/
class SessionSimulation (σ : Type) where
  header : σ → ReplayHeader
  initializeWith : ReplayHeader → SessionEffect σ Unit := fun _ => pure ()
  validateCommand : σ → Bytes → SessionResult Unit := fun _ _ => .ok ()
  hashInterval : σ → UInt64 := fun sim =>
    (1_000_000_000 + (header sim).tickNanos / 2) / (header sim).tickNanos
  currentTick : σ → UInt64
  stateHash : σ → UInt64
  advance : TickAdvance → SessionEffect σ Unit
  publish : SessionEffect σ Unit
  finishTick : σ → σ := id

open SessionSimulation

/-- `checked_add` on 64-bit ticks. -/
def checkedAdd (first second : UInt64) : Option UInt64 :=
  if first.toNat + second.toNat < 2 ^ 64 then some (first + second) else none

variable {σ : Type} [SessionSimulation σ]

/-- A tick must follow the current one. -/
def validateTick (tick : UInt64) : SessionEffect σ Unit := do
  let sim ← get
  let current := currentTick sim
  if checkedAdd current 1 ≠ some tick then
    throw (.protocol s!"tick gap: {tick} after {current}")

/-- Execute a tick, check where it ended, publish it when live, and finish it
however it went. -/
def advanceTick (advance : TickAdvance) (phase : TickPhase) : SessionEffect σ Unit := do
  validateTick advance.tick
  let expected := advance.tick
  let result ← Effect.attempt (do
    SessionSimulation.advance advance
    let sim ← get
    if currentTick sim ≠ expected then
      throw (.simulation s!"adapter ended at tick {currentTick sim}, expected {expected}")
    if phase = .live then
      publish)
  modify finishTick
  Effect.ofExcept result

/-- Cleanup leaves the current tick alone. -/
def FinishKeepsTick (σ : Type) [SessionSimulation σ] : Prop :=
  ∀ sim : σ, currentTick (finishTick sim) = currentTick sim

/-- A tick went through: it continued the current one, executed, ended at its
own number, and was published when live. -/
inductive TickApplied (advance : TickAdvance) (sim : σ) : TickPhase → σ → Prop
  | replay {executed : σ}
      (continues : checkedAdd (currentTick sim) 1 = some advance.tick)
      (executes : SessionSimulation.advance advance sim = .ok () executed)
      (ends : currentTick executed = advance.tick) :
      TickApplied advance sim .replay (finishTick executed)
  | live {executed published : σ}
      (continues : checkedAdd (currentTick sim) 1 = some advance.tick)
      (executes : SessionSimulation.advance advance sim = .ok () executed)
      (ends : currentTick executed = advance.tick)
      (publishes : publish executed = .ok () published) :
      TickApplied advance sim .live (finishTick published)

/-- The ways a tick is rejected, with the state each leaves: before any call,
or after the calls up to the one that failed. -/
inductive TickRejected (advance : TickAdvance) (phase : TickPhase) (sim : σ) :
    SessionError → σ → Prop
  | gap (discontinuous : checkedAdd (currentTick sim) 1 ≠ some advance.tick) :
      TickRejected advance phase sim
        (.protocol s!"tick gap: {advance.tick} after {currentTick sim}") sim
  | refused {error : SessionError} {executed : σ}
      (continues : checkedAdd (currentTick sim) 1 = some advance.tick)
      (fails : SessionSimulation.advance advance sim = .error error executed) :
      TickRejected advance phase sim error (finishTick executed)
  | misplaced {executed : σ}
      (continues : checkedAdd (currentTick sim) 1 = some advance.tick)
      (executes : SessionSimulation.advance advance sim = .ok () executed)
      (ends : currentTick executed ≠ advance.tick) :
      TickRejected advance phase sim (.simulation
        s!"adapter ended at tick {currentTick executed}, expected {advance.tick}")
        (finishTick executed)
  | unpublished {error : SessionError} {executed published : σ}
      (continues : checkedAdd (currentTick sim) 1 = some advance.tick)
      (executes : SessionSimulation.advance advance sim = .ok () executed)
      (ends : currentTick executed = advance.tick) (isLive : phase = .live)
      (fails : publish executed = .error error published) :
      TickRejected advance phase sim error (finishTick published)

open Effect

theorem ensures_validateTick (tick : UInt64) (sim : σ) :
    Ensures (validateTick tick) sim
      (fun _ next => next = sim ∧ checkedAdd (currentTick sim) 1 = some tick)
      (fun error next => next = sim ∧ checkedAdd (currentTick sim) 1 ≠ some tick ∧
        error = .protocol s!"tick gap: {tick} after {currentTick sim}") := by
  unfold validateTick
  by_cases continues : checkedAdd (currentTick sim) 1 = some tick
  · simp [continues]
  · simp [continues]

/-- Everything that driving one tick can do. -/
theorem ensures_advanceTick (advance : TickAdvance) (phase : TickPhase) (sim : σ) :
    Ensures (advanceTick advance phase) sim (fun _ next => TickApplied advance sim phase next)
      (fun error next => TickRejected advance phase sim error next) := by
  unfold advanceTick
  rw [ensures_bind]
  refine (ensures_validateTick advance.tick sim).mono ?_ ?_
  · rintro _ current ⟨rfl, continues⟩
    simp only [ensures_bind, ensures_attempt]
    refine (ensures_self _ _).mono ?_ ?_
    · intro _ executed executes
      by_cases ends : currentTick executed = advance.tick
      · cases phase with
        | replay =>
            simpa [ends] using TickApplied.replay continues executes ends
        | live =>
            simp only [ensures_get, ends, ne_eq, not_true_eq_false, ↓reduceIte]
            refine (ensures_self _ _).mono ?_ ?_
            · intro _ published publishes
              simpa using TickApplied.live continues executes ends publishes
            · intro error published fails
              simpa using TickRejected.unpublished continues executes ends rfl fails
      · have rejected : TickRejected advance phase current _ _ := .misplaced continues executes ends
        simpa [ends] using rejected
    · intro error executed fails
      have rejected : TickRejected advance phase current _ _ := .refused continues fails
      simpa using rejected
  · rintro error next ⟨rfl, discontinuous, rfl⟩
    exact TickRejected.gap discontinuous

/-- A call of the driver on the simulation. An advance is applied when it
returns at the tick it was given. -/
inductive Hook
  | advance (tick : TickAdvance) (applied : Bool)
  | publish
  | finish
  deriving DecidableEq, Repr

/-- A simulation with the calls made on it, in order. -/
structure Traced (σ : Type) where
  sim : σ
  hooks : List Hook := []

namespace Traced

/-- Run a call on the instrumented simulation and record it with its exit. -/
def call {α : Type} (program : SessionEffect σ α) (hook : Except SessionError α → σ → List Hook) :
    SessionEffect (Traced σ) α := fun traced =>
  match program traced.sim with
  | .ok value sim => .ok value { sim, hooks := traced.hooks ++ hook (.ok value) sim }
  | .error error sim => .error error { sim, hooks := traced.hooks ++ hook (.error error) sim }

instance : SessionSimulation (Traced σ) where
  header traced := header traced.sim
  initializeWith replayHeader := call (SessionSimulation.initializeWith replayHeader) fun _ _ => []
  validateCommand traced := validateCommand traced.sim
  hashInterval traced := hashInterval traced.sim
  currentTick traced := currentTick traced.sim
  stateHash traced := stateHash traced.sim
  advance tick := call (SessionSimulation.advance tick) fun result sim =>
    [.advance tick (result.isOk && currentTick sim == tick.tick)]
  publish := call SessionSimulation.publish fun _ _ => [.publish]
  finishTick traced :=
    { sim := SessionSimulation.finishTick traced.sim, hooks := traced.hooks ++ [.finish] }

/-- The tick that a call applied. -/
def Hook.applied : Hook → Option TickAdvance
  | .advance tick true => some tick
  | _ => none

/-- The ticks applied to the simulation, in order. -/
def applied (traced : Traced σ) : List TickAdvance := traced.hooks.filterMap Hook.applied

omit [SessionSimulation σ] in
@[simp] theorem ensures_call {α : Type} (program : SessionEffect σ α)
    (hook : Except SessionError α → σ → List Hook) (traced : Traced σ)
    (post : α → Traced σ → Prop) (fail : SessionError → Traced σ → Prop) :
    Ensures (call program hook) traced post fail ↔
      Ensures program traced.sim
        (fun value sim => post value { sim, hooks := traced.hooks ++ hook (.ok value) sim })
        (fun error sim => fail error { sim, hooks := traced.hooks ++ hook (.error error) sim }) := by
  unfold Ensures call
  cases program traced.sim <;> rfl

@[simp] theorem applied_finishTick (traced : Traced σ) :
    (finishTick traced).applied = traced.applied := by
  change (traced.hooks ++ [Hook.finish]).filterMap Hook.applied = _
  rw [List.filterMap_append]
  exact List.append_nil _

/-- An advance is counted as applied exactly when it returns at its own tick. -/
theorem ensures_advance (advance : TickAdvance) (traced : Traced σ) :
    Ensures (SessionSimulation.advance advance) traced
      (fun _ next => next.applied = traced.applied ++
        if currentTick next = advance.tick then [advance] else [])
      (fun _ next => next.applied = traced.applied) := by
  refine (ensures_call _ _ traced _ _).mpr ((ensures_self _ _).mono ?_ ?_)
  · intro _ sim _
    change (traced.hooks ++ [Hook.advance advance (true && currentTick sim == advance.tick)]).filterMap
      Hook.applied = _ ++ if currentTick sim = advance.tick then [advance] else []
    rw [List.filterMap_append]
    by_cases ends : currentTick sim = advance.tick
    · simp [ends, Hook.applied, applied]
    · simp [ends, Hook.applied, applied]
  · intro _ sim _
    change (traced.hooks ++ [Hook.advance advance false]).filterMap Hook.applied = _
    rw [List.filterMap_append]
    exact List.append_nil _

theorem ensures_publish (traced : Traced σ) :
    Ensures SessionSimulation.publish traced (fun _ next => next.applied = traced.applied)
      (fun _ next => next.applied = traced.applied) := by
  have kept (sim : σ) : Traced.applied { sim, hooks := traced.hooks ++ [Hook.publish] } =
      traced.applied := by
    change (traced.hooks ++ [Hook.publish]).filterMap Hook.applied = _
    rw [List.filterMap_append]
    exact List.append_nil _
  refine (ensures_call _ _ traced _ _).mpr ((ensures_self _ _).mono ?_ ?_)
  · intro _ sim _
    exact kept sim
  · intro _ sim _
    exact kept sim

variable {advance : TickAdvance} {phase : TickPhase} {traced next : Traced σ}

/-- A tick that goes through is the next applied one. -/
theorem applied_of_tickApplied (through : TickApplied advance traced phase next) :
    next.applied = traced.applied ++ [advance] := by
  cases through with
  | replay _ executes ends =>
      have counted := ensures_of_ok (ensures_advance advance traced) executes
      rw [applied_finishTick, counted, if_pos ends]
  | live _ executes ends publishes =>
      have counted := ensures_of_ok (ensures_advance advance traced) executes
      have kept := ensures_of_ok (ensures_publish _) publishes
      rw [applied_finishTick, kept, counted, if_pos ends]

/-- A rejected tick is not applied, except that the failure of a live
publication does not roll the tick back. -/
theorem applied_of_tickRejected {error : SessionError}
    (rejected : TickRejected advance phase traced error next) :
    next.applied = traced.applied ∨
      phase = .live ∧ next.applied = traced.applied ++ [advance] := by
  cases rejected with
  | gap => exact Or.inl rfl
  | refused _ fails =>
      left
      have kept := ensures_of_error (ensures_advance advance traced) fails
      rw [applied_finishTick, kept]
  | misplaced _ executes ends =>
      left
      have counted := ensures_of_ok (ensures_advance advance traced) executes
      rw [applied_finishTick, counted, if_neg ends, List.append_nil]
  | unpublished _ executes ends isLive fails =>
      right
      have counted := ensures_of_ok (ensures_advance advance traced) executes
      have kept := ensures_of_error (ensures_publish _) fails
      refine ⟨isLive, ?_⟩
      rw [applied_finishTick, kept, counted, if_pos ends]

end Traced

end Synctick
