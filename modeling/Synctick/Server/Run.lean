import Synctick.Replay.Log
import Synctick.Server.Arrivals

/-! # Runs of the live loop

A run is the list of its completed iterations, each with the authority before and after
it. Where publication and cleanup leave the tick alone, as they must, the ticks of a run
are numbered one after another.
-/

namespace Synctick

open SessionSimulation Effect Std

/-- A completed iteration. -/
structure LiveStep (σ : Type) where
  before : Authority σ
  input : TickInput
  advance : TickAdvance
  after : Authority σ

/-- The authority of an iteration, once the connection events were handled. -/
def LiveStep.entered {σ : Type} (step : LiveStep σ) : Authority σ := step.before.entered step.input

variable {σ : Type}

/-- All that the network delivered from a client on a channel in the iterations of a run. -/
def delivered (id : UInt64) (channel : Channel) (steps : List (LiveStep σ)) : List Bytes :=
  steps.flatMap fun step => deliveries id channel step.input.actions

theorem delivered_concat (id : UInt64) (channel : Channel) (steps : List (LiveStep σ))
    (step : LiveStep σ) : delivered id channel (steps ++ [step]) =
      delivered id channel steps ++ deliveries id channel step.input.actions := by
  simp [delivered]

variable [SessionSimulation σ]

/-- From `start`, the iterations led to an authority. -/
inductive LiveRun (policy : DesyncPolicy) (start : Authority σ) :
    List (LiveStep σ) → Authority σ → Prop
  | here : LiveRun policy start [] start
  | iteration {steps : List (LiveStep σ)} {current next : Authority σ} {input : TickInput}
      {advance : TickAdvance} (run : LiveRun policy start steps current)
      (returns : Authority.iteration policy input current = .ok () next)
      (iterated : Authority.Iterated current next input advance) :
      LiveRun policy start (steps ++ [⟨current, input, advance, next⟩]) next

/-- Publication and cleanup leave the tick and the hash interval alone. -/
structure Steady (σ : Type) [SessionSimulation σ] : Prop where
  tick : ∀ (advance : TickAdvance) (sim next : σ), TickApplied advance sim .live next →
    currentTick next = advance.tick
  interval : ∀ (advance : TickAdvance) (sim next : σ), TickApplied advance sim .live next →
    hashInterval next = hashInterval sim

namespace Adapter

variable {G : Game}

/-- A call on the simulation changes the simulation only. -/
theorem ensures_onSim {α : Type} (program : SessionEffect G.Simulation α) (adapter : Adapter G) :
    Ensures (onSim program) adapter
      (fun value next => ∃ before after, adapter.simulation = some before ∧
        program before = .ok value after ∧ next = { adapter with simulation := some after })
      (fun _ next => next.header = adapter.header) := by
  unfold onSim
  rw [ensures_bind, ensures_get]
  cases created : adapter.simulation with
  | none => exact rfl
  | some simulation =>
      dsimp only
      rw [ensures_zoom]
      apply (ensures_self program simulation).mono
      · intro value after returns
        exact ⟨simulation, after, rfl, returns, rfl⟩
      · intro _ _ _
        rfl

theorem header_advance {tick : TickAdvance} {adapter next : Adapter G}
    (executes : SessionSimulation.advance tick adapter = .ok () next) :
    next.header = adapter.header := by
  have advances : Ensures (advance tick) adapter (fun _ next => next.header = adapter.header)
      (fun _ _ => True) := by
    unfold advance
    rw [ensures_bind, ensures_ofExcept]
    constructor
    · intro inputs _
      apply (ensures_onSim _ adapter).mono
      · rintro _ next ⟨_, _, _, _, same⟩
        rw [same]
      · intro _ _ _
        trivial
    · intro _ _
      trivial
  have kept := ensures_of_ok advances executes
  exact kept

/-- An adapter is steady where publication and cleanup of its game leave the tick alone. -/
theorem steady (publishes : ∀ before after : G.Simulation,
      Simulation.publish before = .ok () after →
        Simulation.currentTick after = Simulation.currentTick before)
    (finishes : ∀ simulation : G.Simulation,
      Simulation.currentTick (Simulation.finishTick simulation) =
        Simulation.currentTick simulation) : Steady (Adapter G) where
  tick tick adapter next applies := by
    cases applies with
    | live _ _ ends published =>
        obtain ⟨before, after, created, returns, same⟩ :=
          ensures_of_ok (ensures_onSim _ _) published
        rw [finishKeepsTick finishes, ← ends, same]
        change Simulation.currentTick after = Adapter.currentTick _
        unfold Adapter.currentTick
        rw [created]
        exact publishes before after returns
  interval tick adapter next applies := by
    cases applies with
    | live _ executes _ published =>
        obtain ⟨before, after, _, _, same⟩ := ensures_of_ok (ensures_onSim _ _) published
        subst same
        have header := header_advance executes
        exact congrArg (fun header : ReplayHeader =>
          (1_000_000_000 + header.tickNanos / 2) / header.tickNanos) header

end Adapter

theorem steady_tallyAdapter : Steady (Adapter tallyGame) := by
  apply Adapter.steady
  · intro before after returns
    cases returns
    rfl
  · intro simulation
    rfl

/-- The live loop only takes such iterations, one for each input, whether it ends or fails. -/
theorem ensures_tickLoop (policy : DesyncPolicy) (inputs : List TickInput) (start : Authority σ) :
    Ensures (Authority.tickLoop policy inputs) start
      (fun _ next => ∃ steps, LiveRun policy start steps next ∧ steps.map LiveStep.input = inputs)
      (fun error next => ∃ steps current input back, LiveRun policy start steps current ∧
        inputs = steps.map LiveStep.input ++ input :: back ∧
        Authority.IterationStopped policy current input error next) := by
  refine (ensures_forEach_along (Authority.iteration policy) inputs
    (fun front current => ∃ steps, LiveRun policy start steps current ∧
      steps.map LiveStep.input = front)
    (fun front input error next => ∃ steps current, LiveRun policy start steps current ∧
      steps.map LiveStep.input = front ∧
      Authority.IterationStopped policy current input error next) ?_ ⟨[], .here, rfl⟩).mono
    (fun _ _ outcome => outcome) ?_
  · intro front input current outcome
    obtain ⟨steps, run, same⟩ := outcome
    apply ((Authority.ensures_iteration policy input current).and (ensures_self _ _)).mono
    · intro _ next outcome
      obtain ⟨⟨advance, iterated⟩, returns⟩ := outcome
      refine ⟨_, run.iteration returns iterated, ?_⟩
      rw [List.map_append, same]
      rfl
    · intro error next stopped
      exact ⟨steps, current, run, same, stopped.1⟩
  · intro error next failed
    obtain ⟨front, input, back, split, steps, current, run, rfl, stopped⟩ := failed
    exact ⟨steps, current, input, back, run, split, stopped⟩

namespace LiveRun

variable {policy : DesyncPolicy} {start current : Authority σ} {steps : List (LiveStep σ)}

/-- Each step of a run is an iteration. -/
theorem iterated (run : LiveRun policy start steps current) {step : LiveStep σ} (member : step ∈ steps) :
    Authority.Iterated step.before step.after step.input step.advance := by
  induction run with
  | here => cases member
  | iteration run _ iterated ih =>
      rcases List.mem_append.mp member with earlier | last
      · exact ih earlier
      · cases List.mem_singleton.mp last
        exact iterated

/-- The ticks of a run were applied, broadcast and recorded. -/
theorem running (run : LiveRun policy start steps current) :
    Authority.Running start current (steps.map LiveStep.advance) := by
  induction run with
  | here => exact .refl start
  | iteration run _ iterated ih =>
      rw [List.map_append]
      exact ih.iterated iterated

/-- Each step of a run follows the run up to it. -/
theorem before (run : LiveRun policy start steps current) {front back : List (LiveStep σ)}
    {step : LiveStep σ} (split : steps = front ++ step :: back) :
    LiveRun policy start front step.before := by
  induction run generalizing back with
  | here => cases (List.append_eq_nil_iff.mp split.symm).2
  | iteration run _ _ ih =>
      rcases split_concat split with ⟨same, rfl⟩ | ⟨earlier, split⟩
      · rw [same]
        exact run
      · exact ih split

theorem interval (steady : Steady σ) (run : LiveRun policy start steps current) :
    hashInterval current.sim = hashInterval start.sim := by
  induction run with
  | here => rfl
  | iteration run _ iterated ih => rw [steady.interval _ _ _ iterated.applies, ih]

/-- The ticks of a run are at most the current one, which is the last of them. -/
theorem ticks_le (steady : Steady σ) (run : LiveRun policy start steps current) :
    currentTick start.sim ≤ currentTick current.sim ∧
      ∀ step ∈ steps, currentTick start.sim < step.advance.tick ∧
        step.advance.tick ≤ currentTick current.sim := by
  induction run with
  | here =>
      refine ⟨UInt64.le_refl _, ?_⟩
      intro step impossible
      cases impossible
  | iteration run _ iterated ih =>
      obtain ⟨later, earlier⟩ := ih
      have continues := toNat_of_checkedAdd iterated.sequenced.continues
      have ended := steady.tick _ _ _ iterated.applies
      rw [ended]
      simp only [UInt64.le_iff_toNat_le, UInt64.lt_iff_toNat_lt] at later earlier ⊢
      constructor
      · omega
      · intro step member
        rcases List.mem_append.mp member with before | last
        · have bounds := earlier step before
          omega
        · cases List.mem_singleton.mp last
          dsimp only
          omega

/-- Take one iteration after another, where all return, after the steps that were taken. -/
def perform (policy : DesyncPolicy) :
    List TickInput → List (LiveStep σ) × Authority σ → Option (List (LiveStep σ) × Authority σ)
  | [], taken => some taken
  | input :: later, (steps, current) =>
      match checkedAdd (currentTick current.sim) 1, Authority.iteration policy input current with
      | some tick, .ok _ next =>
          let advance := { tick, inputs := (current.entered input).available input }
          perform policy later (steps ++ [⟨current, input, advance, next⟩], next)
      | _, _ => none

/-- What is performed goes on with a run. -/
theorem of_perform {inputs : List TickInput} {steps' : List (LiveStep σ)} {current' : Authority σ}
    (run : LiveRun policy start steps current)
    (performs : perform policy inputs (steps, current) = some (steps', current')) :
    LiveRun policy start steps' current' := by
  induction inputs generalizing steps current with
  | nil =>
      cases performs
      exact run
  | cons input later ih =>
      unfold perform at performs
      cases continues : checkedAdd (currentTick current.sim) 1 with
      | none =>
          rw [continues] at performs
          cases performs
      | some tick =>
          cases returns : Authority.iteration policy input current with
          | error =>
              rw [continues, returns] at performs
              cases performs
          | ok _ next =>
              rw [continues, returns] at performs
              obtain ⟨advance, iterated⟩ :=
                ensures_of_ok (Authority.ensures_iteration policy input current) returns
              have same : ({ tick, inputs := (current.entered input).available input } :
                  TickAdvance) = advance := by
                obtain ⟨number, inputs⟩ := advance
                cases iterated.inputs
                cases continues.symm.trans iterated.sequenced.continues
                rfl
              dsimp only at performs
              rw [same] at performs
              exact ih (run.iteration returns iterated) performs

end LiveRun

/-- A live session with one participant. -/
def attended : Authority (Adapter tallyGame) where
  server := { connections := fun id => if id = 7 then some {} else none }
  sim := tallyAdapter
  verified := (∅ : ExtTreeMap UInt64 UInt64).insert 7 0

/-- The participant sends a command before the first of the ticks up to a checkpoint. -/
def attendedTicks : List TickInput :=
  { actions := [.deliver 7 .lockstep (encode (ClientMessage.input ⟨[5]⟩))],
    distinct := List.nodup_nil } :: List.replicate 29 { distinct := List.nodup_nil }

/-- Its report of the checkpoint. -/
def attendedReport : Bytes := encode ({ tick := 30, hash := 5 } : DesyncHash)

/-- The iteration that receives the report. -/
def attendedReporting : TickInput where
  actions := [.deliver 7 .desync attendedReport]
  distinct := List.nodup_nil

end Synctick
