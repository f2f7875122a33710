import Synctick.Replay.Format
import Synctick.Server.Run

/-! # Deterministic simulations

Where a tick depends on a deterministic part of the state only, and publication and cleanup
leave that part alone, simulations that start alike and apply the same ticks stay alike,
whether they replay the ticks or apply them live.
-/

namespace Synctick

open SessionSimulation Effect

variable {σ κ : Type} [SessionSimulation σ]

/-- The part `state` of a simulation is deterministic: it has the tick and the hash, it decides
what a tick makes of it, and publication and cleanup leave it alone. -/
structure Deterministic (state : σ → κ) : Prop where
  tick {sim other : σ} (alike : state sim = state other) : currentTick sim = currentTick other
  hash {sim other : σ} (alike : state sim = state other) : stateHash sim = stateHash other
  advance {tick : TickAdvance} {sim other next : σ} (alike : state sim = state other)
    (executes : SessionSimulation.advance tick sim = .ok () next) :
    ∃ reached, SessionSimulation.advance tick other = .ok () reached ∧ state reached = state next
  publish {sim next : σ} (publishes : SessionSimulation.publish sim = .ok () next) :
    state next = state sim
  finish (sim : σ) : state (finishTick sim) = state sim

/-- From `first`, a session applied ticks one after another, and may have published in between. -/
inductive Evolves (first : σ) : List TickAdvance → σ → Prop
  | here : Evolves first [] first
  | publish {ticks : List TickAdvance} {sim next : σ} (evolves : Evolves first ticks sim)
      (publishes : SessionSimulation.publish sim = .ok () next) : Evolves first ticks next
  | tick {ticks : List TickAdvance} {advance : TickAdvance} {phase : TickPhase} {sim next : σ}
      (evolves : Evolves first ticks sim) (applies : TickApplied advance sim phase next) :
      Evolves first (ticks ++ [advance]) next

variable {state : σ → κ} {first other sim next last : σ} {ticks front back : List TickAdvance}
  {tick : TickAdvance} {phase : TickPhase}

/-- Ticks may be applied in parts. -/
theorem Evolves.trans (start : Evolves first front sim) (onwards : Evolves sim back last) :
    Evolves first (front ++ back) last := by
  induction onwards with
  | here =>
      rw [List.append_nil]
      exact start
  | publish _ publishes ih => exact ih.publish publishes
  | tick _ applies ih =>
      rw [← List.append_assoc]
      exact ih.tick applies

/-- Records that are read back are ticks that are applied. -/
theorem Replays.evolves {reader final : ReplayReader} (path : Replays first reader ticks last final) :
    Evolves first ticks last := by
  induction path with
  | here => exact .here
  | tick _ applies _ ih => exact (Evolves.here.tick applies).trans ih

/-- So are ticks that are applied live. -/
theorem Lives.evolves (lives : Lives first ticks last) : Evolves first ticks last := by
  induction lives with
  | here => exact .here
  | tick _ _ applies ih => exact ih.tick applies

/-- A tick that is applied continues the current one. -/
theorem TickApplied.continues (applies : TickApplied tick sim phase next) :
    checkedAdd (currentTick sim) 1 = some tick.tick := by
  cases applies with
  | replay continues => exact continues
  | live continues => exact continues

namespace Deterministic

/-- A tick that was applied executed at its number. -/
theorem executed (deterministic : Deterministic state) (applies : TickApplied tick sim phase next) :
    ∃ reached, SessionSimulation.advance tick sim = .ok () reached ∧
      currentTick reached = tick.tick ∧ state next = state reached := by
  cases applies with
  | replay _ executes ends => exact ⟨_, executes, ends, deterministic.finish _⟩
  | live _ executes ends publishes =>
      refine ⟨_, executes, ends, ?_⟩
      rw [deterministic.finish, deterministic.publish publishes]

/-- A simulation that is like one that applied a tick can replay it, with the same outcome. -/
theorem follows (deterministic : Deterministic state) (applies : TickApplied tick sim phase next)
    (alike : state sim = state other) :
    ∃ reached, TickApplied tick other .replay reached ∧ state reached = state next := by
  have continues := applies.continues
  obtain ⟨executed, executes, ends, settled⟩ := deterministic.executed applies
  obtain ⟨reached, follows, same⟩ := deterministic.advance alike executes
  rw [deterministic.tick alike] at continues
  rw [← deterministic.tick same] at ends
  refine ⟨_, .replay continues follows ends, ?_⟩
  rw [deterministic.finish, same, settled]

/-- Simulations that are alike and apply a tick stay alike. -/
theorem alike_of_applied (deterministic : Deterministic state) {reached : σ} {phase' : TickPhase}
    (applies : TickApplied tick sim phase next) (again : TickApplied tick other phase' reached)
    (alike : state sim = state other) : state next = state reached := by
  obtain ⟨executed, executes, _, settled⟩ := deterministic.executed applies
  obtain ⟨executed', executes', _, settled'⟩ := deterministic.executed again
  obtain ⟨followed, follows, same⟩ := deterministic.advance alike executes
  rw [follows] at executes'
  cases executes'
  rw [settled, settled', same]

/-- A tick that is applied is the current one. -/
theorem tick_of_applied (deterministic : Deterministic state)
    (applies : TickApplied tick sim phase next) : currentTick next = tick.tick := by
  obtain ⟨executed, _, ends, settled⟩ := deterministic.executed applies
  rw [deterministic.tick settled, ends]

/-- Each tick counts, and is numbered by its place. -/
theorem tick_of_evolves (deterministic : Deterministic state) (evolves : Evolves first ticks last) :
    (currentTick last).toNat = (currentTick first).toNat + ticks.length := by
  induction evolves with
  | here => rfl
  | publish _ publishes ih => rw [deterministic.tick (deterministic.publish publishes), ih]
  | tick _ applies ih =>
      rw [deterministic.tick_of_applied applies, toNat_of_checkedAdd applies.continues, ih,
        List.length_append]
      rfl

/-- Where no tick was applied, the state is the same. -/
theorem state_of_nothing (deterministic : Deterministic state) (evolves : Evolves first ticks last)
    (nothing : ticks = []) : state last = state first := by
  induction evolves with
  | here => rfl
  | publish _ publishes ih => rw [deterministic.publish publishes, ih nothing]
  | tick => cases (List.append_eq_nil_iff.mp nothing).2

/-- The last tick of a session was applied after the earlier ones. -/
theorem last_tick (deterministic : Deterministic state) (evolves : Evolves first ticks last)
    (split : ticks = front ++ [tick]) :
    ∃ sim phase next, Evolves first front sim ∧ TickApplied tick sim phase next ∧
      state last = state next := by
  induction evolves with
  | here => cases (List.append_eq_nil_iff.mp split.symm).2
  | publish _ publishes ih =>
      obtain ⟨sim, phase, next, earlier, applies, same⟩ := ih split
      exact ⟨sim, phase, next, earlier, applies, by rw [deterministic.publish publishes, same]⟩
  | @tick _ _ phase sim next earlier applies =>
      obtain ⟨rfl, newest⟩ := List.append_inj' split rfl
      cases newest
      exact ⟨sim, phase, next, earlier, applies, rfl⟩

/-- Sessions that start alike and apply the same ticks stay alike. -/
theorem alike_of_evolves (deterministic : Deterministic state) {reached : σ}
    (evolves : Evolves first ticks last) (again : Evolves other ticks reached)
    (alike : state first = state other) : state last = state reached := by
  induction evolves generalizing reached with
  | here => rw [deterministic.state_of_nothing again rfl, alike]
  | publish _ publishes ih => rw [deterministic.publish publishes, ih again]
  | tick _ applies ih =>
      obtain ⟨sim, phase, next, earlier, follows, same⟩ := deterministic.last_tick again rfl
      rw [same, deterministic.alike_of_applied applies follows (ih earlier)]

end Deterministic

/-- Each tick of a session was applied after the earlier ones. -/
theorem Evolves.before (evolves : Evolves first ticks last)
    (split : ticks = front ++ tick :: back) :
    ∃ sim phase next, Evolves first front sim ∧ TickApplied tick sim phase next := by
  induction evolves generalizing back with
  | here => cases (List.append_eq_nil_iff.mp split.symm).2
  | publish _ _ ih => exact ih split
  | @tick _ _ phase sim next earlier applies ih =>
      rcases split_concat split with ⟨same, rfl⟩ | ⟨_, split⟩
      · rw [same]
        exact ⟨sim, phase, next, earlier, applies⟩
      · exact ih split

/-- A simulation that its publication left with an error. -/
def Unpublished (error : SessionError) (sim : σ) : Prop :=
  ∃ before after : σ, SessionSimulation.publish before = .error error after ∧
    (sim = after ∨ sim = finishTick after)

/-- A simulation that is like one that applied a tick applies it live, unless its publication
fails. -/
theorem Deterministic.ensures_advanceTick (deterministic : Deterministic state)
    (applies : TickApplied tick sim phase next) (alike : state sim = state other) :
    Ensures (advanceTick tick .live) other (fun _ last => TickApplied tick other .live last)
      (fun error last => TickRejected tick .live other error last ∧ Unpublished error last) := by
  obtain ⟨_, follows, _⟩ := deterministic.follows applies alike
  apply (Synctick.ensures_advanceTick tick .live other).mono
  · intro _ _ applied
    exact applied
  · intro error _ rejects
    refine ⟨rejects, ?_⟩
    cases follows with
    | replay continues executes ends =>
        cases rejects with
        | gap discontinuous => exact absurd continues discontinuous
        | refused _ fails =>
            rw [executes] at fails
            cases fails
        | misplaced _ executes' misplaced =>
            rw [executes] at executes'
            cases executes'
            exact absurd ends misplaced
        | unpublished _ _ _ _ fails => exact ⟨_, _, fails, Or.inr rfl⟩

namespace ReplayReader

/-- A log that yields some ticks yields the first ones first. -/
theorem Yields.split {reader final : ReplayReader} (yields : Yields reader (front ++ back) final) :
    ∃ middle, Yields reader front middle ∧ Yields middle back final := by
  induction front generalizing reader with
  | nil => exact ⟨reader, .here reader, yields⟩
  | cons advance front ih =>
      cases yields with
      | next reads onwards =>
          obtain ⟨middle, start, rest⟩ := ih onwards
          exact ⟨middle, .next reads start, rest⟩

end ReplayReader

/-- A log of the ticks of a session replays from any start that is like that of the session, to a
state that is like its last one. -/
theorem Deterministic.replays (deterministic : Deterministic state)
    (evolves : Evolves first ticks last) (alike : state first = state other)
    {reader final : ReplayReader} (yields : ReplayReader.Yields reader ticks final) :
    ∃ reached, Replays other reader ticks reached final ∧ state reached = state last := by
  induction evolves generalizing final with
  | here =>
      cases yields
      exact ⟨other, .here _ _, alike.symm⟩
  | publish _ publishes ih =>
      obtain ⟨reached, path, same⟩ := ih yields
      exact ⟨reached, path, by rw [same, deterministic.publish publishes]⟩
  | tick _ applies ih =>
      obtain ⟨middle, start, rest⟩ := yields.split
      obtain ⟨sim, path, same⟩ := ih start
      obtain ⟨reached, follows, settled⟩ := deterministic.follows applies same.symm
      cases rest with
      | next reads onwards =>
          cases onwards
          exact ⟨reached, path.append (.tick reads follows (.here _ _)), settled⟩

/-- A game is deterministic in a part of the state of its simulation: that part has the tick and
the hash, it decides what a tick makes of it, and publication and cleanup leave it alone. -/
structure Game.Deterministic (G : Game) (state : G.Simulation → κ) : Prop where
  tick {sim other : G.Simulation} (alike : state sim = state other) :
    Simulation.currentTick sim = Simulation.currentTick other
  hash {sim other : G.Simulation} (alike : state sim = state other) :
    Simulation.stateHash sim = Simulation.stateHash other
  advance {tick : Tick G.Command} {sim other next : G.Simulation} (alike : state sim = state other)
    (executes : Simulation.advance tick sim = .ok () next) :
    ∃ reached, Simulation.advance tick other = .ok () reached ∧ state reached = state next
  publish {sim next : G.Simulation} (publishes : Simulation.publish sim = .ok () next) :
    state next = state sim
  finish (sim : G.Simulation) : state (Simulation.finishTick sim) = state sim

namespace Adapter

variable {G : Game}

/-- A call on the simulation that returned ran on one that was created. -/
theorem onSim_ok {α : Type} {program : SessionEffect G.Simulation α} {adapter next : Adapter G}
    {value : α} (returns : onSim program adapter = .ok value next) :
    ∃ before after, adapter.simulation = some before ∧ program before = .ok value after ∧
      next = { adapter with simulation := some after } := by
  have outcome := ensures_of_ok (ensures_onSim program adapter) returns
  exact outcome

/-- A call runs on the simulation that was created. -/
theorem onSim_eq {α : Type} {program : SessionEffect G.Simulation α} {adapter : Adapter G}
    {before after : G.Simulation} {value : α} (created : adapter.simulation = some before)
    (returns : program before = .ok value after) :
    onSim program adapter = .ok value { adapter with simulation := some after } := by
  apply eq_ok_of_ensures
  unfold onSim
  rw [ensures_bind, ensures_get, created]
  dsimp only
  rw [ensures_zoom, ensures_ok returns]
  exact ⟨rfl, rfl⟩

/-- A tick that is applied decodes, and advances the game that was created. -/
theorem advance_ok {tick : TickAdvance} {adapter next : Adapter G}
    (executes : Adapter.advance tick adapter = .ok () next) :
    ∃ inputs before after, decodeInputs G tick.inputs = .ok inputs ∧
      adapter.simulation = some before ∧
      Simulation.advance { number := tick.tick, inputs } before = .ok () after ∧
      next = { adapter with simulation := some after } := by
  have decoded : Ensures (Adapter.advance tick) adapter
      (fun _ next => ∃ inputs, decodeInputs G tick.inputs = .ok inputs ∧
        onSim (Simulation.advance { number := tick.tick, inputs }) adapter = .ok () next)
      (fun _ _ => True) := by
    unfold Adapter.advance
    rw [ensures_bind, ensures_ofExcept]
    refine ⟨?_, fun _ _ => trivial⟩
    intro inputs decodes
    apply (ensures_self _ adapter).mono
    · intro _ next returns
      exact ⟨inputs, decodes, returns⟩
    · intro _ _ _
      trivial
  obtain ⟨inputs, decodes, returns⟩ := ensures_of_ok decoded executes
  obtain ⟨before, after, created, advances, same⟩ := onSim_ok returns
  exact ⟨inputs, before, after, decodes, created, advances, same⟩

/-- Where its inputs decode and the game advances, a tick is applied. -/
theorem advance_eq {tick : TickAdvance} {adapter : Adapter G} {inputs : List (Input G.Command)}
    {before after : G.Simulation} (decodes : decodeInputs G tick.inputs = .ok inputs)
    (created : adapter.simulation = some before)
    (advances : Simulation.advance { number := tick.tick, inputs } before = .ok () after) :
    Adapter.advance tick adapter = .ok () { adapter with simulation := some after } := by
  apply eq_ok_of_ensures
  unfold Adapter.advance
  rw [ensures_bind, decodes, ensures_ofExcept]
  constructor
  · intro _ same
    cases same
    rw [ensures_ok (onSim_eq created advances)]
    exact ⟨rfl, rfl⟩
  · intro _ impossible
    cases impossible

/-- An adapter is as deterministic as its game. -/
theorem deterministic {state : G.Simulation → κ} (game : G.Deterministic state) :
    Deterministic fun adapter : Adapter G => adapter.simulation.map state where
  tick {sim other} alike := by
    change Adapter.currentTick sim = Adapter.currentTick other
    unfold Adapter.currentTick
    cases created : sim.simulation with
    | none =>
        rw [created] at alike
        rw [Option.map_eq_none_iff.mp alike.symm]
    | some before =>
        rw [created] at alike
        obtain ⟨_, created', same⟩ := Option.map_eq_some_iff.mp alike.symm
        rw [created']
        exact (game.tick same).symm
  hash {sim other} alike := by
    change Adapter.stateHash sim = Adapter.stateHash other
    unfold Adapter.stateHash
    cases created : sim.simulation with
    | none =>
        rw [created] at alike
        rw [Option.map_eq_none_iff.mp alike.symm]
    | some before =>
        rw [created] at alike
        obtain ⟨_, created', same⟩ := Option.map_eq_some_iff.mp alike.symm
        rw [created']
        exact (game.hash same).symm
  advance {tick sim other next} alike executes := by
    obtain ⟨inputs, before, after, decodes, created, advances, same⟩ := advance_ok executes
    subst same
    change sim.simulation.map state = other.simulation.map state at alike
    rw [created] at alike
    obtain ⟨_, created', same⟩ := Option.map_eq_some_iff.mp alike.symm
    obtain ⟨reached, follows, settled⟩ := game.advance same.symm advances
    exact ⟨_, advance_eq decodes created' follows, congrArg some settled⟩
  publish {sim next} publishes := by
    obtain ⟨before, after, created, publishes, same⟩ := onSim_ok publishes
    rw [same, created]
    exact congrArg some (game.publish publishes)
  finish sim := by
    change (sim.simulation.map Simulation.finishTick).map state = sim.simulation.map state
    cases sim.simulation with
    | none => rfl
    | some simulation => exact congrArg some (game.finish simulation)

/-- What a header makes of an adapter. -/
structure Creates (header : ReplayHeader) (begun : Adapter G) : Prop where
  valid : validateHeader G header = .ok ()
  created : ∃ initial simulation,
    (Codec.decode G.Initialization header.initialization).mapError SessionError.codec =
        .ok initial ∧
      G.create initial header.tickNanos = .ok simulation ∧
      Simulation.currentTick simulation = 0 ∧ begun = { header, simulation := some simulation }

/-- An adapter is initialized with what its header makes of it. -/
theorem creates_of_initializeWith {header : ReplayHeader} {adapter begun : Adapter G}
    (initializes : Adapter.initializeWith header adapter = .ok () begun) :
    Creates header begun := by
  have spec : Ensures (Adapter.initializeWith header) adapter
      (fun _ begun => Creates header begun) (fun _ _ => True) := by
    unfold Adapter.initializeWith
    rw [ensures_bind, ensures_ofExcept]
    refine ⟨?_, fun _ _ => trivial⟩
    intro _ valid
    rw [ensures_bind, ensures_get]
    by_cases twice : adapter.simulation.isSome = true
    · rw [if_pos twice]
      trivial
    · rw [if_neg twice, ensures_bind, ensures_ofExcept]
      refine ⟨?_, fun _ _ => trivial⟩
      intro initial decodes
      rw [ensures_bind, ensures_ofExcept]
      refine ⟨?_, fun _ _ => trivial⟩
      intro simulation creates
      by_cases late : Simulation.currentTick simulation ≠ 0
      · rw [if_pos late]
        trivial
      · rw [if_neg late]
        exact ⟨valid, initial, simulation, decodes, creates, not_not.mp late, rfl⟩
  have outcome := ensures_of_ok spec initializes
  exact outcome

/-- What a header makes of an adapter, it makes of every adapter with no simulation. -/
theorem Creates.initializes {header : ReplayHeader} {begun fresh : Adapter G}
    (creates : Creates header begun) (empty : fresh.simulation = none) :
    Adapter.initializeWith header fresh = .ok () begun := by
  obtain ⟨valid, initial, simulation, decodes, creates, early, same⟩ := creates
  apply eq_ok_of_ensures
  unfold Adapter.initializeWith
  rw [valid, decodes]
  simp [Effect.ofExcept, empty, creates, early, same]

/-- A session that was created has the header of its save. -/
theorem Creates.header {header : ReplayHeader} {begun : Adapter G}
    (creates : Creates header begun) : SessionSimulation.header begun = header := by
  obtain ⟨_, _, _, _, _, same⟩ := creates.created
  rw [same]
  rfl

/-- It begins before the first tick. -/
theorem Creates.currentTick {header : ReplayHeader} {begun : Adapter G}
    (creates : Creates header begun) : SessionSimulation.currentTick begun = 0 := by
  obtain ⟨_, _, _, _, early, same⟩ := creates.created
  rw [same]
  exact early

end Adapter

end Synctick
