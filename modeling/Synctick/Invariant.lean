import Synctick.Replication

/-! # Invariants of games

A property of a simulation may depend on what it was created from and on the ticks that it played.
If it holds at the start, and the calls that return keep it, it holds of the authority of a session
and of each of its replicas, whatever happens to the others.
-/

namespace Synctick

open SessionSimulation Effect

variable {G : Game}

/-- A property of a simulation that holds at the start and between the calls of a session, and one
that holds within a tick, which the calls that return keep. -/
structure Game.Keeps (G : Game)
    (holds within : G.Initialization → List (Tick G.Command) → G.Simulation → Prop) : Prop where
  create {initial : G.Initialization} {nanos : UInt64} {sim : G.Simulation}
    (creates : G.create initial nanos = .ok sim) : holds initial [] sim
  advance {initial : G.Initialization} {played : List (Tick G.Command)} {tick : Tick G.Command}
    {sim next : G.Simulation} (holding : holds initial played sim)
    (executes : Simulation.advance tick sim = .ok () next) : within initial (played ++ [tick]) next
  publish {initial : G.Initialization} {played : List (Tick G.Command)} {sim next : G.Simulation}
    (publishes : Simulation.publish sim = .ok () next) :
    (holds initial played sim → holds initial played next) ∧
      (within initial played sim → within initial played next)
  finish {initial : G.Initialization} {played : List (Tick G.Command)} {sim : G.Simulation}
    (holding : within initial played sim) : holds initial played (Simulation.finishTick sim)

/-- A tick with its commands decoded. -/
structure Decodes (G : Game) (advance : TickAdvance) (tick : Tick G.Command) : Prop where
  number : tick.number = advance.tick
  inputs : Adapter.decodeInputs G advance.inputs = .ok tick.inputs

/-- The header that a session began with. -/
def Announcement.header (announcement : Announcement G) : ReplayHeader :=
  announcement.session.sim.sim.header

variable {holds within : G.Initialization → List (Tick G.Command) → G.Simulation → Prop}
  {header : ReplayHeader}

namespace Adapter

variable {begun last : Adapter G} {ticks : List TickAdvance}

/-- An adapter whose simulation was created from a header and played some ticks. -/
def Holding (holds : G.Initialization → List (Tick G.Command) → G.Simulation → Prop)
    (header : ReplayHeader) (ticks : List TickAdvance) (adapter : Adapter G) : Prop :=
  adapter.header = header ∧
    ∃ sim initial played, adapter.simulation = some sim ∧
      Codec.decode G.Initialization header.initialization = .ok initial ∧
      List.Forall₂ (Decodes G) ticks played ∧ holds initial played sim

/-- What holds of a created game holds where a session begins. -/
theorem Creates.holding (keeps : G.Keeps holds within) (creates : Creates header begun) :
    Holding holds header [] begun := by
  obtain ⟨initial, simulation, decodes, created, _, same⟩ := creates.created
  rw [same]
  refine ⟨rfl, simulation, initial, [], rfl, ?_, .nil, keeps.create created⟩
  cases decoded : Codec.decode G.Initialization header.initialization with
  | ok value =>
      rw [decoded] at decodes
      exact congrArg Except.ok (Except.ok.inj decodes)
  | error error =>
      rw [decoded] at decodes
      cases decodes

/-- A publication keeps what it keeps of the game. -/
theorem Holding.publish {kept : G.Initialization → List (Tick G.Command) → G.Simulation → Prop}
    (keeps : ∀ initial played sim next, Simulation.publish sim = .ok () next →
      kept initial played sim → kept initial played next)
    (holding : Holding kept header ticks begun)
    (publishes : SessionSimulation.publish begun = .ok () last) :
    Holding kept header ticks last := by
  obtain ⟨before, after, created, publishes, same⟩ := onSim_ok publishes
  obtain ⟨named, sim, initial, played, created', decodes, decoded, holding⟩ := holding
  cases created'.symm.trans created
  rw [same]
  exact ⟨named, after, initial, played, rfl, decodes, decoded, keeps _ _ _ _ publishes holding⟩

/-- The end of a tick makes what holds within it what holds between ticks. -/
theorem Holding.finish (keeps : G.Keeps holds within)
    (holding : Holding within header ticks begun) :
    Holding holds header ticks (SessionSimulation.finishTick begun) := by
  obtain ⟨named, sim, initial, played, created, decodes, decoded, holding⟩ := holding
  refine ⟨named, Simulation.finishTick sim, initial, played, ?_, decodes, decoded,
    keeps.finish holding⟩
  exact congrArg (Option.map Simulation.finishTick) created

/-- A tick adds its number and inputs to those that were played. -/
theorem Holding.advance (keeps : G.Keeps holds within)
    (holding : Holding holds header ticks begun) {tick : TickAdvance}
    (executes : SessionSimulation.advance tick begun = .ok () last) :
    Holding within header (ticks ++ [tick]) last := by
  obtain ⟨inputs, before, after, decodes', created, executes, same⟩ := advance_ok executes
  obtain ⟨named, sim, initial, played, created', decodes, decoded, holding⟩ := holding
  cases created'.symm.trans created
  rw [same]
  exact ⟨named, after, initial, played ++ [⟨tick.tick, inputs⟩], rfl, decodes,
    List.rel_append decoded (.cons ⟨rfl, decodes'⟩ .nil), keeps.advance holding executes⟩

/-- Whatever a session applied and published, its simulation holds the property. -/
theorem Holding.evolves (keeps : G.Keeps holds within) (holding : Holding holds header [] begun)
    (evolves : Evolves begun ticks last) : Holding holds header ticks last := by
  induction evolves with
  | here => exact holding
  | publish _ publishes ih => exact ih.publish (fun _ _ _ _ went => (keeps.publish went).1) publishes
  | tick _ applies ih =>
      cases applies with
      | replay _ executes => exact (ih.advance keeps executes).finish keeps
      | live _ executes _ publishes =>
          have shown : Holding within header _ _ := (ih.advance keeps executes).publish
            (fun _ _ _ _ went => (keeps.publish went).2) publishes
          exact shown.finish keeps

end Adapter

/-- What an instrumented simulation went through, the simulation did. -/
theorem Evolves.unwatched {σ : Type} [SessionSimulation σ] {first last : Traced σ}
    {ticks : List TickAdvance} (evolves : Evolves first ticks last) :
    Evolves first.sim ticks last.sim := by
  induction evolves with
  | here => exact .here
  | publish _ publishes ih =>
      obtain ⟨_, publishes, same⟩ := Traced.call_ok.mp publishes
      rw [same]
      exact ih.publish publishes
  | @tick _ advance phase sim next _ applies ih =>
      have applies' : TickApplied advance sim.sim phase next.sim := by
        cases applies with
        | replay continues executes ends =>
            obtain ⟨_, executed, rfl⟩ := Traced.call_ok.mp executes
            exact .replay continues executed ends
        | live continues executes ends publishes =>
            obtain ⟨_, executed, rfl⟩ := Traced.call_ok.mp executes
            obtain ⟨_, published, rfl⟩ := Traced.call_ok.mp publishes
            exact .live continues executed ends published
      exact ih.tick applies'

/-- Where the publication of a game never fails, no simulation that was created failed to publish. -/
theorem not_unpublished (publishes : ∀ sim : G.Simulation, ∃ next,
    Simulation.publish sim = .ok () next) {error : SessionError} {traced : Traced (Adapter G)}
    (created : traced.sim.simulation.isSome) : ¬ Unpublished error traced := by
  rintro ⟨before, after, fails, same⟩
  have spec : Ensures SessionSimulation.publish before (fun _ _ => True)
      (fun _ next => next.sim.simulation = none) := by
    refine (Traced.ensures_call _ _ before _ _).mpr ?_
    change Ensures (Adapter.onSim Simulation.publish) before.sim _ _
    unfold Adapter.onSim
    rw [ensures_bind, ensures_get]
    cases missing : before.sim.simulation with
    | none => exact missing
    | some sim =>
        obtain ⟨next, publishes⟩ := publishes sim
        dsimp only
        rw [ensures_zoom, ensures_ok publishes]
        trivial
  have missing := ensures_of_error spec fails
  rcases same with same | same
  · rw [same, missing] at created
    cases created
  · rw [same] at created
    change (after.sim.simulation.map Simulation.finishTick).isSome = true at created
    rw [missing] at created
    cases created

section Created

/-- Whether the simulation of an adapter was created. -/
def Traced.created (traced : Traced (Adapter G)) : Bool := traced.sim.simulation.isSome

/-- What runs on a game neither creates it nor takes it away. -/
theorem Adapter.created_onSim {α : Type} (program : SessionEffect G.Simulation α)
    (adapter : Adapter G) :
    Ensures (Adapter.onSim program) adapter
      (fun _ next => next.simulation.isSome = adapter.simulation.isSome)
      (fun _ next => next.simulation.isSome = adapter.simulation.isSome) := by
  unfold Adapter.onSim
  rw [ensures_bind, ensures_get]
  cases there : adapter.simulation with
  | none => exact congrArg Option.isSome there
  | some simulation =>
      dsimp only
      rw [ensures_zoom]
      exact (ensures_self _ _).mono (fun _ _ _ => rfl) (fun _ _ _ => rfl)

namespace Traced

variable {traced first last : Traced (Adapter G)} {error : SessionError} {tick : TickAdvance}
  {phase : TickPhase} {ticks : List TickAdvance}

/-- A publication neither creates the game nor takes it away. -/
theorem created_publish (traced : Traced (Adapter G)) :
    Ensures SessionSimulation.publish traced (fun _ next => next.created = traced.created)
      (fun _ next => next.created = traced.created) :=
  (ensures_call _ _ traced _ _).mpr (Adapter.created_onSim _ _)

/-- Nor does a tick. -/
theorem created_advance (tick : TickAdvance) (traced : Traced (Adapter G)) :
    Ensures (SessionSimulation.advance tick) traced (fun _ next => next.created = traced.created)
      (fun _ next => next.created = traced.created) := by
  apply (ensures_call _ _ traced _ _).mpr
  change Ensures (Adapter.advance tick) traced.sim _ _
  unfold Adapter.advance
  rw [ensures_bind, ensures_ofExcept]
  exact ⟨fun _ _ => Adapter.created_onSim _ _, fun _ _ => rfl⟩

@[simp] theorem created_finishTick (traced : Traced (Adapter G)) :
    (SessionSimulation.finishTick traced).created = traced.created := Option.isSome_map

/-- A tick that is applied neither creates the game nor takes it away. -/
theorem created_of_applied (applies : TickApplied tick traced phase last) :
    last.created = traced.created := by
  cases applies with
  | replay _ executes =>
      have executed := ensures_of_ok (created_advance tick traced) executes
      rw [created_finishTick, executed]
  | live _ executes _ publishes =>
      have executed := ensures_of_ok (created_advance tick traced) executes
      have published := ensures_of_ok (created_publish _) publishes
      rw [created_finishTick, published, executed]

/-- Nor do any number of ticks. -/
theorem created_of_evolves (evolves : Evolves first ticks last) : last.created = first.created := by
  induction evolves with
  | here => rfl
  | publish _ publishes ih => exact (ensures_of_ok (created_publish _) publishes).trans ih
  | tick _ applies ih => exact (created_of_applied applies).trans ih

/-- A tick that is rejected does not take the simulation away. -/
theorem created_of_rejected (rejects : TickRejected tick phase traced error last) :
    last.created = traced.created := by
  cases rejects with
  | gap => rfl
  | refused _ fails =>
      have executed := ensures_of_error (created_advance tick traced) fails
      rw [created_finishTick, executed]
  | misplaced _ executes =>
      have executed := ensures_of_ok (created_advance tick traced) executes
      rw [created_finishTick, executed]
  | unpublished _ executes _ _ fails =>
      have executed := ensures_of_ok (created_advance tick traced) executes
      have published := ensures_of_error (created_publish _) fails
      rw [created_finishTick, published, executed]

end Traced

/-- Where the publication of a game never fails, a replica that loaded its save does not stop for
it. -/
theorem not_torn (publishes : ∀ sim : G.Simulation, ∃ next, Simulation.publish sim = .ok () next)
    {last sim : Traced (Adapter G)} {ticks : List TickAdvance} {error : SessionError}
    (created : last.created) : ¬ Replica.Torn last ticks error sim := by
  intro torn
  have there : sim.created := by
    cases torn with
    | start fails =>
        rw [ensures_of_error (Traced.created_publish last) fails]
        exact created
    | tick _ evolves rejects =>
        rw [Traced.created_of_rejected rejects, Traced.created_of_evolves evolves]
        exact created
  exact not_unpublished publishes there torn.unpublished

end Created

section Runs

variable {ι κ : Type} [DecidableEq ι] {state : G.Simulation → κ}

/-- In every run, the simulation of the authority that serves has the property of the ticks that it
applied, and so has that of each replica, unless it was not created or its publication failed. -/
theorem Game.Keeps.everywhere (keeps : G.Keeps holds within) (game : G.Deterministic state)
    (announcement : Announcement G) {capacity : Nat} {replica : Replica (Adapter G)}
    (connects : connect G capacity = .ok replica) {clients : ι → UInt64}
    {system : System ι (Traced (Adapter G))}
    (reaches : (System.start announcement.session { sim := { sim := replica.sim } }
      clients).Reaches announcement.cfg announcement.save announcement.metadata system) :
    (system.phase.Serving → Adapter.Holding holds announcement.header system.phase.sim.applied
      system.phase.sim.sim) ∧
    ∀ i, (system.members i).replica.sim.sim.simulation.isSome →
      (∀ error, ¬ Unpublished error (system.members i).replica.sim) →
      Adapter.Holding holds announcement.header (system.members i).replica.sim.applied
        (system.members i).replica.sim.sim := by
  obtain ⟨fresh, empty, same⟩ := connect_ok connects
  subst same
  obtain ⟨header, begun, last, loaded, creates, handed⟩ := announcement.handed game empty
  have deterministic := Traced.deterministic (Adapter.deterministic game)
  obtain ⟨ticks, _, sound⟩ := (System.sound_start clients rfl).reaches deterministic
    (commandsBounded G) handed.valid (handed.alike deterministic) reaches
  have holding {applied : List TickAdvance} {sim : Traced (Adapter G)}
      (evolves : Evolves ({ sim := begun } : Traced (Adapter G)) applied sim) :
      Adapter.Holding holds header sim.applied sim.sim := by
    rw [Traced.applied_of_evolves evolves]
    exact (creates.holding keeps).evolves keeps evolves.unwatched
  have named : announcement.header = header := (holding handed.evolves).1
  rw [named]
  constructor
  · intro serving
    cases phase : system.phase with
    | waiting session current =>
        have follows := sound.follows
        rw [phase] at follows
        obtain ⟨_, same, _⟩ := follows
        change Adapter.Holding holds header session.sim.applied session.sim.sim
        rw [same]
        exact holding handed.evolves
    | live authority =>
        have follows := sound.follows
        rw [phase] at follows
        exact holding (handed.evolves.trans follows.1)
    | ended server sim =>
        rw [phase] at serving
        exact serving.elim
  · intro i created published
    rcases (sound.members i).placed sound.broadcastable with placed | ⟨error, _, torn⟩
    · rcases handed.evolves_of_placed placed with initial | ⟨_, _, evolves⟩
      · rw [initial] at created
        change fresh.simulation.isSome = true at created
        rw [empty] at created
        cases created
      · exact holding evolves
    · exact (published error torn.unpublished).elim

/-- An instrumented simulation that was created from `initial` and has the property of the ticks
that it applied. -/
def Plays (holds : G.Initialization → List (Tick G.Command) → G.Simulation → Prop)
    (initial : G.Initialization) (traced : Traced (Adapter G)) : Prop :=
  ∃ sim played, traced.sim.simulation = some sim ∧
    List.Forall₂ (Decodes G) traced.applied played ∧ holds initial played sim

/-- Where publication never fails, the property holds of all simulations that were created. They were
created from the same initialization. -/
theorem Game.Keeps.plays (keeps : G.Keeps holds within) (game : G.Deterministic state)
    (publishes : ∀ sim : G.Simulation, ∃ next, Simulation.publish sim = .ok () next)
    (announcement : Announcement G) {capacity : Nat} {replica : Replica (Adapter G)}
    (connects : connect G capacity = .ok replica) {clients : ι → UInt64}
    {system : System ι (Traced (Adapter G))}
    (reaches : (System.start announcement.session { sim := { sim := replica.sim } }
      clients).Reaches announcement.cfg announcement.save announcement.metadata system) :
    ∃ initial, Codec.decode G.Initialization announcement.header.initialization = .ok initial ∧
      (system.phase.Serving → Plays holds initial system.phase.sim) ∧
      ∀ i, (system.members i).replica.sim.sim.simulation.isSome →
        Plays holds initial (system.members i).replica.sim := by
  obtain ⟨begins, _⟩ := keeps.everywhere game announcement connects
    (.here : (System.start announcement.session { sim := { sim := replica.sim } }
      clients).Reaches announcement.cfg announcement.save announcement.metadata _)
  obtain ⟨_, _, initial, _, _, decodes, _⟩ := begins trivial
  have plays {traced : Traced (Adapter G)}
      (holding : Adapter.Holding holds announcement.header traced.applied traced.sim) :
      Plays holds initial traced := by
    obtain ⟨_, sim, other, played, created, decodes', decoded, holding⟩ := holding
    cases decodes'.symm.trans decodes
    exact ⟨sim, played, created, decoded, holding⟩
  obtain ⟨authority, replicas⟩ := keeps.everywhere game announcement connects reaches
  exact ⟨initial, decodes, fun serving => plays (authority serving),
    fun i created => plays (replicas i created fun _ => not_unpublished publishes created)⟩

end Runs

end Synctick
