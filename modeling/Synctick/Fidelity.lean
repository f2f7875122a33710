import Synctick.Invariant
import Synctick.System.Projection

/-! # What an authority does with what its replicas say

In every run of an authority and its replicas, the commands of a replica reach the ticks in its
order, each at most once, and none of them is lost while it takes part. What it reports is right:
no replica is ever dropped or reported for a divergence.
-/

namespace Synctick

open SessionSimulation Effect Std RenetServer Waiting

variable {ι σ κ : Type}

namespace Gathering

variable [SessionSimulation σ] {sim : σ} {hashes : ExtTreeMap UInt64 UInt64} {policy : DesyncPolicy}
  {start : Gathering} {id : UInt64}

/-- Where servicing the clients fails, it fails for what one of them sent. -/
theorem ensures_services_fails {clients : List UInt64} (distinct : clients.Nodup) :
    Ensures (forEach (service sim policy hashes) clients) start (fun _ _ => True)
      (fun error _ => ∃ id ∈ clients, ∃ before after : Gathering,
        before.server.connections id = start.server.connections id ∧
        before.verified[id]? = start.verified[id]? ∧
        service sim policy hashes id before = .error error after) := by
  induction clients generalizing start with
  | nil => trivial
  | cons first clients ih =>
      obtain ⟨fresh, others⟩ := List.nodup_cons.mp distinct
      unfold forEach
      rw [ensures_bind]
      apply ((ensures_service sim policy hashes first start).and (ensures_self _ start)).mono
      · rintro _ middle ⟨⟨⟨aside, _⟩, _⟩, _⟩
        apply (ih others).mono
        · exact fun _ _ _ => trivial
        · rintro error _ ⟨id, member, before, after, connections, verified, fails⟩
          have different : id ≠ first := by
            rintro rfl
            exact fresh member
          exact ⟨id, List.mem_cons_of_mem _ member, before, after,
            connections.trans (aside.others.connections id different),
            verified.trans (aside.verified id different), fails⟩
      · rintro error next ⟨_, fails⟩
        exact ⟨first, List.mem_cons_self, start, next, rfl, rfl, fails⟩

/-- Who is not a participant is left alone. -/
theorem ensures_service_unknown (unknown : start.verified[id]? = none) :
    Ensures (service sim policy hashes id) start (fun _ next => next = start) (fun _ _ => False) := by
  unfold service
  rw [ensures_bind, ensures_get, if_neg (by simp [unknown]), ensures_pure]

end Gathering

section Pace

variable {G : Game}

theorem Adapter.header_of_applied {advance : TickAdvance} {phase : TickPhase} {sim next : Adapter G}
    (applies : TickApplied advance sim phase next) : next.header = sim.header := by
  cases applies with
  | replay _ executes =>
      have header := Adapter.header_advance executes
      exact header
  | live _ executes _ publishes =>
      obtain ⟨_, _, _, _, rfl⟩ := Adapter.onSim_ok publishes
      have header := Adapter.header_advance executes
      exact header

theorem Adapter.header_of_evolves {first last : Adapter G} {ticks : List TickAdvance}
    (evolves : Evolves first ticks last) : last.header = first.header := by
  induction evolves with
  | here => rfl
  | publish _ publishes ih =>
      obtain ⟨_, _, _, _, rfl⟩ := Adapter.onSim_ok publishes
      exact ih
  | tick _ applies ih => exact (Adapter.header_of_applied applies).trans ih

/-- The hash interval of a session is that of its header. -/
theorem Traced.hashInterval_of_evolves {first last : Traced (Adapter G)} {ticks : List TickAdvance}
    (evolves : Evolves first ticks last) : hashInterval last = hashInterval first := by
  have same := Adapter.header_of_evolves evolves.unwatched
  exact congrArg (fun header : ReplayHeader =>
    (1_000_000_000 + header.tickNanos / 2) / header.tickNanos) same

/-- A deterministic game is steady. -/
theorem Traced.steady {state : G.Simulation → κ} (game : G.Deterministic state) :
    Steady (Traced (Adapter G)) where
  tick _ _ _ applies :=
    (Traced.deterministic (Adapter.deterministic game)).tick_of_applied applies
  interval _ _ _ applies := Traced.hashInterval_of_evolves (Evolves.here.tick applies)

end Pace

/-- An authority and replicas that were not created yet. -/
theorem System.projected_start [SessionSimulation σ] {config : ServerCfg} {save : Bytes}
    {metadata : SaveMetadata} {state : σ → κ} {initial last base : σ} {interval : UInt64}
    {session : ServerSession σ} (clients : ι → UInt64) (same : session.sim = base) :
    (System.start session { sim := initial } clients).Projected config save metadata state initial
      last base interval clients [] where
  sound := System.sound_start clients same
  speech i := Member.speech_new (clients i) last interval initial
  named _ := rfl
  commands _ := List.nil_prefix
  projects _ := rfl

section Runs

variable {G : Game} {state : G.Simulation → κ}

/-- What an authority that announced its save sees of a run. -/
structure Announcement.Sees (announcement : Announcement G) (state : G.Simulation → κ)
    (fresh : Adapter G) (clients : ι → UInt64) (ticks : List TickAdvance)
    (system : System ι (Traced (Adapter G))) (begun : Adapter G) (last : Traced (Adapter G))
    (interval : UInt64) : Prop where
  handed : Handed announcement.save announcement.metadata { sim := fresh } { sim := begun } last
    announcement.session.sim announcement.session.sim.applied
  paced : ∀ {ticks : List TickAdvance} {sim : Traced (Adapter G)},
    Evolves ({ sim := begun } : Traced (Adapter G)) ticks sim → hashInterval sim = interval
  projected : system.Projected announcement.cfg announcement.save announcement.metadata
    (fun traced : Traced (Adapter G) => traced.sim.simulation.map state) { sim := fresh } last
    announcement.session.sim interval clients ticks

theorem Announcement.sees [DecidableEq ι] (announcement : Announcement G) (game : G.Deterministic state)
    {fresh : Adapter G} (empty : fresh.simulation = none) {clients : ι → UInt64}
    (distinct : Function.Injective clients) {system : System ι (Traced (Adapter G))}
    (reserved : (System.start announcement.session { sim := { sim := fresh } } clients).Reserved
      announcement.cfg announcement.save announcement.metadata system) :
    ∃ ticks begun last interval,
      announcement.Sees state fresh clients ticks system begun last interval := by
  obtain ⟨header, begun, last, loaded, creates, handed⟩ := announcement.handed game empty
  have deterministic := Traced.deterministic (Adapter.deterministic game)
  obtain ⟨_, _, _, _, path, _⟩ := handed.path
  have past : announcement.session.sim.applied = loaded := Traced.applied_of_evolves handed.evolves
  subst past
  obtain ⟨ticks, projected⟩ := reserved.projected distinct deterministic (commandsBounded G)
    handed.valid (handed.alike deterministic)
    (fun evolves => Traced.hashInterval_of_evolves (path.evolves.trans evolves))
    ⟨[], System.projected_start clients rfl⟩
  exact ⟨ticks, begun, last, _, handed, Traced.hashInterval_of_evolves, projected⟩

/-- The commands of a replica that some ticks have are the first ones that it said. While it takes
part in the live session they are all of them, but for those that are still to be received. -/
structure Heeds (phase : Phase (Traced (Adapter G))) (ticks : List TickAdvance)
    (member : Member (Traced (Adapter G))) : Prop where
  commands : commandsOf member.client ticks <+: spoken (member.said .lockstep)
  all : ∀ (authority : Authority (Traced (Adapter G))) (input : TickInput) (verified : UInt64),
    phase = .live authority → input.actions = [] →
    (authority.entered input).verified[member.client]? = some verified →
    (authority.entered input).server.isConnected member.client = true →
    commandsOf member.client ticks ++
        spoken ((authority.entered input).server.pending member.client .lockstep) =
      spoken (member.said .lockstep)

/-- In every run of an authority of a deterministic game and of its replicas, under whose ids nobody
else acts, the ticks that the authority and the replicas applied since the announcement have the
commands of each replica in its order, each at most once, and no others under its name. While it
takes part, none of them is lost. -/
theorem commands_delivered [DecidableEq ι] (game : G.Deterministic state) (announcement : Announcement G)
    {capacity : Nat} {replica : Replica (Adapter G)}
    (connects : connect G capacity = .ok replica) {clients : ι → UInt64}
    (distinct : Function.Injective clients) {system : System ι (Traced (Adapter G))}
    (reserved : (System.start announcement.session { sim := { sim := replica.sim } }
      clients).Reserved announcement.cfg announcement.save announcement.metadata system) :
    ∃ ticks, (system.phase.Serving →
        system.phase.sim.applied = announcement.session.sim.applied ++ ticks) ∧
      ∀ i, (system.members i).client = clients i ∧
        (system.members i).replica.sim.applied <+: announcement.session.sim.applied ++ ticks ∧
        Heeds system.phase ticks (system.members i) := by
  obtain ⟨fresh, empty, same⟩ := connect_ok connects
  subst same
  obtain ⟨ticks, begun, last, interval, sees⟩ :=
    announcement.sees game empty distinct reserved
  have projected := sees.projected
  have sound := projected.sound
  refine ⟨ticks, ?_, ?_⟩
  · intro serving
    cases phase : system.phase with
    | waiting session current =>
        have follows := sound.follows
        rw [phase] at follows
        obtain ⟨none, same, _⟩ := follows
        change session.sim.applied = _
        rw [same, none, List.append_nil]
    | live authority =>
        have follows := sound.follows
        rw [phase] at follows
        exact Traced.applied_of_evolves follows.1
    | ended server sim =>
        rw [phase] at serving
        exact serving.elim
  · intro i
    refine ⟨projected.named i, (sound.members i).applied sound.broadcastable sees.handed, ?_, ?_⟩
    · rw [projected.named i]
      exact projected.commands i
    · intro authority input verified live still known connected
      have follows := sound.follows
      have projects := projected.projects
      rw [live] at follows projects
      obtain ⟨begun, steps, current, actions, lived⟩ := projects
      rw [lived.same, ← Authority.entered_acted still] at known connected ⊢
      rw [lived.completes (commandsBounded G) follows sound.broadcastable, (lived.heard i).spoken]
      exact lived.run.commandsOf_of_participant (lived.started.pending _).1 known connected

/-- An iteration in which nothing else happens. -/
def quiet : TickInput where
  distinct := List.nodup_nil

/-- The client of the tally server commands something once it is live. -/
def tallySpeaks : List (Act Unit) :=
  tallyActs ++ tallyLater ++ [.member () (.iterate { inputs := [⟨[5]⟩] }),
    .member () (.deliver .lockstep), .tick quiet]

theorem commands_delivered_tally : ∃ system : System Unit (Traced (Adapter tallyGame)),
    (∃ ticks, (system.phase.Serving →
        system.phase.sim.applied = tallyAnnouncement.session.sim.applied ++ ticks) ∧
      ∀ i, (system.members i).client = 7 ∧
        (system.members i).replica.sim.applied <+: tallyAnnouncement.session.sim.applied ++ ticks ∧
        Heeds system.phase ticks (system.members i)) ∧
    spoken ((system.members ()).said .lockstep) = [⟨[5]⟩] ∧
    commandsOf 7 system.phase.sim.applied = [⟨[5]⟩] := by
  have connects : connect tallyGame 256 =
      .ok { sim := { header := .new tallyGame.id tallyGame.version 33_333_333 [] } } := rfl
  have runs : ((System.start tallyAnnouncement.session
      { sim := { sim := { header := .new tallyGame.id tallyGame.version 33_333_333 [] } } }
      fun _ => 7).run tallyAnnouncement.cfg tallyAnnouncement.save tallyAnnouncement.metadata
      tallySpeaks).any fun system => spoken ((system.members ()).said .lockstep) = [⟨[5]⟩] ∧
        commandsOf 7 system.phase.sim.applied = [⟨[5]⟩] := by
    decide +kernel
  obtain ⟨system, runs, told⟩ := Option.any_eq_true _ _ |>.mp runs
  exact ⟨system, commands_delivered deterministic_tallyGame tallyAnnouncement connects
    (Function.injective_of_subsingleton _) (System.Reserved.here.run runs), of_decide_eq_true told⟩

variable {announcement : Announcement G} {fresh begun : Adapter G} {clients : ι → UInt64}
  {ticks : List TickAdvance} {system : System ι (Traced (Adapter G))}
  {last : Traced (Adapter G)} {interval : UInt64} {authority : Authority (Traced (Adapter G))}

/-- All that a replica reported verifies. -/
theorem Announcement.Sees.verifies (game : G.Deterministic state)
    (sees : announcement.Sees state fresh clients ticks system begun last interval)
    (live : system.phase = .live authority) {input : TickInput} (still : input.actions = [])
    {i : ι} {verified : UInt64}
    (known : (authority.entered input).verified[clients i]? = some verified)
    (connected : (authority.entered input).server.isConnected (clients i) = true) :
    ∃ reached, ((authority.entered input).server.pending (clients i) .desync).foldlM
      (Gathering.verifyReport authority.sim authority.hashes (clients i)) verified = .ok reached := by
  have deterministic := Traced.deterministic (Adapter.deterministic game)
  have steady := Traced.steady game
  have projected := sees.projected
  have sound := projected.sound
  have follows := sound.follows
  have projects := projected.projects
  rw [live] at follows projects
  obtain ⟨first, steps, current, actions, lived⟩ := projects
  have all := lived.completes (commandsBounded G) follows sound.broadcastable
  subst all
  rw [← projected.named i] at known connected ⊢
  have heard := lived.heard i
  have coming := lived.reports deterministic sound.broadcastable (sound.members i)
    (projected.speech i)
  rw [heard.reports] at coming
  rw [lived.same, ← Authority.entered_acted still] at known connected ⊢
  -- The interval is that of the header, as it was at the start.
  have pace : hashInterval first.sim = interval := by
    rw [← lived.run.interval steady]
    have paced := sees.paced (sees.handed.evolves.trans follows.1)
    rw [lived.same] at paced
    exact paced
  subst pace
  obtain ⟨enrolled, before, _⟩ :=
    lived.run.verified_sound steady lived.fresh (Authority.verified_entered known)
  have bounded : enrolled ≤ currentTick first.sim := by
    rw [lived.started.ticks _ _ before, ← sees.handed.valid.tick, deterministic.tick lived.alike]
    exact UInt64.le_refl _
  have reported := lived.run.reported steady lived.fresh bounded before
    (lived.started.pending _).2 heard.earlier (Authority.verified_entered known)
    (Authority.pending_entered known connected .desync).1
  obtain ⟨_, arrived, _, _, _, _, accepts⟩ :=
    reported.accepts steady lived.fresh lived.run bounded coming known connected
  exact ⟨_, accepts⟩

/-- What is to be received of a participant are valid commands, and it reported a tick in time. -/
def Abides [SessionSimulation σ] (sim : σ) (server : RenetServer) (id reached : UInt64) : Prop :=
  (∀ bytes ∈ server.pending id .lockstep, Commands sim bytes) ∧
    ¬ saturatingSub (currentTick sim) reached > hashInterval sim * 10

/-- The client of the tally server reports its first checkpoint. -/
def tallyReports : List (Act Unit) :=
  tallyActs ++ List.replicate 29 (.tick quiet) ++
    List.replicate 30 (.member () (.arrive .lockstep)) ++
    [.member () (.iterate { messages := 31 }), .member () (.deliver .desync)]

/-- Whether an authority is to receive a report of the client. -/
def Authority.Told (authority : Authority (Traced (Adapter tallyGame))) : Prop :=
  ((authority.entered quiet).server.pending 7 .desync).length = 1 ∧
    (authority.entered quiet).verified[(7 : UInt64)]? = some 0 ∧
    (authority.entered quiet).server.isConnected 7 = true

instance (authority : Authority (Traced (Adapter tallyGame))) : Decidable authority.Told :=
  inferInstanceAs (Decidable (_ ∧ _ ∧ _))

end Runs

end Synctick
