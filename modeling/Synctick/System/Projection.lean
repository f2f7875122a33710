import Synctick.Server.Delivery
import Synctick.System.Perform
import Synctick.System.Serve

/-! # A run as its authority sees it

Where each id is that of one replica and nobody else acts under it, what an authority hears on the
connection of a replica is what the replica said. Once the authority is live, the run is one of
its live loop: the network does between two iterations what it does at the start of the second.
-/

namespace Synctick

open SessionSimulation Effect Std RenetServer Waiting

namespace System

variable {ι σ : Type} [DecidableEq ι] [SessionSimulation σ] {config : ServerCfg} {save : Bytes}
  {metadata : SaveMetadata} {start system : System ι σ}

/-- The runs in which nobody else acts under the id of a replica. -/
inductive Reserved (config : ServerCfg) (save : Bytes) (metadata : SaveMetadata)
    (start : System ι σ) : System ι σ → Prop
  | here : Reserved config save metadata start start
  | authority {system : System ι σ} {next : Phase σ}
      (earlier : Reserved config save metadata start system)
      (passes : system.phase.Passes config save metadata next) :
      Reserved config save metadata start
        { phase := next, members := fun i => (system.members i).flushed next.server }
  | ends {system : System ι σ} {next : Phase σ}
      (earlier : Reserved config save metadata start system)
      (ends : system.phase.Ends config save metadata next) :
      Reserved config save metadata start { system with phase := next }
  | member {system : System ι σ} {i : ι} {actions : List NetAction} {next : Member σ}
      (earlier : Reserved config save metadata start system)
      (moves : (system.members i).Moves system.phase.server actions next) :
      Reserved config save metadata start
        { phase := system.phase.update actions
          members := Function.update system.members i next }
  | stranger {system : System ι σ} {action : NetAction}
      (earlier : Reserved config save metadata start system)
      (strange : ∀ i, (system.members i).client ≠ action.client) :
      Reserved config save metadata start { system with phase := system.phase.act action }

/-- Every such run is one of the system. -/
theorem Reserved.reaches (reserved : start.Reserved config save metadata system) :
    start.Reaches config save metadata system := by
  induction reserved with
  | here => exact .here
  | authority _ passes ih => exact .step ih (.authority passes)
  | ends _ ends ih => exact .step ih (.ends ends)
  | member _ moves ih => exact .step ih (.member moves)
  | stranger _ strange ih => exact .step ih (.stranger fun i _ => strange i)

/-- What is computed without strangers is such a run. -/
theorem Reserved.run {last : System ι σ} {acts : List (Act ι)}
    (earlier : start.Reserved config save metadata system)
    (runs : system.run config save metadata acts = some last) :
    start.Reserved config save metadata last := by
  induction acts generalizing system with
  | nil =>
      cases runs
      exact earlier
  | cons act later ih =>
      obtain ⟨next, performs, runs⟩ := Option.bind_eq_some_iff.mp runs
      refine ih ?_ runs
      unfold perform at performs
      cases act with
      | pass input =>
          obtain ⟨phase, passes, same⟩ := Option.bind_eq_some_iff.mp performs
          cases same
          exact earlier.authority (Phase.passes_of_pass passes)
      | tick input =>
          obtain ⟨phase, passes, same⟩ := Option.bind_eq_some_iff.mp performs
          cases same
          exact earlier.authority (Phase.passes_of_tick passes)
      | member i act =>
          obtain ⟨⟨actions, after⟩, moves, same⟩ := Option.bind_eq_some_iff.mp performs
          cases same
          exact earlier.member (Member.moves_of_perform moves)

end System

/-- What the network does before an iteration, it can do at its start. -/
theorem Authority.iteration_acted {σ : Type} [SessionSimulation σ] (policy : DesyncPolicy)
    {input : TickInput} (still : input.actions = []) (quiet : input.network = none)
    (actions : List NetAction) (authority : Authority σ) :
    Authority.iteration policy { input with actions } authority =
      Authority.iteration policy input
        { authority with server := authority.server.update actions } := by
  unfold Authority.iteration
  simp only [quiet, still]
  rfl

theorem Authority.entered_acted {σ : Type} {input : TickInput} (still : input.actions = [])
    (actions : List NetAction) (authority : Authority σ) :
    authority.entered { input with actions } =
      Authority.entered { authority with server := authority.server.update actions } input := by
  unfold Authority.entered
  rw [still]
  rfl

theorem deliveries_elsewhere {id : UInt64} {actions : List NetAction}
    (elsewhere : ∀ action ∈ actions, id ≠ action.client) (channel : Channel) :
    deliveries id channel actions = [] := by
  unfold deliveries
  rw [List.filterMap_eq_nil_iff]
  intro action member
  cases action with
  | deliver other on bytes =>
      dsimp only
      rw [if_neg fun both => elsewhere _ member both.1.symm]
  | connect => rfl
  | remove => rfl
  | close => rfl

namespace Waiting.Started

variable {expected : Nat} {save : Bytes} {metadata : SaveMetadata}
  {verified : ExtTreeMap UInt64 UInt64} {server : RenetServer}

/-- Whatever was sent before the start was received. -/
theorem pending (started : Started expected save metadata verified server) (id : UInt64) :
    server.pending id .lockstep = [] ∧ server.pending id .desync = [] := by
  cases connected : server.isConnected id with
  | false => exact ⟨pending_of_disconnected connected _, pending_of_disconnected connected _⟩
  | true =>
      obtain ⟨connection, _, there, _, _, received⟩ :=
        started.admitted id ((started.connected id).mp connected)
      obtain ⟨other, there', opens⟩ := isConnected_iff.mp connected
      rw [there] at there'
      cases there'
      rw [pending_of_connected there opens, pending_of_connected there opens]
      exact received

end Waiting.Started

namespace Member

variable {σ : Type} [SessionSimulation σ] {interval : UInt64} {steps : List (LiveStep σ)}
  {actions more : List NetAction} {member later : Member σ} {server : RenetServer}

/-- What was delivered from a replica, it said. -/
theorem Moves.said (moves : member.Moves server actions later) (channel : Channel) :
    later.said channel = member.said channel ++ deliveries member.client channel actions := by
  cases moves with
  | @deliver on bytes =>
      change member.said.push on bytes channel = _
      by_cases here : channel = on
      · subst here
        rw [Mailbox.push_same]
        simp [deliveries]
      · rw [Mailbox.push_other _ _ here]
        simp [deliveries, Ne.symm here]
  | join => exact (List.append_nil _).symm
  | leave => exact (List.append_nil _).symm
  | close => exact (List.append_nil _).symm
  | arrive => exact (List.append_nil _).symm
  | iterate => exact (List.append_nil _).symm
  | fail => exact (List.append_nil _).symm

theorem Moves.sent (moves : member.Moves server actions later) : later.sent = member.sent := by
  cases moves with
  | join => rfl
  | leave => rfl
  | close => rfl
  | deliver => rfl
  | arrive => rfl
  | iterate => rfl
  | fail => rfl

/-- A replica whose connection delivered what it said since the session is live. Before that it said
no command and no report, and it reported each checkpoint after it was broadcast. -/
structure Heard (interval : UInt64) (steps : List (LiveStep σ)) (actions : List NetAction)
    (member : Member σ) : Prop where
  said : ∃ earlier : Mailbox, spoken (earlier .lockstep) = [] ∧ earlier .desync = [] ∧
    ∀ channel, member.said channel = earlier channel ++
      (delivered member.client channel steps ++ deliveries member.client channel actions)
  earlier : ∀ front step back, steps = front ++ step :: back →
    delivered member.client .desync (front ++ [step]) <+: (checkpoints interval front).map report

/-- The commands that a replica said are those that its connection delivered. -/
theorem Heard.spoken (heard : member.Heard interval steps actions) :
    spoken (member.said .lockstep) = Synctick.spoken (delivered member.client .lockstep steps ++
      deliveries member.client .lockstep actions) := by
  obtain ⟨earlier, silent, _, same⟩ := heard.said
  rw [same, spoken_append, silent, List.nil_append]

theorem Heard.reports (heard : member.Heard interval steps actions) :
    member.said .desync = delivered member.client .desync steps ++
      deliveries member.client .desync actions := by
  obtain ⟨earlier, _, silent, same⟩ := heard.said
  rw [same, silent, List.nil_append]

/-- The network delivers more of what a replica said. -/
theorem Heard.acts (heard : member.Heard interval steps actions)
    (client : later.client = member.client)
    (said : ∀ channel, later.said channel =
      member.said channel ++ deliveries member.client channel more) :
    later.Heard interval steps (actions ++ more) where
  said := by
    obtain ⟨earlier, commands, reports, same⟩ := heard.said
    refine ⟨earlier, commands, reports, ?_⟩
    intro channel
    rw [said, same, client, deliveries_append]
    simp
  earlier := by
    rw [client]
    exact heard.earlier

/-- An iteration takes up what was delivered, where the replica reported in time. -/
theorem Heard.iterated (heard : member.Heard interval steps actions)
    (client : later.client = member.client) (said : later.said = member.said)
    (timely : member.said .desync <+: (checkpoints interval steps).map report)
    {step : LiveStep σ} (took : step.input.actions = actions) :
    later.Heard interval (steps ++ [step]) [] where
  said := by
    obtain ⟨earlier, commands, reports, same⟩ := heard.said
    refine ⟨earlier, commands, reports, ?_⟩
    intro channel
    rw [said, same, client, delivered_concat, took]
    simp [deliveries]
  earlier := by
    intro front other back split
    rw [client]
    rcases split_concat split with ⟨rfl, rfl⟩ | ⟨rest, split⟩
    · rw [heard.reports, ← took, ← delivered_concat] at timely
      exact timely
    · exact heard.earlier front other rest split

end Member

namespace Phase

variable {ι σ κ : Type} [SessionSimulation σ] {config : ServerCfg} {save : Bytes}
  {metadata : SaveMetadata} {state : σ → κ} {base last : σ} {interval : UInt64}
  {ticks : List TickAdvance} {members others : ι → Member σ} {authority begun current : Authority σ}
  {steps : List (LiveStep σ)} {actions more : List NetAction} {phase : Phase σ}

/-- An authority that went live at `begun`, took the iterations `steps` since, and whose network has
done `actions` since the last one. -/
structure Lived (config : ServerCfg) (save : Bytes) (metadata : SaveMetadata) (state : σ → κ)
    (last : σ) (interval : UInt64) (members : ι → Member σ) (authority begun : Authority σ)
    (steps : List (LiveStep σ)) (current : Authority σ) (actions : List NetAction) : Prop where
  same : authority = { current with server := current.server.update actions }
  alike : state begun.sim = state last
  started : Started config.expectedClients save metadata begun.verified begun.server
  fresh : begun.hashes = ∅
  run : LiveRun config.desyncPolicy begun steps current
  heard : ∀ i, (members i).Heard interval steps actions

/-- What an authority made of its replicas: before the start it sent them no message of the lockstep
channel, and since it is live, it heard what they said. -/
def Projects (config : ServerCfg) (save : Bytes) (metadata : SaveMetadata) (state : σ → κ)
    (last : σ) (interval : UInt64) (members : ι → Member σ) : Phase σ → Prop
  | .waiting _ _ => ∀ i, (members i).sent .lockstep = []
  | .live authority => ∃ begun steps current actions,
      Lived config save metadata state last interval members authority begun steps current actions
  | .ended _ _ => True

/-- An authority goes live. -/
theorem lived_start (alike : state begun.sim = state last)
    (started : Started config.expectedClients save metadata begun.verified begun.server)
    (fresh : begun.hashes = ∅)
    (silent : ∀ i, spoken ((members i).said .lockstep) = [] ∧ (members i).said .desync = []) :
    Lived config save metadata state last interval members begun begun [] begun [] where
  same := rfl
  alike := alike
  started := started
  fresh := fresh
  run := .here
  heard i := by
    obtain ⟨commands, reports⟩ := silent i
    refine ⟨⟨(members i).said, commands, reports, fun _ => (List.append_nil _).symm⟩, ?_⟩
    intro front step back split
    cases (List.append_eq_nil_iff.mp split.symm).2

/-- The ticks that an authority broadcast are those of its iterations. -/
theorem Lived.completes
    (lived : Lived config save metadata state last interval members authority begun steps current
      actions) (bounded : CommandsBounded σ)
    (follows : (Phase.live authority).Follows config save metadata base ticks)
    (broadcastable : ∀ advance ∈ ticks, advance.Broadcastable) :
    ticks = steps.map LiveStep.advance := by
  have sent : current.server.broadcasts =
      (lockstepMessages metadata ticks).map (Prod.mk .lockstep) := by
    rw [← follows.2, lived.same]
    exact (broadcasts_update _ actions).symm
  have own : current.server.broadcasts =
      (lockstepMessages metadata (steps.map LiveStep.advance)).map (Prod.mk .lockstep) := by
    rw [lived.run.running.broadcasts, lived.started.once]
    simp [lockstepMessages]
  have within : ∀ advance ∈ steps.map LiveStep.advance, advance.Broadcastable := by
    intro advance member
    obtain ⟨step, among, rfl⟩ := List.mem_map.mp member
    exact (lived.run.iterated among).sequenced.broadcastable bounded
  rw [← broadcastTicks_lockstepMessages metadata broadcastable, ← sent, own,
    broadcastTicks_lockstepMessages metadata within]

/-- The network does more. -/
theorem Lived.acts
    (lived : Lived config save metadata state last interval members authority begun steps current
      actions)
    (heard : ∀ i, (others i).client = (members i).client ∧ ∀ channel, (others i).said channel =
      (members i).said channel ++ deliveries (members i).client channel more) :
    Lived config save metadata state last interval others
      { authority with server := authority.server.update more } begun steps current
      (actions ++ more) where
  same := by
    rw [lived.same]
    simp [RenetServer.update, List.foldl_append]
  alike := lived.alike
  started := lived.started
  fresh := lived.fresh
  run := lived.run
  heard i := (lived.heard i).acts (heard i).1 (heard i).2

/-- The ticks have the first commands that a replica said. -/
theorem Lived.commands
    (lived : Lived config save metadata state last interval members authority begun steps current
      actions) (i : ι) :
    commandsOf (members i).client (steps.map LiveStep.advance) <+:
      spoken ((members i).said .lockstep) := by
  rw [(lived.heard i).spoken, spoken_append]
  exact (lived.run.commandsOf_delivered (lived.started.pending _).1).trans (List.prefix_append _ _)

/-- A replica reports the checkpoints of the authority. -/
theorem Lived.reports (deterministic : Deterministic state)
    (lived : Lived config save metadata state last interval members authority begun steps current
      actions) {member : Member σ} {initial : σ}
    (broadcastable : ∀ advance ∈ steps.map LiveStep.advance, advance.Broadcastable)
    (sound : member.Sound save metadata initial last (steps.map LiveStep.advance))
    (speech : member.Speech last interval) :
    member.said .desync <+: (checkpoints interval steps).map report := by
  obtain ⟨received, entries, sim, first, prints, reports⟩ := speech.spoke.reports
  have within : heardTicks received <+: steps.map LiveStep.advance :=
    heardTicks_of_hears broadcastable (first.trans ((sound.delivered .lockstep).trans sound.hears))
  obtain ⟨rest, whole⟩ :=
    lived.run.fingerprints.entries_of_within deterministic prints lived.alike within
  have all : (checkpoints interval steps).map report =
      reportsOf interval entries ++ reportsOf interval rest := by
    rw [← reportsOf_append, whole]
    rfl
  rw [all, ← reports, List.append_assoc]
  exact List.prefix_append _ _

/-- An authority takes an iteration. -/
theorem Lived.iterated
    (lived : Lived config save metadata state last interval members authority begun steps current
      actions)
    (timely : ∀ i, (members i).said .desync <+: (checkpoints interval steps).map report)
    (kept : ∀ i, (others i).client = (members i).client ∧ (others i).said = (members i).said)
    {input : TickInput} {next : Authority σ} (still : input.actions = [])
    (returns : Authority.iteration config.desyncPolicy input authority = .ok () next) :
    ∃ steps, Lived config save metadata state last interval others next begun steps next [] := by
  obtain ⟨_, quiet⟩ := ensures_of_ok (Authority.ensures_iteration _ input authority) returns
  rw [lived.same, ← Authority.iteration_acted _ still quiet.quiet] at returns
  obtain ⟨advance, iterated⟩ := ensures_of_ok (Authority.ensures_iteration _ _ current) returns
  refine ⟨_, rfl, lived.alike, lived.started, lived.fresh, lived.run.iteration returns iterated, ?_⟩
  intro i
  exact (lived.heard i).iterated (kept i).1 (kept i).2 (timely i) rfl

end Phase

/-- A replica that was sent nothing of the lockstep channel said nothing. -/
theorem Member.Speech.silent {σ : Type} [SessionSimulation σ] {last : σ} {interval : UInt64}
    {member : Member σ} (speech : member.Speech last interval)
    (nothing : member.got .lockstep = []) :
    spoken (member.said .lockstep) = [] ∧ member.said .desync = [] := by
  have commands := speech.spoke.unheard nothing
  obtain ⟨received, entries, sim, first, prints, reports⟩ := speech.spoke.reports
  rw [nothing] at first
  rw [List.prefix_nil.mp first] at prints
  rw [prints.entries_of_nothing rfl] at reports
  rw [spoken_append] at commands
  exact ⟨(List.append_eq_nil_iff.mp commands).1, (List.append_eq_nil_iff.mp reports).1⟩

namespace Phase

variable {ι σ κ : Type} [SessionSimulation σ] {config : ServerCfg} {save : Bytes}
  {metadata : SaveMetadata} {state : σ → κ} {initial base last : σ} {interval : UInt64}
  {ticks ticks' : List TickAdvance} {members others : ι → Member σ} {actions : List NetAction}
  {phase next : Phase σ}

/-- What the network does besides, an authority hears. -/
theorem projects_update
    (projects : phase.Projects config save metadata state last interval members)
    (heard : ∀ i, (others i).client = (members i).client ∧ ∀ channel, (others i).said channel =
      (members i).said channel ++ deliveries (members i).client channel actions)
    (sent : ∀ i, (others i).sent = (members i).sent) :
    (phase.update actions).Projects config save metadata state last interval others := by
  cases phase with
  | waiting session current =>
      rw [update_waiting]
      intro i
      rw [sent]
      exact projects i
  | live authority =>
      obtain ⟨begun, steps, current, before, lived⟩ := projects
      rw [update_live]
      exact ⟨begun, steps, current, _, lived.acts heard⟩
  | ended server sim =>
      have ended : ¬ ((Phase.ended server sim).update actions).Serving :=
        (serving_update actions).not.mpr id
      cases after : (Phase.ended server sim).update actions with
      | waiting => exact (ended (after ▸ trivial)).elim
      | live => exact (ended (after ▸ trivial)).elim
      | ended => trivial

/-- At the start of a session no ticks were broadcast. -/
theorem Follows.unticked {expected : Nat} {verified : ExtTreeMap UInt64 UInt64}
    (follows : phase.Follows config save metadata base ticks)
    (broadcastable : ∀ advance ∈ ticks, advance.Broadcastable)
    (started : Started expected save metadata verified phase.server) : ticks = [] := by
  have sent := follows.broadcast broadcastable
  rw [started.once] at sent
  have none := broadcastTicks_lockstepMessages metadata (List.forall_mem_nil TickAdvance.Broadcastable)
  exact List.prefix_nil.mp (none ▸ sent)

/-- A pass or an iteration takes up what was delivered. -/
theorem Passes.projects (deterministic : Deterministic state) (bounded : CommandsBounded σ)
    (alike : state base = state last)
    (passes : phase.Passes config save metadata next)
    (follows : phase.Follows config save metadata base ticks)
    (sounds : ∀ i, (members i).Sound save metadata initial last ticks)
    (speech : ∀ i, (members i).Speech last interval)
    (projects : phase.Projects config save metadata state last interval members)
    (broadcastable : ∀ advance ∈ ticks', advance.Broadcastable) (grows : ticks <+: ticks')
    (onwards : next.Follows config save metadata base ticks')
    (tracks : ∀ i, (members i).link = .joined →
      next.Tracks save metadata ticks' ((members i).flushed next.server)) :
    next.Projects config save metadata state last interval
        (fun i => (members i).flushed next.server) ∧
      ∀ i, commandsOf (members i).client ticks' <+: spoken ((members i).said .lockstep) := by
  have nothing (none : ticks' = []) (i : ι) :
      commandsOf (members i).client ticks' <+: spoken ((members i).said .lockstep) := by
    rw [none]
    exact List.nil_prefix
  cases passes with
  | @wait session current later input still returns =>
      refine ⟨?_, nothing onwards.1⟩
      intro i
      change ((members i).flushed later.server).sent .lockstep = []
      rcases Member.flushed_cases later.server (members i) with
        ⟨same, _⟩ | ⟨connection, joined, there, opens, same⟩
      · rw [same]
        exact projects i
      · obtain ⟨other, there', recorded, _⟩ := tracks i joined
        rw [Member.client_flushed] at there'
        cases there'.symm.trans there
        rw [same]
        exact (loading_of_drains onwards.2.2 there opens recorded).lockstep
  | @start session current later input verified sim still returns publishes =>
      have started := ensures_of_ok (ensures_pass follows.2.2 _) returns
      have silent (i : ι) : spoken (((members i).flushed later.server).said .lockstep) = [] ∧
          ((members i).flushed later.server).said .desync = [] := by
        have unsent := (sounds i).delivered .lockstep
        rw [projects i] at unsent
        rw [Member.said_flushed]
        exact (speech i).silent (List.prefix_nil.mp unsent)
      have published := deterministic.publish publishes
      rw [follows.2.1, alike] at published
      exact ⟨⟨_, _, _, _, lived_start published started rfl silent⟩,
        nothing (onwards.unticked broadcastable started)⟩
  | unpublished still returns fails =>
      have started := ensures_of_ok (ensures_pass follows.2.2 _) returns
      exact ⟨trivial, nothing (onwards.unticked broadcastable started)⟩
  | abandoned still returns =>
      have started := ensures_of_ok (ensures_pass follows.2.2 _) returns
      exact ⟨trivial, nothing (onwards.unticked broadcastable started)⟩
  | @tick authority later input still returns =>
      obtain ⟨begun, steps, current, actions, lived⟩ := projects
      have within : ∀ advance ∈ ticks, advance.Broadcastable := by
        obtain ⟨back, rfl⟩ := grows
        exact fun advance member => broadcastable advance (List.mem_append_left _ member)
      have all := lived.completes bounded follows within
      subst all
      have kept (i : ι) : ((members i).flushed later.server).client = (members i).client ∧
          ((members i).flushed later.server).said = (members i).said :=
        ⟨Member.client_flushed _ _, Member.said_flushed _ _⟩
      obtain ⟨more, lived⟩ := lived.iterated
        (fun i => lived.reports deterministic within (sounds i) (speech i)) kept still returns
      refine ⟨⟨_, _, _, _, lived⟩, ?_⟩
      intro i
      have commands := lived.commands i
      rw [← lived.completes bounded onwards broadcastable] at commands
      rw [Member.client_flushed, Member.said_flushed] at commands
      exact commands

end Phase

namespace System

variable {ι σ κ : Type} [SessionSimulation σ] {config : ServerCfg} {save : Bytes}
  {metadata : SaveMetadata} {state : σ → κ} {initial last base : σ} {interval : UInt64}
  {clients : ι → UInt64} {ticks : List TickAdvance} {start system : System ι σ}

/-- A session that ends broadcasts no more ticks. -/
theorem Sound.ends (sound : system.Sound config save metadata initial last base ticks)
    {phase : Phase σ} (ends : system.phase.Ends config save metadata phase) :
    Sound config save metadata initial last base ticks { system with phase } where
  broadcastable := sound.broadcastable
  follows := sound.follows.ends sound.broadcastable ends
  members := sound.members
  tracks _ _ := Phase.tracks_of_ended ends.ended
  alone serving := (ends.ended serving).elim

/-- A run as its authority sees it: the ticks have the first commands of every replica. -/
structure Projected (config : ServerCfg) (save : Bytes) (metadata : SaveMetadata) (state : σ → κ)
    (initial last base : σ) (interval : UInt64) (clients : ι → UInt64) (ticks : List TickAdvance)
    (system : System ι σ) : Prop where
  sound : system.Sound config save metadata initial last base ticks
  speech : ∀ i, (system.members i).Speech last interval
  named : ∀ i, (system.members i).client = clients i
  commands : ∀ i, commandsOf (clients i) ticks <+: spoken ((system.members i).said .lockstep)
  projects : system.phase.Projects config save metadata state last interval system.members

/-- The commands that a replica said stay so. -/
theorem Projected.said
    (projected : system.Projected config save metadata state initial last base interval clients ticks)
    {members : ι → Member σ} (said : ∀ i, (system.members i).said .lockstep <+:
      (members i).said .lockstep) (i : ι) :
    commandsOf (clients i) ticks <+: spoken ((members i).said .lockstep) :=
  (projected.commands i).trans (spoken_mono (said i))

variable [DecidableEq ι]

/-- What happens to a replica, its authority hears, and about no other one. -/
theorem Projected.moves (distinct : Function.Injective clients)
    (deterministic : Deterministic state) (valid : ValidSave save metadata initial last)
    (alike : state base = state last)
    (paced : ∀ {ticks : List TickAdvance} {sim : σ}, Evolves last ticks sim →
      hashInterval sim = interval)
    (projected : system.Projected config save metadata state initial last base interval clients ticks)
    {i : ι} {actions : List NetAction} {later : Member σ}
    (moves : (system.members i).Moves system.phase.server actions later) :
    Projected config save metadata state initial last base interval clients ticks
      { phase := system.phase.update actions
        members := Function.update system.members i later } := by
  obtain ⟨client, about, _⟩ := moves.about
  have heard (j : ι) :
      (Function.update system.members i later j).client = (system.members j).client ∧
        ∀ channel, (Function.update system.members i later j).said channel =
          (system.members j).said channel ++ deliveries (system.members j).client channel actions := by
    by_cases same : j = i
    · subst same
      rw [Function.update_self]
      exact ⟨client, moves.said⟩
    · rw [Function.update_of_ne same]
      refine ⟨rfl, ?_⟩
      intro channel
      have elsewhere : ∀ action ∈ actions, (system.members j).client ≠ action.client := by
        intro action member equal
        rw [(about action member).1, projected.named, projected.named] at equal
        exact same (distinct equal)
      rw [deliveries_elsewhere elsewhere, List.append_nil]
  refine ⟨projected.sound.moves deterministic valid alike moves, ?_, ?_, ?_, ?_⟩
  · exact projected.sound.speech deterministic valid paced projected.speech (.member moves)
  · intro j
    exact (heard j).1.trans (projected.named j)
  · apply projected.said
    intro j
    rw [(heard j).2]
    exact List.prefix_append _ _
  · apply Phase.projects_update projected.projects heard
    intro j
    by_cases same : j = i
    · subst same
      rw [Function.update_self, moves.sent]
    · rw [Function.update_of_ne same]

/-- Every run in which nobody else acts under the ids of the replicas is seen so. -/
theorem Reserved.projected (distinct : Function.Injective clients)
    (deterministic : Deterministic state) (bounded : CommandsBounded σ)
    (valid : ValidSave save metadata initial last) (alike : state base = state last)
    (paced : ∀ {ticks : List TickAdvance} {sim : σ}, Evolves last ticks sim →
      hashInterval sim = interval)
    (begins : ∃ ticks, start.Projected config save metadata state initial last base interval clients
      ticks)
    (reserved : start.Reserved config save metadata system) :
    ∃ ticks, system.Projected config save metadata state initial last base interval clients ticks := by
  induction reserved with
  | here => exact begins
  | @authority system next _ passes ih =>
      obtain ⟨ticks, projected⟩ := ih
      have sound := projected.sound
      obtain ⟨ticks', grows, after⟩ := sound.passes bounded passes
      obtain ⟨projects, commands⟩ := passes.projects deterministic bounded alike sound.follows
        sound.members projected.speech projected.projects after.broadcastable grows after.follows
        fun i joined => after.tracks i (by rw [Member.link_flushed]; exact joined)
      refine ⟨ticks', after, fun i => (projected.speech i).flushed, ?_, ?_, projects⟩
      · intro i
        exact (Member.client_flushed _ _).trans (projected.named i)
      · intro i
        rw [← projected.named i]
        change _ <+: spoken (((system.members i).flushed next.server).said .lockstep)
        rw [Member.said_flushed]
        exact commands i
  | @ends system next _ ends ih =>
      obtain ⟨ticks, projected⟩ := ih
      refine ⟨ticks, projected.sound.ends ends, projected.speech, projected.named,
        projected.commands, ?_⟩
      cases phase : next with
      | waiting => exact (ends.ended (phase ▸ trivial)).elim
      | live => exact (ends.ended (phase ▸ trivial)).elim
      | ended => trivial
  | member _ moves ih =>
      obtain ⟨ticks, projected⟩ := ih
      exact ⟨ticks, projected.moves distinct deterministic valid alike paced moves⟩
  | @stranger system action _ strange ih =>
      obtain ⟨ticks, projected⟩ := ih
      refine ⟨ticks, projected.sound.act fun i _ => strange i, projected.speech, projected.named,
        projected.commands, ?_⟩
      have elsewhere (i : ι) (channel : Channel) : (system.members i).said channel =
          (system.members i).said channel ++ deliveries (system.members i).client channel [action] := by
        rw [deliveries_elsewhere, List.append_nil]
        intro other member
        rw [List.mem_singleton.mp member]
        exact strange i
      have projects := Phase.projects_update projected.projects (fun i => ⟨rfl, elsewhere i⟩)
        fun _ => rfl
      exact projects

end System

end Synctick
