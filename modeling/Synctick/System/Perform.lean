import Synctick.System

/-! # Runs of a system

The steps of a system that the code decides are computed: given what the environment decides, a
pass, an iteration or a delivery leads to one next system, if it can be done. What a run computes
is reached.
-/

namespace Synctick

open SessionSimulation Effect

/-- What can be done next with a replica. -/
inductive MemberAct
  | join
  | deliver (channel : Channel)
  | arrive (channel : Channel)
  | iterate (input : ClientInput)

/-- What can be done next in a system. -/
inductive Act (ι : Type)
  | pass (input : WaitInput)
  | tick (input : TickInput)
  | member (i : ι) (act : MemberAct)

namespace Phase

variable {σ : Type} [SessionSimulation σ] {phase next : Phase σ}

/-- A pass of the waiting loop, and its announcement of the start. -/
def pass (config : ServerCfg) (save : Bytes) (metadata : SaveMetadata) (input : WaitInput) :
    Phase σ → Option (Phase σ)
  | .waiting session current =>
      match Waiting.pass config.expectedClients save metadata { input with actions := [] } current with
      | .ok none next => some (.waiting session next)
      | .ok (some verified) next =>
          match publish session.sim with
          | .ok _ sim => some
              (.live { server := next.server, sim, writer := session.writer, verified })
          | .error _ sim => some (.ended next.server sim)
      | .error _ _ => none
  | .live _ => none
  | .ended _ _ => none

/-- An iteration of the live loop. -/
def tick (config : ServerCfg) (input : TickInput) : Phase σ → Option (Phase σ)
  | .live authority =>
      match Authority.iteration config.desyncPolicy { input with actions := [] } authority with
      | .ok _ next => some (.live next)
      | .error _ _ => none
  | .waiting _ _ => none
  | .ended _ _ => none

theorem passes_of_pass {config : ServerCfg} {save : Bytes} {metadata : SaveMetadata}
    {input : WaitInput} (runs : phase.pass config save metadata input = some next) :
    phase.Passes config save metadata next := by
  unfold pass at runs
  cases phase with
  | waiting session current =>
      dsimp only at runs
      cases returns : Waiting.pass config.expectedClients save metadata { input with actions := [] }
          current with
      | error error after =>
          rw [returns] at runs
          cases runs
      | ok verified after =>
          rw [returns] at runs
          cases verified with
          | none =>
              cases runs
              exact .wait rfl returns
          | some verified =>
              dsimp only at runs
              cases publishes : publish session.sim with
              | ok _ sim =>
                  rw [publishes] at runs
                  cases runs
                  exact .start rfl returns publishes
              | error error sim =>
                  rw [publishes] at runs
                  cases runs
                  exact .unpublished rfl returns publishes
  | live authority => cases runs
  | ended server sim => cases runs

theorem passes_of_tick {config : ServerCfg} {save : Bytes} {metadata : SaveMetadata}
    {input : TickInput} (runs : phase.tick config input = some next) :
    phase.Passes config save metadata next := by
  unfold tick at runs
  cases phase with
  | live authority =>
      dsimp only at runs
      cases returns : Authority.iteration config.desyncPolicy { input with actions := [] }
          authority with
      | ok _ after =>
          rw [returns] at runs
          cases runs
          exact .tick rfl returns
      | error error after =>
          rw [returns] at runs
          cases runs
  | waiting session current => cases runs
  | ended server sim => cases runs

end Phase

namespace Member

variable {σ : Type} [SessionSimulation σ] {member next : Member σ}

/-- Do what can be done with a replica, where it can be done. -/
def perform (server : RenetServer) (member : Member σ) :
    MemberAct → Option (List NetAction × Member σ)
  | .join =>
      if member.link = .apart ∧ (server.connections member.client).isNone then
        some ([.connect member.client], { member with link := .joined })
      else none
  | .deliver channel =>
      match member.replica.outgoing channel with
      | [] => none
      | bytes :: _ =>
          if member.link = .joined then
            some ([.deliver member.client channel bytes], { member with
              said := member.said.push channel bytes
              replica := { member.replica with outgoing := member.replica.outgoing.pop channel } })
          else none
  | .arrive channel =>
      match (member.sent channel).drop (member.got channel).length with
      | [] => none
      | bytes :: later =>
          if member.sent channel = member.got channel ++ bytes :: later then
            some ([], { member with
              got := member.got.push channel bytes
              replica := { member.replica with
                incoming := member.replica.incoming.push channel bytes } })
          else none
  | .iterate input =>
      if member.stopped.isNone then
        match Replica.iteration input member.replica with
        | .ok _ next => some ([], { member with replica := next })
        | .error error next => some ([], { member with replica := next, stopped := some error })
      else none

theorem moves_of_perform {server : RenetServer} {act : MemberAct} {actions : List NetAction}
    (runs : member.perform server act = some (actions, next)) :
    member.Moves server actions next := by
  unfold perform at runs
  cases act with
  | join =>
      dsimp only at runs
      by_cases free : member.link = .apart ∧ (server.connections member.client).isNone
      · rw [if_pos free] at runs
        cases runs
        exact .join free.1 (Option.isNone_iff_eq_none.mp free.2)
      · rw [if_neg free] at runs
        cases runs
  | deliver channel =>
      dsimp only at runs
      cases outgoing : member.replica.outgoing channel with
      | nil =>
          rw [outgoing] at runs
          cases runs
      | cons bytes later =>
          rw [outgoing] at runs
          dsimp only at runs
          by_cases joined : member.link = .joined
          · rw [if_pos joined] at runs
            cases runs
            exact .deliver joined outgoing
          · rw [if_neg joined] at runs
            cases runs
  | arrive channel =>
      dsimp only at runs
      cases left : (member.sent channel).drop (member.got channel).length with
      | nil =>
          rw [left] at runs
          cases runs
      | cons bytes later =>
          rw [left] at runs
          dsimp only at runs
          by_cases first : member.sent channel = member.got channel ++ bytes :: later
          · rw [if_pos first] at runs
            cases runs
            exact .arrive first
          · rw [if_neg first] at runs
            cases runs
  | iterate input =>
      dsimp only at runs
      by_cases continues : member.stopped.isNone = true
      · rw [if_pos continues] at runs
        have continues := Option.isNone_iff_eq_none.mp continues
        cases returns : Replica.iteration input member.replica with
        | ok _ after =>
            rw [returns] at runs
            cases runs
            exact .iterate continues returns
        | error error after =>
            rw [returns] at runs
            cases runs
            exact .fail continues returns
      · rw [if_neg continues] at runs
        cases runs

end Member

namespace System

variable {ι σ : Type} [DecidableEq ι] [SessionSimulation σ] {config : ServerCfg} {save : Bytes}
  {metadata : SaveMetadata} {system next last : System ι σ}

/-- Do what can be done next, where it can be done and completes. -/
def perform (config : ServerCfg) (save : Bytes) (metadata : SaveMetadata) (system : System ι σ) :
    Act ι → Option (System ι σ)
  | .pass input => do
      let next ← system.phase.pass config save metadata input
      some { phase := next, members := fun i => (system.members i).flushed next.server }
  | .tick input => do
      let next ← system.phase.tick config input
      some { phase := next, members := fun i => (system.members i).flushed next.server }
  | .member i act => do
      let (actions, next) ← (system.members i).perform system.phase.server act
      some { phase := system.phase.update actions, members := Function.update system.members i next }

/-- Do one thing after another. -/
def run (config : ServerCfg) (save : Bytes) (metadata : SaveMetadata) :
    List (Act ι) → System ι σ → Option (System ι σ)
  | [], system => some system
  | act :: later, system => do
      let next ← system.perform config save metadata act
      run config save metadata later next

/-- What was done is a step. -/
theorem step_of_perform {act : Act ι} (runs : system.perform config save metadata act = some next) :
    system.Step config save metadata next := by
  unfold perform at runs
  cases act with
  | pass input =>
      obtain ⟨phase, passes, same⟩ := Option.bind_eq_some_iff.mp runs
      cases same
      exact .authority (Phase.passes_of_pass passes)
  | tick input =>
      obtain ⟨phase, passes, same⟩ := Option.bind_eq_some_iff.mp runs
      cases same
      exact .authority (Phase.passes_of_tick passes)
  | member i act =>
      obtain ⟨⟨actions, after⟩, moves, same⟩ := Option.bind_eq_some_iff.mp runs
      cases same
      exact .member (Member.moves_of_perform moves)

theorem reaches_of_run {acts : List (Act ι)}
    (runs : system.run config save metadata acts = some last) :
    system.Reaches config save metadata last := by
  induction acts generalizing system with
  | nil =>
      cases runs
      exact .here
  | cons act later ih =>
      obtain ⟨next, performs, runs⟩ := Option.bind_eq_some_iff.mp runs
      exact Reaches.trans (.step .here (step_of_perform performs)) (ih runs)

end System

end Synctick
