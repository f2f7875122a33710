import Synctick.System

/-! # A session is a run of a system

Whatever the network does in the passes and iterations of a session, the session does what the
authority of a system does: the phases of a system are those that the session goes through.
-/

namespace Synctick

open SessionSimulation Effect

namespace Phase

variable {σ : Type}

/-- A turn of the network reaches the server of an authority that waits. -/
theorem update_waiting (session : ServerSession σ) (current : Waiting) (actions : List NetAction) :
    (Phase.waiting session current).update actions =
      .waiting session { current with server := current.server.update actions } := by
  induction actions generalizing current with
  | nil => rfl
  | cons action later ih => exact ih _

/-- It reaches that of a live one. -/
theorem update_live (authority : Authority σ) (actions : List NetAction) :
    (Phase.live authority).update actions =
      .live { authority with server := authority.server.update actions } := by
  induction actions generalizing authority with
  | nil => rfl
  | cons action later ih => exact ih _

end Phase

/-- What the network does in a pass, it can do before. -/
theorem Waiting.pass_still (expected : Nat) (save : Bytes) (metadata : SaveMetadata)
    (input : WaitInput) (current : Waiting) : ∃ actions,
      Waiting.pass expected save metadata input current =
        Waiting.pass expected save metadata { input with actions := [] }
          { current with server := current.server.update actions } := by
  cases network : input.network with
  | some error =>
      refine ⟨[], ?_⟩
      unfold Waiting.pass
      simp only [network]
      rfl
  | none =>
      refine ⟨input.actions, ?_⟩
      unfold Waiting.pass
      simp only [network]
      rfl

/-- The actions of the network may be taken before an iteration, which then sees none. -/
theorem Authority.iteration_still {σ : Type} [SessionSimulation σ] (policy : DesyncPolicy)
    (input : TickInput) (authority : Authority σ) : ∃ actions,
      Authority.iteration policy input authority =
        Authority.iteration policy { input with actions := [] }
          { authority with server := authority.server.update actions } := by
  cases network : input.network with
  | some error =>
      refine ⟨[], ?_⟩
      unfold Authority.iteration
      simp only [network]
      rfl
  | none =>
      refine ⟨input.actions, ?_⟩
      unfold Authority.iteration
      simp only [network]
      rfl

namespace System

variable {ι σ : Type} [DecidableEq ι] [SessionSimulation σ] {config : ServerCfg} {save : Bytes}
  {metadata : SaveMetadata} {replica : Replica σ} {clients : ι → UInt64}

/-- An authority to which no replica connected. -/
def alone (replica : Replica σ) (clients : ι → UInt64) (phase : Phase σ) : System ι σ where
  phase
  members i := { client := clients i, replica }

/-- A pass of the authority is a step of the system in which nobody else acts. -/
theorem alone_passes {phase next : Phase σ} (passes : phase.Passes config save metadata next) :
    (alone replica clients phase).Reaches config save metadata (alone replica clients next) :=
  .step .here (.authority passes)

/-- So is the end of its session. -/
theorem alone_ends {phase next : Phase σ} (ends : phase.Ends config save metadata next) :
    (alone replica clients phase).Reaches config save metadata (alone replica clients next) :=
  .step .here (.ends ends)

variable (config save metadata replica clients)

/-- So is a turn of the network. -/
theorem alone_act (phase : Phase σ) (actions : List NetAction) :
    (alone replica clients phase).Reaches config save metadata
      (alone replica clients (phase.update actions)) := by
  induction actions generalizing phase with
  | nil => exact .here
  | cons action later ih =>
      refine Reaches.trans (.step .here ?_) (ih (phase.act action))
      apply Step.stranger
      intro i joined
      cases joined

/-- Waiting for the start is a run of the system: up to where it was left if it was cancelled, and
otherwise up to the pass that finds the participants, in which the network has no part. -/
theorem ensures_waitForStart_alone (session : ServerSession σ) (inputs : List WaitInput)
    (current : Waiting) :
    Ensures (waitForStart config.expectedClients save metadata inputs) current
      (fun verified next =>
        (verified = none → (alone replica clients (.waiting session current)).Reaches config save
          metadata (alone replica clients (.waiting session next))) ∧
        ∀ participants, verified = some participants → ∃ (input : WaitInput) (middle : Waiting),
          input.actions = [] ∧ Waiting.pass config.expectedClients save metadata input middle =
            .ok (some participants) next ∧
          (alone replica clients (.waiting session current)).Reaches config save metadata
            (alone replica clients (.waiting session middle)))
      (fun _ next => (alone replica clients (.waiting session current)).Reaches config save
        metadata (alone replica clients (.ended next.server session.sim))) := by
  induction inputs generalizing current with
  | nil =>
      refine ⟨fun _ => .here, ?_⟩
      intro _ impossible
      cases impossible
  | cons input later ih =>
      obtain ⟨actions, still⟩ :=
        Waiting.pass_still config.expectedClients save metadata input current
      have acted := alone_act config save metadata replica clients (.waiting session current) actions
      rw [Phase.update_waiting] at acted
      unfold waitForStart
      rw [ensures_bind]
      apply (ensures_self _ _).mono
      · intro verified next returns
        rw [still] at returns
        cases verified with
        | none =>
            have passed := acted.trans (alone_passes (.wait rfl returns))
            refine (ih next).mono ?_ ?_
            · rintro _ last ⟨cancelled, started⟩
              refine ⟨fun none => passed.trans (cancelled none), ?_⟩
              intro participants some
              obtain ⟨input, middle, still, returns, reaches⟩ := started participants some
              exact ⟨input, middle, still, returns, passed.trans reaches⟩
            · intro _ _ reaches
              exact passed.trans reaches
        | some participants =>
            constructor
            · intro impossible
              cases impossible
            · intro _ same
              cases same
              exact ⟨_, _, rfl, returns, acted⟩
      · intro _ next fails
        rw [still] at fails
        exact acted.trans (alone_ends (.wait rfl fails))

/-- The tick loop is a run of the system, to the live authority or to the end of its session. -/
theorem ensures_tickLoop_alone (inputs : List TickInput) (authority : Authority σ) :
    Ensures (Authority.tickLoop config.desyncPolicy inputs) authority
      (fun _ next => (alone replica clients (.live authority)).Reaches config save metadata
        (alone replica clients (.live next)))
      (fun _ next => (alone replica clients (.live authority)).Reaches config save metadata
        (alone replica clients (.ended next.server next.sim))) := by
  apply ensures_forEach _ fun current : Authority σ =>
    (alone replica clients (.live authority)).Reaches config save metadata
      (alone replica clients (.live current))
  · intro input _ current reached
    obtain ⟨actions, still⟩ := Authority.iteration_still config.desyncPolicy input current
    have acted := alone_act config save metadata replica clients (.live current) actions
    rw [Phase.update_live] at acted
    apply (ensures_self _ _).mono
    · intro _ next returns
      rw [still] at returns
      exact reached.trans (acted.trans (alone_passes (.tick rfl returns)))
    · intro _ next fails
      rw [still] at fails
      exact reached.trans (acted.trans (alone_ends (.tick rfl fails)))
  · exact .here

/-- A session serves as an authority of a system does. -/
theorem ensures_serve (input : SessionInput) {session : ServerSession σ}
    (fresh : session.server = {}) :
    Ensures (ServerSession.serve config save metadata input) session
      (fun _ next => ∃ phase : Phase σ, phase.server = next.server ∧ phase.sim = next.sim ∧
        (start session replica clients).Reaches config save metadata (alone replica clients phase))
      (fun _ next => ∃ phase : Phase σ, phase.server = next.server ∧ phase.sim = next.sim ∧
        (start session replica clients).Reaches config save metadata
          (alone replica clients phase)) := by
  unfold ServerSession.serve ServerSession.waitForParticipants
  rw [ensures_bind, ensures_bind, ensures_zoom, fresh]
  apply (ensures_waitForStart_alone config save metadata replica clients session input.wait _).mono
  · rintro verified waiting ⟨cancelled, started⟩
    rw [ensures_bind, ensures_modify]
    cases verified with
    | none => exact ⟨.waiting session waiting, rfl, rfl, cancelled rfl⟩
    | some participants =>
        obtain ⟨last, middle, still, returns, reaches⟩ := started participants rfl
        rw [ensures_pure]
        by_cases abandoned : input.abandoned = false
        · rw [if_pos ⟨rfl, abandoned⟩, ensures_bind]
          unfold ServerSession.goLive ServerSession.publishStatus ServerSession.live
          rw [ensures_bind, ensures_zoom]
          apply (ensures_self _ _).mono
          · intro _ sim publishes
            rw [ensures_modify, ensures_zoom]
            have live := reaches.trans (alone_passes (.start still returns publishes))
            apply (ensures_tickLoop_alone config save metadata replica clients input.ticks _).mono
            · intro _ authority reaches
              exact ⟨.live authority, rfl, rfl, live.trans reaches⟩
            · intro _ authority reaches
              exact ⟨.ended authority.server authority.sim, rfl, rfl, live.trans reaches⟩
          · intro _ sim fails
            exact ⟨.ended waiting.server sim, rfl, rfl,
              reaches.trans (alone_passes (.unpublished still returns fails))⟩
        · rw [if_neg fun both => abandoned both.2]
          exact ⟨.ended waiting.server session.sim, rfl, rfl,
            reaches.trans (alone_passes (.abandoned still returns))⟩
  · intro _ waiting reaches
    exact ⟨.ended waiting.server session.sim, rfl, rfl, reaches⟩

end System

end Synctick
