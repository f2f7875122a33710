import Synctick.Client.Loop
import Synctick.Server.Live
import Synctick.Server.Session

/-! # The calls of a session on its simulation

While a save is replayed, each tick is advanced and finished. A session that goes live
publishes once, and then advances, publishes and finishes each tick. Only the last tick may
fail, and it is finished as well.
-/

namespace Synctick

open SessionSimulation Effect

/-- The calls for ticks that are replayed. -/
def replayedCalls (ticks : List TickAdvance) : List Hook :=
  ticks.flatMap fun tick => [.advance tick true, .finish]

/-- The calls for ticks that are applied live. -/
def liveCalls (ticks : List TickAdvance) : List Hook :=
  ticks.flatMap fun tick => [.advance tick true, .publish, .finish]

/-- Replayed ticks are called for one after another. -/
theorem replayedCalls_append (front back : List TickAdvance) :
    replayedCalls (front ++ back) = replayedCalls front ++ replayedCalls back := List.flatMap_append

/-- So are live ones. -/
theorem liveCalls_append (front back : List TickAdvance) :
    liveCalls (front ++ back) = liveCalls front ++ liveCalls back := List.flatMap_append

/-- The calls of a session between two ticks: whether its start is verified, and whether it is
live. -/
inductive Calls : Bool → Bool → List Hook → Prop
  | loading {verified : Bool} (ticks : List TickAdvance) : Calls verified false (replayedCalls ticks)
  | live (ticks lives : List TickAdvance) :
      Calls true true (replayedCalls ticks ++ .publish :: liveCalls lives)

/-- The calls of a session that failed, of which the last ones are for the tick or the
publication that failed. -/
inductive LastCalls : Bool → Bool → List Hook → Prop
  | between {verified live : Bool} {hooks : List Hook} (calls : Calls verified live hooks) :
      LastCalls verified live hooks
  | replay (ticks : List TickAdvance) (tick : TickAdvance) :
      LastCalls false false (replayedCalls ticks ++ [.advance tick false, .finish])
  | start (ticks : List TickAdvance) : LastCalls true false (replayedCalls ticks ++ [.publish])
  | live (ticks lives : List TickAdvance) (tick : TickAdvance) :
      LastCalls true true
        (replayedCalls ticks ++ .publish :: (liveCalls lives ++ [.advance tick false, .finish]))
  | unpublished (ticks lives : List TickAdvance) (tick : TickAdvance) :
      LastCalls true true
        (replayedCalls ticks ++ .publish ::
          (liveCalls lives ++ [.advance tick true, .publish, .finish]))

variable {σ : Type} [SessionSimulation σ]

namespace Traced

variable {advance : TickAdvance} {traced next : Traced σ}

/-- A tick that is applied adds one call, which tells that it was. -/
theorem hooks_advance_ok {executed : Traced σ}
    (executes : SessionSimulation.advance advance traced = .ok () executed) :
    executed.hooks = traced.hooks ++
      [.advance advance (decide (currentTick executed = advance.tick))] := by
  have called : Ensures (SessionSimulation.advance advance) traced
      (fun _ next => next.hooks = traced.hooks ++
        [.advance advance (decide (currentTick next = advance.tick))]) (fun _ _ => True) := by
    refine (ensures_call _ _ traced _ _).mpr ((ensures_self _ _).mono ?_ ?_)
    · intro _ sim _
      by_cases ends : currentTick sim = advance.tick
      · simp [Except.isOk, Except.toBool, ends, currentTick]
      · simp [Except.isOk, Except.toBool, ends, currentTick]
    · intro _ _ _
      trivial
  have outcome := ensures_of_ok called executes
  exact outcome

/-- One that is refused adds a call, which tells that it was not. -/
theorem hooks_advance_error {error : SessionError} {executed : Traced σ}
    (fails : SessionSimulation.advance advance traced = .error error executed) :
    executed.hooks = traced.hooks ++ [.advance advance false] := by
  have called : Ensures (SessionSimulation.advance advance) traced (fun _ _ => True)
      (fun _ next => next.hooks = traced.hooks ++ [.advance advance false]) := by
    refine (ensures_call _ _ traced _ _).mpr ((ensures_self _ _).mono ?_ ?_)
    · intro _ _ _
      trivial
    · intro _ _ _
      rfl
  have outcome := ensures_of_error called fails
  exact outcome

/-- A publication adds one call, whether it fails or not. -/
theorem ensures_publish_hooks (traced : Traced σ) :
    Ensures SessionSimulation.publish traced
      (fun _ next => next.hooks = traced.hooks ++ [.publish])
      (fun _ next => next.hooks = traced.hooks ++ [.publish]) := by
  refine (ensures_call _ _ traced _ _).mpr ((ensures_self _ _).mono ?_ ?_)
  · intro _ _ _
    rfl
  · intro _ _ _
    rfl

/-- Creating the game calls no hook. -/
theorem ensures_initializeWith_hooks (replayHeader : ReplayHeader) (traced : Traced σ) :
    Ensures (SessionSimulation.initializeWith replayHeader) traced
      (fun _ next => next.hooks = traced.hooks) (fun _ next => next.hooks = traced.hooks) := by
  refine (ensures_call _ _ traced _ _).mpr ((ensures_self _ _).mono ?_ ?_)
  · intro _ _ _
    exact List.append_nil _
  · intro _ _ _
    exact List.append_nil _

theorem hooks_finishTick (traced : Traced σ) :
    (finishTick traced).hooks = traced.hooks ++ [.finish] := rfl

/-- A replayed tick is advanced and finished. -/
theorem hooks_of_replayed (applies : TickApplied advance traced .replay next) :
    next.hooks = traced.hooks ++ replayedCalls [advance] := by
  cases applies with
  | replay _ executes ends =>
      rw [hooks_finishTick, hooks_advance_ok executes, ends, List.append_assoc, decide_eq_true rfl]
      rfl

/-- A live tick is advanced, published and finished. -/
theorem hooks_of_lived (applies : TickApplied advance traced .live next) :
    next.hooks = traced.hooks ++ liveCalls [advance] := by
  cases applies with
  | live _ executes ends publishes =>
      rw [hooks_finishTick, ensures_of_ok (ensures_publish_hooks _) publishes,
        hooks_advance_ok executes, ends, List.append_assoc, List.append_assoc, decide_eq_true rfl]
      rfl

/-- A tick that fails is finished, and published only if it was advanced to its number. One that
does not continue the current tick runs no call. -/
theorem hooks_of_rejected {phase : TickPhase} {error : SessionError}
    (rejects : TickRejected advance phase traced error next) :
    next = traced ∨ next.hooks = traced.hooks ++ [.advance advance false, .finish] ∨
      phase = .live ∧ next.hooks = traced.hooks ++ [.advance advance true, .publish, .finish] := by
  cases rejects with
  | gap => exact Or.inl rfl
  | refused _ fails =>
      right; left
      rw [hooks_finishTick, hooks_advance_error fails, List.append_assoc]
      rfl
  | misplaced _ executes ends =>
      right; left
      rw [hooks_finishTick, hooks_advance_ok executes, decide_eq_false ends, List.append_assoc]
      rfl
  | unpublished _ executes ends isLive fails =>
      right; right
      refine ⟨isLive, ?_⟩
      rw [hooks_finishTick, ensures_of_error (ensures_publish_hooks _) fails,
        hooks_advance_ok executes, ends, List.append_assoc, List.append_assoc, decide_eq_true rfl]
      rfl

end Traced

/-- The calls of a replay. -/
theorem Replays.hooks {sim last : Traced σ} {reader final : ReplayReader}
    {ticks : List TickAdvance} (path : Replays sim reader ticks last final) :
    last.hooks = sim.hooks ++ replayedCalls ticks := by
  induction path with
  | here => exact (List.append_nil _).symm
  | @tick _ _ _ _ _ _ advance rest _ applies _ ih =>
      have whole : replayedCalls (advance :: rest) = replayedCalls [advance] ++ replayedCalls rest :=
        replayedCalls_append [advance] rest
      rw [ih, Traced.hooks_of_replayed applies, whole, List.append_assoc]

/-- A replay that stops failed at one tick at most. -/
theorem ReplayStopped.hooks {replay next : Replay (Traced σ)} {error : SessionError}
    (stops : ReplayStopped replay error next) :
    next.sim.hooks = replay.sim.hooks ∨
      ∃ tick, next.sim.hooks = replay.sim.hooks ++ [.advance tick false, .finish] := by
  cases stops with
  | malformed => exact Or.inl rfl
  | gap => exact Or.inl rfl
  | unmirrored => exact Or.inl rfl
  | @rejected advance _ _ _ _ _ _ _ rejects =>
      rcases Traced.hooks_of_rejected rejects with same | failed | ⟨impossible, _⟩
      · exact Or.inl (by rw [same])
      · exact Or.inr ⟨advance, failed⟩
      · cases impossible

/-- The calls of a live loop. -/
theorem Lives.hooks {first last : Traced σ} {ticks : List TickAdvance}
    (lives : Lives first ticks last) : last.hooks = first.hooks ++ liveCalls ticks := by
  induction lives with
  | here => exact (List.append_nil _).symm
  | tick _ _ applies ih =>
      rw [Traced.hooks_of_lived applies, ih, liveCalls_append, List.append_assoc]

/-- A live loop that stops failed at one tick at most. -/
theorem Authority.IterationStopped.hooks {policy : DesyncPolicy}
    {authority next : Authority (Traced σ)} {input : TickInput} {error : SessionError}
    (stopped : IterationStopped policy authority input error next) :
    next.sim.hooks = authority.sim.hooks ∨
      (∃ tick, next.sim.hooks = authority.sim.hooks ++ [.advance tick false, .finish]) ∨
      ∃ tick, next.sim.hooks = authority.sim.hooks ++ [.advance tick true, .publish, .finish] := by
  have enters := same_entered authority input
  cases stopped with
  | network => exact Or.inl rfl
  | gathering _ same => exact Or.inl (by rw [same.sim])
  | @sequencing _ middle _ _ gathered fails =>
      have same := (enters.trans gathered.same).sim
      cases fails with
      | exhausted => exact Or.inl (by rw [same])
      | oversized => exact Or.inl (by rw [same])
      | unrecorded => exact Or.inl (by rw [← same])
      | rejected _ _ _ rejects =>
          rw [same] at rejects
          rcases Traced.hooks_of_rejected rejects with same | failed | ⟨_, failed⟩
          · exact Or.inl (by rw [← same])
          · exact Or.inr (Or.inl ⟨_, failed⟩)
          · exact Or.inr (Or.inr ⟨_, failed⟩)
  | @unflushed middle _ advance _ _ _ _ gathered sequences =>
      have applies := sequences.applies
      rw [(enters.trans gathered.same).sim] at applies
      exact Or.inr (Or.inr ⟨advance, Traced.hooks_of_lived applies⟩)

/-- The calls of a live loop, however it ends. -/
theorem Authority.ensures_tickLoop_hooks (policy : DesyncPolicy) (inputs : List TickInput)
    (start : Authority (Traced σ)) :
    Ensures (tickLoop policy inputs) start
      (fun _ next => ∃ lives, next.sim.hooks = start.sim.hooks ++ liveCalls lives)
      (fun _ next => ∃ lives last, next.sim.hooks = start.sim.hooks ++ (liveCalls lives ++ last) ∧
        (last = [] ∨ (∃ tick, last = [.advance tick false, .finish]) ∨
          ∃ tick, last = [.advance tick true, .publish, .finish])) := by
  apply (ensures_forEach (iteration policy) (fun current => ∃ ticks, Running start current ticks)
    (fun _ next => ∃ lives last, next.sim.hooks = start.sim.hooks ++ (liveCalls lives ++ last) ∧
        (last = [] ∨ (∃ tick, last = [.advance tick false, .finish]) ∨
          ∃ tick, last = [.advance tick true, .publish, .finish])) inputs _ start
    ⟨[], .refl start⟩).mono
  · intro _ next outcome
    obtain ⟨ticks, running⟩ := outcome
    exact ⟨ticks, running.lives.hooks⟩
  · intro _ _ stopped
    exact stopped
  · intro input _ current outcome
    obtain ⟨ticks, running⟩ := outcome
    apply (ensures_iteration policy input current).mono
    · intro _ next outcome
      obtain ⟨advance, iterated⟩ := outcome
      exact ⟨ticks ++ [advance], running.iterated iterated⟩
    · intro error next stopped
      have hooks := stopped.hooks
      rw [running.lives.hooks] at hooks
      rcases hooks with same | ⟨tick, failed⟩ | ⟨tick, failed⟩
      · exact ⟨ticks, [], by rw [same, List.append_nil], Or.inl rfl⟩
      · exact ⟨ticks, _, by rw [failed, List.append_assoc], Or.inr (Or.inl ⟨tick, rfl⟩)⟩
      · exact ⟨ticks, _, by rw [failed, List.append_assoc], Or.inr (Or.inr ⟨tick, rfl⟩)⟩

namespace ServerSession

/-- How far a session of an authority got, and what it called so far. -/
def Follows (calls : Bool → Bool → List Hook → Prop) (session : ServerSession (Traced σ)) : Prop :=
  calls session.participants.isSome (decide (session.status = .live)) session.sim.hooks

/-- A session that loads its save. -/
structure Loads (session : ServerSession (Traced σ)) (ticks : List TickAdvance) : Prop where
  unverified : session.participants = none
  hidden : session.status ≠ .live
  hooks : session.sim.hooks = replayedCalls ticks

omit [SessionSimulation σ] in
/-- A session that loads called for replayed ticks only. -/
theorem Loads.follows {session : ServerSession (Traced σ)} {ticks : List TickAdvance}
    (loads : Loads session ticks) : session.Follows Calls := by
  unfold Follows
  rw [loads.unverified, decide_eq_false loads.hidden, loads.hooks]
  exact .loading ticks

omit [SessionSimulation σ] in
theorem Loads.stops {session : ServerSession (Traced σ)} {ticks : List TickAdvance}
    (loads : Loads session ticks) : session.Follows LastCalls := .between loads.follows

omit [SessionSimulation σ] in
/-- Flushing the recording calls no hook. -/
theorem ensures_flush_loads {session : ServerSession (Traced σ)} {ticks : List TickAdvance}
    (loads : Loads session ticks) :
    Ensures flush session (fun _ next => Loads next ticks) (fun _ next => Loads next ticks) := by
  unfold flush
  rw [ensures_bind, ensures_get]
  cases session.writer with
  | none => exact loads
  | some writer =>
      dsimp only
      rw [ensures_zoom]
      apply (ensures_self _ writer).mono
      · intro _ _ _
        exact ⟨loads.unverified, loads.hidden, loads.hooks⟩
      · intro _ _ _
        exact ⟨loads.unverified, loads.hidden, loads.hooks⟩

/-- A pass of the loading loop replays ticks, of which the last one may fail. -/
theorem ensures_loadPass (input : LoadInput) {session : ServerSession (Traced σ)}
    {ticks : List TickAdvance} (loads : Loads session ticks) :
    Ensures (loadPass input) session (fun _ next => ∃ ticks, Loads next ticks)
      (fun _ next => next.Follows LastCalls) := by
  unfold loadPass
  rw [ensures_bind, ensures_ofExcept]
  constructor
  · intro _ _
    rw [ensures_bind, ensures_get]
    cases session.source with
    | none => exact ⟨ticks, loads⟩
    | some reader =>
        dsimp only
        rw [ensures_bind, ensures_zoom]
        apply (ensures_replayBatch input.passes _).mono
        · intro batch replay outcome
          obtain ⟨more, progress, _⟩ := outcome
          have hooks := progress.path.hooks
          rw [ensures_bind, ensures_get]
          have further (status : SessionStatus) (hidden : status ≠ .live) :
              Loads { session with
                sim := replay.sim, source := some replay.reader, writer := replay.mirror, status }
                (ticks ++ more) := by
            refine ⟨loads.unverified, hidden, ?_⟩
            rw [replayedCalls_append, ← loads.hooks]
            exact hooks
          by_cases due : input.progressDue = true
          · rw [if_pos due]
            exact ⟨_, further _ SessionStatus.noConfusion⟩
          · rw [if_neg due]
            exact ⟨_, further session.status loads.hidden⟩
        · intro error replay outcome
          obtain ⟨more, middle, progress, _, stops⟩ := outcome
          have hooks := progress.path.hooks
          dsimp only at hooks
          rw [loads.hooks, ← replayedCalls_append] at hooks
          unfold Follows
          dsimp only
          rw [loads.unverified, decide_eq_false loads.hidden]
          rcases stops.hooks with same | ⟨tick, failed⟩
          · rw [same, hooks]
            exact .between (.loading _)
          · rw [failed, hooks]
            exact .replay _ tick
  · intro _ _
    exact loads.stops

/-- Loading the save calls for replayed ticks, of which one that fails is finished and is the last.
-/
theorem ensures_load (inputs : List LoadInput) {session : ServerSession (Traced σ)}
    {ticks : List TickAdvance} (loads : Loads session ticks) :
    Ensures (load inputs) session (fun _ next => ∃ ticks, Loads next ticks)
      (fun _ next => next.Follows LastCalls) := by
  have loop (inputs : List LoadInput) (session : ServerSession (Traced σ))
      (loads : ∃ ticks, Loads session ticks) :
      Ensures (loadSave inputs) session (fun _ next => ∃ ticks, Loads next ticks)
        (fun _ next => next.Follows LastCalls) := by
    induction inputs generalizing session with
    | nil => exact loads
    | cons input later ih =>
        obtain ⟨ticks, loads⟩ := loads
        unfold loadSave
        rw [ensures_bind]
        apply (ensures_loadPass input loads).mono
        · intro finished next loads
          cases finished with
          | true => exact loads
          | false => exact ih next loads
        · intro _ _ stopped
          exact stopped
  unfold load
  rw [ensures_bind, ensures_get]
  cases session.source with
  | none => exact ⟨ticks, loads⟩
  | some reader =>
      dsimp only
      unfold publishStatus
      rw [ensures_bind, ensures_modify]
      exact loop inputs _ ⟨ticks, loads.unverified, SessionStatus.noConfusion, loads.hooks⟩

/-- Waiting for clients is not live. -/
theorem hidden_waitForStart (expected : Nat) (save : Bytes) (metadata : SaveMetadata)
    (inputs : List WaitInput) {waiting : Waiting} (hidden : waiting.status ≠ .live) :
    Ensures (waitForStart expected save metadata inputs) waiting
      (fun _ next => next.status ≠ .live) (fun _ next => next.status ≠ .live) := by
  have events (events : List ServerEvent) (now : Nat) (waiting : Waiting) :
      (events.foldl (Waiting.handleEvent expected now) waiting).status = waiting.status := by
    induction events generalizing waiting with
    | nil => rfl
    | cons event events ih =>
        rw [List.foldl_cons, ih]
        cases event with
        | clientConnected id =>
            by_cases room : waiting.peers.size < expected
            · rw [Waiting.handleEvent_connected now id room]
            · rw [Waiting.handleEvent_full now id room]
        | clientDisconnected id => rfl
  induction inputs generalizing waiting with
  | nil => exact hidden
  | cons input later ih =>
      have pass : Ensures (Waiting.pass expected save metadata input) waiting
          (fun _ next => next.status ≠ .live) (fun _ next => next.status ≠ .live) := by
        unfold Waiting.pass
        rw [ensures_bind]
        apply (ensures_failWith input.network waiting).mono
        · intro _ next outcome
          rw [outcome.2]
          simp only [ensures_bind, ensures_modify, ensures_ofExcept, ensures_get]
          constructor
          · intro _ _
            generalize Waiting.retain _ = served
            have shown : (served.publishReady expected).status ≠ .live :=
              SessionStatus.noConfusion
            by_cases all : (served.publishReady expected).ready = expected
            · rw [if_pos all]
              exact shown
            · rw [if_neg all]
              exact shown
          · intro _ _
            unfold Waiting.handleEvents
            rw [events]
            exact hidden
        · intro _ next failed
          rw [failed.2]
          exact hidden
      unfold waitForStart
      rw [ensures_bind]
      apply pass.mono
      · intro verified next hidden
        cases verified with
        | some verified => exact hidden
        | none => exact ih hidden
      · intro _ _ hidden
        exact hidden

/-- From the barrier on, a session publishes only once its clients are verified, and goes live
only once it has published. -/
theorem ensures_serve (config : ServerCfg) (save : Bytes) (metadata : SaveMetadata)
    (input : SessionInput) {session : ServerSession (Traced σ)} {ticks : List TickAdvance}
    (loads : Loads session ticks) :
    Ensures (serve config save metadata input) session (fun _ next => next.Follows Calls)
      (fun _ next => next.Follows LastCalls) := by
  unfold serve waitForParticipants
  simp only [ensures_bind, ensures_zoom]
  apply (hidden_waitForStart config.expectedClients save metadata input.wait loads.hidden).mono
  · intro verified waiting hidden
    simp only [ensures_modify, ensures_pure]
    have waits : Follows Calls { session with
        server := waiting.server, status := waiting.status, participants := verified } := by
      unfold Follows
      dsimp only
      rw [decide_eq_false hidden, loads.hooks]
      exact .loading ticks
    cases verified with
    | none =>
        rw [if_neg (by simp)]
        exact waits
    | some verified =>
        by_cases abandoned : input.abandoned = false
        · rw [if_pos ⟨rfl, abandoned⟩]
          unfold goLive live publishStatus
          simp only [ensures_bind, ensures_zoom, ensures_modify]
          apply (Traced.ensures_publish_hooks session.sim).mono
          · intro _ published hooks
            rw [loads.hooks] at hooks
            apply (Authority.ensures_tickLoop_hooks config.desyncPolicy input.ticks _).mono
            · intro _ authority outcome
              obtain ⟨lives, applied⟩ := outcome
              dsimp only at applied
              rw [hooks, List.append_assoc] at applied
              unfold Follows
              dsimp only
              rw [applied]
              exact .live ticks lives
            · intro _ authority outcome
              obtain ⟨lives, last, applied, ends⟩ := outcome
              dsimp only at applied
              rw [hooks, List.append_assoc] at applied
              unfold Follows
              dsimp only
              rw [applied]
              rcases ends with none | ⟨tick, failed⟩ | ⟨tick, failed⟩
              · rw [none, List.append_nil]
                exact .between (.live ticks lives)
              · rw [failed]
                exact .live ticks lives tick
              · rw [failed]
                exact .unpublished ticks lives tick
          · intro _ published hooks
            unfold Follows
            dsimp only
            rw [decide_eq_false hidden, hooks, loads.hooks]
            exact .start ticks
        · rw [if_neg fun both => abandoned both.2]
          exact waits
  · intro _ waiting hidden
    exact Loads.stops ⟨loads.unverified, hidden, loads.hooks⟩

/-- A session that loaded follows the order of calls to its end, on every exit. -/
theorem ensures_runSession (config : ServerCfg) (input : SessionInput)
    {session : ServerSession (Traced σ)} {ticks : List TickAdvance} (loads : Loads session ticks) :
    Ensures (runSession config input) session (fun _ next => next.Follows Calls)
      (fun _ next => next.Follows LastCalls) := by
  unfold runSession
  rw [ensures_bind]
  apply (ensures_load input.load loads).mono
  · intro loaded next outcome
    obtain ⟨ticks, loads⟩ := outcome
    by_cases proceeds : loaded = true ∧ input.cancelled = false
    · rw [if_pos proceeds, ensures_bind]
      apply (ensures_flush_loads loads).mono
      · intro _ flushed loads
        rw [ensures_bind]
        apply (ensures_readSave config input flushed).mono
        · intro save read outcome
          obtain ⟨same, _⟩ := outcome
          subst same
          rw [ensures_bind]
          apply (ensures_announce save read).mono
          · intro metadata next outcome
            obtain ⟨same, _⟩ := outcome
            subst same
            rw [ensures_bind]
            apply (ensures_failWith input.bound next).mono
            · intro _ bound outcome
              rw [outcome.2]
              exact ensures_serve config save metadata input loads
            · intro _ bound failed
              rw [failed.2]
              exact loads.stops
          · intro _ next same
            rw [same]
            exact loads.stops
        · intro _ next same
          rw [same]
          exact loads.stops
      · intro _ _ loads
        exact loads.stops
    · rw [if_neg proceeds]
      exact loads.follows
  · intro _ _ stopped
    exact stopped

omit [SessionSimulation σ] in
/-- Flushing calls nothing. -/
theorem ensures_flush_follows {calls : Bool → Bool → List Hook → Prop}
    {session : ServerSession (Traced σ)} (follows : session.Follows calls) :
    Ensures flush session (fun _ next => next.Follows calls) (fun _ next => next.Follows calls) := by
  unfold flush
  rw [ensures_bind, ensures_get]
  cases session.writer with
  | none => exact follows
  | some writer =>
      dsimp only
      rw [ensures_zoom]
      apply (ensures_self _ writer).mono
      · intro _ _ _
        exact follows
      · intro _ _ _
        exact follows

/-- Opening a session calls nothing. -/
theorem ensures_openSession_loads (config : ServerCfg) {session : ServerSession (Traced σ)}
    (loads : Loads session []) :
    Ensures (openSession config) session (fun _ next => Loads next [])
      (fun _ next => next.Follows LastCalls) := by
  apply (ensures_openSession config session).mono
  · intro _ next outcome
    obtain ⟨source, sim, writer, _, initializes, _, same⟩ := outcome
    subst same
    have hooks := ensures_of_ok (Traced.ensures_initializeWith_hooks _ session.sim) initializes
    exact ⟨loads.unverified, loads.hidden, Eq.trans hooks loads.hooks⟩
  · intro _ next outcome
    rcases outcome with same | ⟨source, sim, initializes, same⟩
    · rw [same]
      exact loads.stops
    · subst same initializes
      have hooks := (Traced.ensures_initializeWith_hooks (session.beginsWith source)
        session.sim).final
      exact Loads.stops ⟨loads.unverified, loads.hidden, Eq.trans hooks loads.hooks⟩

/-- The calls of an authority. -/
theorem ensures_runServer_calls (config : ServerCfg) (input : SessionInput) (sim : σ) :
    Ensures (runServer config input) ({ sim := { sim } } : ServerSession (Traced σ))
      (fun _ next => next.Follows Calls) (fun _ next => next.Follows LastCalls) := by
  have fresh : Loads ({ sim := { sim } } : ServerSession (Traced σ)) [] :=
    ⟨rfl, SessionStatus.noConfusion, rfl⟩
  unfold runServer
  rw [ensures_bind]
  apply (ensures_openSession_loads config fresh).mono
  · intro _ opened loads
    simp only [ensures_bind, ensures_attempt]
    apply (ensures_runSession config input loads).mono
    · intro _ ended follows
      apply (ensures_flush_follows follows).mono
      · intro _ next follows
        exact follows
      · intro _ next follows
        exact .between follows
    · intro _ ended follows
      apply (ensures_flush_follows follows).mono
      · intro _ next follows
        exact follows
      · intro _ next follows
        exact follows
  · intro _ _ stopped
    exact stopped

end ServerSession

omit [SessionSimulation σ] in
/-- The save leads no client past its start. -/
theorem ClientStartup.isLive_receiveSave (message : SaveMessage) (startup : ClientStartup) :
    Ensures (receiveSave message) startup (fun _ next => next.isLive = startup.isLive)
      (fun _ next => next.isLive = startup.isLive) := by
  have receiving {metadata : SaveMetadata} {bytes : Bytes} {received : UInt64}
      (accepts : Accepts startup message metadata bytes received) : startup.isLive = false := by
    unfold isLive
    cases accepts with
    | begin receiving => rw [receiving]
    | chunk receiving => rw [receiving]
  apply (ensures_receiveSave message startup).mono
  · intro _ next outcome
    obtain ⟨metadata, bytes, received, accepts, ⟨_, same⟩ | ⟨_, reader, _, same⟩⟩ := outcome
    · rw [same, receiving accepts]
      rfl
    · rw [same, receiving accepts]
      rfl
  · intro _ next outcome
    rcases outcome with ⟨_, same⟩ | ⟨metadata, bytes, received, accepts, _, _, same⟩
    · rw [same]
    · rw [same, receiving accepts]
      rfl

namespace Replica

/-- How far a replica got, and what it called so far. -/
def Follows (calls : Bool → Bool → List Hook → Prop) (replica : Replica (Traced σ)) : Prop :=
  calls replica.startup.isLive (decide (replica.status = .live)) replica.sim.hooks

/-- A replica between two messages: it is shown as live once its start is verified. -/
structure Between (replica : Replica (Traced σ)) : Prop where
  shown : decide (replica.status = .live) = replica.startup.isLive
  calls : Calls replica.startup.isLive replica.startup.isLive replica.sim.hooks

variable {replica next : Replica (Traced σ)}

omit [SessionSimulation σ] in
/-- Between two messages a replica follows the order of calls. -/
theorem Between.follows (between : Between replica) : replica.Follows Calls := by
  unfold Follows
  rw [between.shown]
  exact between.calls

omit [SessionSimulation σ] in
theorem Between.stops (between : Between replica) : replica.Follows LastCalls :=
  .between between.follows

omit [SessionSimulation σ] in
/-- What neither touches the simulation nor its start keeps a replica between two messages. -/
theorem Between.congr (between : Between replica)
    (live : next.startup.isLive = replica.startup.isLive) (sim : next.sim = replica.sim)
    (status : next.status = replica.status) : Between next where
  shown := by
    rw [live, status]
    exact between.shown
  calls := by
    rw [live, sim]
    exact between.calls

omit [SessionSimulation σ] in
/-- Loading, a replica only replayed ticks. -/
theorem Between.replayed (between : Between replica) (loading : replica.startup.isLive = false) :
    replica.status ≠ .live ∧ ∃ ticks, replica.sim.hooks = replayedCalls ticks := by
  obtain ⟨shown, calls⟩ := between
  rw [loading] at shown calls
  refine ⟨of_decide_eq_false shown, ?_⟩
  generalize replica.sim.hooks = hooks at calls
  cases calls with
  | loading ticks => exact ⟨ticks, rfl⟩

omit [SessionSimulation σ] in
/-- Live, a replica published after it replayed ticks, and applied ticks since. -/
theorem Between.lived (between : Between replica) (live : replica.startup.isLive = true) :
    decide (replica.status = .live) = true ∧ ∃ ticks lives,
      replica.sim.hooks = replayedCalls ticks ++ .publish :: liveCalls lives := by
  obtain ⟨shown, calls⟩ := between
  rw [live] at shown calls
  refine ⟨shown, ?_⟩
  generalize replica.sim.hooks = hooks at calls
  cases calls with
  | live ticks lives => exact ⟨ticks, lives, rfl⟩

omit [SessionSimulation σ] in
/-- A replica that called for replayed ticks only is between two messages. -/
theorem Between.of_replayed {ticks : List TickAdvance} (loading : replica.startup.isLive = false)
    (hidden : replica.status ≠ .live) (hooks : replica.sim.hooks = replayedCalls ticks) :
    Between replica := by
  refine ⟨?_, ?_⟩
  · rw [loading, decide_eq_false hidden]
  · rw [loading, hooks]
    exact .loading ticks

omit [SessionSimulation σ] in
/-- Receiving a message calls no hook. -/
theorem between_receiveMessage (channel : Channel) (between : Between replica) :
    Ensures (receiveMessage channel) replica (fun _ next => Between next ∧
      next.startup = replica.startup) (fun _ _ => False) := by
  cases incoming : replica.incoming channel with
  | nil =>
      rw [ensures_ok (receiveMessage_nil incoming)]
      exact ⟨between, rfl⟩
  | cons bytes later =>
      rw [ensures_ok (receiveMessage_cons incoming)]
      exact ⟨between.congr rfl rfl rfl, rfl⟩

omit [SessionSimulation σ] in
/-- Nor does forwarding commands. -/
theorem between_forwardInputs (input : ClientInput) (between : Between replica) :
    Ensures (forwardInputs input) replica (fun _ next => Between next)
      (fun _ next => Between next) := by
  unfold forwardInputs
  rw [ensures_bind, ensures_get, ensures_bind]
  apply (ensures_forEach _ Between (fun _ _ => False) _ _ replica between).mono
  · intro _ next between
    by_cases closed : input.inputClosed ∧ input.inputs.length < 256
    · rw [if_pos closed]
      exact between
    · rw [if_neg closed]
      exact between
  · intro _ _ impossible
    exact impossible.elim
  · intro payload _ next between
    by_cases live : replica.startup.isLive = true
    · rw [if_pos live]
      exact between.congr rfl rfl rfl
    · rw [if_neg live]
      exact between

omit [SessionSimulation σ] in
/-- Nor does receiving the save. -/
theorem between_receiveSaves (between : Between replica) :
    Ensures receiveSaves replica (fun _ next => Between next) (fun _ next => Between next) := by
  unfold receiveSaves
  rw [ensures_bind, ensures_get]
  apply ensures_forEach (fun _ => receiveSave) Between (fun _ next => Between next) _ _ replica
    between
  intro _ _ replica between
  unfold receiveSave
  rw [ensures_bind]
  apply (between_receiveMessage .save between).mono
  · intro received next outcome
    obtain ⟨between, _⟩ := outcome
    cases received with
    | none => exact between
    | some bytes =>
        dsimp only
        cases decodeSaveMessage bytes with
        | error error => exact between
        | ok message =>
            unfold onStartup
            rw [ensures_zoom]
            apply (ClientStartup.isLive_receiveSave message next.startup).mono
            · intro _ _ live
              exact between.congr live rfl rfl
            · intro _ _ live
              exact between.congr live rfl rfl
  · intro _ _ impossible
    exact impossible.elim

/-- Replaying the save, a replica calls what a replay does. -/
theorem between_stepStartup (passes : Nat) (between : Between replica) :
    Ensures (stepStartup passes) replica (fun _ next => Between next)
      (fun _ next => next.Follows LastCalls) := by
  by_cases replaying : ∃ metadata reader, replica.startup.phase = .replaying metadata reader
  · obtain ⟨metadata, reader, phase⟩ := replaying
    have loading : replica.startup.isLive = false := by
      rw [ClientStartup.isLive, phase]
    obtain ⟨hidden, ticks, hooks⟩ := between.replayed loading
    have begun {sim : Traced σ} (begins : ClientStartup.Begins replica.startup reader replica.sim sim) :
        sim.hooks = replayedCalls ticks := by
      cases begins with
      | again => exact hooks
      | first _ initializes =>
          have kept := ensures_of_ok
            (Traced.ensures_initializeWith_hooks reader.header replica.sim) initializes
          exact Eq.trans kept hooks
    have further {sim : Traced σ} {more : List TickAdvance} {replay : Replay (Traced σ)}
        (begins : ClientStartup.Begins replica.startup reader replica.sim sim)
        (progress : Progress { sim, reader } replay more) :
        replay.sim.hooks = replayedCalls (ticks ++ more) := by
      have path := progress.path.hooks
      dsimp only at path
      rw [path, begun begins, replayedCalls_append]
    apply (ensures_stepStartup passes phase).mono
    · intro _ next outcome
      obtain ⟨result, state, returns, same⟩ := outcome
      subst same
      cases returns with
      | more begins progress => exact .of_replayed rfl hidden (further begins progress)
      | ready begins progress =>
          exact .of_replayed rfl SessionStatus.noConfusion (further begins progress)
    · intro error next outcome
      obtain ⟨state, fails, same⟩ := outcome
      subst same
      cases fails with
      | uninitialized _ fails =>
          have kept := ensures_of_error
            (Traced.ensures_initializeWith_hooks reader.header replica.sim) fails
          apply Between.stops
          exact .of_replayed loading hidden (Eq.trans kept hooks)
      | exceeds begins progress =>
          apply Between.stops
          exact .of_replayed rfl hidden (further begins progress)
      | mismatch begins progress =>
          apply Between.stops
          exact .of_replayed rfl hidden (further begins progress)
      | stopped begins progress stops =>
          unfold Follows
          dsimp only
          rw [decide_eq_false hidden]
          rcases stops.hooks with same | ⟨tick, failed⟩
          · rw [same, further begins progress]
            exact .between (.loading _)
          · rw [failed, further begins progress]
            exact .replay _ tick
  · rw [ensures_ok (stepStartup_elsewhere passes fun metadata reader phase =>
      replaying ⟨metadata, reader, phase⟩)]
    exact between

/-- Loading goes on from one replayed tick to the next, or ends with one that failed. -/
theorem between_load (input : ClientInput) (between : Between replica) :
    Ensures (load input) replica (fun _ next => Between next)
      (fun _ next => next.Follows LastCalls) := by
  unfold load
  rw [ensures_bind]
  apply (between_receiveSaves between).mono
  · intro _ taken between
    rw [ensures_bind, ensures_ok (reportConsumption_eq taken)]
    have reported : Between (if taken.startup.progress.1 ≠ taken.reported.1 then taken.reporting
        else taken) := by
      by_cases news : taken.startup.progress.1 ≠ taken.reported.1
      · rw [if_pos news]
        exact between.congr rfl rfl rfl
      · rw [if_neg news]
        exact between
    rw [ensures_bind]
    apply (between_stepStartup input.passes reported).mono
    · intro _ stepped between
      rw [ensures_ok (reportLoading_eq input.progressDue stepped)]
      have startup : (if (stepped.startup.isLoading ∧ input.progressDue) ∧
          stepped.startup.progress ≠ stepped.reported then stepped.reporting
          else stepped).startup = stepped.startup := by
        by_cases news : (stepped.startup.isLoading ∧ input.progressDue) ∧
            stepped.startup.progress ≠ stepped.reported
        · rw [if_pos news]
          rfl
        · rw [if_neg news]
      have sim : (if (stepped.startup.isLoading ∧ input.progressDue) ∧
          stepped.startup.progress ≠ stepped.reported then stepped.reporting
          else stepped).sim = stepped.sim := by
        by_cases news : (stepped.startup.isLoading ∧ input.progressDue) ∧
            stepped.startup.progress ≠ stepped.reported
        · rw [if_pos news]
          rfl
        · rw [if_neg news]
      by_cases due : stepped.startup.isLoading = true ∧ input.progressDue = true
      · have loading : stepped.startup.isLive = false := by
          have loads := due.1
          unfold ClientStartup.isLoading at loads
          unfold ClientStartup.isLive
          cases phase : stepped.startup.phase with
          | receiving => rfl
          | replaying => rfl
          | awaitingStart => rfl
          | live =>
              rw [phase] at loads
              cases loads
          | failed => rfl
        obtain ⟨_, ticks, hooks⟩ := between.replayed loading
        apply Between.of_replayed
        · dsimp only
          rw [startup]
          exact loading
        · dsimp only
          rw [if_pos due]
          unfold loadingStatus
          by_cases none : stepped.startup.progress.2 = 0
          · rw [if_pos none]
            exact SessionStatus.noConfusion
          · rw [if_neg none]
            exact SessionStatus.noConfusion
        · dsimp only
          rw [sim]
          exact hooks
      · apply between.congr
        · exact congrArg ClientStartup.isLive startup
        · exact sim
        · exact if_neg due
    · intro _ _ stopped
      exact stopped
  · intro _ _ between
    exact between.stops

/-- A live replica calls what a live tick does. -/
theorem between_applyTick (advance : TickAdvance) (between : Between replica)
    (live : replica.startup.isLive = true) :
    Ensures (applyTick advance) replica (fun _ next => Between next)
      (fun _ next => next.Follows LastCalls) := by
  obtain ⟨shown, ticks, lives, hooks⟩ := between.lived live
  unfold applyTick
  rw [ensures_bind, ensures_zoom]
  apply (ensures_advanceTick advance .live replica.sim).mono
  · intro _ sim applies
    have advanced : sim.hooks =
        replayedCalls ticks ++ .publish :: liveCalls (lives ++ [advance]) := by
      rw [Traced.hooks_of_lived applies, hooks, liveCalls_append, List.append_assoc]
      rfl
    have between : Between { replica with sim } := by
      refine ⟨?_, ?_⟩
      · dsimp only
        rw [live, shown]
      · dsimp only
        rw [live, advanced]
        exact .live ticks (lives ++ [advance])
    rw [ensures_bind, ensures_get]
    by_cases due : advance.tick % hashInterval sim = 0
    · rw [if_pos due]
      exact between.congr rfl rfl rfl
    · rw [if_neg due]
      exact between
  · intro error sim rejects
    unfold Follows
    dsimp only
    rw [live, shown]
    rcases Traced.hooks_of_rejected rejects with same | failed | ⟨_, failed⟩
    · rw [same, hooks]
      exact .between (.live ticks lives)
    · rw [failed, hooks, List.append_assoc]
      exact .live ticks lives advance
    · rw [failed, hooks, List.append_assoc]
      exact .unpublished ticks lives advance

/-- A replica publishes once its start is verified, and then applies ticks. -/
theorem between_receiveServer (between : Between replica) :
    Ensures receiveServer replica (fun _ next => Between next)
      (fun _ next => next.Follows LastCalls) := by
  unfold receiveServer
  rw [ensures_bind]
  apply (between_receiveMessage .lockstep between).mono
  · intro received replica outcome
    obtain ⟨between, _⟩ := outcome
    cases received with
    | none => exact between
    | some bytes =>
        dsimp only
        cases decodeServerMessage bytes with
        | error error => exact between.stops
        | ok message =>
            cases message with
            | start tick hash =>
                dsimp only
                unfold startLive onStartup
                simp only [ensures_bind, ensures_zoom]
                apply (ClientStartup.ensures_start tick hash replica.startup).mono
                · intro _ startup outcome
                  obtain ⟨metadata, waits, _, _, same⟩ := outcome
                  subst same
                  have loading : replica.startup.isLive = false := by
                    rw [ClientStartup.isLive, waits]
                  obtain ⟨hidden, ticks, hooks⟩ := between.replayed loading
                  apply (Traced.ensures_publish_hooks replica.sim).mono
                  · intro _ published publishes
                    simp only [ensures_modify, ensures_pure]
                    refine ⟨rfl, ?_⟩
                    rw [publishes, hooks]
                    exact .live ticks []
                  · intro _ published publishes
                    unfold Follows
                    dsimp only
                    rw [decide_eq_false hidden, publishes, hooks]
                    exact .start ticks
                · intro _ startup outcome
                  rw [outcome.1]
                  exact between.stops
            | tick advance =>
                dsimp only
                rw [ensures_bind, ensures_get]
                cases live : replica.startup.isLive with
                | false =>
                    rw [if_neg Bool.false_ne_true]
                    exact between.stops
                | true =>
                    rw [if_pos rfl, ensures_bind]
                    apply (between_applyTick advance between live).mono
                    · intro _ next between
                      exact between
                    · intro _ next stopped
                      exact stopped
  · intro _ _ impossible
    exact impossible.elim

/-- Every message of the server leads from between two messages to between two messages, or to a
last call. -/
theorem between_receiveServers (passes : Nat) (between : Between replica) :
    Ensures (receiveServers passes) replica (fun _ next => Between next)
      (fun _ next => next.Follows LastCalls) := by
  induction passes generalizing replica with
  | zero => exact between
  | succ passes ih =>
      unfold receiveServers
      rw [ensures_bind]
      apply (between_receiveServer between).mono
      · intro more next between
        cases more with
        | true => exact ih between
        | false => exact between
      · intro _ _ stopped
        exact stopped

/-- So does a whole iteration. -/
theorem between_iteration (input : ClientInput) (between : Between replica) :
    Ensures (iteration input) replica (fun _ next => Between next)
      (fun _ next => next.Follows LastCalls) := by
  unfold iteration
  rw [ensures_bind]
  apply (ensures_failWith input.network replica).mono
  · intro _ started outcome
    obtain ⟨_, same⟩ := outcome
    subst same
    rw [ensures_bind]
    apply (between_forwardInputs input between).mono
    · intro _ forwarded between
      rw [ensures_bind]
      apply (between_load input between).mono
      · intro _ loaded between
        rw [ensures_bind]
        apply (between_receiveServers (min input.messages 128) between).mono
        · intro _ handled between
          rw [ensures_bind]
          apply (between_receiveMessage .desync between).mono
          · intro received polled outcome
            obtain ⟨between, _⟩ := outcome
            cases received with
            | some bytes => exact between.stops
            | none =>
                dsimp only
                apply (ensures_failWith input.flush polled).mono
                · intro _ next outcome
                  rw [outcome.2]
                  exact between
                · intro _ next outcome
                  rw [outcome.2]
                  exact between.stops
          · intro _ _ impossible
            exact impossible.elim
        · intro _ _ stopped
          exact stopped
      · intro _ _ stopped
        exact stopped
    · intro _ _ between
      exact between.stops
  · intro _ next outcome
    rw [outcome.2]
    exact between.stops

/-- The calls of a replica, whatever arrives and however it ends. -/
theorem ensures_clientLoop_calls (passes : List (List (Channel × Bytes) × ClientInput)) (sim : σ) :
    Ensures (clientLoop passes) ({ sim := { sim } } : Replica (Traced σ))
      (fun _ next => next.Follows Calls) (fun _ next => next.Follows LastCalls) := by
  have hooks : ({ sim := { sim } } : Replica (Traced σ)).sim.hooks = replayedCalls [] := rfl
  have fresh : Between ({ sim := { sim } } : Replica (Traced σ)) :=
    .of_replayed rfl SessionStatus.noConfusion hooks
  apply (ensures_forEach _ Between (fun _ next => next.Follows LastCalls) passes _ _ fresh).mono
  · intro _ next between
    exact between.follows
  · intro _ _ stopped
    exact stopped
  · intro pass _ current between
    rw [ensures_bind, ensures_modify]
    apply between_iteration pass.2
    exact between.congr rfl rfl rfl

end Replica

/-- The calls of a replay, with or without a recording. -/
theorem ensures_replayInto_calls (batches : List Nat) {replay : Replay (Traced σ)}
    (fresh : replay.sim.hooks = []) :
    Ensures (replayInto batches) replay (fun _ next => Calls false false next.sim.hooks)
      (fun _ next => LastCalls false false next.sim.hooks) := by
  apply (ensures_replayInto batches replay).mono
  · intro _ next outcome
    obtain ⟨ticks, progress, _⟩ := outcome
    rw [progress.path.hooks, fresh]
    exact .loading ticks
  · intro error next outcome
    obtain ⟨ticks, middle, progress, _, stops⟩ := outcome
    have hooks : middle.sim.hooks = replayedCalls ticks := by
      rw [progress.path.hooks, fresh]
      rfl
    rcases stops.hooks with same | ⟨tick, failed⟩
    · rw [same, hooks]
      exact .between (.loading ticks)
    · rw [failed, hooks]
      exact .replay ticks tick

/-- The calls of an offline replay. -/
theorem ensures_replaySave_calls (reader : ReplayReader) (batches : List Nat) (cancelled : Bool)
    (sim : σ) :
    Ensures (replaySave reader batches cancelled) ({ sim } : Traced σ)
      (fun _ next => Calls false false next.hooks)
      (fun _ next => LastCalls false false next.hooks) := by
  unfold replaySave
  rw [ensures_bind]
  apply (Traced.ensures_initializeWith_hooks reader.header ({ sim } : Traced σ)).mono
  · intro _ initialized fresh
    rw [ensures_bind, ensures_zoom]
    apply (ensures_replayInto_calls batches fresh).mono
    · intro _ replay calls
      rw [ensures_bind, ensures_get]
      exact calls
    · intro _ replay calls
      exact calls
  · intro _ next fresh
    rw [fresh]
    exact .between (.loading [])

/-- A tick that does not continue the current one runs no call at all. -/
theorem advanceTick_of_gap {σ : Type} [SessionSimulation σ] {advance : TickAdvance} {sim : σ}
    (phase : TickPhase) (discontinuous : checkedAdd (currentTick sim) 1 ≠ some advance.tick) :
    Ensures (advanceTick advance phase) sim (fun _ _ => False) (fun _ next => next = sim) := by
  apply (ensures_advanceTick advance phase sim).mono
  · intro _ _ applies
    cases applies with
    | replay continues => exact discontinuous continues
    | live continues => exact discontinuous continues
  · intro _ _ rejects
    cases rejects with
    | gap => rfl
    | refused continues => exact absurd continues discontinuous
    | misplaced continues => exact absurd continues discontinuous
    | unpublished continues => exact absurd continues discontinuous

/-- What may come after an advance: it is finished at once, or published and finished, and
nothing comes after one that failed. -/
inductive Concluded : Bool → List Hook → Prop
  | failed : Concluded false [.finish]
  | replayed (rest : List Hook) : Concluded true (.finish :: rest)
  | published (rest : List Hook) : Concluded true (.publish :: .finish :: rest)

/-- Every advance is concluded before the next call. -/
def Bracketed (hooks : List Hook) : Prop :=
  ∀ front tick applied rest, hooks = front ++ .advance tick applied :: rest → Concluded applied rest

namespace Bracketed

variable {rest : List Hook}

/-- Nothing is called. -/
theorem nil : Bracketed [] := by
  intro front _ _ _ split
  cases front with
  | nil => cases split
  | cons => cases split

/-- A publication may come first. -/
theorem publish (bracketed : Bracketed rest) : Bracketed (.publish :: rest) := by
  intro front tick applied later split
  cases front with
  | nil => cases split
  | cons first front =>
      obtain ⟨_, split⟩ := List.cons.inj split
      exact bracketed front tick applied later split

/-- So may the end of a tick. -/
theorem finish (bracketed : Bracketed rest) : Bracketed (.finish :: rest) := by
  intro front tick applied later split
  cases front with
  | nil => cases split
  | cons first front =>
      obtain ⟨_, split⟩ := List.cons.inj split
      exact bracketed front tick applied later split

/-- An advance that is concluded may come first. -/
theorem advance {tick : TickAdvance} {applied : Bool} (concludes : Concluded applied rest)
    (bracketed : Bracketed rest) : Bracketed (.advance tick applied :: rest) := by
  intro front tick applied later split
  cases front with
  | nil =>
      obtain ⟨same, after⟩ := List.cons.inj split
      cases same
      rw [← after]
      exact concludes
  | cons first front =>
      obtain ⟨_, split⟩ := List.cons.inj split
      exact bracketed front tick applied later split

/-- So may replayed ticks. -/
theorem replayed (ticks : List TickAdvance) (bracketed : Bracketed rest) :
    Bracketed (replayedCalls ticks ++ rest) := by
  induction ticks with
  | nil => exact bracketed
  | cons tick ticks ih => exact .advance (.replayed _) ih.finish

/-- So may live ones. -/
theorem lived (ticks : List TickAdvance) (bracketed : Bracketed rest) :
    Bracketed (liveCalls ticks ++ rest) := by
  induction ticks with
  | nil => exact bracketed
  | cons tick ticks ih => exact .advance (.published _) ih.finish.publish

/-- An advance that fails is finished, and nothing follows. -/
theorem failed (tick : TickAdvance) : Bracketed [.advance tick false, .finish] :=
  .advance .failed nil.finish

end Bracketed

/-- In the calls between two ticks every advance is concluded. -/
theorem Calls.bracketed {verified live : Bool} {hooks : List Hook}
    (calls : Calls verified live hooks) : Bracketed hooks := by
  cases calls with
  | loading ticks =>
      rw [← List.append_nil (replayedCalls ticks)]
      exact .replayed ticks .nil
  | live ticks lives =>
      rw [← List.append_nil (liveCalls lives)]
      exact .replayed ticks (Bracketed.lived lives .nil).publish

/-- In those of a session that failed it is, too. -/
theorem LastCalls.bracketed {verified live : Bool} {hooks : List Hook}
    (calls : LastCalls verified live hooks) : Bracketed hooks := by
  cases calls with
  | between calls => exact calls.bracketed
  | replay ticks tick => exact .replayed ticks (.failed tick)
  | start ticks => exact .replayed ticks Bracketed.nil.publish
  | live ticks lives tick => exact .replayed ticks (Bracketed.lived lives (.failed tick)).publish
  | unpublished ticks lives tick =>
      exact .replayed ticks
        (Bracketed.lived lives (.advance (.published []) Bracketed.nil.finish.publish)).publish

/-- However a session or a replay ends, the calls on its simulation are those of a replay, then,
once its start is verified, a publication, and then those of live ticks; only the last tick or
publication may have failed. So every advance is concluded before the next one. A tick that
does not continue the current one runs no call. -/
theorem hook_lifecycle (sim : σ) :
    (∀ (config : ServerCfg) (input : SessionInput),
      Ensures (ServerSession.runServer config input)
        ({ sim := { sim } } : ServerSession (Traced σ))
        (fun _ next => next.Follows Calls) (fun _ next => next.Follows LastCalls)) ∧
    (∀ passes : List (List (Channel × Bytes) × ClientInput),
      Ensures (Replica.clientLoop passes) ({ sim := { sim } } : Replica (Traced σ))
        (fun _ next => next.Follows Calls) (fun _ next => next.Follows LastCalls)) ∧
    (∀ (reader : ReplayReader) (mirror : Option ReplayWriter) (batches : List Nat),
      Ensures (replayInto batches) ({ sim := { sim }, reader, mirror } : Replay (Traced σ))
        (fun _ next => Calls false false next.sim.hooks)
        (fun _ next => LastCalls false false next.sim.hooks)) ∧
    (∀ (reader : ReplayReader) (batches : List Nat) (cancelled : Bool),
      Ensures (replaySave reader batches cancelled) ({ sim } : Traced σ)
        (fun _ next => Calls false false next.hooks)
        (fun _ next => LastCalls false false next.hooks)) ∧
    (∀ (traced : Traced σ) (advance : TickAdvance) (phase : TickPhase),
      checkedAdd (currentTick traced) 1 ≠ some advance.tick →
      Ensures (advanceTick advance phase) traced (fun _ _ => False)
        (fun _ next => next.hooks = traced.hooks)) ∧
    (∀ (verified live : Bool) (hooks : List Hook), LastCalls verified live hooks →
      Bracketed hooks) := by
  refine ⟨?_, ?_, ?_, ?_, ?_, ?_⟩
  · intro config input
    exact ServerSession.ensures_runServer_calls config input sim
  · intro passes
    exact Replica.ensures_clientLoop_calls passes sim
  · intro reader mirror batches
    exact ensures_replayInto_calls batches rfl
  · intro reader batches cancelled
    exact ensures_replaySave_calls reader batches cancelled sim
  · intro traced advance phase discontinuous
    apply (advanceTick_of_gap phase discontinuous).mono
    · intro _ _ impossible
      exact impossible
    · intro _ next same
      rw [same]
  · intro verified live hooks calls
    exact calls.bracketed

end Synctick
