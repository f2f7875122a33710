import Synctick.Client.Loop
import Synctick.Server.Verification

/-! # A participant whose state matches is never dropped for a wrong report

It reports the fingerprint of each checkpoint, in order and after the tick was broadcast,
with any delay. While it is connected, the authority still retains every checkpoint that
it has not reported, so that each report verifies.
-/

namespace Synctick

open SessionSimulation Effect Std RenetServer

/-- The report of a checkpoint. -/
def report (checkpoint : UInt64 × UInt64) : Bytes :=
  encode ({ tick := checkpoint.1, hash := checkpoint.2 } : DesyncHash)

/-- The last tick of some checkpoints that are reported after a first tick. -/
def latest (first : UInt64) (checkpoints : List (UInt64 × UInt64)) : UInt64 :=
  checkpoints.foldl (fun _ checkpoint => checkpoint.1) first

theorem latest_append (first : UInt64) (front back : List (UInt64 × UInt64)) :
    latest first (front ++ back) = latest (latest first front) back := List.foldl_append

theorem latest_cases (first : UInt64) (checkpoints : List (UInt64 × UInt64)) :
    latest first checkpoints = first ∨
      ∃ checkpoint ∈ checkpoints, latest first checkpoints = checkpoint.1 := by
  induction checkpoints generalizing first with
  | nil => exact Or.inl rfl
  | cons checkpoint checkpoints ih =>
      right
      rcases ih checkpoint.1 with same | ⟨other, member, same⟩
      · exact ⟨checkpoint, List.mem_cons_self, same⟩
      · exact ⟨other, List.mem_cons_of_mem _ member, same⟩

variable {σ : Type} [SessionSimulation σ]

namespace Gathering

variable {sim : σ} {hashes : ExtTreeMap UInt64 UInt64} {start : Gathering} {id : UInt64}

/-- A report of a retained checkpoint that is new verifies it. -/
theorem verifyReport_report {checkpoint : UInt64 × UInt64} {verified : UInt64}
    (new : verified < checkpoint.1) (past : checkpoint.1 ≤ currentTick sim)
    (multiple : checkpoint.1 % hashInterval sim = 0)
    (retained : hashes[checkpoint.1]? = some checkpoint.2) :
    verifyReport sim hashes id verified (report checkpoint) = .ok checkpoint.1 := by
  unfold verifyReport report
  rw [decodeDesyncHash_encode]
  change verifyHash id { tick := checkpoint.1, hash := checkpoint.2 } _ _ _ _ = _
  have right : ¬ (checkpoint.1 ≤ verified ∨ checkpoint.1 > currentTick sim ∨
      checkpoint.1 % hashInterval sim ≠ 0) := by
    rintro (old | future | other)
    · exact UInt64.not_le.mpr new old
    · exact UInt64.not_lt.mpr past future
    · exact other multiple
  unfold verifyHash
  dsimp only
  rw [if_neg right, retained]
  simp

/-- Reports of retained checkpoints verify them one after another. -/
theorem verifyReports_reports {checkpoints : List (UInt64 × UInt64)} {verified : UInt64}
    (increasing : checkpoints.Pairwise fun first second => first.1 < second.1)
    (retained : ∀ checkpoint ∈ checkpoints, verified < checkpoint.1 ∧
      checkpoint.1 ≤ currentTick sim ∧ checkpoint.1 % hashInterval sim = 0 ∧
      hashes[checkpoint.1]? = some checkpoint.2) :
    (checkpoints.map report).foldlM (verifyReport sim hashes id) verified =
      .ok (latest verified checkpoints) := by
  induction checkpoints generalizing verified with
  | nil => rfl
  | cons checkpoint checkpoints ih =>
      obtain ⟨later, increasing⟩ := List.pairwise_cons.mp increasing
      obtain ⟨new, past, multiple, there⟩ := retained checkpoint List.mem_cons_self
      rw [List.map_cons, List.foldlM_cons, verifyReport_report new past multiple there]
      apply ih increasing
      intro other member
      exact ⟨later other member, (retained other (List.mem_cons_of_mem _ member)).2⟩

/-- Reports that all verify are received without an error, and keep the participant. -/
theorem ensures_receiveReports_accepts (sim : σ) (policy : DesyncPolicy)
    (hashes : ExtTreeMap UInt64 UInt64) (id : UInt64) (passes : Nat) {start : Gathering}
    {verified last : UInt64} (known : start.verified[id]? = some verified)
    (accepts : (start.server.pending id .desync).foldlM (verifyReport sim hashes id) verified =
      .ok last) (enough : (start.server.pending id .desync).length ≤ passes) :
    Ensures (receiveReports sim policy hashes id passes) start
      (fun _ next => next.server.isConnected id = start.server.isConnected id ∧
        next.verified[id]? = some last)
      (fun _ _ => False) := by
  induction passes generalizing start verified with
  | zero =>
      rw [List.length_eq_zero_iff.mp (Nat.le_zero.mp enough)] at accepts
      cases accepts
      exact ⟨rfl, known⟩
  | succ passes ih =>
      unfold receiveReports
      rw [ensures_bind]
      cases pending : start.server.pending id .desync with
      | nil =>
          rw [pending] at accepts
          cases accepts
          rw [ensures_ok (receiveMessage_nil pending)]
          exact ⟨rfl, known⟩
      | cons bytes later =>
          rw [ensures_ok (receiveMessage_cons pending)]
          dsimp only
          rw [ensures_bind]
          rw [pending, List.foldlM_cons] at accepts
          rw [pending] at enough
          obtain ⟨tick, verifies, rest⟩ := except_bind_eq_ok.mp accepts
          unfold handleHashReport
          have known' : (start.taking id .desync bytes).verified[id]? = some verified := known
          rw [ensures_bind, ensures_get, known']
          dsimp only
          rw [verifies]
          dsimp only
          rw [ensures_set]
          have left := pending_taking pending
          have connected : (start.taking id .desync bytes).server.isConnected id =
              start.server.isConnected id := isConnected_take _ _
          have others (middle : Gathering)
              (server : middle.server = (start.taking id .desync bytes).server)
              (now : middle.verified[id]? = some tick) :
              Ensures (receiveReports sim policy hashes id passes) middle
                (fun _ next => next.server.isConnected id = start.server.isConnected id ∧
                  next.verified[id]? = some last)
                (fun _ _ => False) := by
            rw [← left, ← server] at rest
            rw [← left, ← server] at enough
            rw [← server] at connected
            apply (ih now rest (Nat.le_of_succ_le_succ enough)).mono
            · intro _ next outcome
              exact ⟨outcome.1.trans connected, outcome.2⟩
            · intro _ _ impossible
              exact impossible
          exact others _ rfl ExtTreeMap.getElem?_insert_self

/-- A participant whose reports all verify is only dropped for an invalid command, or when the
last one does not meet the deadline. -/
theorem ensures_service_accepts (sim : σ) (policy : DesyncPolicy)
    (hashes : ExtTreeMap UInt64 UInt64) (id : UInt64) {start : Gathering} {verified last : UInt64}
    (known : start.verified[id]? = some verified)
    (accepts : (start.server.pending id .desync).foldlM (verifyReport sim hashes id) verified =
      .ok last) :
    Ensures (service sim policy hashes id) start
      (fun _ next => (next.server.isConnected id = true ↔ start.server.isConnected id = true ∧
        (∀ bytes ∈ start.server.pending id .lockstep, Commands sim bytes) ∧
        ¬ saturatingSub (currentTick sim) last > hashInterval sim * 10) ∧
        (next.server.isConnected id = true → next.verified[id]? = some last))
      (fun error _ => error = budgetExceeded) := by
  have participant : start.verified[id]?.isSome = true := by
    rw [known]
    rfl
  unfold service
  rw [ensures_bind, ensures_get, if_pos participant, ensures_bind]
  have keeps := ensures_receiveCommands_server sim id
    (fun server => server.isConnected id = true →
      server.pending id .desync = start.server.pending id .desync)
    (by
      intro server bytes kept connected
      rw [isConnected_take] at connected
      rw [pending_take_other bytes Channel.noConfusion]
      exact kept connected)
    (by
      intro server _ impossible
      rw [isConnected_disconnect] at impossible
      cases impossible)
    (start.server.pending id .lockstep).length start (fun _ => rfl)
  apply (((ensures_receiveCommands sim id _ _ start rfl (Nat.le_refl _)).and
    (ensures_receiveCommands_drains sim id _ start (Nat.le_refl _))).and keeps).mono
  · intro _ middle outcome
    obtain ⟨⟨received, _, drained⟩, kept, same⟩ := outcome
    have known' : middle.verified[id]? = some verified := by
      rw [same]
      exact known
    have commands : middle.server.isConnected id = true ↔ start.server.isConnected id = true ∧
        ∀ bytes ∈ start.server.pending id .lockstep, Commands sim bytes := by
      constructor
      · intro connected
        refine ⟨received.aside.serviced.connected connected, drained.resolve_right ?_⟩
        rw [connected]
        exact Bool.noConfusion
      · rintro ⟨connected, valid⟩
        rw [(received.behaves valid).1]
        exact connected
    rw [ensures_bind, ensures_get, ensures_bind]
    cases opens : middle.server.isConnected id with
    | false =>
        rw [opens] at commands
        have nothing : (middle.server.pending id .desync).foldlM (verifyReport sim hashes id)
            verified = .ok verified := by
          rw [pending_of_disconnected opens]
          rfl
        apply (ensures_receiveReports_accepts sim policy hashes id _ known' nothing
          (Nat.le_refl _)).mono
        · intro _ after reports
          apply (ensures_enforceVerificationDeadline sim id after).mono
          · intro _ next deadline
            have closed : ¬ next.server.isConnected id = true := by
              intro connected
              have before := deadline.1.1.serviced.connected connected
              rw [reports.1, opens] at before
              cases before
            refine ⟨?_, fun impossible => (closed impossible).elim⟩
            constructor
            · intro impossible
              exact (closed impossible).elim
            · rintro ⟨connected, valid, _⟩
              cases commands.mpr ⟨connected, valid⟩
          · intro _ _ impossible
            exact impossible.elim
        · intro _ _ impossible
          exact impossible.elim
    | true =>
        rw [← kept opens] at accepts
        apply (ensures_receiveReports_accepts sim policy hashes id _ known' accepts
          (Nat.le_refl _)).mono
        · intro _ after reports
          obtain ⟨connected, known⟩ := reports
          rw [opens] at connected
          obtain ⟨connected', valid⟩ := commands.mp opens
          unfold enforceVerificationDeadline
          rw [ensures_bind, ensures_get, known]
          dsimp only
          by_cases overdue : saturatingSub (currentTick sim) last > hashInterval sim * 10
          · rw [if_pos overdue]
            have closed : (after.server.disconnect id).isConnected id = false :=
              isConnected_disconnect
            refine ⟨?_, fun _ => known⟩
            constructor
            · intro impossible
              cases closed.symm.trans impossible
            · intro impossible
              exact (impossible.2.2 overdue).elim
          · rw [if_neg overdue]
            exact ⟨⟨fun _ => ⟨connected', valid, overdue⟩, fun _ => connected⟩, fun _ => known⟩
        · intro _ _ impossible
          exact impossible.elim
  · intro error _ failed
    exact failed.1.1.1

end Gathering

/-- The completed ticks of a run increase. -/
theorem LiveRun.increasing {policy : DesyncPolicy} {start current : Authority σ}
    {steps : List (LiveStep σ)} (steady : Steady σ) (run : LiveRun policy start steps current) :
    (completed steps).Pairwise fun first second => first.1 < second.1 := by
  induction run with
  | here => exact .nil
  | iteration run returns iterated ih =>
      rw [completed_append]
      apply List.pairwise_append.mpr
      refine ⟨ih, List.pairwise_singleton _ _, ?_⟩
      intro earlier member last same
      rw [List.mem_singleton.mp same]
      have continues := toNat_of_checkedAdd iterated.sequenced.continues
      have bound := UInt64.le_iff_toNat_le.mp (run.completed_bounds steady member).2
      apply UInt64.lt_iff_toNat_lt.mpr
      dsimp only
      omega

/-- A participant whose state matches that of the authority: it is verified where it starts,
and then reports each checkpoint once, in order, and after it was broadcast. -/
structure ReportsCheckpoints (id : UInt64) (start : Authority σ) (steps : List (LiveStep σ))
    (input : TickInput) : Prop where
  enrolled : ∃ first, start.verified[id]? = some first ∧ first ≤ currentTick start.sim
  silent : start.server.pending id .desync = []
  earlier : ∀ front step back, steps = front ++ step :: back →
    delivered id .desync (front ++ [step]) <+:
      (checkpoints (hashInterval start.sim) front).map report
  coming : delivered id .desync steps ++ deliveries id .desync input.actions <+:
    (checkpoints (hashInterval start.sim) steps).map report

/-- Where such a participant is after some iterations: all that was delivered of it is
received, and verified it up to its last report, in time. -/
structure Reported (id first : UInt64) (start : Authority σ) (steps : List (LiveStep σ))
    (current : Authority σ) (verified : UInt64) : Prop where
  received : current.server.pending id .desync = []
  progress : ∃ processed rest, checkpoints (hashInterval start.sim) steps = processed ++ rest ∧
    delivered id .desync steps = processed.map report ∧ verified = latest first processed
  timely : steps ≠ [] → (currentTick current.sim).toNat - 1 - verified.toNat ≤
    (hashInterval start.sim * 10).toNat

section

variable {policy : DesyncPolicy} {start current : Authority σ} {steps : List (LiveStep σ)}
  {id first verified : UInt64}

/-- Every checkpoint that such a participant has yet to report is retained. -/
theorem Reported.retained (steady : Steady σ) (begins : start.hashes = ∅)
    (run : LiveRun policy start steps current)
    (reported : Reported id first start steps current verified) {checkpoint : UInt64 × UInt64}
    (member : checkpoint ∈ checkpoints (hashInterval start.sim) steps)
    (new : verified < checkpoint.1) : current.hashes[checkpoint.1]? = some checkpoint.2 := by
  apply (run.retains steady begins checkpoint.1 checkpoint.2).mpr
  refine ⟨member, ?_⟩
  intro last end'
  have some' : steps ≠ [] := by
    intro none
    subst none
    cases member
  have among := (List.mem_filter.mp (List.mem_of_getLast? end')).1
  -- The report is at least one tick past what is verified, as the current tick is past the
  -- one at which the deadline was enforced.
  have past := UInt64.le_iff_toNat_le.mp (run.completed_bounds steady among).2
  have timely := reported.timely some'
  have later := UInt64.lt_iff_toNat_lt.mp new
  apply UInt64.le_iff_toNat_le.mpr
  rw [toNat_saturatingSub]
  omega

/-- What arrives of such a participant are reports that all verify. -/
theorem Reported.accepts (steady : Steady σ) (begins : start.hashes = ∅)
    (run : LiveRun policy start steps current) (bounded : first ≤ currentTick start.sim)
    (reported : Reported id first start steps current verified) {input : TickInput}
    (coming : delivered id .desync steps ++ deliveries id .desync input.actions <+:
      (checkpoints (hashInterval start.sim) steps).map report)
    (known : (current.entered input).verified[id]? = some verified)
    (connected : (current.entered input).server.isConnected id = true) :
    ∃ processed arrived rest,
      checkpoints (hashInterval start.sim) steps = (processed ++ arrived) ++ rest ∧
      delivered id .desync steps ++ deliveries id .desync input.actions =
        (processed ++ arrived).map report ∧
      verified = latest first processed ∧
      ((current.entered input).server.pending id .desync).foldlM
        (Gathering.verifyReport current.sim current.hashes id) verified =
          .ok (latest verified arrived) := by
  obtain ⟨processed, rest, all, received, reaches⟩ := reported.progress
  rw [all, received, List.map_append] at coming
  have arrives := (List.prefix_append_right_inj _).mp coming
  have listed := List.prefix_iff_eq_take.mp arrives
  rw [← List.map_take] at listed
  generalize (deliveries id .desync input.actions).length = count at listed
  have split : checkpoints (hashInterval start.sim) steps =
      (processed ++ rest.take count) ++ rest.drop count := by
    rw [all, List.append_assoc, List.take_append_drop]
  have increasing := (run.increasing steady).filter fun entry => entry.1 % hashInterval start.sim = 0
  change (checkpoints (hashInterval start.sim) steps).Pairwise _ at increasing
  rw [split] at increasing
  obtain ⟨front, _, _⟩ := List.pairwise_append.mp increasing
  obtain ⟨_, sorted, across⟩ := List.pairwise_append.mp front
  refine ⟨processed, rest.take count, rest.drop count, split, ?_, reaches, ?_⟩
  · rw [received, listed, List.map_append]
  · rw [(Authority.pending_entered known connected .desync).2, reported.received, List.nil_append,
      listed]
    apply Gathering.verifyReports_reports sorted
    intro checkpoint member
    have among : checkpoint ∈ checkpoints (hashInterval start.sim) steps := by
      rw [split]
      exact List.mem_append_left _ (List.mem_append_right _ member)
    obtain ⟨done, multiple⟩ := List.mem_filter.mp among
    obtain ⟨above, past⟩ := run.completed_bounds steady done
    have new : verified < checkpoint.1 := by
      rw [reaches]
      rcases latest_cases first processed with same | ⟨earlier, before, same⟩
      · rw [same]
        exact UInt64.lt_of_le_of_lt bounded above
      · rw [same]
        exact across earlier before checkpoint member
    refine ⟨new, past, ?_, reported.retained steady begins run among new⟩
    rw [run.interval steady]
    exact of_decide_eq_true multiple

/-- An iteration after which such a participant is connected received what arrived of it. -/
theorem Reported.iterated (steady : Steady σ) (begins : start.hashes = ∅)
    (run : LiveRun policy start steps current) (bounded : first ≤ currentTick start.sim)
    (reported : ∀ verified : UInt64, current.verified[id]? = some verified →
      current.server.isConnected id = true → Reported id first start steps current verified)
    {input : TickInput} {advance : TickAdvance} {next : Authority σ}
    (coming : delivered id .desync steps ++ deliveries id .desync input.actions <+:
      (checkpoints (hashInterval start.sim) steps).map report)
    (returns : Authority.iteration policy input current = .ok () next)
    (iterated : Authority.Iterated current next input advance)
    (known : next.verified[id]? = some verified)
    (connected : next.server.isConnected id = true) :
    Reported id first start (steps ++ [⟨current, input, advance, next⟩]) next verified := by
  have timely := (Authority.verifies_iteration returns).2 id verified known connected
  obtain ⟨⟨earlier, before⟩, connected'⟩ :=
    Authority.participant_of_iteration returns known connected
  have participant := Authority.verified_entered before
  have opened := (Authority.pending_entered before connected' .desync).1
  obtain ⟨processed, arrived, rest, split, reports, reaches, accepts⟩ :=
    (reported earlier participant opened).accepts steady begins run bounded coming before
      connected'
  obtain ⟨middle, bytes, ⟨drained, last⟩, server, same⟩ :=
    Authority.iteration_of_service returns before connected'
      (fun gathering => gathering.server.pending id .desync = [] ∧
        (gathering.server.isConnected id = true →
          gathering.verified[id]? = some (latest earlier arrived)))
      (by
        intro before after connections verified held
        rw [pending_congr connections, isConnected_congr connections, verified]
        exact held)
      (by
        intro gathering connections known
        rw [← pending_congr connections] at accepts
        apply ((Gathering.ensures_service_accepts current.sim policy current.hashes id known
          accepts).and (Gathering.ensures_service_drains current.sim policy current.hashes id
            known)).mono
        · intro _ next outcome
          exact ⟨outcome.2.1.2, outcome.1.2⟩
        · intro _ _ _
          trivial)
  rw [server, isConnected_broadcastMessage] at connected
  have reached := last connected
  rw [← same, known] at reached
  cases reached
  refine ⟨?_, ⟨processed ++ arrived, rest ++ checkpoints (hashInterval start.sim)
    [⟨current, input, advance, next⟩], ?_, ?_, ?_⟩, ?_⟩
  · rw [server, pending_broadcastMessage]
    exact drained
  · rw [checkpoints_append, split, List.append_assoc]
  · rw [delivered_concat]
    exact reports
  · rw [latest_append, ← reaches]
  · intro _
    have bound := UInt64.le_iff_toNat_le.mp (UInt64.not_lt.mp timely)
    rw [toNat_saturatingSub, run.interval steady] at bound
    have continues := toNat_of_checkedAdd iterated.sequenced.continues
    have ended := steady.tick _ _ _ iterated.applies
    rw [ended]
    omega

/-- While such a participant is connected, it is where its reports have led. -/
theorem LiveRun.reported (steady : Steady σ) (begins : start.hashes = ∅)
    (run : LiveRun policy start steps current) (bounded : first ≤ currentTick start.sim)
    (enrolled : start.verified[id]? = some first)
    (silent : start.server.pending id .desync = [])
    (earlier : ∀ front step back, steps = front ++ step :: back →
      delivered id .desync (front ++ [step]) <+:
        (checkpoints (hashInterval start.sim) front).map report)
    {verified : UInt64} (known : current.verified[id]? = some verified)
    (connected : current.server.isConnected id = true) :
    Reported id first start steps current verified := by
  induction run generalizing verified with
  | here =>
      rw [enrolled] at known
      cases known
      exact ⟨silent, ⟨[], [], rfl, rfl, rfl⟩, fun impossible => (impossible rfl).elim⟩
  | @iteration steps current next input advance run returns iterated ih =>
      have coming := earlier steps _ [] rfl
      rw [delivered_concat] at coming
      apply Reported.iterated steady begins run bounded _ coming returns iterated known connected
      intro verified known connected
      apply ih _ known connected
      intro front step back split
      exact earlier front step (back ++ [⟨current, input, advance, next⟩]) (by simp [split])

end

/-- In every state of a run in which a participant whose state matches is still connected, all
of its reports verify, each checkpoint that it has yet to report is retained, and verification
drops it only if the last one does not meet the deadline. -/
theorem matching_reports_verify (steady : Steady σ) {policy : DesyncPolicy}
    {start current : Authority σ} {steps : List (LiveStep σ)} (begins : start.hashes = ∅)
    (run : LiveRun policy start steps current) {id : UInt64} {input : TickInput}
    (honest : ReportsCheckpoints id start steps input) {verified : UInt64}
    (known : (current.entered input).verified[id]? = some verified)
    (connected : (current.entered input).server.isConnected id = true) :
    (∀ front bytes back,
      (current.entered input).server.pending id .desync = front ++ bytes :: back →
      ∃ before tick, front.foldlM (Gathering.verifyReport current.sim current.hashes id) verified =
          .ok before ∧
        Gathering.verifyReport current.sim current.hashes id before bytes = .ok tick ∧
        before < tick ∧ Confirms current.sim current.hashes tick bytes) ∧
    (∀ checkpoint ∈ checkpoints (hashInterval start.sim) steps, verified < checkpoint.1 →
      current.hashes[checkpoint.1]? = some checkpoint.2) ∧
    ∃ last, ((current.entered input).server.pending id .desync).foldlM
        (Gathering.verifyReport current.sim current.hashes id) verified = .ok last ∧
      ∀ gathering : Gathering,
        gathering.server.connections id = (current.entered input).server.connections id →
        gathering.verified[id]? = some verified →
        Ensures (Gathering.service current.sim policy current.hashes id) gathering
          (fun _ next => next.server.isConnected id = true ↔
            (∀ bytes ∈ gathering.server.pending id .lockstep, Commands current.sim bytes) ∧
            ¬ saturatingSub (currentTick current.sim) last > hashInterval current.sim * 10)
          (fun error _ => error = budgetExceeded) := by
  obtain ⟨first, enrolled, bounded⟩ := honest.enrolled
  have participant := Authority.verified_entered known
  have opened := (Authority.pending_entered known connected .desync).1
  have reported := run.reported steady begins bounded enrolled honest.silent honest.earlier
    participant opened
  obtain ⟨_, arrived, _, _, _, _, accepts⟩ :=
    reported.accepts steady begins run bounded honest.coming known connected
  refine ⟨?_, ?_, latest verified arrived, accepts, ?_⟩
  · intro front bytes back pending
    rw [pending, List.foldlM_append] at accepts
    obtain ⟨before, reached, accepts⟩ := except_bind_eq_ok.mp accepts
    rw [List.foldlM_cons] at accepts
    obtain ⟨tick, verifies, _⟩ := except_bind_eq_ok.mp accepts
    exact ⟨before, tick, reached, verifies, confirms_of_verifyReport verifies⟩
  · intro checkpoint member new
    exact reported.retained steady begins run member new
  · intro gathering connections known'
    have pending := pending_congr connections .desync
    rw [← pending] at accepts
    rw [← isConnected_congr connections] at connected
    apply (Gathering.ensures_service_accepts current.sim policy current.hashes id known'
      accepts).mono
    · intro _ next outcome
      rw [outcome.1]
      exact ⟨fun kept => kept.2, fun kept => ⟨connected, kept⟩⟩
    · intro error _ same
      exact same

/-- The participant reports its checkpoint after thirty ticks. -/
theorem matching_reports_verify_attended : ∃ (steps : List (LiveStep (Adapter tallyGame)))
    (current : Authority (Adapter tallyGame)), LiveRun .disconnect attended steps current ∧
    checkpoints 30 steps = [(30, 5)] ∧
    (current.entered attendedReporting).server.pending 7 .desync = [report (30, 5)] ∧
    current.hashes[(30 : UInt64)]? = some 5 ∧
    (∃ tick, Gathering.verifyReport current.sim current.hashes 7 0 (report (30, 5)) = .ok tick ∧
      0 < tick ∧ Confirms current.sim current.hashes tick (report (30, 5))) ∧
    ∃ last, [report (30, 5)].foldlM (Gathering.verifyReport current.sim current.hashes 7) 0 =
      .ok last := by
  have goes : (LiveRun.perform .disconnect attendedTicks ([], attended)).any fun run =>
      decide (checkpoints 30 run.1 = [(30, 5)] ∧
        (∀ step ∈ run.1, deliveries 7 .desync step.input.actions = []) ∧
        (run.2.entered attendedReporting).server.pending 7 .desync = [report (30, 5)] ∧
        (run.2.entered attendedReporting).verified[(7 : UInt64)]? = some 0 ∧
        (run.2.entered attendedReporting).server.isConnected 7 = true) := by
    decide +kernel
  obtain ⟨⟨steps, current⟩, performs, holds⟩ := Option.any_eq_true _ _ |>.mp goes
  obtain ⟨completes, quiet, pending, known, connected⟩ := of_decide_eq_true holds
  have run : LiveRun .disconnect attended steps current := .of_perform .here performs
  have silent {some : List (LiveStep (Adapter tallyGame))} (among : some ⊆ steps) :
      delivered 7 .desync some = [] :=
    List.flatMap_eq_nil_iff.mpr fun step member => quiet step (among member)
  have honest : ReportsCheckpoints 7 attended steps attendedReporting := by
    refine ⟨⟨0, ExtTreeMap.getElem?_insert_self, UInt64.le_refl 0⟩, rfl, ?_, ?_⟩
    · intro front step back split
      rw [silent]
      · exact List.nil_prefix
      · rw [split]
        exact fun other member => List.append_cons front step back ▸ List.mem_append_left _ member
    · rw [silent (fun _ member => member)]
      change [attendedReport] <+: (checkpoints 30 steps).map report
      rw [completes]
      exact List.prefix_refl _
  obtain ⟨verifies, retained, last, accepts, _⟩ :=
    matching_reports_verify steady_tallyAdapter rfl run honest known connected
  obtain ⟨_, tick, same, verified, later⟩ := verifies [] (report (30, 5)) [] pending
  cases same
  rw [pending] at accepts
  have member : ((30, 5) : UInt64 × UInt64) ∈ checkpoints (hashInterval attended.sim) steps := by
    change (30, 5) ∈ checkpoints 30 steps
    rw [completes]
    exact List.mem_singleton_self _
  exact ⟨steps, current, run, completes, pending, retained _ member (by decide),
    ⟨tick, verified, later⟩, last, accepts⟩

end Synctick
