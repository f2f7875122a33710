import Synctick.Server.Run

/-! # Verification of the participants

A participant is verified up to a tick by its own reports of the fingerprints that the
authority retains. Whatever is reported, what is verified only grows, rests on a right
report, and may not fall behind.
-/

namespace Synctick

open SessionSimulation Effect Std RenetServer

variable {σ : Type} [SessionSimulation σ]

/-- A saturating difference is that of the numbers. -/
theorem toNat_saturatingSub (first second : UInt64) :
    (saturatingSub first second).toNat = first.toNat - second.toNat := by
  unfold saturatingSub
  by_cases above : second ≤ first
  · rw [if_pos above, UInt64.toNat_sub_of_le _ _ above]
  · rw [if_neg above]
    have below := UInt64.le_iff_toNat_le.not.mp above
    change 0 = _
    omega

/-- A message reports a tick as the authority retains it. -/
def Confirms (sim : σ) (hashes : ExtTreeMap UInt64 UInt64) (tick : UInt64) (bytes : Bytes) : Prop :=
  ∃ hash, decodeDesyncHash bytes = .ok { tick, hash } ∧ hashes[tick]? = some hash ∧
    tick % hashInterval sim = 0 ∧ tick ≤ currentTick sim

/-- From one tick to another, a participant is verified by none or one of its messages. -/
def Advances (sim : σ) (hashes : ExtTreeMap UInt64 UInt64) (messages : List Bytes)
    (before after : UInt64) : Prop :=
  after = before ∨ before < after ∧ ∃ bytes ∈ messages, Confirms sim hashes after bytes

section

variable {sim : σ} {hashes : ExtTreeMap UInt64 UInt64} {messages : List Bytes}
  {before between after : UInt64}

/-- What was verified of a participant is never taken back. -/
theorem Advances.le (advances : Advances sim hashes messages before after) : before ≤ after := by
  rcases advances with same | ⟨later, _⟩
  · rw [same]
    exact UInt64.le_refl _
  · exact UInt64.le_of_lt later

/-- More messages may have been read. -/
theorem Advances.mono {more : List Bytes} (advances : Advances sim hashes messages before after)
    (among : ∀ bytes ∈ messages, bytes ∈ more) : Advances sim hashes more before after := by
  rcases advances with same | ⟨later, bytes, member, confirms⟩
  · exact Or.inl same
  · exact Or.inr ⟨later, bytes, among bytes member, confirms⟩

/-- Verifications in a row are one. -/
theorem Advances.trans (first : Advances sim hashes messages before between)
    (second : Advances sim hashes messages between after) :
    Advances sim hashes messages before after := by
  rcases second with same | ⟨later, confirmed⟩
  · rw [same]
    exact first
  · exact Or.inr ⟨UInt64.lt_of_le_of_lt first.le later, confirmed⟩

/-- A report that verifies confirms the tick that it verifies. -/
theorem confirms_of_verifyReport {id verified tick : UInt64} {bytes : Bytes}
    (verifies : Gathering.verifyReport sim hashes id verified bytes = .ok tick) :
    verified < tick ∧ Confirms sim hashes tick bytes := by
  obtain ⟨report, decodes, checks⟩ := except_bind_eq_ok.mp verifies
  unfold verifyHash at checks
  by_cases wrong : report.tick ≤ verified ∨ report.tick > currentTick sim ∨
      report.tick % hashInterval sim ≠ 0
  · rw [if_pos wrong] at checks
    cases checks
  · rw [if_neg wrong] at checks
    obtain ⟨new, past, multiple⟩ := not_or.mp wrong |>.imp_right not_or.mp
    cases retained : hashes[report.tick]? with
    | none =>
        rw [retained] at checks
        cases checks
    | some expected =>
        rw [retained] at checks
        dsimp only at checks
        by_cases differs : expected ≠ report.hash
        · rw [if_pos differs] at checks
          cases checks
        · rw [if_neg differs] at checks
          cases checks
          rw [not_not.mp differs] at retained
          refine ⟨UInt64.not_le.mp new, report.hash, ?_, retained, not_not.mp multiple,
            UInt64.not_lt.mp past⟩
          cases received : decodeDesyncHash bytes with
          | error error =>
              rw [received] at decodes
              cases decodes
          | ok other =>
              rw [received] at decodes
              cases decodes
              rfl

end

namespace Gathering

variable {sim : σ} {hashes : ExtTreeMap UInt64 UInt64} {start middle next : Gathering}
  {id : UInt64} {messages : List Bytes}

/-- What is verified changes for one participant only, by its messages. -/
structure VerifiesOne (sim : σ) (hashes : ExtTreeMap UInt64 UInt64) (start next : Gathering)
    (id : UInt64) (messages : List Bytes) : Prop where
  others : ∀ other, other ≠ id → next.verified[other]? = start.verified[other]?
  advances : ∀ before : UInt64, start.verified[id]? = some before →
    ∃ after, next.verified[id]? = some after ∧ Advances sim hashes messages before after
  unknown : start.verified[id]? = none → next.verified[id]? = none

/-- Where nothing was verified, nothing is to be justified. -/
theorem VerifiesOne.of_same (same : next.verified = start.verified) :
    VerifiesOne sim hashes start next id messages := by
  refine ⟨?_, ?_, ?_⟩
  · intro other _
    rw [same]
  · intro before known
    exact ⟨before, by rw [same, known], Or.inl rfl⟩
  · intro unknown
    rw [same, unknown]

/-- Two services of a client are one. -/
theorem VerifiesOne.trans (first : VerifiesOne sim hashes start middle id messages)
    (second : VerifiesOne sim hashes middle next id messages) :
    VerifiesOne sim hashes start next id messages := by
  refine ⟨?_, ?_, ?_⟩
  · intro other different
    rw [second.others other different, first.others other different]
  · intro before known
    obtain ⟨between, known', advances⟩ := first.advances before known
    obtain ⟨after, known'', advances'⟩ := second.advances between known'
    exact ⟨after, known'', advances.trans advances'⟩
  · intro unknown
    exact second.unknown (first.unknown unknown)

/-- More messages may have been pending. -/
theorem VerifiesOne.mono {more : List Bytes}
    (verifies : VerifiesOne sim hashes start next id messages)
    (among : ∀ bytes ∈ messages, bytes ∈ more) : VerifiesOne sim hashes start next id more := by
  refine ⟨verifies.others, ?_, verifies.unknown⟩
  intro before known
  obtain ⟨after, known', advances⟩ := verifies.advances before known
  exact ⟨after, known', advances.mono among⟩

/-- A report verifies its tick, or nothing. -/
theorem ensures_handleHashReport_verifies (sim : σ) (policy : DesyncPolicy)
    (hashes : ExtTreeMap UInt64 UInt64) (id : UInt64) (bytes : Bytes) (start : Gathering) :
    Ensures (handleHashReport sim policy hashes id bytes) start
      (fun _ next => VerifiesOne sim hashes start next id [bytes] ∧
        (next.server = start.server ∨ next.server = start.server.disconnect id))
      (fun _ next => VerifiesOne sim hashes start next id [bytes]) := by
  unfold handleHashReport
  rw [ensures_bind, ensures_get]
  cases known : start.verified[id]? with
  | none => exact ⟨.of_same rfl, Or.inl rfl⟩
  | some verified =>
      dsimp only
      cases verifies : verifyReport sim hashes id verified bytes with
      | ok tick =>
          obtain ⟨later, confirms⟩ := confirms_of_verifyReport verifies
          have now : (start.verified.insert id tick)[id]? = some tick :=
            ExtTreeMap.getElem?_insert_self
          refine ⟨⟨?_, ?_, ?_⟩, Or.inl rfl⟩
          · intro other different
            exact getElem?_insert_other _ _ different
          · intro before known'
            rw [known] at known'
            cases known'
            exact ⟨tick, now, Or.inr ⟨later, bytes, List.mem_singleton_self _, confirms⟩⟩
          · intro unknown
            rw [known] at unknown
            cases unknown
      | error error =>
          dsimp only
          by_cases fast : policy = .failFast ∧ error.isDesync = true
          · rw [if_pos fast]
            exact .of_same rfl
          · rw [if_neg fast]
            exact ⟨.of_same rfl, Or.inr rfl⟩

/-- A rejected report changes nothing that is verified. -/
theorem ensures_handleHashReport_rejected {policy : DesyncPolicy} {verified : UInt64}
    {bytes : Bytes} {error : SessionError} (known : start.verified[id]? = some verified)
    (rejects : verifyReport sim hashes id verified bytes = .error error) :
    Ensures (handleHashReport sim policy hashes id bytes) start
      (fun _ next => next.verified = start.verified)
      (fun _ next => next.verified = start.verified) := by
  unfold handleHashReport
  rw [ensures_bind, ensures_get, known]
  dsimp only
  rw [rejects]
  dsimp only
  by_cases fast : policy = .failFast ∧ error.isDesync = true
  · rw [if_pos fast]
    exact rfl
  · rw [if_neg fast]
    exact rfl

/-- Receiving the reports of a client verifies it by those, and nobody else. -/
theorem ensures_receiveReports_verifies (sim : σ) (policy : DesyncPolicy)
    (hashes : ExtTreeMap UInt64 UInt64) (id : UInt64) (passes : Nat) (start : Gathering) :
    Ensures (receiveReports sim policy hashes id passes) start
      (fun _ next => VerifiesOne sim hashes start next id (start.server.pending id .desync))
      (fun _ next => VerifiesOne sim hashes start next id (start.server.pending id .desync)) := by
  induction passes generalizing start with
  | zero => exact .of_same rfl
  | succ passes ih =>
      unfold receiveReports
      rw [ensures_bind]
      cases pending : start.server.pending id .desync with
      | nil =>
          rw [ensures_ok (receiveMessage_nil pending)]
          exact .of_same rfl
      | cons bytes later =>
          rw [ensures_ok (receiveMessage_cons pending)]
          dsimp only
          rw [ensures_bind]
          have left := pending_taking pending
          have takes : VerifiesOne sim hashes start (start.taking id .desync bytes) id
              (bytes :: later) := .of_same rfl
          have among : ∀ message ∈ [bytes], message ∈ bytes :: later := by
            intro message member
            rw [List.mem_singleton.mp member]
            exact List.mem_cons_self
          apply (ensures_handleHashReport_verifies sim policy hashes id bytes _).mono
          · intro _ middle handled
            obtain ⟨first, server⟩ := handled
            have fewer : ∀ message ∈ middle.server.pending id .desync, message ∈ bytes :: later := by
              intro message member
              rcases server with same | closed
              · rw [same, left] at member
                exact List.mem_cons_of_mem _ member
              · rw [closed, pending_disconnect] at member
                cases member
            apply (ih middle).mono
            · intro _ next rest
              exact (takes.trans (first.mono among)).trans (rest.mono fewer)
            · intro _ next rest
              exact (takes.trans (first.mono among)).trans (rest.mono fewer)
          · intro _ next failed
            exact takes.trans (failed.mono among)

/-- Nobody is connected whose state was not verified in time. -/
def Timely (sim : σ) (gathering : Gathering) (id : UInt64) : Prop :=
  ∀ verified : UInt64, gathering.verified[id]? = some verified →
    gathering.server.isConnected id = true →
    ¬ saturatingSub (currentTick sim) verified > hashInterval sim * 10

/-- A client that is still connected behind its deadline check is within the deadline. -/
theorem ensures_enforceVerificationDeadline_timely (sim : σ) (id : UInt64) (start : Gathering) :
    Ensures (enforceVerificationDeadline sim id) start
      (fun _ next => next.verified = start.verified ∧ Timely sim next id) (fun _ _ => False) := by
  unfold enforceVerificationDeadline
  rw [ensures_bind, ensures_get]
  cases known : start.verified[id]? with
  | none =>
      refine ⟨rfl, ?_⟩
      intro verified impossible
      rw [known] at impossible
      cases impossible
  | some verified =>
      dsimp only
      by_cases overdue : saturatingSub (currentTick sim) verified > hashInterval sim * 10
      · rw [if_pos overdue]
        refine ⟨rfl, ?_⟩
        intro _ _ connected
        rw [isConnected_disconnect] at connected
        cases connected
      · rw [if_neg overdue]
        refine ⟨rfl, ?_⟩
        intro verified' known' _
        rw [known] at known'
        cases known'
        exact overdue

/-- Servicing verifies by what the participant reported, and enforces the deadline. -/
theorem ensures_service_verifies (sim : σ) (policy : DesyncPolicy)
    (hashes : ExtTreeMap UInt64 UInt64) (id : UInt64) (start : Gathering) :
    Ensures (service sim policy hashes id) start
      (fun _ next => VerifiesOne sim hashes start next id (start.server.pending id .desync) ∧
        Timely sim next id)
      (fun _ next => VerifiesOne sim hashes start next id (start.server.pending id .desync)) := by
  unfold service
  rw [ensures_bind, ensures_get]
  by_cases known : start.verified[id]?.isSome = true
  · rw [if_pos known, ensures_bind]
    have commands := ensures_receiveCommands_server sim id
      (fun server => ∀ bytes ∈ server.pending id .desync, bytes ∈ start.server.pending id .desync)
      (by
        intro server bytes among
        rw [pending_take_other bytes Channel.noConfusion]
        exact among)
      (by
        intro server _ bytes impossible
        rw [pending_disconnect] at impossible
        cases impossible)
      (start.server.pending id .lockstep).length start (fun _ member => member)
    apply commands.mono
    · intro _ middle received
      obtain ⟨among, same⟩ := received
      have first : VerifiesOne sim hashes start middle id (start.server.pending id .desync) :=
        .of_same same
      rw [ensures_bind, ensures_get, ensures_bind]
      apply (ensures_receiveReports_verifies sim policy hashes id _ middle).mono
      · intro _ after reports
        apply (ensures_enforceVerificationDeadline_timely sim id after).mono
        · intro _ next deadline
          obtain ⟨kept, timely⟩ := deadline
          exact ⟨(first.trans (reports.mono among)).trans (.of_same kept), timely⟩
        · intro _ _ impossible
          exact impossible.elim
      · intro _ next reports
        exact first.trans (reports.mono among)
    · intro _ next failed
      exact .of_same failed.2
  · rw [if_neg known]
    refine ⟨.of_same rfl, ?_⟩
    intro verified impossible
    rw [impossible] at known
    exact (known rfl).elim

/-- What is verified changes by what the participants reported. -/
structure Verifies (sim : σ) (hashes : ExtTreeMap UInt64 UInt64) (start next : Gathering) : Prop where
  advances : ∀ id before : UInt64, start.verified[id]? = some before →
    ∃ after, next.verified[id]? = some after ∧
      Advances sim hashes (start.server.pending id .desync) before after
  unknown : ∀ id : UInt64, start.verified[id]? = none → next.verified[id]? = none

/-- The service of one client is a service of the clients. -/
theorem VerifiesOne.verifies
    (one : VerifiesOne sim hashes start next id (start.server.pending id .desync)) :
    Verifies sim hashes start next := by
  refine ⟨?_, ?_⟩
  · intro other before known
    by_cases same : other = id
    · subst same
      exact one.advances before known
    · exact ⟨before, by rw [one.others other same, known], Or.inl rfl⟩
  · intro other unknown
    by_cases same : other = id
    · subst same
      exact one.unknown unknown
    · rw [one.others other same, unknown]

/-- The deadline of a client depends on its own connection and verification only. -/
theorem Timely.congr (connections : next.server.connections id = middle.server.connections id)
    (verified : next.verified[id]? = middle.verified[id]?) (timely : Timely sim middle id) :
    Timely sim next id := by
  intro tick known connected
  rw [verified] at known
  rw [isConnected_congr connections] at connected
  exact timely tick known connected

/-- Where the first client was serviced, the others still have what they reported. -/
theorem Verifies.cons {clients : List UInt64} (fresh : id ∉ clients)
    (aside : Aside start middle id)
    (first : VerifiesOne sim hashes start middle id (start.server.pending id .desync))
    (outside : ∀ other : UInt64, other ∉ clients → next.verified[other]? = middle.verified[other]?)
    (rest : Verifies sim hashes middle next) : Verifies sim hashes start next := by
  refine ⟨?_, ?_⟩
  · intro other before known
    by_cases same : other = id
    · subst same
      rw [outside other fresh]
      exact first.advances before known
    · rw [← first.others other same] at known
      rw [← pending_congr (aside.others.connections other same)]
      exact rest.advances other before known
  · intro other unknown
    exact rest.unknown other (first.verifies.unknown other unknown)

/-- Servicing clients verifies by what they reported, and enforces their deadlines. -/
theorem ensures_services_verifies (sim : σ) (policy : DesyncPolicy)
    (hashes : ExtTreeMap UInt64 UInt64) (clients : List UInt64) (distinct : clients.Nodup)
    (start : Gathering) :
    Ensures (forEach (service sim policy hashes) clients) start
      (fun _ next => (∀ id : UInt64, id ∉ clients → next.verified[id]? = start.verified[id]?) ∧
        Verifies sim hashes start next ∧ ∀ id ∈ clients, Timely sim next id)
      (fun _ next => (∀ id : UInt64, id ∉ clients → next.verified[id]? = start.verified[id]?) ∧
        Verifies sim hashes start next) := by
  have unchanged : Verifies sim hashes start start :=
    ⟨fun _ before known => ⟨before, known, Or.inl rfl⟩, fun _ unknown => unknown⟩
  induction clients generalizing start with
  | nil =>
      refine ⟨fun _ _ => rfl, unchanged, ?_⟩
      intro id impossible
      cases impossible
  | cons id clients ih =>
      obtain ⟨fresh, distinct⟩ := List.nodup_cons.mp distinct
      unfold forEach
      rw [ensures_bind]
      apply ((ensures_service sim policy hashes id start).and
        (ensures_service_verifies sim policy hashes id start)).mono
      · intro _ middle serviced
        obtain ⟨⟨⟨aside, _⟩, _⟩, first, timely⟩ := serviced
        have around (next : Gathering)
            (outside : ∀ other : UInt64, other ∉ clients →
              next.verified[other]? = middle.verified[other]?) (other : UInt64)
            (absent : other ∉ id :: clients) : next.verified[other]? = start.verified[other]? := by
          obtain ⟨unequal, absent⟩ := not_or.mp (mt List.mem_cons.mpr absent)
          rw [outside other absent, first.others other unequal]
        have kept : Verifies sim hashes middle middle :=
          ⟨fun _ before known => ⟨before, known, Or.inl rfl⟩, fun _ unknown => unknown⟩
        apply ((ensures_services sim policy hashes clients distinct middle).and
          (ih distinct middle kept)).mono
        · intro _ next rest
          obtain ⟨services, outside, verifies, others⟩ := rest
          refine ⟨around next outside, .cons fresh aside first outside verifies, ?_⟩
          intro other member
          rcases List.mem_cons.mp member with same | later
          · subst same
            exact timely.congr (services.others other fresh).1 (outside other fresh)
          · exact others other later
        · intro _ next failed
          obtain ⟨_, outside, verifies⟩ := failed
          exact ⟨around next outside, .cons fresh aside first outside verifies⟩
      · intro _ next failed
        obtain ⟨_, first⟩ := failed
        refine ⟨?_, first.verifies⟩
        intro other absent
        exact first.others other (not_or.mp (mt List.mem_cons.mpr absent)).1

end Gathering

namespace Authority

open Gathering

/-- The clients of an authority are all that may be overdue. -/
theorem timely_of_clients {authority : Authority σ} {input : TickInput} {next : Gathering}
    (serviced : Serviced authority.server next.server)
    (verifies : Verifies authority.sim authority.hashes authority.gathering next)
    (timely : ∀ id ∈ authority.clients input, Timely authority.sim next id) (id : UInt64) :
    Timely authority.sim next id := by
  intro tick known connected
  cases before : authority.verified[id]? with
  | none =>
      have unknown := verifies.unknown id before
      rw [known] at unknown
      cases unknown
  | some earlier =>
      have listed := mem_clients input before (serviced.connected connected)
      exact timely id listed tick known connected

/-- Servicing the clients of an authority verifies by what they reported, and leaves nobody
connected who is overdue. -/
theorem ensures_clients_verifies (policy : DesyncPolicy) (input : TickInput)
    (authority : Authority σ) :
    Ensures (forEach (service authority.sim policy authority.hashes) (authority.clients input))
      authority.gathering
      (fun _ next => Verifies authority.sim authority.hashes authority.gathering next ∧
        ∀ id, Timely authority.sim next id)
      (fun _ next => Verifies authority.sim authority.hashes authority.gathering next) := by
  have distinct := authority.nodup_clients input
  apply ((ensures_services authority.sim policy authority.hashes _ distinct _).and
    (ensures_services_verifies authority.sim policy authority.hashes _ distinct _)).mono
  · intro _ next outcome
    obtain ⟨services, _, verifies, timely⟩ := outcome
    exact ⟨verifies, timely_of_clients services.serviced verifies timely⟩
  · intro _ next outcome
    exact outcome.2.2

/-- An iteration verifies by what was reported, and leaves nobody connected who is overdue. -/
theorem verifies_iteration {policy : DesyncPolicy} {authority next : Authority σ}
    {input : TickInput} (returns : iteration policy input authority = .ok () next) :
    Verifies authority.sim authority.hashes (authority.entered input).gathering next.gathering ∧
      ∀ id, Timely authority.sim next.gathering id := by
  have enters := same_entered authority input
  obtain ⟨middle, bytes, services, server, verified⟩ :=
    ensures_of_ok (ensures_iteration_services policy input authority) returns
  have clients := ensures_clients_verifies policy input (authority.entered input)
  rw [enters.sim, enters.hashes] at clients
  obtain ⟨verifies, timely⟩ := ensures_of_ok clients services
  refine ⟨⟨?_, ?_⟩, ?_⟩
  · change ∀ id before : UInt64, _ → ∃ after, next.verified[id]? = some after ∧ _
    rw [verified]
    exact verifies.advances
  · change ∀ id : UInt64, _ → next.verified[id]? = none
    rw [verified]
    exact verifies.unknown
  · intro id tick known connected
    change next.verified[id]? = some tick at known
    change next.server.isConnected id = true at connected
    rw [verified] at known
    rw [server, isConnected_broadcastMessage] at connected
    exact timely id tick known connected

end Authority

/-- The ticks that were completed, each with the fingerprint of the authority there. -/
def completed (steps : List (LiveStep σ)) : List (UInt64 × UInt64) :=
  steps.map fun step => (step.advance.tick, stateHash step.after.sim)

/-- The completed ticks that are multiples of an interval. -/
def checkpoints (interval : UInt64) (steps : List (LiveStep σ)) : List (UInt64 × UInt64) :=
  (completed steps).filter fun entry => entry.1 % interval = 0

omit [SessionSimulation σ] in
/-- All that a connection reported in the iterations of a run. -/
def reported (id : UInt64) (steps : List (LiveStep σ)) : List Bytes :=
  steps.flatMap fun step => step.entered.server.pending id .desync

/-- The retained fingerprints are those within ten intervals of the last one. -/
def Retains (interval : UInt64) (hashes : ExtTreeMap UInt64 UInt64)
    (checkpoints : List (UInt64 × UInt64)) : Prop :=
  ∀ tick hash : UInt64, hashes[tick]? = some hash ↔ (tick, hash) ∈ checkpoints ∧
    ∀ last ∈ checkpoints.getLast?, saturatingSub last.1 tick ≤ interval * 10

/-- Iterations complete their ticks in order. -/
theorem completed_append (front back : List (LiveStep σ)) :
    completed (front ++ back) = completed front ++ completed back := List.map_append

/-- Checkpoints come in the order of the iterations. -/
theorem checkpoints_append (interval : UInt64) (front back : List (LiveStep σ)) :
    checkpoints interval (front ++ back) = checkpoints interval front ++ checkpoints interval back := by
  unfold checkpoints
  rw [completed_append, List.filter_append]

omit [SessionSimulation σ] in
/-- So do the reports of a participant. -/
theorem reported_append (id : UInt64) (front back : List (LiveStep σ)) :
    reported id (front ++ back) = reported id front ++ reported id back := List.flatMap_append

/-- A later fingerprint is retained, and those that are too old by now are not. -/
theorem Retains.insert {interval tick hash : UInt64} {hashes : ExtTreeMap UInt64 UInt64}
    {checkpoints : List (UInt64 × UInt64)} (retains : Retains interval hashes checkpoints)
    (later : ∀ entry ∈ checkpoints, entry.1 < tick) :
    Retains interval
      (retainKeys (fun old => saturatingSub tick old ≤ interval * 10) (hashes.insert tick hash))
      (checkpoints ++ [(tick, hash)]) := by
  intro old value
  rw [List.getLast?_concat, getElem?_retainKeys]
  simp only [decide_eq_true_eq, Option.mem_def, Option.some.injEq, forall_eq', List.mem_append,
    List.mem_singleton, Prod.mk.injEq]
  by_cases within : saturatingSub tick old ≤ interval * 10
  · rw [if_pos within]
    by_cases same : old = tick
    · subst same
      have fresh : (old, value) ∉ checkpoints := by
        intro member
        exact UInt64.lt_irrefl old (later _ member)
      have now : (hashes.insert old hash)[old]? = some hash := ExtTreeMap.getElem?_insert_self
      rw [now]
      constructor
      · intro stored
        cases stored
        exact ⟨Or.inr ⟨rfl, rfl⟩, within⟩
      · rintro ⟨before | now, _⟩
        · exact (fresh before).elim
        · rw [now.2]
    · rw [getElem?_insert_other hashes hash same, retains old value]
      constructor
      · intro stored
        exact ⟨Or.inl stored.1, within⟩
      · rintro ⟨member | now, _⟩
        · refine ⟨member, ?_⟩
          intro last end'
          have earlier := later last (List.mem_of_getLast? end')
          have bound := UInt64.le_iff_toNat_le.mp within
          apply UInt64.le_iff_toNat_le.mpr
          rw [toNat_saturatingSub] at bound ⊢
          have order := UInt64.lt_iff_toNat_lt.mp earlier
          exact Nat.le_trans (Nat.sub_le_sub_right (Nat.le_of_lt order) _) bound
        · exact (same now.1).elim
  · rw [if_neg within]
    constructor
    · intro impossible
      cases impossible
    · intro kept
      exact (within kept.2).elim

namespace LiveRun

variable {policy : DesyncPolicy} {start current : Authority σ} {steps : List (LiveStep σ)}

/-- The completed ticks of a run lie after its start, up to the current tick. -/
theorem completed_bounds (steady : Steady σ) (run : LiveRun policy start steps current)
    {entry : UInt64 × UInt64} (member : entry ∈ completed steps) :
    currentTick start.sim < entry.1 ∧ entry.1 ≤ currentTick current.sim := by
  obtain ⟨step, among, same⟩ := List.mem_map.mp member
  rw [← same]
  exact (run.ticks_le steady).2 step among

/-- A live run retains the checkpoints within ten intervals of the last one, and nothing else. -/
theorem retains (steady : Steady σ) (begins : start.hashes = ∅)
    (run : LiveRun policy start steps current) :
    Retains (hashInterval start.sim) current.hashes
      (checkpoints (hashInterval start.sim) steps) := by
  induction run with
  | here =>
      intro tick hash
      rw [begins]
      constructor
      · intro impossible
        rw [ExtTreeMap.getElem?_empty] at impossible
        cases impossible
      · rintro ⟨impossible, _⟩
        cases impossible
  | @iteration steps current next input advance run returns iterated ih =>
      have interval : hashInterval next.sim = hashInterval start.sim :=
        (run.iteration returns iterated).interval steady
      have hashes := iterated.hashes
      unfold Authority.fingerprinted at hashes
      rw [interval] at hashes
      rw [checkpoints_append]
      by_cases multiple : advance.tick % hashInterval start.sim = 0
      · rw [if_pos multiple] at hashes
        have newest : checkpoints (hashInterval start.sim) [⟨current, input, advance, next⟩] =
            [(advance.tick, stateHash next.sim)] := by
          simp [checkpoints, completed, multiple]
        rw [hashes, newest]
        apply ih.insert
        intro entry member
        have bounds := run.completed_bounds steady (List.mem_filter.mp member).1
        have continues := toNat_of_checkedAdd iterated.sequenced.continues
        have below := UInt64.le_iff_toNat_le.mp bounds.2
        apply UInt64.lt_iff_toNat_lt.mpr
        omega
      · rw [if_neg multiple] at hashes
        have nothing : checkpoints (hashInterval start.sim) [⟨current, input, advance, next⟩] = [] := by
          simp [checkpoints, completed, multiple]
        rw [hashes, nothing, List.append_nil]
        exact ih

/-- In an iteration, a participant is verified further by its own messages only. -/
def Further (current : Authority σ) (input : TickInput) (next : Gathering) : Prop :=
  ∀ id after : UInt64, next.verified[id]? = some after →
    ∃ before, current.verified[id]? = some before ∧ Advances current.sim current.hashes
      ((current.entered input).server.pending id .desync) before after

/-- What servicing the clients verified, the iteration verified. -/
theorem further_of_verifies {input : TickInput} {next : Gathering}
    (verifies : Gathering.Verifies current.sim current.hashes (current.entered input).gathering
      next) : Further current input next := by
  intro id after known
  cases entered : (current.entered input).verified[id]? with
  | none =>
      have unknown := verifies.unknown id entered
      rw [known] at unknown
      cases unknown
  | some before =>
      obtain ⟨after', known', advances⟩ := verifies.advances id before entered
      rw [known] at known'
      cases known'
      exact ⟨before, Authority.verified_entered entered, advances⟩

/-- An iteration verifies a participant further only by a report of its own that was pending in it.
-/
theorem further_iteration {next : Authority σ} {input : TickInput}
    (returns : Authority.iteration policy input current = .ok () next) :
    Further current input next.gathering :=
  further_of_verifies (Authority.verifies_iteration returns).1

/-- What is verified of a participant was so at the start, or the participant reported it as
it was completed. -/
theorem verified_sound (steady : Steady σ) (begins : start.hashes = ∅)
    (run : LiveRun policy start steps current) {id tick : UInt64}
    (known : current.verified[id]? = some tick) :
    ∃ first, start.verified[id]? = some first ∧ (tick = first ∨ first < tick ∧
      ∃ hash, (tick, hash) ∈ checkpoints (hashInterval start.sim) steps ∧
        ∃ bytes ∈ reported id steps, decodeDesyncHash bytes = .ok { tick, hash }) := by
  induction run generalizing tick with
  | here => exact ⟨tick, known, Or.inl rfl⟩
  | @iteration steps current next input advance run returns iterated ih =>
      obtain ⟨before, known', advances⟩ := further_iteration returns _ _ known
      obtain ⟨first, initially, origin⟩ := ih known'
      refine ⟨first, initially, ?_⟩
      rcases advances with same | ⟨later, bytes, member, hash, decodes, retained, _⟩
      · subst same
        apply origin.imp_right
        intro reports
        obtain ⟨later, hash, completes, bytes, member, decodes⟩ := reports
        refine ⟨later, hash, ?_, bytes, ?_, decodes⟩
        · rw [checkpoints_append]
          exact List.mem_append_left _ completes
        · rw [reported_append]
          exact List.mem_append_left _ member
      · right
        refine ⟨?_, hash, ?_, bytes, ?_, decodes⟩
        · rcases origin with same | ⟨earlier, _⟩
          · rw [← same]
            exact later
          · exact UInt64.lt_trans earlier later
        · rw [checkpoints_append]
          exact List.mem_append_left _ ((run.retains steady begins tick hash).mp retained).1
        · rw [reported_append]
          refine List.mem_append_right _ (List.mem_flatMap.mpr ⟨_, List.mem_singleton_self _, ?_⟩)
          exact member

/-- What is verified of a participant never decreases. -/
theorem verified_mono (run : LiveRun policy start steps current) {id : UInt64}
    {step : LiveStep σ} (member : step ∈ steps) {after : UInt64}
    (known : step.after.verified[id]? = some after) :
    ∃ before, step.before.verified[id]? = some before ∧ before ≤ after := by
  induction run with
  | here => cases member
  | iteration run returns iterated ih =>
      rcases List.mem_append.mp member with earlier | last
      · exact ih earlier
      · cases List.mem_singleton.mp last
        obtain ⟨before, known', advances⟩ := further_iteration returns _ _ known
        exact ⟨before, known', advances.le⟩

end LiveRun

/-- What verification guarantees of a run of the live loop: the history is that of the
authority, what is verified rests on a right report and never decreases, and whatever comes
in the next iteration, nobody who is overdue stays connected. -/
structure Guarded (policy : DesyncPolicy) (start : Authority σ) (steps : List (LiveStep σ))
    (current : Authority σ) : Prop where
  history : Retains (hashInterval start.sim) current.hashes
    (checkpoints (hashInterval start.sim) steps)
  sound : ∀ id tick : UInt64, current.verified[id]? = some tick →
    ∃ first, start.verified[id]? = some first ∧ (tick = first ∨ first < tick ∧
      ∃ hash, (tick, hash) ∈ checkpoints (hashInterval start.sim) steps ∧
        ∃ bytes ∈ reported id steps, decodeDesyncHash bytes = .ok { tick, hash })
  mono : ∀ step ∈ steps, ∀ id after : UInt64, step.after.verified[id]? = some after →
    ∃ before, step.before.verified[id]? = some before ∧ before ≤ after
  servicing : ∀ input, Ensures
    (forEach (Gathering.service current.sim policy current.hashes)
      ((current.entered input).clients input)) (current.entered input).gathering
    (fun _ next => LiveRun.Further current input next ∧
      ∀ id tick : UInt64, next.verified[id]? = some tick → next.server.isConnected id = true →
        (currentTick current.sim).toNat - tick.toNat ≤ 10 * (hashInterval start.sim).toNat)
    (fun _ next => LiveRun.Further current input next)

/-- Verification is sound and cannot lapse, whatever is reported. -/
theorem verification_guards (steady : Steady σ) (policy : DesyncPolicy) (start : Authority σ)
    (begins : start.hashes = ∅) :
    (∀ inputs, Ensures (Authority.tickLoop policy inputs) start
      (fun _ next => ∃ steps, LiveRun policy start steps next ∧ steps.map LiveStep.input = inputs ∧
        Guarded policy start steps next)
      (fun error next => ∃ steps current input back, LiveRun policy start steps current ∧
        inputs = steps.map LiveStep.input ++ input :: back ∧ Guarded policy start steps current ∧
        Authority.IterationStopped policy current input error next)) ∧
    ∀ (sim : σ) (hashes : ExtTreeMap UInt64 UInt64) (id verified : UInt64) (bytes : Bytes)
      (gathering : Gathering) (error : SessionError), gathering.verified[id]? = some verified →
      Gathering.verifyReport sim hashes id verified bytes = .error error →
      Ensures (Gathering.handleHashReport sim policy hashes id bytes) gathering
        (fun _ next => next.verified = gathering.verified)
        (fun _ next => next.verified = gathering.verified) := by
  have guarded {steps : List (LiveStep σ)} {current : Authority σ}
      (run : LiveRun policy start steps current) : Guarded policy start steps current := by
    refine ⟨run.retains steady begins, ?_, ?_, ?_⟩
    · intro id tick known
      exact run.verified_sound steady begins known
    · intro step member id after known
      exact run.verified_mono member known
    · intro input
      have enters := Authority.same_entered current input
      have clients := Authority.ensures_clients_verifies policy input (current.entered input)
      rw [enters.sim, enters.hashes] at clients
      apply clients.mono
      · intro _ next outcome
        refine ⟨LiveRun.further_of_verifies outcome.1, ?_⟩
        intro id tick known connected
        have timely := UInt64.not_lt.mp (outcome.2 id tick known connected)
        have bound := UInt64.le_iff_toNat_le.mp timely
        rw [toNat_saturatingSub, run.interval steady, UInt64.toNat_mul] at bound
        apply Nat.le_trans bound
        apply Nat.le_trans (Nat.mod_le _ _)
        rw [Nat.mul_comm]
        exact Nat.le_refl _
      · intro _ next verifies
        exact LiveRun.further_of_verifies verifies
  constructor
  · intro inputs
    apply (ensures_tickLoop policy inputs start).mono
    · intro _ next outcome
      obtain ⟨steps, run, same⟩ := outcome
      exact ⟨steps, run, same, guarded run⟩
    · intro error next outcome
      obtain ⟨steps, current, input, back, run, split, stopped⟩ := outcome
      exact ⟨steps, current, input, back, run, split, guarded run, stopped⟩
  · intro sim hashes id verified bytes gathering error known rejects
    exact Gathering.ensures_handleHashReport_rejected known rejects

theorem verification_guards_attended : ∃ (next : Authority (Adapter tallyGame))
    (steps : List (LiveStep (Adapter tallyGame))),
    Authority.tickLoop .disconnect (attendedTicks ++ [attendedReporting]) attended = .ok () next ∧
    next.verified[(7 : UInt64)]? = some 30 ∧ next.hashes[(30 : UInt64)]? = some 5 ∧
    next.server.isConnected 7 = true ∧
    steps.map LiveStep.input = attendedTicks ++ [attendedReporting] ∧
    Guarded .disconnect attended steps next := by
  have goes : (Authority.tickLoop .disconnect (attendedTicks ++ [attendedReporting])).passes attended
      fun next => decide (next.verified[(7 : UInt64)]? = some 30 ∧
        next.hashes[(30 : UInt64)]? = some 5 ∧ next.server.isConnected 7 = true) := by
    decide +kernel
  obtain ⟨_, next, returns, holds⟩ := returns_of_passes goes
  obtain ⟨reaches, retains, connected⟩ := of_decide_eq_true holds
  obtain ⟨steps, _, same, guarded⟩ := ensures_of_ok
    ((verification_guards steady_tallyAdapter .disconnect attended rfl).1 _) returns
  exact ⟨next, steps, returns, reaches, retains, connected, same, guarded⟩

end Synctick
