import Synctick.Server.Budget

/-! # What an authority gathers for a tick

Each participant adds the commands that it sent up to an invalid message, as long as
all commands fit the byte budget of a tick. What one participant sends changes nothing
for the others, and one that behaves stays connected.
-/

namespace Synctick

open SessionSimulation Effect Std RenetServer

section

variable {σ : Type} [SessionSimulation σ]

/-- The commands that messages contain, up to an invalid one. -/
def acceptedCommands (sim : σ) (id : UInt64) : List Bytes → List Command
  | [] => []
  | bytes :: later =>
      match decodeClientMessage bytes with
      | .ok (.input payload) =>
          match validateCommand sim payload.bytes with
          | .ok _ => { participant := .remote id, payload } :: acceptedCommands sim id later
          | .error _ => []
      | _ => []

/-- A message is a valid command. -/
def Commands (sim : σ) (bytes : Bytes) : Prop :=
  ∃ payload, decodeClientMessage bytes = .ok (.input payload) ∧
    validateCommand sim payload.bytes = .ok ()

/-- A participant sent only valid commands and right fingerprints, the last one in time. -/
structure Behaves (sim : σ) (hashes : ExtTreeMap UInt64 UInt64) (id verified : UInt64)
    (commands reports : List Bytes) : Prop where
  commands : ∀ bytes ∈ commands, Commands sim bytes
  reports : ∃ last, reports.foldlM (Gathering.verifyReport sim hashes id) verified = .ok last ∧
    ¬ saturatingSub (currentTick sim) last > hashInterval sim * 10

namespace Gathering

/-- What a participant adds to the tick. -/
def offered (sim : σ) (gathering : Gathering) (id : UInt64) : List Command :=
  if gathering.verified[id]?.isSome then acceptedCommands sim id (gathering.server.pending id .lockstep)
  else []

/-- What servicing one participant leaves alone. -/
structure Aside (start next : Gathering) (id : UInt64) : Prop where
  serviced : Serviced start.server next.server
  others : Others start.server next.server id
  verified : ∀ other, other ≠ id → next.verified[other]? = start.verified[other]?
  known : next.verified[id]?.isSome = start.verified[id]?.isSome

/-- The tick grew by valid commands, within its budget. -/
structure Grows (sim : σ) (start next : Gathering) (more : List Command) : Prop where
  inputs : next.inputs = start.inputs ++ more
  bytes : next.bytes = start.bytes + cost more
  valid : ∀ command ∈ more, validateCommand sim command.payload.bytes = .ok ()
  within : start.bytes ≤ maxReplayRecordBytes → next.bytes ≤ maxReplayRecordBytes

variable {sim : σ} {start middle next last : Gathering} {id : UInt64}

omit [SessionSimulation σ] in
theorem Aside.refl (start : Gathering) (id : UInt64) : Aside start start id :=
  ⟨.refl _, .refl _ _, fun _ _ => rfl, rfl⟩

omit [SessionSimulation σ] in
/-- What two services of a client leave alone, both leave alone. -/
theorem Aside.trans (first : Aside start middle id) (second : Aside middle next id) :
    Aside start next id where
  serviced := first.serviced.trans second.serviced
  others := first.others.trans second.others
  verified other different := (second.verified other different).trans (first.verified other different)
  known := second.known.trans first.known

theorem Grows.refl (sim : σ) (start : Gathering) : Grows sim start start [] :=
  ⟨(List.append_nil _).symm, rfl, fun _ impossible => (nomatch impossible), fun within => within⟩

/-- Commands that are gathered in two parts follow one another. -/
theorem Grows.trans {front back : List Command} (first : Grows sim start middle front)
    (second : Grows sim middle next back) : Grows sim start next (front ++ back) where
  inputs := by rw [second.inputs, first.inputs, List.append_assoc]
  bytes := by rw [second.bytes, first.bytes, cost_append, Nat.add_assoc]
  valid command member := (List.mem_append.mp member).elim (first.valid command) (second.valid command)
  within within := second.within (first.within within)

/-- A change of nothing but the server and what is verified adds no command. -/
theorem grows_nothing (inputs : next.inputs = start.inputs) (bytes : next.bytes = start.bytes) :
    Grows sim start next [] where
  inputs := by rw [inputs, List.append_nil]
  bytes := bytes
  valid _ impossible := nomatch impossible
  within within := by rw [bytes]; exact within

/-- A valid command is added, or it exceeds the budget. -/
theorem ensures_push (participant : ParticipantId) {payload : CommandPayload}
    (valid : validateCommand sim payload.bytes = .ok ()) (start : Gathering) :
    Ensures (push participant payload) start
      (fun _ next => next.server = start.server ∧ next.verified = start.verified ∧
        Grows sim start next [{ participant, payload }])
      (fun error next => error = budgetExceeded ∧ next = start ∧
        maxReplayRecordBytes < start.bytes + cost [{ participant, payload }]) := by
  have single : cost [{ participant, payload }] = payload.bytes.length + 32 := by
    rw [cost_cons, cost_nil, Nat.add_zero]
  unfold push
  rw [ensures_bind, ensures_get, ensures_bind, ensures_ofExcept, accountInput_eq, single,
    ← Nat.add_assoc]
  by_cases excess : start.bytes + payload.bytes.length + 32 > maxReplayRecordBytes
  · rw [if_pos excess]
    constructor
    · intro bytes impossible
      cases impossible
    · intro error same
      cases same
      exact ⟨rfl, rfl, excess⟩
  · rw [if_neg excess]
    constructor
    · intro bytes same
      cases same
      refine ⟨rfl, rfl, rfl, ?_, ?_, fun _ => Nat.le_of_not_lt excess⟩
      · rw [single, Nat.add_assoc]
      · intro command member
        cases List.mem_singleton.mp member
        exact valid
    · intro error impossible
      cases impossible

omit [SessionSimulation σ] in
/-- Nothing is received of a client that has nothing pending. -/
theorem receiveMessage_nil {channel : Channel} (empty : start.server.pending id channel = []) :
    receiveMessage id channel start = .ok none start := by
  apply eq_ok_of_ensures
  unfold receiveMessage RenetServer.receiveMessage
  rw [ensures_bind, ensures_get, empty]
  exact ⟨rfl, rfl⟩

/-- The gathering after a message was received. -/
def taking (start : Gathering) (id : UInt64) (channel : Channel) (bytes : Bytes) : Gathering :=
  { start with server := start.server.take id channel bytes }

/-- Otherwise its first message is taken. -/
theorem receiveMessage_cons {channel : Channel} {bytes : Bytes} {later : List Bytes}
    (first : start.server.pending id channel = bytes :: later) :
    receiveMessage id channel start = .ok (some bytes) (start.taking id channel bytes) := by
  apply eq_ok_of_ensures
  unfold receiveMessage RenetServer.receiveMessage
  rw [ensures_bind, ensures_get, first]
  exact ⟨rfl, rfl⟩

/-- Taking a message of a client concerns no other. -/
theorem aside_taking (start : Gathering) (id : UInt64) (channel : Channel) (bytes : Bytes) :
    Aside start (start.taking id channel bytes) id :=
  ⟨serviced_take _ _ _ _, others_alter _ _ _, fun _ _ => rfl, rfl⟩

/-- What is pending behind the first message stays. -/
theorem pending_taking {channel : Channel} {bytes : Bytes} {later : List Bytes}
    (first : start.server.pending id channel = bytes :: later) :
    (start.taking id channel bytes).server.pending id channel = later := by
  change (start.server.take id channel bytes).pending id channel = later
  rw [pending_take, first, List.tail_cons]

/-- Dropping a client concerns no other, and gathers nothing. -/
theorem ensures_disconnect (start : Gathering) (id : UInt64) :
    Ensures (disconnect id) start (fun _ next => Aside start next id ∧
      next = { start with server := start.server.disconnect id }) (fun _ _ => False) :=
  ⟨⟨serviced_disconnect _ _, others_alter _ _ _, fun _ _ => rfl, rfl⟩, rfl⟩

/-- How the commands of a participant are received. -/
structure Received (sim : σ) (start next : Gathering) (id : UInt64) (messages : List Bytes) :
    Prop where
  aside : Aside start next id
  verified : next.verified = start.verified
  grows : Grows sim start next (acceptedCommands sim id messages)
  behaves : (∀ bytes ∈ messages, Commands sim bytes) →
    next.server.isConnected id = start.server.isConnected id ∧
      next.server.pending id .desync = start.server.pending id .desync

/-- A message that is no valid command disconnects its participant. -/
theorem received_of_invalid {bytes : Bytes} {messages : List Bytes}
    (invalid : ¬ Commands sim bytes) (nothing : acceptedCommands sim id (bytes :: messages) = []) :
    Ensures (disconnect id) (start.taking id .lockstep bytes)
      (fun _ next => Received sim start next id (bytes :: messages))
      (fun error next => error = budgetExceeded ∧ Aside start next id ∧
        maxReplayRecordBytes < start.bytes + cost (acceptedCommands sim id (bytes :: messages))) := by
  apply (ensures_disconnect _ id).mono
  · intro _ next outcome
    obtain ⟨aside, same⟩ := outcome
    subst same
    refine ⟨(aside_taking start id _ bytes).trans aside, rfl, ?_, ?_⟩
    · rw [nothing]
      exact grows_nothing rfl rfl
    · intro behaves
      exact (invalid (behaves bytes List.mem_cons_self)).elim
  · intro _ _ impossible
    exact impossible.elim

/-- The commands of a client are gathered up to the first that is not valid, unless they exceed the
budget of the tick. -/
theorem ensures_receiveCommands (sim : σ) (id : UInt64) (messages : List Bytes) (passes : Nat)
    (start : Gathering) (pending : start.server.pending id .lockstep = messages)
    (enough : messages.length ≤ passes) :
    Ensures (receiveCommands sim id passes) start
      (fun _ next => Received sim start next id messages)
      (fun error next => error = budgetExceeded ∧ Aside start next id ∧
        maxReplayRecordBytes < start.bytes + cost (acceptedCommands sim id messages)) := by
  induction messages generalizing passes start with
  | nil =>
      have done : Received sim start start id [] :=
        ⟨.refl start id, rfl, .refl sim start, fun _ => ⟨rfl, rfl⟩⟩
      cases passes with
      | zero => exact done
      | succ passes =>
          unfold receiveCommands
          rw [ensures_bind, ensures_ok (receiveMessage_nil pending)]
          exact done
  | cons bytes later ih =>
      cases passes with
      | zero => cases enough
      | succ passes =>
          unfold receiveCommands
          rw [ensures_bind, ensures_ok (receiveMessage_cons pending)]
          dsimp only
          have takes := aside_taking start id .lockstep bytes
          cases decodes : decodeClientMessage bytes with
          | error error =>
              apply received_of_invalid
              · intro valid
                obtain ⟨payload, decodes', _⟩ := valid
                rw [decodes] at decodes'
                cases decodes'
              · simp only [acceptedCommands, decodes]
          | ok message =>
              cases message with
              | progress receivedBytes replayedTick =>
                  apply received_of_invalid
                  · intro valid
                    obtain ⟨payload, decodes', _⟩ := valid
                    rw [decodes] at decodes'
                    cases decodes'
                  · simp only [acceptedCommands, decodes]
              | ready tick hash =>
                  apply received_of_invalid
                  · intro valid
                    obtain ⟨payload, decodes', _⟩ := valid
                    rw [decodes] at decodes'
                    cases decodes'
                  · simp only [acceptedCommands, decodes]
              | input payload =>
                  dsimp only
                  cases valid : validateCommand sim payload.bytes with
                  | error error =>
                      apply received_of_invalid
                      · intro command
                        obtain ⟨payload', decodes', valid'⟩ := command
                        rw [decodes] at decodes'
                        cases decodes'
                        rw [valid] at valid'
                        cases valid'
                      · simp only [acceptedCommands, decodes, valid]
                  | ok _ =>
                      have first : acceptedCommands sim id (bytes :: later) =
                          [{ participant := .remote id, payload }] ++
                            acceptedCommands sim id later := by
                        simp only [acceptedCommands, decodes, valid]
                        rfl
                      dsimp only
                      rw [ensures_bind, first, cost_append]
                      apply (ensures_push (.remote id) valid _).mono
                      · intro _ middle pushed
                        obtain ⟨server, verified, grows⟩ := pushed
                        have left : middle.server.pending id .lockstep = later := by
                          rw [server]
                          exact pending_taking pending
                        have aside : Aside start middle id := by
                          refine takes.trans ⟨?_, ?_, fun _ _ => by rw [verified], by rw [verified]⟩
                          · rw [server]
                            exact .refl _
                          · rw [server]
                            exact .refl _ _
                        apply (ih passes middle left (Nat.le_of_succ_le_succ enough)).mono
                        · intro _ next received
                          refine ⟨aside.trans received.aside, received.verified.trans verified, ?_, ?_⟩
                          · have all := grows.trans received.grows
                            rw [first]
                            exact ⟨all.inputs, all.bytes, all.valid, all.within⟩
                          · intro behaves
                            obtain ⟨connected, reports⟩ := received.behaves fun message member =>
                              behaves message (List.mem_cons_of_mem _ member)
                            rw [connected, reports, server]
                            exact ⟨isConnected_take _ _,
                              pending_take_other bytes Channel.noConfusion⟩
                        · intro error next failed
                          obtain ⟨text, aside', excess⟩ := failed
                          refine ⟨text, aside.trans aside', ?_⟩
                          rw [grows.bytes, Nat.add_assoc] at excess
                          exact excess
                      · intro error next failed
                        obtain ⟨text, same, excess⟩ := failed
                        subst same
                        exact ⟨text, takes, Nat.lt_of_lt_of_le excess (by
                          rw [← Nat.add_assoc]
                          exact Nat.le_add_right _ _)⟩

/-- A report is checked; one that does not verify disconnects its participant. -/
theorem ensures_handleHashReport (sim : σ) (policy : DesyncPolicy)
    (hashes : ExtTreeMap UInt64 UInt64) (id : UInt64) (bytes : Bytes) (start : Gathering) :
    Ensures (handleHashReport sim policy hashes id bytes) start
      (fun _ next => (Aside start next id ∧ Grows sim start next []) ∧
        (next.server = start.server ∨ next.server = start.server.disconnect id) ∧
        ∀ verified tick, start.verified[id]? = some verified →
          verifyReport sim hashes id verified bytes = .ok tick →
            next.server = start.server ∧ next.verified[id]? = some tick)
      (fun error next => (policy = .failFast ∧ error.isDesync = true) ∧ Aside start next id) := by
  unfold handleHashReport
  rw [ensures_bind, ensures_get]
  cases known : start.verified[id]? with
  | none =>
      refine ⟨⟨.refl start id, .refl sim start⟩, Or.inl rfl, ?_⟩
      intro _ _ impossible
      cases impossible
  | some verified =>
      dsimp only
      cases verifies : verifyReport sim hashes id verified bytes with
      | ok tick =>
          have there : (start.verified.insert id tick)[id]? = some tick :=
            ExtTreeMap.getElem?_insert_self
          refine ⟨⟨⟨.refl _, .refl _ _, ?_, ?_⟩, grows_nothing rfl rfl⟩, Or.inl rfl, ?_⟩
          · intro other different
            exact getElem?_insert_other _ _ different
          · exact (congrArg Option.isSome there).trans (congrArg Option.isSome known).symm
          · intro verified' tick' known' verifies'
            cases known'
            rw [verifies] at verifies'
            cases verifies'
            exact ⟨rfl, there⟩
      | error error =>
          dsimp only
          by_cases fast : policy = .failFast ∧ error.isDesync = true
          · rw [if_pos fast]
            exact ⟨fast, .refl start id⟩
          · rw [if_neg fast]
            apply (ensures_disconnect start id).mono
            · intro _ next outcome
              obtain ⟨aside, same⟩ := outcome
              subst same
              refine ⟨⟨aside, grows_nothing rfl rfl⟩, Or.inr rfl, ?_⟩
              intro verified' tick same verifies'
              cases same
              rw [verifies] at verifies'
              cases verifies'
            · intro _ _ impossible
              exact impossible.elim

/-- Reports change nothing but what is verified, and right ones verify it. -/
theorem ensures_receiveReports (sim : σ) (policy : DesyncPolicy)
    (hashes : ExtTreeMap UInt64 UInt64) (id : UInt64) (passes : Nat) (start : Gathering)
    (enough : (start.server.pending id .desync).length ≤ passes) :
    Ensures (receiveReports sim policy hashes id passes) start
      (fun _ next => (Aside start next id ∧ Grows sim start next []) ∧
        ∀ verified last, start.verified[id]? = some verified →
          (start.server.pending id .desync).foldlM (verifyReport sim hashes id) verified = .ok last →
            next.server.isConnected id = start.server.isConnected id ∧
              next.verified[id]? = some last)
      (fun error next => (policy = .failFast ∧ error.isDesync = true) ∧ Aside start next id) := by
  induction passes generalizing start with
  | zero =>
      refine ⟨⟨.refl start id, .refl sim start⟩, ?_⟩
      intro verified last known verifies
      rw [List.length_eq_zero_iff.mp (Nat.le_zero.mp enough)] at verifies
      cases verifies
      exact ⟨rfl, known⟩
  | succ passes ih =>
      unfold receiveReports
      rw [ensures_bind]
      cases pending : start.server.pending id .desync with
      | nil =>
          rw [ensures_ok (receiveMessage_nil pending)]
          refine ⟨⟨.refl start id, .refl sim start⟩, ?_⟩
          intro verified last known verifies
          cases verifies
          exact ⟨rfl, known⟩
      | cons bytes later =>
          rw [ensures_ok (receiveMessage_cons pending)]
          dsimp only
          rw [ensures_bind]
          have takes := aside_taking start id .desync bytes
          have left := pending_taking pending
          rw [pending] at enough
          apply (ensures_handleHashReport sim policy hashes id bytes _).mono
          · intro _ middle handled
            obtain ⟨⟨aside, grows⟩, server, right⟩ := handled
            have fewer : (middle.server.pending id .desync).length ≤ passes := by
              rcases server with same | closed
              · rw [same, left]
                exact Nat.le_of_succ_le_succ enough
              · rw [closed, pending_disconnect]
                exact Nat.zero_le _
            apply (ih middle fewer).mono
            · intro _ next rest
              obtain ⟨⟨aside', grows'⟩, right'⟩ := rest
              have all := grows.trans grows'
              refine ⟨⟨(takes.trans aside).trans aside', all.inputs, all.bytes, all.valid,
                all.within⟩, ?_⟩
              intro verified last known verifies
              rw [List.foldlM_cons] at verifies
              obtain ⟨tick, first, others⟩ := except_bind_eq_ok.mp verifies
              obtain ⟨same, verified'⟩ := right verified tick known first
              rw [same, left] at right'
              obtain ⟨connected, last'⟩ := right' tick last verified' others
              exact ⟨connected.trans (isConnected_take _ _), last'⟩
            · intro error next failed
              exact ⟨failed.1, (takes.trans aside).trans failed.2⟩
          · intro error next failed
            exact ⟨failed.1, takes.trans failed.2⟩

/-- What a participant may bring about: that the tick exceeds its budget, or, where a
divergence is to end the session, that one is reported. -/
def Exceeds (policy : DesyncPolicy) (start : Gathering) (commands : List Command)
    (error : SessionError) : Prop :=
  error = budgetExceeded ∧ maxReplayRecordBytes < start.bytes + cost commands ∨
    policy = .failFast ∧ error.isDesync = true

/-- The deadline of a client concerns no other, and not one that is within it. -/
theorem ensures_enforceVerificationDeadline (sim : σ) (id : UInt64) (start : Gathering) :
    Ensures (enforceVerificationDeadline sim id) start
      (fun _ next => (Aside start next id ∧ Grows sim start next []) ∧
        ∀ verified, start.verified[id]? = some verified →
          ¬ saturatingSub (currentTick sim) verified > hashInterval sim * 10 → next = start)
      (fun _ _ => False) := by
  unfold enforceVerificationDeadline
  rw [ensures_bind, ensures_get]
  cases known : start.verified[id]? with
  | none => exact ⟨⟨.refl start id, .refl sim start⟩, fun _ _ _ => rfl⟩
  | some verified =>
      dsimp only
      by_cases overdue : saturatingSub (currentTick sim) verified > hashInterval sim * 10
      · rw [if_pos overdue]
        apply (ensures_disconnect start id).mono
        · intro _ next outcome
          obtain ⟨aside, same⟩ := outcome
          subst same
          refine ⟨⟨aside, grows_nothing rfl rfl⟩, ?_⟩
          intro verified' same timely
          cases same
          exact (timely overdue).elim
        · intro _ _ impossible
          exact impossible
      · rw [if_neg overdue]
        exact ⟨⟨.refl start id, .refl sim start⟩, fun _ _ _ => rfl⟩

/-- Servicing a participant adds what it offers, and keeps it if it behaves. -/
theorem ensures_service (sim : σ) (policy : DesyncPolicy) (hashes : ExtTreeMap UInt64 UInt64)
    (id : UInt64) (start : Gathering) :
    Ensures (service sim policy hashes id) start
      (fun _ next => (Aside start next id ∧ Grows sim start next (start.offered sim id)) ∧
        ∀ verified, start.verified[id]? = some verified →
          Behaves sim hashes id verified (start.server.pending id .lockstep)
            (start.server.pending id .desync) →
          next.server.isConnected id = start.server.isConnected id)
      (fun error next => Exceeds policy start (start.offered sim id) error ∧
        Aside start next id) := by
  unfold service
  rw [ensures_bind, ensures_get]
  by_cases known : start.verified[id]?.isSome = true
  · have offers : start.offered sim id =
        acceptedCommands sim id (start.server.pending id .lockstep) := if_pos known
    rw [if_pos known, offers, ensures_bind]
    apply (ensures_receiveCommands sim id _ _ start rfl (Nat.le_refl _)).mono
    · intro _ middle received
      rw [ensures_bind, ensures_get, ensures_bind]
      apply (ensures_receiveReports sim policy hashes id _ middle (Nat.le_refl _)).mono
      · intro _ after reports
        obtain ⟨⟨aside, grows⟩, right⟩ := reports
        apply (ensures_enforceVerificationDeadline sim id after).mono
        · intro _ next deadline
          obtain ⟨⟨aside', grows'⟩, timely⟩ := deadline
          refine ⟨⟨(received.aside.trans aside).trans aside', ?_⟩, ?_⟩
          · have all := (received.grows.trans grows).trans grows'
            rw [List.append_nil, List.append_nil] at all
            exact all
          · intro verified known behaves
            obtain ⟨connected, pending⟩ := received.behaves behaves.commands
            obtain ⟨last, verifies, inTime⟩ := behaves.reports
            rw [pending, received.verified] at right
            obtain ⟨connected', known'⟩ := right verified last known verifies
            rw [timely last known' inTime, connected', connected]
        · intro _ _ impossible
          exact impossible.elim
      · intro error next failed
        exact ⟨Or.inr failed.1, received.aside.trans failed.2⟩
    · intro error next failed
      exact ⟨Or.inl ⟨failed.1, failed.2.2⟩, failed.2.1⟩
  · have offers : start.offered sim id = [] := if_neg known
    rw [if_neg known, offers]
    refine ⟨⟨.refl start id, .refl sim start⟩, fun _ _ _ => rfl⟩

/-- How clients were serviced one after another. -/
structure Services (sim : σ) (hashes : ExtTreeMap UInt64 UInt64) (start next : Gathering)
    (clients : List UInt64) : Prop where
  serviced : Serviced start.server next.server
  others : ∀ id : UInt64, id ∉ clients → next.server.connections id = start.server.connections id ∧
    next.verified[id]? = start.verified[id]?
  known : ∀ id : UInt64, next.verified[id]?.isSome = start.verified[id]?.isSome
  grows : Grows sim start next (clients.flatMap (start.offered sim))
  spares : ∀ id ∈ clients, ∀ verified : UInt64, start.verified[id]? = some verified →
    Behaves sim hashes id verified (start.server.pending id .lockstep)
      (start.server.pending id .desync) →
    next.server.isConnected id = start.server.isConnected id

/-- What a client offers depends on its own connection and verification only. -/
theorem offered_congr (connections : middle.server.connections id = start.server.connections id)
    (verified : middle.verified[id]? = start.verified[id]?) :
    middle.offered sim id = start.offered sim id := by
  unfold offered
  rw [pending_congr connections, verified]

/-- Servicing the clients one after another gathers what they offer in that order, or exceeds the
budget with it. -/
theorem ensures_services (sim : σ) (policy : DesyncPolicy) (hashes : ExtTreeMap UInt64 UInt64)
    (clients : List UInt64) (distinct : clients.Nodup) (start : Gathering) :
    Ensures (forEach (service sim policy hashes) clients) start
      (fun _ next => Services sim hashes start next clients)
      (fun error next => Exceeds policy start (clients.flatMap (start.offered sim)) error ∧
        Serviced start.server next.server) := by
  induction clients generalizing start with
  | nil =>
      refine ⟨.refl _, fun _ _ => ⟨rfl, rfl⟩, fun _ => rfl, .refl sim start, ?_⟩
      intro id impossible
      cases impossible
  | cons id clients ih =>
      obtain ⟨fresh, distinct⟩ := List.nodup_cons.mp distinct
      unfold forEach
      rw [ensures_bind, List.flatMap_cons]
      apply (ensures_service sim policy hashes id start).mono
      · intro _ middle serviced
        obtain ⟨⟨aside, grows⟩, spares⟩ := serviced
        have different (other : UInt64) (member : other ∈ clients) : other ≠ id := by
          intro same
          subst same
          exact fresh member
        have offers : clients.flatMap (middle.offered sim) = clients.flatMap (start.offered sim) := by
          apply List.flatMap_congr
          intro other member
          exact offered_congr (aside.others.connections other (different other member))
            (aside.verified other (different other member))
        apply (ih distinct middle).mono
        · intro _ next rest
          refine ⟨aside.serviced.trans rest.serviced, ?_, ?_, ?_, ?_⟩
          · intro other outside
            obtain ⟨unequal, outside⟩ := not_or.mp (mt List.mem_cons.mpr outside)
            obtain ⟨connections, verified⟩ := rest.others other outside
            exact ⟨connections.trans (aside.others.connections other unequal),
              verified.trans (aside.verified other unequal)⟩
          · intro other
            rw [rest.known other]
            by_cases same : other = id
            · subst same
              exact aside.known
            · rw [aside.verified other same]
          · have all := grows.trans rest.grows
            rw [offers] at all
            exact all
          · intro other member verified known behaves
            rcases List.mem_cons.mp member with same | later
            · subst same
              rw [isConnected_congr (rest.others other fresh).1]
              exact spares verified known behaves
            · have connections := aside.others.connections other (different other later)
              rw [← isConnected_congr connections]
              apply rest.spares other later verified
              · rw [aside.verified other (different other later)]
                exact known
              · rw [pending_congr connections, pending_congr connections]
                exact behaves
        · intro error next failed
          obtain ⟨exceeds, serviced⟩ := failed
          refine ⟨?_, aside.serviced.trans serviced⟩
          rw [offers, Exceeds, grows.bytes, Nat.add_assoc, ← cost_append] at exceeds
          exact exceeds
      · intro error next failed
        obtain ⟨exceeds, aside⟩ := failed
        refine ⟨?_, aside.serviced⟩
        rcases exceeds with ⟨text, excess⟩ | fast
        · refine Or.inl ⟨text, Nat.lt_of_lt_of_le excess ?_⟩
          rw [cost_append, ← Nat.add_assoc]
          exact Nat.le_add_right _ _
        · exact Or.inr fast

/-- A command of the host. -/
def hosted (payload : CommandPayload) : Command := { participant := .host, payload }

/-- An input of the host must be valid and fit the budget. -/
theorem ensures_pushLocals (sim : σ) (payloads : List CommandPayload) (start : Gathering) :
    Ensures (forEach (pushLocal sim) payloads) start
      (fun _ next => (next.server = start.server ∧ next.verified = start.verified) ∧
        Grows sim start next (payloads.map hosted))
      (fun error next => next.server = start.server ∧ next.verified = start.verified ∧
        ((∃ payload ∈ payloads, validateCommand sim payload.bytes = .error error) ∨
          error = budgetExceeded ∧
            maxReplayRecordBytes < start.bytes + cost (payloads.map hosted))) := by
  induction payloads generalizing start with
  | nil => exact ⟨⟨rfl, rfl⟩, .refl sim start⟩
  | cons payload payloads ih =>
      unfold forEach pushLocal
      rw [ensures_bind, ensures_bind, ensures_ofExcept]
      constructor
      · intro _ valid
        apply (ensures_push .host valid start).mono
        · intro _ middle pushed
          obtain ⟨server, verified, grows⟩ := pushed
          apply (ih middle).mono
          · intro _ next rest
            obtain ⟨⟨server', verified'⟩, grows'⟩ := rest
            exact ⟨⟨server'.trans server, verified'.trans verified⟩, grows.trans grows'⟩
          · intro error next failed
            obtain ⟨server', verified', invalid | ⟨text, excess⟩⟩ := failed
            · obtain ⟨other, member, invalid⟩ := invalid
              exact ⟨server'.trans server, verified'.trans verified,
                Or.inl ⟨other, List.mem_cons_of_mem _ member, invalid⟩⟩
            · refine ⟨server'.trans server, verified'.trans verified, Or.inr ⟨text, ?_⟩⟩
              rw [grows.bytes, Nat.add_assoc, ← cost_append] at excess
              exact excess
        · intro error next failed
          obtain ⟨text, same, excess⟩ := failed
          subst same
          refine ⟨rfl, rfl, Or.inr ⟨text, Nat.lt_of_lt_of_le excess ?_⟩⟩
          rw [cost_cons, cost_nil, List.map_cons, cost_cons]
          exact Nat.add_le_add_left (Nat.add_le_add_left (Nat.zero_le _) _) _
      · intro error invalid
        exact ⟨rfl, rfl, Or.inl ⟨payload, List.mem_cons_self, invalid⟩⟩

/-- All commands that are there for the next tick. -/
def available (sim : σ) (start : Gathering) (clients : List UInt64) (input : TickInput) :
    List Command :=
  clients.flatMap (start.offered sim) ++ (input.inputs.take 256).map hosted

/-- The ways gathering fails. -/
inductive Fails (sim : σ) (policy : DesyncPolicy) (start : Gathering) (clients : List UInt64)
    (input : TickInput) : SessionError → Prop
  | budget (excess : maxReplayRecordBytes < cost (start.available sim clients input)) :
      Fails sim policy start clients input budgetExceeded
  | diverged {error : SessionError} (fast : policy = .failFast) (reported : error.isDesync = true) :
      Fails sim policy start clients input error
  | closed {error : SessionError}
      (fails : drainLocal input.inputs input.inputClosed true = .error error) :
      Fails sim policy start clients input error
  | invalid {error : SessionError} {payload : CommandPayload}
      (member : payload ∈ input.inputs.take 256)
      (rejects : validateCommand sim payload.bytes = .error error) :
      Fails sim policy start clients input error

/-- Everything that gathering the commands of a tick can do. -/
theorem ensures_gather (sim : σ) (policy : DesyncPolicy) (hashes : ExtTreeMap UInt64 UInt64)
    (clients : List UInt64) (distinct : clients.Nodup) (input : TickInput) {start : Gathering}
    (fresh : start.inputs = [] ∧ start.bytes = 0) :
    Ensures (gather sim policy hashes clients input) start
      (fun commands next => commands = start.available sim clients input ∧
        (∀ command ∈ commands, validateCommand sim command.payload.bytes = .ok ()) ∧
        cost commands ≤ maxReplayRecordBytes ∧
        ∃ middle, Services sim hashes start middle clients ∧ next.server = middle.server ∧
          next.verified = middle.verified)
      (fun error next => Fails sim policy start clients input error ∧
        Serviced start.server next.server) := by
  unfold gather
  rw [ensures_bind]
  apply (ensures_services sim policy hashes clients distinct start).mono
  · intro _ middle services
    have serves := services.grows
    rw [ensures_bind, ensures_ofExcept]
    constructor
    · intro payloads drained
      have taken : payloads = input.inputs.take 256 := by
        unfold drainLocal at drained
        by_cases closed : input.inputClosed ∧ input.inputs.length < 256
        · rw [if_pos closed] at drained
          cases drained
        · rw [if_neg closed] at drained
          cases drained
          rfl
      subst taken
      rw [ensures_bind]
      apply (ensures_pushLocals sim _ middle).mono
      · intro _ next pushed
        obtain ⟨⟨server, verified⟩, grows⟩ := pushed
        have all := serves.trans grows
        have inputs : next.inputs = start.available sim clients input := by
          rw [all.inputs, fresh.1, List.nil_append]
          rfl
        have bytes : next.bytes = cost (start.available sim clients input) := by
          rw [all.bytes, fresh.2, Nat.zero_add]
          rfl
        rw [ensures_bind, ensures_get]
        refine ⟨inputs, ?_, ?_, middle, services, server, verified⟩
        · rw [inputs]
          exact all.valid
        · rw [inputs, ← bytes]
          apply all.within
          rw [fresh.2]
          exact Nat.zero_le _
      · intro error next failed
        obtain ⟨server, _, invalid | ⟨text, excess⟩⟩ := failed
        · obtain ⟨payload, member, rejects⟩ := invalid
          rw [server]
          exact ⟨.invalid member rejects, services.serviced⟩
        · rw [serves.bytes, fresh.2, Nat.zero_add, ← cost_append] at excess
          rw [text, server]
          exact ⟨.budget excess, services.serviced⟩
    · intro error closed
      exact ⟨.closed closed, services.serviced⟩
  · intro error next failed
    obtain ⟨⟨text, excess⟩ | ⟨fast, reported⟩, serviced⟩ := failed
    · rw [fresh.2, Nat.zero_add] at excess
      rw [text]
      refine ⟨.budget (Nat.lt_of_lt_of_le excess ?_), serviced⟩
      unfold available
      rw [cost_append]
      exact Nat.le_add_right _ _
    · exact ⟨.diverged fast reported, serviced⟩

end Gathering

end

end Synctick
