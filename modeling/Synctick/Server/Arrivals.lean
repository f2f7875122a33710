import Synctick.Server.Live

/-! # What arrives from a participant

A participant that is still connected at the end of an iteration was connected all the
time. What is pending of it is what the network delivered since the last iteration, as
each iteration receives all that is pending.
-/

namespace Synctick

open SessionSimulation Effect Std RenetServer

/-- What the network delivers from a client on a channel. -/
def deliveries (id : UInt64) (channel : Channel) (actions : List NetAction) : List Bytes :=
  actions.filterMap fun
    | .deliver other on bytes => if other = id ∧ on = channel then some bytes else none
    | _ => none

theorem deliveries_append (id : UInt64) (channel : Channel) (front back : List NetAction) :
    deliveries id channel (front ++ back) =
      deliveries id channel front ++ deliveries id channel back := List.filterMap_append

namespace RenetServer

variable {server middle next : RenetServer} {id : UInt64}

/-- A connection that is open was so before, and what is pending came in its order. -/
def Persists (server next : RenetServer) (id : UInt64) (arrived : Channel → List Bytes) : Prop :=
  ∀ later, next.connections id = some later → later.disconnected = false →
    ∃ earlier, server.connections id = some earlier ∧ earlier.disconnected = false ∧
      ∀ channel, later.incoming channel = earlier.incoming channel ++ arrived channel

theorem persists_of_same (same : next.connections id = server.connections id) :
    Persists server next id fun _ => [] := by
  intro later there opens
  rw [same] at there
  exact ⟨later, there, opens, fun _ => (List.append_nil _).symm⟩

theorem Persists.trans {first second : Channel → List Bytes} (front : Persists server middle id first)
    (back : Persists middle next id second) :
    Persists server next id fun channel => first channel ++ second channel := by
  intro later there opens
  obtain ⟨between, there, opens, grows⟩ := back later there opens
  obtain ⟨earlier, there, opens, grows'⟩ := front between there opens
  refine ⟨earlier, there, opens, ?_⟩
  intro channel
  rw [grows, grows', List.append_assoc]

theorem Persists.pending {arrived : Channel → List Bytes} (persists : Persists server next id arrived)
    (connected : next.isConnected id = true) (channel : Channel) :
    server.isConnected id = true ∧
      next.pending id channel = server.pending id channel ++ arrived channel := by
  obtain ⟨later, there, opens⟩ := isConnected_iff.mp connected
  obtain ⟨earlier, before, opens', grows⟩ := persists later there opens
  refine ⟨isConnected_iff.mpr ⟨earlier, before, opens'⟩, ?_⟩
  rw [pending_of_connected there opens, pending_of_connected before opens', grows]

/-- Servicing connects nobody. -/
theorem Serviced.connected (serviced : Serviced server next)
    (connected : next.isConnected id = true) : server.isConnected id = true := by
  obtain ⟨connection, there, opens⟩ := isConnected_iff.mp connected
  cases origin : server.connections id with
  | none =>
      have absent := serviced.absent id origin
      rw [there] at absent
      cases absent
  | some first =>
      obtain ⟨later, there', _, closes⟩ := serviced.present id first origin
      rw [there] at there'
      cases there'
      exact isConnected_iff.mpr ⟨first, origin, closes opens⟩

/-- Nothing is pending of a client that is not connected. -/
theorem pending_of_disconnected (closed : server.isConnected id = false) (channel : Channel) :
    server.pending id channel = [] := by
  cases pending : server.pending id channel with
  | nil => rfl
  | cons bytes later =>
      obtain ⟨connection, there, opens, _⟩ := connected_of_pending pending
      rw [isConnected_iff.mpr ⟨connection, there, opens⟩] at closed
      cases closed

/-- A broadcast receives nothing. -/
theorem pending_broadcastMessage (on channel : Channel) (bytes : Bytes) :
    (server.broadcastMessage on bytes).pending id channel = server.pending id channel := by
  unfold pending broadcastMessage
  dsimp only
  cases server.connections id with
  | none => rfl
  | some connection =>
      dsimp only [Option.map_some]
      rw [Connection.disconnected_send]
      unfold Connection.send
      by_cases closed : connection.disconnected = true
      · rw [if_pos closed, if_pos closed]
      · rw [if_neg closed, if_neg closed, if_neg closed]

/-- Connection events queue up. -/
theorem events_act (server : RenetServer) (action : NetAction) :
    ∀ event ∈ server.events, event ∈ (server.act action).events := by
  intro event member
  cases action with
  | connect other =>
      cases there : server.connections other with
      | none =>
          rw [act_connect there]
          exact List.mem_append_left _ member
      | some connection =>
          rw [act_connect_again there]
          exact member
  | remove other =>
      cases there : server.connections other with
      | none =>
          rw [act_remove_again there]
          exact member
      | some connection =>
          rw [act_remove there]
          exact List.mem_append_left _ member
  | close other => exact member
  | deliver other channel bytes => exact member

/-- A client is the subject of an event. -/
def Concerned (server : RenetServer) (id : UInt64) : Prop :=
  ∃ event ∈ server.events, event.client = id

/-- A client connects and leaves with an event; otherwise its connection persists. -/
theorem act_cases (server : RenetServer) (id : UInt64) (action : NetAction) :
    (server.act action).Concerned id ∨
      Persists server (server.act action) id fun channel => deliveries id channel [action] := by
  cases action with
  | connect other =>
      cases there : server.connections other with
      | none =>
          rw [act_connect there]
          by_cases same : id = other
          · subst same
            exact Or.inl ⟨.clientConnected id, List.mem_append_right _ (List.mem_singleton_self _), rfl⟩
          · right
            exact persists_of_same (Function.update_of_ne same _ _)
      | some connection =>
          rw [act_connect_again there]
          exact Or.inr (persists_of_same rfl)
  | remove other =>
      cases there : server.connections other with
      | none =>
          rw [act_remove_again there]
          exact Or.inr (persists_of_same rfl)
      | some connection =>
          rw [act_remove there]
          by_cases same : id = other
          · subst same
            exact Or.inl
              ⟨.clientDisconnected id, List.mem_append_right _ (List.mem_singleton_self _), rfl⟩
          · right
            exact persists_of_same (Function.update_of_ne same _ _)
  | close other =>
      right
      by_cases same : id = other
      · subst same
        intro later there opens
        have closed := isConnected_iff.mpr ⟨later, there, opens⟩
        change (server.disconnect id).isConnected id = true at closed
        rw [isConnected_disconnect] at closed
        cases closed
      · exact persists_of_same (alter_other _ same)
  | deliver other channel bytes =>
      right
      by_cases same : id = other
      · subst same
        intro later there opens
        change (server.alter id _).connections id = some later at there
        rw [alter_same] at there
        obtain ⟨earlier, before, change'⟩ := Option.map_eq_some_iff.mp there
        subst change'
        refine ⟨earlier, before, opens, ?_⟩
        intro on
        by_cases here : on = channel
        · subst here
          simp [deliveries]
        · have elsewhere : ¬ channel = on := fun same => here same.symm
          simp [deliveries, here, elsewhere]
      · have nothing (on : Channel) : deliveries id on [.deliver other channel bytes] = [] := by
          have different : ¬ other = id := fun equal => same equal.symm
          simp [deliveries, different]
        simp only [nothing]
        exact persists_of_same (alter_other _ same)

theorem update_cases (server : RenetServer) (id : UInt64) (actions : List NetAction) :
    (server.update actions).Concerned id ∨
      Persists server (server.update actions) id fun channel => deliveries id channel actions := by
  have events (actions : List NetAction) (server : RenetServer) (concerned : server.Concerned id) :
      (server.update actions).Concerned id := by
    induction actions generalizing server with
    | nil => exact concerned
    | cons action actions ih =>
        obtain ⟨event, member, about⟩ := concerned
        exact ih _ ⟨event, events_act server action event member, about⟩
  induction actions generalizing server with
  | nil => exact Or.inr (persists_of_same rfl)
  | cons action actions ih =>
      rcases act_cases server id action with concerned | first
      · exact Or.inl (events actions _ concerned)
      · rcases ih (server.act action) with concerned | rest
        · exact Or.inl concerned
        · right
          have both := first.trans rest
          simp only [← deliveries_append, List.singleton_append] at both
          exact both

end RenetServer

namespace Authority

variable {σ : Type}

/-- A participant that is connected after the connection events were handled, was not
the subject of one, and its connection is as it was before. -/
theorem handleEvents_cases {authority : Authority σ} {id verified : UInt64}
    (known : authority.handleEvents.verified[id]? = some verified)
    (connected : authority.handleEvents.server.isConnected id = true) :
    ¬ authority.server.Concerned id ∧
      authority.handleEvents.server.connections id = authority.server.connections id := by
  have events (events : List ServerEvent) (authority : Authority σ)
      (known : (events.foldl handleEvent authority).verified[id]? = some verified)
      (connected : (events.foldl handleEvent authority).server.isConnected id = true) :
      authority.verified[id]? = some verified ∧ authority.server.isConnected id = true ∧
        (∀ event ∈ events, event.client ≠ id) ∧
        (events.foldl handleEvent authority).server.connections id =
          authority.server.connections id := by
    induction events generalizing authority with
    | nil =>
        refine ⟨known, connected, ?_, rfl⟩
        intro event impossible
        cases impossible
    | cons event events ih =>
        obtain ⟨known, connected, others, same⟩ := ih _ known connected
        cases event with
        | clientConnected other =>
            change (authority.server.disconnect other).isConnected id = true at connected
            have different : other ≠ id := by
              intro equal
              rw [equal, isConnected_disconnect] at connected
              cases connected
            have kept : (authority.server.disconnect other).connections id =
                authority.server.connections id := alter_other _ (Ne.symm different)
            refine ⟨known, ?_, ?_, same.trans kept⟩
            · rw [← isConnected_congr kept]
              exact connected
            · intro event member
              rcases List.mem_cons.mp member with first | later
              · rw [first]
                exact different
              · exact others event later
        | clientDisconnected other =>
            change (authority.verified.erase other)[id]? = some verified at known
            have different : other ≠ id := by
              intro equal
              rw [equal, ExtTreeMap.getElem?_erase_self] at known
              cases known
            rw [getElem?_erase_other _ (Ne.symm different)] at known
            refine ⟨known, connected, ?_, same⟩
            intro event member
            rcases List.mem_cons.mp member with first | later
            · rw [first]
              exact different
            · exact others event later
  obtain ⟨_, _, others, same⟩ := events _ _ known connected
  refine ⟨?_, same⟩
  rintro ⟨event, member, about⟩
  exact others event member about

/-- Connection events verify nobody. -/
theorem verified_entered {authority : Authority σ} {input : TickInput} {id verified : UInt64}
    (known : (authority.entered input).verified[id]? = some verified) :
    authority.verified[id]? = some verified := by
  have events (events : List ServerEvent) (authority : Authority σ)
      (known : (events.foldl handleEvent authority).verified[id]? = some verified) :
      authority.verified[id]? = some verified := by
    induction events generalizing authority with
    | nil => exact known
    | cons event events ih =>
        have before := ih _ known
        cases event with
        | clientConnected other => exact before
        | clientDisconnected other =>
            change (authority.verified.erase other)[id]? = some verified at before
            by_cases same : id = other
            · subst same
              rw [ExtTreeMap.getElem?_erase_self] at before
              cases before
            · rw [getElem?_erase_other _ same] at before
              exact before
  exact events (authority.server.update input.actions).events { authority with
    server := { authority.server.update input.actions with events := [] } } known

/-- A participant that is connected in an iteration was connected before, and what is
pending of it was pending before or has been delivered since. -/
theorem pending_entered {authority : Authority σ} {input : TickInput} {id verified : UInt64}
    (known : (authority.entered input).verified[id]? = some verified)
    (connected : (authority.entered input).server.isConnected id = true) (channel : Channel) :
    authority.server.isConnected id = true ∧
      (authority.entered input).server.pending id channel =
        authority.server.pending id channel ++ deliveries id channel input.actions := by
  obtain ⟨unconcerned, same⟩ := handleEvents_cases known connected
  rcases update_cases authority.server id input.actions with concerned | persists
  · exact (unconcerned concerned).elim
  · unfold entered at connected ⊢
    rw [isConnected_congr same] at connected
    rw [pending_congr same]
    exact persists.pending connected channel

end Authority

namespace Gathering

variable {σ : Type} [SessionSimulation σ] {sim : σ} {hashes : ExtTreeMap UInt64 UInt64}
  {start middle next : Gathering} {id : UInt64}

/-- Commands only take messages from the lockstep channel, and may close the connection. -/
theorem ensures_receiveCommands_server (sim : σ) (id : UInt64) (invariant : RenetServer → Prop)
    (takes : ∀ server bytes, invariant server → invariant (server.take id .lockstep bytes))
    (closes : ∀ server, invariant server → invariant (server.disconnect id)) (passes : Nat)
    (start : Gathering) (initially : invariant start.server) :
    Ensures (receiveCommands sim id passes) start
      (fun _ next => invariant next.server ∧ next.verified = start.verified)
      (fun _ next => invariant next.server ∧ next.verified = start.verified) := by
  induction passes generalizing start with
  | zero => exact ⟨initially, rfl⟩
  | succ passes ih =>
      unfold receiveCommands
      rw [ensures_bind]
      cases pending : start.server.pending id .lockstep with
      | nil =>
          rw [ensures_ok (receiveMessage_nil pending)]
          exact ⟨initially, rfl⟩
      | cons bytes later =>
          rw [ensures_ok (receiveMessage_cons pending)]
          have taken : invariant (start.taking id .lockstep bytes).server := takes _ bytes initially
          have closed : invariant ((start.taking id .lockstep bytes).server.disconnect id) :=
            closes _ taken
          dsimp only
          cases decodes : decodeClientMessage bytes with
          | error error => exact ⟨closed, rfl⟩
          | ok message =>
              cases message with
              | progress receivedBytes replayedTick => exact ⟨closed, rfl⟩
              | ready tick hash => exact ⟨closed, rfl⟩
              | input payload =>
                  dsimp only
                  cases valid : validateCommand sim payload.bytes with
                  | error error => exact ⟨closed, rfl⟩
                  | ok _ =>
                      dsimp only
                      rw [ensures_bind]
                      apply (ensures_push (.remote id) valid _).mono
                      · intro _ middle pushed
                        obtain ⟨server, verified, _⟩ := pushed
                        rw [← server] at taken
                        apply (ih middle taken).mono
                        · intro _ next kept
                          exact ⟨kept.1, kept.2.trans verified⟩
                        · intro _ next kept
                          exact ⟨kept.1, kept.2.trans verified⟩
                      · intro _ next failed
                        rw [failed.2.1]
                        exact ⟨taken, rfl⟩

/-- All commands that are there are received, and an invalid one closes the connection. -/
theorem ensures_receiveCommands_drains (sim : σ) (id : UInt64) (passes : Nat) (start : Gathering)
    (enough : (start.server.pending id .lockstep).length ≤ passes) :
    Ensures (receiveCommands sim id passes) start
      (fun _ next => next.server.pending id .lockstep = [] ∧
        ((∀ bytes ∈ start.server.pending id .lockstep, Commands sim bytes) ∨
          next.server.isConnected id = false))
      (fun _ _ => True) := by
  induction passes generalizing start with
  | zero =>
      have empty := List.length_eq_zero_iff.mp (Nat.le_zero.mp enough)
      refine ⟨empty, Or.inl ?_⟩
      rw [empty]
      intro bytes impossible
      cases impossible
  | succ passes ih =>
      unfold receiveCommands
      rw [ensures_bind]
      cases pending : start.server.pending id .lockstep with
      | nil =>
          rw [ensures_ok (receiveMessage_nil pending)]
          refine ⟨pending, Or.inl ?_⟩
          intro bytes impossible
          cases impossible
      | cons bytes later =>
          rw [ensures_ok (receiveMessage_cons pending)]
          have left := pending_taking pending
          have closes (opened : Gathering) :
              (opened.server.disconnect id).pending id .lockstep = [] ∧
                ((∀ message ∈ bytes :: later, Commands sim message) ∨
                  (opened.server.disconnect id).isConnected id = false) :=
            ⟨pending_disconnect _, Or.inr isConnected_disconnect⟩
          dsimp only
          cases decodes : decodeClientMessage bytes with
          | error error => exact closes _
          | ok message =>
              cases message with
              | progress receivedBytes replayedTick => exact closes _
              | ready tick hash => exact closes _
              | input payload =>
                  dsimp only
                  cases valid : validateCommand sim payload.bytes with
                  | error error => exact closes _
                  | ok _ =>
                      dsimp only
                      rw [ensures_bind]
                      apply (ensures_push (.remote id) valid _).mono
                      · intro _ middle pushed
                        obtain ⟨server, _⟩ := pushed
                        rw [← server] at left
                        rw [pending] at enough
                        have fewer : (middle.server.pending id .lockstep).length ≤ passes := by
                          rw [left]
                          exact Nat.le_of_succ_le_succ enough
                        apply (ih middle fewer).mono
                        · intro _ next drained
                          refine ⟨drained.1, drained.2.imp_left ?_⟩
                          intro commands message member
                          rcases List.mem_cons.mp member with first | rest
                          · rw [first]
                            exact ⟨payload, decodes, valid⟩
                          · rw [← left] at rest
                            exact commands message rest
                        · intro _ _ _
                          trivial
                      · intro _ _ _
                        trivial

/-- A report does nothing to the server but to close the connection of its participant. -/
theorem ensures_handleHashReport_server (sim : σ) (policy : DesyncPolicy)
    (hashes : ExtTreeMap UInt64 UInt64) (id : UInt64) (bytes : Bytes) (start : Gathering) :
    Ensures (handleHashReport sim policy hashes id bytes) start
      (fun _ next => next.server = start.server ∨ next.server = start.server.disconnect id)
      (fun _ _ => True) := by
  apply (ensures_handleHashReport sim policy hashes id bytes start).mono
  · intro _ next handled
    exact handled.2.1
  · intro _ _ _
    trivial

/-- All reports that are there are received, and no commands come or go meanwhile. -/
theorem ensures_receiveReports_drains (sim : σ) (policy : DesyncPolicy)
    (hashes : ExtTreeMap UInt64 UInt64) (id : UInt64) (passes : Nat) (start : Gathering)
    (enough : (start.server.pending id .desync).length ≤ passes) :
    Ensures (receiveReports sim policy hashes id passes) start
      (fun _ next => next.server.pending id .desync = [] ∧
        (start.server.pending id .lockstep = [] → next.server.pending id .lockstep = []))
      (fun _ _ => True) := by
  induction passes generalizing start with
  | zero => exact ⟨List.length_eq_zero_iff.mp (Nat.le_zero.mp enough), fun empty => empty⟩
  | succ passes ih =>
      unfold receiveReports
      rw [ensures_bind]
      cases pending : start.server.pending id .desync with
      | nil =>
          rw [ensures_ok (receiveMessage_nil pending)]
          exact ⟨pending, fun empty => empty⟩
      | cons bytes later =>
          rw [ensures_ok (receiveMessage_cons pending)]
          dsimp only
          rw [ensures_bind]
          have left := pending_taking pending
          have commands : (start.taking id .desync bytes).server.pending id .lockstep =
              start.server.pending id .lockstep := pending_take_other bytes Channel.noConfusion
          rw [pending] at enough
          apply (ensures_handleHashReport_server sim policy hashes id bytes _).mono
          · intro _ middle server
            have fewer : (middle.server.pending id .desync).length ≤ passes := by
              rcases server with same | closed
              · rw [same, left]
                exact Nat.le_of_succ_le_succ enough
              · rw [closed, pending_disconnect]
                exact Nat.zero_le _
            apply (ih middle fewer).mono
            · intro _ next drained
              refine ⟨drained.1, ?_⟩
              intro empty
              apply drained.2
              rcases server with same | closed
              · rw [same, commands, empty]
              · rw [closed, pending_disconnect]
            · intro _ _ _
              trivial
          · intro _ _ _
            trivial

/-- Servicing a participant receives all that it sent, and one that sent an invalid command is
not connected any more. -/
theorem ensures_service_drains (sim : σ) (policy : DesyncPolicy)
    (hashes : ExtTreeMap UInt64 UInt64) (id : UInt64) {start : Gathering} {verified : UInt64}
    (known : start.verified[id]? = some verified) :
    Ensures (service sim policy hashes id) start
      (fun _ next => (next.server.pending id .lockstep = [] ∧
          next.server.pending id .desync = []) ∧
        (next.server.isConnected id = true →
          ∀ bytes ∈ start.server.pending id .lockstep, Commands sim bytes))
      (fun _ _ => True) := by
  have participant : start.verified[id]?.isSome = true := by
    rw [known]
    rfl
  unfold service
  rw [ensures_bind, ensures_get, if_pos participant, ensures_bind]
  apply (ensures_receiveCommands_drains sim id _ start (Nat.le_refl _)).mono
  · intro _ middle commands
    rw [ensures_bind, ensures_get, ensures_bind]
    apply ((ensures_receiveReports sim policy hashes id _ middle (Nat.le_refl _)).and
      (ensures_receiveReports_drains sim policy hashes id _ middle (Nat.le_refl _))).mono
    · intro _ after outcome
      obtain ⟨⟨⟨aside, _⟩, _⟩, reports⟩ := outcome
      have valid (connected : after.server.isConnected id = true) :
          ∀ bytes ∈ start.server.pending id .lockstep, Commands sim bytes := by
        apply commands.2.resolve_right
        rw [aside.serviced.connected connected]
        exact Bool.noConfusion
      have drained := And.intro (And.intro (reports.2 commands.1) reports.1) valid
      unfold enforceVerificationDeadline
      rw [ensures_bind, ensures_get]
      cases after.verified[id]? with
      | none => exact drained
      | some verified =>
          dsimp only
          by_cases overdue : saturatingSub (currentTick sim) verified > hashInterval sim * 10
          · rw [if_pos overdue]
            refine ⟨⟨pending_disconnect _, pending_disconnect _⟩, ?_⟩
            intro impossible
            rw [isConnected_disconnect] at impossible
            cases impossible
          · rw [if_neg overdue]
            exact drained
    · intro _ _ _
      trivial
  · intro _ _ _
    trivial

/-- What servicing a participant does to it, servicing all clients does. -/
theorem ensures_services_of_service {policy : DesyncPolicy} {clients : List UInt64}
    (distinct : clients.Nodup) (member : id ∈ clients) (holds : Gathering → Prop)
    (congr : ∀ before after : Gathering,
      after.server.connections id = before.server.connections id →
      after.verified[id]? = before.verified[id]? → holds before → holds after)
    (spec : ∀ middle : Gathering, middle.server.connections id = start.server.connections id →
      middle.verified[id]? = start.verified[id]? →
      Ensures (service sim policy hashes id) middle (fun _ next => holds next) (fun _ _ => True)) :
    Ensures (forEach (service sim policy hashes) clients) start (fun _ next => holds next)
      (fun _ _ => True) := by
  induction clients generalizing start with
  | nil => cases member
  | cons first clients ih =>
      obtain ⟨fresh, others⟩ := List.nodup_cons.mp distinct
      unfold forEach
      rw [ensures_bind]
      rcases List.mem_cons.mp member with same | later
      · subst same
        apply (spec start rfl rfl).mono
        · intro _ middle held
          apply (ensures_services sim policy hashes clients others middle).mono
          · intro _ next services
            obtain ⟨connections, verified⟩ := services.others id fresh
            exact congr middle next connections verified held
          · intro _ _ _
            trivial
        · intro _ _ _
          trivial
      · have different : id ≠ first := by
          intro same
          subst same
          exact fresh later
        apply (ensures_service sim policy hashes first start).mono
        · intro _ middle serviced
          obtain ⟨⟨aside, _⟩, _⟩ := serviced
          have connections := aside.others.connections id different
          have verified := aside.verified id different
          apply ih others later
          intro gathering connections' verified'
          exact spec gathering (connections'.trans connections) (verified'.trans verified)
        · intro _ _ _
          trivial

end Gathering

namespace Authority

open Gathering

variable {σ : Type} [SessionSimulation σ]

/-- An iteration services the clients, and broadcasts one message after it. -/
theorem ensures_iteration_services (policy : DesyncPolicy) (input : TickInput)
    (authority : Authority σ) :
    Ensures (iteration policy input) authority
      (fun _ next => ∃ middle bytes,
        forEach (service authority.sim policy authority.hashes)
          ((authority.entered input).clients input) (authority.entered input).gathering =
            .ok () middle ∧
        next.server = middle.server.broadcastMessage .lockstep bytes ∧
        next.verified = middle.verified)
      (fun _ _ => True) := by
  unfold iteration
  rw [ensures_bind]
  apply (ensures_failWith input.network authority).mono
  · intro _ start outcome
    obtain ⟨_, same⟩ := outcome
    subst same
    have enters := same_entered start input
    rw [ensures_bind, ensures_modify, ensures_bind, ensures_modify, ensures_bind]
    change Ensures (gather policy input) (start.entered input) _ _
    rw [← enters.sim, ← enters.hashes]
    generalize start.entered input = entered
    unfold gather
    rw [ensures_bind, ensures_get, ensures_zoom]
    unfold Gathering.gather
    rw [ensures_bind]
    apply (ensures_self _ _).mono
    · intro _ middle services
      rw [ensures_bind, ensures_ofExcept]
      constructor
      · intro payloads _
        rw [ensures_bind]
        apply (ensures_pushLocals entered.sim payloads middle).mono
        · intro _ gathered pushed
          obtain ⟨⟨server, verified⟩, _⟩ := pushed
          rw [ensures_bind, ensures_get, ensures_pure, ensures_bind]
          apply (ensures_sequence gathered.inputs _).mono
          · intro tick after outcome
            obtain ⟨_, _, sequences⟩ := outcome
            apply (ensures_checkpoint tick after).mono
            · intro _ next outcome
              obtain ⟨writer, same, _⟩ := outcome
              subst same
              have sent := sequences.broadcast
              have kept := sequences.verified
              unfold broadcasting at sent
              rw [server] at sent
              exact ⟨middle, _, services, sent, kept.trans verified⟩
            · intro _ _ _
              trivial
          · intro _ _ _
            trivial
        · intro _ _ _
          trivial
      · intro _ _
        trivial
    · intro _ _ _
      trivial
  · intro _ _ _
    trivial

section

variable {policy : DesyncPolicy} {authority next : Authority σ} {input : TickInput} {id : UInt64}

/-- A participant that is connected after an iteration was one when its clients were serviced. -/
theorem participant_of_iteration {verified : UInt64}
    (returns : iteration policy input authority = .ok () next)
    (known : next.verified[id]? = some verified)
    (connected : next.server.isConnected id = true) :
    (∃ earlier, (authority.entered input).verified[id]? = some earlier) ∧
      (authority.entered input).server.isConnected id = true := by
  obtain ⟨middle, bytes, services, server, same⟩ :=
    ensures_of_ok (ensures_iteration_services policy input authority) returns
  rw [server, isConnected_broadcastMessage] at connected
  rw [same] at known
  have distinct := (authority.entered input).nodup_clients input
  have serviced := ensures_of_ok
    (ensures_services authority.sim policy authority.hashes _ distinct _) services
  refine ⟨?_, serviced.serviced.connected connected⟩
  apply Option.isSome_iff_exists.mp
  change (authority.entered input).gathering.verified[id]?.isSome = true
  rw [← serviced.known id, known]
  rfl

/-- What servicing a participant does to it, an iteration does before its broadcast. -/
theorem iteration_of_service {verified : UInt64}
    (returns : iteration policy input authority = .ok () next)
    (known : (authority.entered input).verified[id]? = some verified)
    (connected : (authority.entered input).server.isConnected id = true)
    (holds : Gathering → Prop)
    (congr : ∀ before after : Gathering,
      after.server.connections id = before.server.connections id →
      after.verified[id]? = before.verified[id]? → holds before → holds after)
    (spec : ∀ gathering : Gathering,
      gathering.server.connections id = (authority.entered input).server.connections id →
      gathering.verified[id]? = some verified →
      Ensures (service authority.sim policy authority.hashes id) gathering
        (fun _ next => holds next) (fun _ _ => True)) :
    ∃ middle bytes, holds middle ∧ next.server = middle.server.broadcastMessage .lockstep bytes ∧
      next.verified = middle.verified := by
  obtain ⟨middle, bytes, services, server, same⟩ :=
    ensures_of_ok (ensures_iteration_services policy input authority) returns
  have distinct := (authority.entered input).nodup_clients input
  have held := ensures_of_ok (ensures_services_of_service distinct (mem_clients input known connected)
    holds congr (by
      intro gathering connections verified'
      exact spec gathering connections (verified'.trans known))) services
  exact ⟨middle, bytes, held, server, same⟩

end

end Authority

end Synctick
