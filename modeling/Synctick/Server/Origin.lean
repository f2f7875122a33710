import Synctick.Server.Run

/-! # Where the commands of a tick come from

The commands that a tick tags with a participant are those that its own connection sent,
in order and each once, up to an invalid one; those that it tags with the host are those
of the local queue. Nobody can send a command under another name.
-/

namespace Synctick

open SessionSimulation Effect Std RenetServer

/-- The commands of a tick that are tagged with a participant. -/
def tagged (participant : ParticipantId) (advance : TickAdvance) : List Command :=
  advance.inputs.filter fun command => command.participant = participant

/-- Where all lists but one are empty, that one is left. -/
theorem flatMap_of_unique {α β : Type} [DecidableEq α] {elements : List α} {f : α → List β} (one : α)
    (distinct : elements.Nodup) (others : ∀ element, element ≠ one → f element = []) :
    elements.flatMap f = if one ∈ elements then f one else [] := by
  induction elements with
  | nil => rfl
  | cons first elements ih =>
      obtain ⟨fresh, distinct⟩ := List.nodup_cons.mp distinct
      rw [List.flatMap_cons, ih distinct]
      by_cases same : first = one
      · subst same
        rw [if_neg fresh, if_pos List.mem_cons_self, List.append_nil]
      · rw [others first same, List.nil_append]
        simp [Ne.symm same]

variable {σ : Type} [SessionSimulation σ]

/-- Whatever a connection sends, its commands bear its own name. -/
theorem participant_acceptedCommands {sim : σ} {id : UInt64} {messages : List Bytes} :
    ∀ command ∈ acceptedCommands sim id messages, command.participant = .remote id := by
  induction messages with
  | nil =>
      intro command impossible
      cases impossible
  | cons bytes later ih =>
      intro command member
      unfold acceptedCommands at member
      split at member
      · split at member
        · rcases List.mem_cons.mp member with first | rest
          · rw [first]
          · exact ih command rest
        · cases member
      · cases member

theorem acceptedCommands_valid {sim : σ} {bytes : Bytes} (id : UInt64) (later : List Bytes)
    (valid : Commands sim bytes) : ∃ command, command.participant = .remote id ∧
      decodeClientMessage bytes = .ok (.input command.payload) ∧
      acceptedCommands sim id (bytes :: later) = command :: acceptedCommands sim id later := by
  obtain ⟨payload, decodes, accepts⟩ := valid
  refine ⟨{ participant := .remote id, payload }, rfl, decodes, ?_⟩
  simp only [acceptedCommands, decodes, accepts]

theorem acceptedCommands_invalid {sim : σ} {id : UInt64} {bytes : Bytes} (later : List Bytes)
    (invalid : ¬ Commands sim bytes) : acceptedCommands sim id (bytes :: later) = [] := by
  unfold acceptedCommands
  split
  · rename_i payload decodes
    split
    · rename_i accepts
      exact (invalid ⟨payload, decodes, accepts⟩).elim
    · rfl
  · rfl

/-- Each message up to the first one that is invalid adds one command, and no later one does. -/
theorem acceptedCommands_stops {sim : σ} {id : UInt64} {front rest : List Bytes}
    (valid : ∀ message ∈ front, Commands sim message)
    (invalid : ∀ message ∈ rest.head?, ¬ Commands sim message) :
    List.Forall₂ (fun message command => command.participant = .remote id ∧
        decodeClientMessage message = .ok (.input command.payload))
      front (acceptedCommands sim id (front ++ rest)) := by
  induction front with
  | nil =>
      cases rest with
      | nil => exact .nil
      | cons bytes later =>
          rw [List.nil_append, acceptedCommands_invalid later (invalid bytes rfl)]
          exact .nil
  | cons message front ih =>
      obtain ⟨command, own, decodes, accepts⟩ := acceptedCommands_valid id (front ++ rest)
        (valid message List.mem_cons_self)
      rw [List.cons_append, accepts]
      exact .cons ⟨own, decodes⟩
        (ih fun other member => valid other (List.mem_cons_of_mem _ member))

namespace Gathering

variable {sim : σ} {start : Gathering} {id : UInt64}

theorem filter_offered (participant : ParticipantId) (other : UInt64) :
    (start.offered sim other).filter (fun command => command.participant = participant) =
      if participant = .remote other then start.offered sim other else [] := by
  have tags : ∀ command ∈ start.offered sim other, command.participant = .remote other := by
    unfold offered
    by_cases known : start.verified[other]?.isSome = true
    · rw [if_pos known]
      exact participant_acceptedCommands
    · rw [if_neg known]
      intro command impossible
      cases impossible
  by_cases same : participant = .remote other
  · rw [if_pos same, List.filter_eq_self]
    intro command member
    rw [tags command member, same]
    exact decide_eq_true rfl
  · rw [if_neg same, List.filter_eq_nil_iff]
    intro command member
    rw [tags command member]
    exact fun equal => same (of_decide_eq_true equal).symm

theorem filter_hosted (participant : ParticipantId) (payloads : List CommandPayload) :
    (payloads.map hosted).filter (fun command => command.participant = participant) =
      if participant = .host then payloads.map hosted else [] := by
  have tags : ∀ command ∈ payloads.map hosted, command.participant = .host := by
    intro command member
    obtain ⟨payload, _, same⟩ := List.mem_map.mp member
    rw [← same]
    rfl
  by_cases same : participant = .host
  · rw [if_pos same, List.filter_eq_self]
    intro command member
    rw [tags command member, same]
    exact decide_eq_true rfl
  · rw [if_neg same, List.filter_eq_nil_iff]
    intro command member
    rw [tags command member]
    exact fun equal => same (of_decide_eq_true equal).symm

end Gathering

/-- The messages that an iteration takes from the connection of a participant. -/
def taken (id : UInt64) (step : LiveStep σ) : List Bytes :=
  if step.entered.verified[id]?.isSome then step.entered.server.pending id .lockstep else []

/-- A connection is one of a participant. -/
def Participates (id : UInt64) (step : LiveStep σ) : Prop :=
  step.entered.verified[id]?.isSome = true ∧ step.entered.server.isConnected id = true

section

variable {step : LiveStep σ} {id : UInt64}

omit [SessionSimulation σ] in
theorem taken_outside (outside : ¬ Participates id step) : taken id step = [] := by
  unfold taken
  by_cases known : step.entered.verified[id]?.isSome = true
  · rw [if_pos known]
    apply pending_of_disconnected
    exact Bool.eq_false_iff.mpr fun connected => outside ⟨known, connected⟩
  · rw [if_neg known]

/-- The commands tagged with a participant are those that its messages contain. -/
theorem tagged_remote (inputs : step.advance.inputs = step.entered.available step.input)
    (id : UInt64) : tagged (.remote id) step.advance =
      acceptedCommands step.before.sim id (taken id step) := by
  have enters := Authority.same_entered step.before step.input
  have offers : step.entered.gathering.offered step.entered.sim id =
      acceptedCommands step.before.sim id (taken id step) := by
    unfold Gathering.offered taken
    change (if step.entered.verified[id]?.isSome = true then
      acceptedCommands step.entered.sim id (step.entered.server.pending id .lockstep) else []) = _
    rw [show step.entered.sim = step.before.sim from enters.sim]
    by_cases known : step.entered.verified[id]?.isSome = true
    · rw [if_pos known, if_pos known]
    · rw [if_neg known, if_neg known]
      rfl
  unfold tagged
  rw [inputs]
  unfold Authority.available Gathering.available
  rw [List.filter_append, Gathering.filter_hosted, if_neg ParticipantId.noConfusion,
    List.append_nil, List.filter_flatMap]
  simp only [Gathering.filter_offered]
  rw [flatMap_of_unique id (step.entered.nodup_clients step.input), if_pos rfl, offers]
  · by_cases listed : id ∈ step.entered.clients step.input
    · rw [if_pos listed]
    · rw [if_neg listed, taken_outside]
      · rfl
      · rintro ⟨known, connected⟩
        obtain ⟨verified, known⟩ := Option.isSome_iff_exists.mp known
        exact listed (Authority.mem_clients step.input known connected)
  · intro other different
    rw [if_neg]
    intro same
    exact different (ParticipantId.remote.inj same).symm

/-- The commands tagged with the host are the first of the local queue. -/
theorem tagged_host (inputs : step.advance.inputs = step.entered.available step.input) :
    tagged .host step.advance = (step.input.inputs.take 256).map Gathering.hosted := by
  unfold tagged
  rw [inputs]
  unfold Authority.available Gathering.available
  rw [List.filter_append, Gathering.filter_hosted, if_pos rfl, List.filter_flatMap]
  simp only [Gathering.filter_offered]
  simp

end

/-- What a participant sent so far was taken in its order, each message once. -/
structure Taken (id : UInt64) (start : Authority σ) (steps : List (LiveStep σ))
    (pending : List Bytes) : Prop where
  all : steps.flatMap (taken id) ++ pending =
    start.server.pending id .lockstep ++ delivered id .lockstep steps
  valid : ∀ step ∈ steps, ∀ bytes ∈ taken id step, Commands step.before.sim bytes

section

variable {policy : DesyncPolicy} {start current next : Authority σ} {steps : List (LiveStep σ)}
  {input : TickInput} {id verified : UInt64}

/-- In an iteration, what is pending of a participant was just delivered. -/
theorem Taken.entered (earlier : Taken id start steps (current.server.pending id .lockstep))
    (known : (current.entered input).verified[id]? = some verified)
    (connected : (current.entered input).server.isConnected id = true) :
    steps.flatMap (taken id) ++ (current.entered input).server.pending id .lockstep =
      start.server.pending id .lockstep ++
        (delivered id .lockstep steps ++ deliveries id .lockstep input.actions) := by
  rw [(Authority.pending_entered known connected .lockstep).2, ← List.append_assoc, earlier.all,
    List.append_assoc]

/-- While a participant is connected, all that it sent so far was taken, and all valid. -/
theorem LiveRun.taken (run : LiveRun policy start steps current)
    (known : current.verified[id]? = some verified)
    (connected : current.server.isConnected id = true) :
    Taken id start steps (current.server.pending id .lockstep) := by
  induction run generalizing verified with
  | here =>
      refine ⟨(List.append_nil _).symm, ?_⟩
      intro step impossible
      cases impossible
  | @iteration steps current next input advance run returns iterated ih =>
      obtain ⟨⟨earlier, entered⟩, connected'⟩ :=
        Authority.participant_of_iteration returns known connected
      obtain ⟨middle, bytes, ⟨drained, valid⟩, server, same⟩ :=
        Authority.iteration_of_service returns entered connected'
          (fun gathering => gathering.server.pending id .lockstep = [] ∧
            (gathering.server.isConnected id = true →
              ∀ bytes ∈ (current.entered input).server.pending id .lockstep,
                Commands current.sim bytes))
          (by
            intro before after connections _ held
            rw [pending_congr connections, isConnected_congr connections]
            exact held)
          (by
            intro gathering connections known
            rw [← pending_congr connections]
            apply (Gathering.ensures_service_drains current.sim policy current.hashes id known).mono
            · intro _ next outcome
              exact ⟨outcome.1.1, outcome.2⟩
            · intro _ _ _
              trivial)
      rw [server, isConnected_broadcastMessage] at connected
      have before := ih (Authority.verified_entered entered)
        (Authority.pending_entered entered connected' .lockstep).1
      have now : Synctick.taken id ⟨current, input, advance, next⟩ =
          (current.entered input).server.pending id .lockstep := by
        unfold Synctick.taken
        apply if_pos
        change (current.entered input).verified[id]?.isSome = true
        rw [entered]
        rfl
      constructor
      · rw [server, pending_broadcastMessage, drained, List.append_nil, List.flatMap_append,
          delivered_concat, ← before.entered entered connected', ← now]
        simp
      · intro step member bytes among
        rcases List.mem_append.mp member with front | last
        · exact before.valid step front bytes among
        · cases List.mem_singleton.mp last
          rw [now] at among
          exact valid connected bytes among

end

/-- An iteration broadcasts one tick, of all commands that were available, or it fails. -/
theorem Authority.ensures_iteration_broadcasts (policy : DesyncPolicy) (input : TickInput)
    (authority : Authority σ) :
    Ensures (iteration policy input) authority (fun _ _ => True)
      (fun _ next => next.server.broadcasts = authority.server.broadcasts ∨
        ∃ advance : TickAdvance, advance.inputs = (authority.entered input).available input ∧
          next.server.broadcasts = authority.server.broadcasts ++
            [(.lockstep, encode (ServerMessage.tick advance))]) := by
  have enters := same_entered authority input
  unfold iteration
  rw [ensures_bind]
  apply (ensures_failWith input.network authority).mono
  · intro _ start outcome
    obtain ⟨_, same⟩ := outcome
    subst same
    rw [ensures_bind, ensures_modify, ensures_bind, ensures_modify, ensures_bind]
    apply (ensures_gather policy input (start.entered input)).mono
    · intro inputs middle outcome
      obtain ⟨same, gathered⟩ := outcome
      subst same
      have kept := (enters.trans gathered.same).broadcasts
      rw [ensures_bind]
      apply (ensures_sequence _ middle).mono
      · intro tick after outcome
        obtain ⟨_, _, sequences⟩ := outcome
        apply (ensures_checkpoint tick after).mono
        · intro _ _ _
          trivial
        · intro _ next outcome
          obtain ⟨writer, flushed, ioError, _, _, _, _, same⟩ := outcome
          right
          refine ⟨{ tick, inputs := (start.entered input).available input }, rfl, ?_⟩
          have sent := sequences.broadcast
          rw [same, ← kept]
          exact congrArg RenetServer.broadcasts sent
      · intro _ next stopped
        cases stopped with
        | exhausted => exact Or.inl kept
        | oversized => exact Or.inl kept
        | unrecorded => exact Or.inl kept
        | @rejected tick writer _ sim =>
            right
            refine ⟨{ tick, inputs := (start.entered input).available input }, rfl, ?_⟩
            rw [← kept]
            rfl
    · intro _ next outcome
      exact Or.inl (enters.trans outcome.2).broadcasts
  · intro _ next failed
    rw [failed.2]
    exact Or.inl rfl

omit [SessionSimulation σ] in
/-- How the local queue develops, of which each iteration sees what was left and what was
submitted since: all that was submitted, and what is left. -/
inductive HostQueue (queued : List CommandPayload) :
    List (LiveStep σ) → List CommandPayload → List CommandPayload → Prop
  | here : HostQueue queued [] queued queued
  | iteration {steps : List (LiveStep σ)} {submitted left : List CommandPayload}
      {step : LiveStep σ} (earlier : HostQueue queued steps submitted left)
      (more : List CommandPayload) (sees : step.input.inputs = left ++ more) :
      HostQueue queued (steps ++ [step]) (submitted ++ more) (step.input.inputs.drop 256)

/-- What was submitted so far is in the ticks so far, or left in the queue. -/
theorem HostQueue.tagged {queued submitted left : List CommandPayload} {steps : List (LiveStep σ)}
    (develops : HostQueue queued steps submitted left)
    (inputs : ∀ step ∈ steps, step.advance.inputs = step.entered.available step.input) :
    steps.flatMap (fun step => Synctick.tagged .host step.advance) ++
      left.map Gathering.hosted = submitted.map Gathering.hosted := by
  induction develops with
  | here => rfl
  | @iteration steps submitted left step earlier more sees ih =>
      have before := ih fun step member => inputs step (List.mem_append_left _ member)
      have now := tagged_host (inputs step (List.mem_append_right _ (List.mem_singleton_self _)))
      rw [List.flatMap_append, List.flatMap_singleton, now, List.append_assoc, ← List.map_append,
        List.take_append_drop, sees, List.map_append, ← List.append_assoc, before, List.map_append]

/-- The iterations of a live loop that reached the broadcast, of which the last one may have
failed after it: each tick holds what its participants and its host submitted. -/
structure Sequencing (policy : DesyncPolicy) (start : Authority σ) (steps : List (LiveStep σ))
    (next : Authority σ) : Prop where
  runs : ∀ front step back, steps = front ++ step :: back → LiveRun policy start front step.before
  broadcasts : next.server.broadcasts = start.server.broadcasts ++
    steps.map fun step => (.lockstep, encode (ServerMessage.tick step.advance))
  remote : ∀ id, ∀ step ∈ steps, tagged (.remote id) step.advance =
    acceptedCommands step.before.sim id (taken id step)
  outside : ∀ id, ∀ step ∈ steps, ¬ Participates id step → tagged (.remote id) step.advance = []
  arrived : ∀ id front step back, steps = front ++ step :: back → Participates id step →
    (front ++ [step]).flatMap (taken id) =
        start.server.pending id .lockstep ++ delivered id .lockstep (front ++ [step]) ∧
      ∀ earlier ∈ front, ∀ bytes ∈ taken id earlier, Commands earlier.before.sim bytes
  host : ∀ step ∈ steps, tagged .host step.advance =
    (step.input.inputs.take 256).map Gathering.hosted
  queue : ∀ queued submitted left, HostQueue queued steps submitted left →
    steps.flatMap (fun step => tagged .host step.advance) ++ left.map Gathering.hosted =
      submitted.map Gathering.hosted

/-- Iterations that each broadcast what was available are such a sequence. -/
theorem sequencing_of_available {policy : DesyncPolicy} {start next : Authority σ}
    {steps : List (LiveStep σ)}
    (runs : ∀ front step back, steps = front ++ step :: back →
      LiveRun policy start front step.before)
    (inputs : ∀ step ∈ steps, step.advance.inputs = step.entered.available step.input)
    (broadcasts : next.server.broadcasts = start.server.broadcasts ++
      steps.map fun step => (.lockstep, encode (ServerMessage.tick step.advance))) :
    Sequencing policy start steps next where
  runs := runs
  broadcasts := broadcasts
  remote id step member := tagged_remote (inputs step member) id
  outside id step member outside := by
    rw [tagged_remote (inputs step member) id, taken_outside outside]
    rfl
  arrived id front step back split participates := by
    obtain ⟨known, connected⟩ := participates
    obtain ⟨verified, there⟩ := Option.isSome_iff_exists.mp known
    have run := runs front step back split
    have earlier := run.taken (Authority.verified_entered there)
      (Authority.pending_entered there connected .lockstep).1
    refine ⟨?_, earlier.valid⟩
    have now : taken id step = step.entered.server.pending id .lockstep := if_pos known
    rw [List.flatMap_append, List.flatMap_singleton, now, delivered_concat]
    exact earlier.entered there connected
  host step member := tagged_host (inputs step member)
  queue queued submitted left develops := develops.tagged inputs

/-- The inputs of a live loop are sequenced by their origin, in order and each once, up to the
first invalid message of a connection, and nobody can send a command under another name. There
is one step for each input, up to the one that fails, if any, where it reached the broadcast. -/
theorem inputs_keep_origin (policy : DesyncPolicy) (inputs : List TickInput)
    (start : Authority σ) :
    Ensures (Authority.tickLoop policy inputs) start
      (fun _ next => ∃ steps, LiveRun policy start steps next ∧
        steps.map LiveStep.input = inputs ∧ Sequencing policy start steps next)
      (fun _ next => ∃ front input back steps, inputs = front ++ input :: back ∧
        (steps.map LiveStep.input = front ∨ steps.map LiveStep.input = front ++ [input]) ∧
        Sequencing policy start steps next) ∧
    (∀ (sim : σ) (id : UInt64) (front rest : List Bytes),
      (∀ message ∈ front, Commands sim message) →
      (∀ message ∈ rest.head?, ¬ Commands sim message) →
      List.Forall₂ (fun message command => command.participant = .remote id ∧
          decodeClientMessage message = .ok (.input command.payload))
        front (acceptedCommands sim id (front ++ rest))) ∧
    ∀ (sim : σ) (id : UInt64) (messages : List Bytes),
      ∀ command ∈ acceptedCommands sim id messages, command.participant = .remote id := by
  have complete {steps : List (LiveStep σ)} {current : Authority σ}
      (run : LiveRun policy start steps current) :
      ∀ step ∈ steps, step.advance.inputs = step.entered.available step.input := by
    intro step member
    exact (run.iterated member).inputs
  have broadcasts {steps : List (LiveStep σ)} {current : Authority σ}
      (run : LiveRun policy start steps current) : current.server.broadcasts =
        start.server.broadcasts ++
          steps.map fun step => (.lockstep, encode (ServerMessage.tick step.advance)) := by
    rw [run.running.broadcasts, List.map_map]
    rfl
  refine ⟨?_, fun _ _ _ _ => acceptedCommands_stops,
    fun _ _ _ => participant_acceptedCommands⟩
  refine (ensures_forEach_along (Authority.iteration policy) inputs
    (fun front current => ∃ steps, LiveRun policy start steps current ∧
      steps.map LiveStep.input = front ∧ Sequencing policy start steps current)
    (fun front input _ next => ∃ steps, (steps.map LiveStep.input = front ∨
      steps.map LiveStep.input = front ++ [input]) ∧ Sequencing policy start steps next) ?_ ?_).mono
    (fun _ _ outcome => outcome) ?_
  · intro front input current outcome
    obtain ⟨steps, run, same, sequencing⟩ := outcome
    have longer (advance : TickAdvance) (next : Authority σ) :
        (steps ++ [(⟨current, input, advance, next⟩ : LiveStep σ)]).map LiveStep.input =
          front ++ [input] := by
      rw [List.map_append, same]
      rfl
    apply (((Authority.ensures_iteration policy input current).and (ensures_self _ _)).and
      (Authority.ensures_iteration_broadcasts policy input current)).mono
    · intro _ next outcome
      obtain ⟨⟨⟨advance, iterated⟩, returns⟩, _⟩ := outcome
      have further := run.iteration returns iterated
      exact ⟨_, further, longer advance next, sequencing_of_available
        (fun _ _ _ split => further.before split) (complete further) (broadcasts further)⟩
    · intro error next outcome
      rcases outcome.2 with none | ⟨advance, available, sent⟩
      · exact ⟨steps, Or.inl same, { sequencing with
          broadcasts := none.trans sequencing.broadcasts }⟩
      · refine ⟨steps ++ [⟨current, input, advance, next⟩], Or.inr (longer advance next),
          sequencing_of_available ?_ ?_ ?_⟩
        · intro front step back split
          rcases split_concat split with ⟨same, rfl⟩ | ⟨earlier, split⟩
          · rw [same]
            exact run
          · exact run.before split
        · intro step member
          rcases List.mem_append.mp member with earlier | last
          · exact complete run step earlier
          · rw [List.mem_singleton.mp last]
            exact available
        · rw [sent, broadcasts run, List.append_assoc, List.map_append]
          rfl
  · exact ⟨[], .here, rfl, sequencing_of_available
      (fun _ _ _ split => (LiveRun.here).before split)
      (fun _ impossible => nomatch impossible) (List.append_nil _).symm⟩
  · intro _ next failed
    obtain ⟨front, input, back, split, steps, counted, sequencing⟩ := failed
    exact ⟨front, input, back, steps, split, counted, sequencing⟩

/-- A live session with two participants and a connection that is not one. -/
def crowded : Authority (Adapter tallyGame) where
  server := { connections := fun id => if id ∈ [7, 8, 9] then some {} else none }
  sim := tallyAdapter
  verified := ((∅ : ExtTreeMap UInt64 UInt64).insert 7 0).insert 9 0

/-- A message with a command of one byte. -/
def commanding (command : UInt8) : Bytes := encode (ClientMessage.input ⟨[command]⟩)

/-- All connections send commands, the ninth one also something that is none, and the host
submits two. -/
def crowdedTicks : List TickInput :=
  [{ actions := [.deliver 9 .lockstep (commanding 1), .deliver 7 .lockstep (commanding 5),
      .deliver 8 .lockstep (commanding 3), .deliver 9 .lockstep [255],
      .deliver 9 .lockstep (commanding 2), .deliver 7 .lockstep (commanding 6)],
     order := [9, 8],
     distinct := List.nodup_cons.mpr ⟨by decide, List.nodup_singleton _⟩,
     inputs := [⟨[4]⟩] },
   { actions := [.deliver 7 .lockstep (commanding 8), .deliver 9 .lockstep (commanding 2)],
     distinct := List.nodup_nil,
     inputs := [⟨[10]⟩] }]

theorem inputs_keep_origin_crowded : ∃ (next : Authority (Adapter tallyGame))
    (steps : List (LiveStep (Adapter tallyGame))),
    Authority.tickLoop .disconnect crowdedTicks crowded = .ok () next ∧
    next.server.broadcasts = [
      (.lockstep, encode (ServerMessage.tick { tick := 1, inputs := [⟨.remote 9, ⟨[1]⟩⟩,
        ⟨.remote 7, ⟨[5]⟩⟩, ⟨.remote 7, ⟨[6]⟩⟩, ⟨.host, ⟨[4]⟩⟩] })),
      (.lockstep, encode (ServerMessage.tick { tick := 2, inputs := [
        ⟨.remote 7, ⟨[8]⟩⟩, ⟨.host, ⟨[10]⟩⟩] }))] ∧
    steps.map LiveStep.input = crowdedTicks ∧ Sequencing .disconnect crowded steps next := by
  have goes : (Authority.tickLoop .disconnect crowdedTicks).passes crowded fun next =>
      decide (next.server.broadcasts = [
        (.lockstep, encode (ServerMessage.tick { tick := 1, inputs := [⟨.remote 9, ⟨[1]⟩⟩,
          ⟨.remote 7, ⟨[5]⟩⟩, ⟨.remote 7, ⟨[6]⟩⟩, ⟨.host, ⟨[4]⟩⟩] })),
        (.lockstep, encode (ServerMessage.tick { tick := 2, inputs := [
          ⟨.remote 7, ⟨[8]⟩⟩, ⟨.host, ⟨[10]⟩⟩] }))]) := by
    decide +kernel
  obtain ⟨_, next, returns, holds⟩ := returns_of_passes goes
  have origin := inputs_keep_origin .disconnect crowdedTicks crowded
  rw [Ensures, returns] at origin
  obtain ⟨⟨steps, _, same, sequencing⟩, _⟩ := origin
  exact ⟨next, steps, returns, of_decide_eq_true holds, same, sequencing⟩

end Synctick
