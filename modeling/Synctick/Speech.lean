import Synctick.Agreement
import Synctick.Lifecycle
import Synctick.Server.Reporting

/-! # What a replica says

Until it goes live a replica neither commands nor reports anything. Live, it reports the
fingerprints of the ticks that it heard, one for each that is a multiple of the hash interval.
-/

namespace Synctick

open SessionSimulation Effect

/-- The commands among the messages of a client. -/
def spoken (messages : List Bytes) : List CommandPayload :=
  messages.filterMap fun bytes =>
    match decodeClientMessage bytes with
    | .ok (.input payload) => some payload
    | _ => none

/-- Commands come in the order of their messages. -/
@[simp] theorem spoken_append (front back : List Bytes) :
    spoken (front ++ back) = spoken front ++ spoken back := List.filterMap_append

/-- What is no command says none. -/
theorem spoken_encode {message : ClientMessage} (other : ∀ payload, message ≠ .input payload) :
    spoken [encode message] = [] := by
  have decodes := decodeClientMessage_encode message fun payload same => (other payload same).elim
  unfold spoken
  rw [List.filterMap_cons, decodes]
  cases message with
  | input payload => exact (other payload rfl).elim
  | progress => rfl
  | ready => rfl

/-- The first messages say the first commands. -/
theorem spoken_mono {front messages : List Bytes} (first : front <+: messages) :
    spoken front <+: spoken messages := by
  obtain ⟨back, rfl⟩ := first
  rw [spoken_append]
  exact List.prefix_append _ _

/-- The ticks among the messages of a server. -/
def heardTicks (messages : List Bytes) : List TickAdvance :=
  broadcastTicks (messages.map (Prod.mk .lockstep))

/-- Ticks come in the order of their messages. -/
@[simp] theorem heardTicks_append (front back : List Bytes) :
    heardTicks (front ++ back) = heardTicks front ++ heardTicks back := by
  unfold heardTicks
  rw [List.map_append, broadcastTicks_append]

/-- A tick is heard as it was sent. -/
theorem heardTicks_tick {bytes : Bytes} {advance : TickAdvance}
    (decodes : decodeServerMessage bytes = .ok (.tick advance)) : heardTicks [bytes] = [advance] := by
  simp [heardTicks, broadcastTicks, decodes]

/-- A `Start` is no tick. -/
theorem heardTicks_start {bytes : Bytes} {tick hash : UInt64}
    (decodes : decodeServerMessage bytes = .ok (.start tick hash)) : heardTicks [bytes] = [] := by
  simp [heardTicks, broadcastTicks, decodes]

/-- A part of the stream of an authority has its first ticks. -/
theorem heardTicks_of_hears {metadata : SaveMetadata} {ticks : List TickAdvance}
    (broadcastable : ∀ advance ∈ ticks, advance.Broadcastable) {received : List Bytes}
    (hears : received <+: lockstepMessages metadata ticks) : heardTicks received <+: ticks := by
  obtain ⟨back, whole⟩ := hears
  have all : heardTicks (lockstepMessages metadata ticks) = ticks :=
    broadcastTicks_lockstepMessages metadata broadcastable
  rw [← all, ← whole, heardTicks_append]
  exact List.prefix_append _ _

/-- The reports of those ticks that are multiples of an interval. -/
def reportsOf (interval : UInt64) (entries : List (UInt64 × UInt64)) : List Bytes :=
  (entries.filter fun entry => entry.1 % interval = 0).map report

/-- Ticks are reported in their order. -/
@[simp] theorem reportsOf_append (interval : UInt64) (front back : List (UInt64 × UInt64)) :
    reportsOf interval (front ++ back) = reportsOf interval front ++ reportsOf interval back := by
  simp [reportsOf]

variable {σ κ : Type} [SessionSimulation σ]

/-- From `first`, a session applied ticks, and had these fingerprints after each of them. -/
inductive Fingerprints (first : σ) : List TickAdvance → List (UInt64 × UInt64) → σ → Prop
  | here : Fingerprints first [] [] first
  | publish {ticks : List TickAdvance} {entries : List (UInt64 × UInt64)} {sim next : σ}
      (earlier : Fingerprints first ticks entries sim)
      (publishes : SessionSimulation.publish sim = .ok () next) :
      Fingerprints first ticks entries next
  | tick {ticks : List TickAdvance} {entries : List (UInt64 × UInt64)} {advance : TickAdvance}
      {phase : TickPhase} {sim next : σ} (earlier : Fingerprints first ticks entries sim)
      (applies : TickApplied advance sim phase next) :
      Fingerprints first (ticks ++ [advance]) (entries ++ [(advance.tick, stateHash next)]) next

namespace Fingerprints

variable {state : σ → κ} {first other sim last : σ} {ticks front back : List TickAdvance}
  {entries entries' : List (UInt64 × UInt64)}

/-- A session that had these fingerprints applied these ticks. -/
theorem evolves (prints : Fingerprints first ticks entries sim) : Evolves first ticks sim := by
  induction prints with
  | here => exact .here
  | publish _ publishes ih => exact ih.publish publishes
  | tick _ applies ih => exact ih.tick applies

/-- Without a tick there is no fingerprint. -/
theorem entries_of_nothing (prints : Fingerprints first ticks entries sim) (nothing : ticks = []) :
    entries = [] := by
  induction prints with
  | here => rfl
  | publish _ _ ih => exact ih nothing
  | tick => cases (List.append_eq_nil_iff.mp nothing).2

/-- The fingerprint of the last tick comes after those of the earlier ones. -/
theorem last_tick (prints : Fingerprints first ticks entries sim) {advance : TickAdvance}
    (split : ticks = front ++ [advance]) :
    ∃ earlier before phase next, Fingerprints first front earlier before ∧
      TickApplied advance before phase next ∧
      entries = earlier ++ [(advance.tick, stateHash next)] := by
  induction prints with
  | here => cases (List.append_eq_nil_iff.mp split.symm).2
  | publish _ _ ih => exact ih split
  | @tick _ earlier _ phase before next prints applies =>
      obtain ⟨rfl, newest⟩ := List.append_inj' split rfl
      cases newest
      exact ⟨earlier, before, phase, next, prints, applies, rfl⟩

/-- Sessions that start alike and apply the same ticks have the same fingerprints. -/
theorem same (deterministic : Deterministic state)
    (prints : Fingerprints first ticks entries sim)
    (again : Fingerprints other ticks entries' last) (alike : state first = state other) :
    entries = entries' := by
  induction prints generalizing entries' last with
  | here => exact (again.entries_of_nothing rfl).symm
  | publish _ _ ih => exact ih again
  | @tick ticks entries advance phase before next earlier applies ih =>
      obtain ⟨earlier', before', phase', next', again, applies', split⟩ := again.last_tick rfl
      have alike := deterministic.alike_of_evolves earlier.evolves again.evolves alike
      have hashes := deterministic.hash (deterministic.alike_of_applied applies applies' alike)
      rw [split, ih again, hashes]

/-- What was applied first has the first fingerprints. -/
theorem before (prints : Fingerprints first ticks entries sim) (split : ticks = front ++ back) :
    ∃ earlier middle, Fingerprints first front earlier middle ∧ earlier <+: entries := by
  induction prints generalizing back with
  | here =>
      rw [(List.append_eq_nil_iff.mp split.symm).1]
      exact ⟨[], first, .here, List.prefix_refl _⟩
  | publish _ _ ih => exact ih split
  | @tick ticks entries advance phase before next earlier applies ih =>
      rcases List.eq_nil_or_concat back with rfl | ⟨rest, newest, rfl⟩
      · rw [List.append_nil] at split
        rw [← split]
        exact ⟨_, next, earlier.tick applies, List.prefix_refl _⟩
      · rw [List.concat_eq_append, ← List.append_assoc] at split
        obtain ⟨split, _⟩ := List.append_inj' split rfl
        obtain ⟨front', middle, prints, first⟩ := ih split
        exact ⟨front', middle, prints, first.trans (List.prefix_append _ _)⟩

/-- A session that follows another one has the first of its fingerprints. -/
theorem entries_of_within (deterministic : Deterministic state)
    (prints : Fingerprints first ticks entries sim)
    (follows : Fingerprints other front entries' last) (alike : state first = state other)
    (within : front <+: ticks) : entries' <+: entries := by
  obtain ⟨back, split⟩ := within
  obtain ⟨earlier, middle, prints, first⟩ := prints.before split.symm
  rw [← prints.same deterministic follows alike]
  exact first

end Fingerprints

/-- The completed iterations of an authority have its fingerprints. -/
theorem LiveRun.fingerprints {policy : DesyncPolicy} {start current : Authority σ}
    {steps : List (LiveStep σ)} (run : LiveRun policy start steps current) :
    Fingerprints start.sim (steps.map LiveStep.advance) (completed steps) current.sim := by
  induction run with
  | here => exact .here
  | iteration run returns iterated ih =>
      rw [List.map_append, completed_append]
      exact ih.tick iterated.applies

namespace Replica

/-- A replica between two messages, that was delivered `got`, and of whose messages `said` were
delivered. -/
structure Voices (last : σ) (interval : UInt64) (got said : Mailbox) (replica : Replica σ) :
    Prop where
  silent (waits : replica.startup.isLive = false) : got .lockstep = replica.incoming .lockstep ∧
    spoken (said .lockstep ++ replica.outgoing .lockstep) = [] ∧
    said .desync ++ replica.outgoing .desync = []
  speaks (live : replica.startup.isLive = true) : ∃ received entries, received ≠ [] ∧
    got .lockstep = received ++ replica.incoming .lockstep ∧
    Fingerprints last (heardTicks received) entries replica.sim ∧
    said .desync ++ replica.outgoing .desync = reportsOf interval entries

/-- What a replica said, wherever it stopped. -/
structure Spoke (last : σ) (interval : UInt64) (got said outgoing : Mailbox) : Prop where
  unheard (nothing : got .lockstep = []) : spoken (said .lockstep ++ outgoing .lockstep) = []
  reports : ∃ received entries sim, received <+: got .lockstep ∧
    Fingerprints last (heardTicks received) entries sim ∧
    said .desync ++ outgoing .desync = reportsOf interval entries

/-- What a replica does around its startup: it takes the save and reports its progress. -/
structure Mutters (replica next : Replica σ) : Prop where
  live : next.startup.isLive = replica.startup.isLive
  sim : replica.startup.isLive = true → next.sim = replica.sim
  incoming : next.incoming .lockstep = replica.incoming .lockstep
  lockstep : ∃ more, next.outgoing .lockstep = replica.outgoing .lockstep ++ more ∧ spoken more = []
  elsewhere : ∀ channel, channel ≠ .lockstep → next.outgoing channel = replica.outgoing channel

variable {state : σ → κ} {save : Bytes} {metadata : SaveMetadata} {initial last : σ}
  {ticks : List TickAdvance} {interval : UInt64} {got said : Mailbox}
  {replica middle next : Replica σ}

/-- Wherever a replica that runs is stopped, it said the commands and reports up to there. -/
theorem Voices.spoke (voices : Voices last interval got said replica) :
    Spoke last interval got said replica.outgoing := by
  cases live : replica.startup.isLive with
  | false =>
      obtain ⟨_, commands, reports⟩ := voices.silent live
      exact ⟨fun _ => commands, [], [], last, List.nil_prefix, .here, reports⟩
  | true =>
      obtain ⟨received, entries, some, heard, prints, reports⟩ := voices.speaks live
      refine ⟨?_, received, entries, _, ?_, prints, reports⟩
      · intro nothing
        rw [nothing] at heard
        exact (some (List.append_eq_nil_iff.mp heard.symm).1).elim
      · rw [heard]
        exact List.prefix_append _ _

omit [SessionSimulation σ] in
/-- A replica that sends nothing. -/
theorem mutters_of_same (live : next.startup.isLive = replica.startup.isLive)
    (sim : replica.startup.isLive = true → next.sim = replica.sim)
    (incoming : next.incoming .lockstep = replica.incoming .lockstep)
    (outgoing : next.outgoing = replica.outgoing) : Mutters replica next where
  live := live
  sim := sim
  incoming := incoming
  lockstep := ⟨[], by rw [outgoing, List.append_nil], rfl⟩
  elsewhere _ _ := by rw [outgoing]

omit [SessionSimulation σ] in
/-- A replica that sends a message that is no command. -/
theorem mutters_of_sent (live : next.startup.isLive = replica.startup.isLive)
    (sim : replica.startup.isLive = true → next.sim = replica.sim)
    (incoming : next.incoming .lockstep = replica.incoming .lockstep) {bytes : Bytes}
    (outgoing : next.outgoing = replica.outgoing.push .lockstep bytes)
    (harmless : spoken [bytes] = []) : Mutters replica next where
  live := live
  sim := sim
  incoming := incoming
  lockstep := ⟨[bytes], by rw [outgoing, Mailbox.push_same], harmless⟩
  elsewhere _ other := by rw [outgoing, Mailbox.push_other _ _ other]

omit [SessionSimulation σ] in
theorem Mutters.refl (replica : Replica σ) : Mutters replica replica :=
  mutters_of_same rfl (fun _ => rfl) rfl rfl

omit [SessionSimulation σ] in
/-- What is done around the startup in two steps is done around it. -/
theorem Mutters.trans (first : Mutters replica middle) (second : Mutters middle next) :
    Mutters replica next where
  live := second.live.trans first.live
  sim live := (second.sim (first.live.trans live)).trans (first.sim live)
  incoming := second.incoming.trans first.incoming
  lockstep := by
    obtain ⟨more, sent, harmless⟩ := first.lockstep
    obtain ⟨more', sent', harmless'⟩ := second.lockstep
    refine ⟨more ++ more', ?_, ?_⟩
    · rw [sent', sent, List.append_assoc]
    · rw [spoken_append, harmless, harmless', List.append_nil]
  elsewhere channel other := (second.elsewhere channel other).trans (first.elsewhere channel other)

omit [SessionSimulation σ] in
/-- Nothing is reported around the startup. -/
theorem Mutters.desync (mutters : Mutters replica next) :
    next.outgoing .desync = replica.outgoing .desync := mutters.elsewhere _ Channel.noConfusion

/-- What a replica does around its startup says no command and reports no fingerprint. -/
theorem Voices.mutters (voices : Voices last interval got said replica)
    (mutters : Mutters replica next) : Voices last interval got said next where
  silent waits := by
    rw [mutters.live] at waits
    obtain ⟨unheard, commands, reports⟩ := voices.silent waits
    obtain ⟨more, sent, harmless⟩ := mutters.lockstep
    rw [mutters.incoming, mutters.desync, sent, ← List.append_assoc, spoken_append, commands,
      harmless]
    exact ⟨unheard, rfl, reports⟩
  speaks live := by
    rw [mutters.live] at live
    rw [mutters.sim live, mutters.incoming, mutters.desync]
    exact voices.speaks live

omit [SessionSimulation σ] in
/-- Receiving a message of the save is around the startup. -/
theorem mutters_receiveSave (replica : Replica σ) :
    Ensures receiveSave replica (fun _ next => Mutters replica next)
      (fun _ next => Mutters replica next) := by
  unfold receiveSave
  rw [ensures_bind]
  cases incoming : replica.incoming .save with
  | nil =>
      rw [ensures_ok (receiveMessage_nil incoming)]
      exact .refl replica
  | cons bytes later =>
      rw [ensures_ok (receiveMessage_cons incoming)]
      dsimp only
      have popped : replica.incoming.pop .save .lockstep = replica.incoming .lockstep :=
        Mailbox.pop_other _ Channel.noConfusion
      cases decodeSaveMessage bytes with
      | error error => exact mutters_of_same rfl (fun _ => rfl) popped rfl
      | ok message =>
          unfold onStartup
          rw [ensures_zoom]
          apply (ClientStartup.isLive_receiveSave message replica.startup).mono
          · intro _ _ live
            exact mutters_of_same live (fun _ => rfl) popped rfl
          · intro _ _ live
            exact mutters_of_same live (fun _ => rfl) popped rfl

omit [SessionSimulation σ] in
/-- So is receiving all that are there. -/
theorem mutters_receiveSaves (replica : Replica σ) :
    Ensures receiveSaves replica (fun _ next => Mutters replica next)
      (fun _ next => Mutters replica next) := by
  unfold receiveSaves
  rw [ensures_bind, ensures_get]
  apply ensures_forEach _ (Mutters replica)
  · intro _ _ middle earlier
    apply (mutters_receiveSave middle).mono
    · intro _ _ mutters
      exact earlier.trans mutters
    · intro _ _ mutters
      exact earlier.trans mutters
  · exact .refl replica

omit [SessionSimulation σ] in
/-- So is a progress report. -/
theorem mutters_reporting (replica : Replica σ) (news : Prop) [Decidable news] :
    Mutters replica (if news then replica.reporting else replica) := by
  by_cases some : news
  · rw [if_pos some]
    exact mutters_of_sent rfl (fun _ => rfl) rfl rfl
      (spoken_encode fun _ => ClientMessage.noConfusion)
  · rw [if_neg some]
    exact .refl replica

/-- So is a step of the replay, also the one that makes the client ready. -/
theorem mutters_stepStartup (passes : Nat) (replica : Replica σ) :
    Ensures (stepStartup passes) replica (fun _ next => Mutters replica next)
      (fun _ next => Mutters replica next) := by
  by_cases replaying : ∃ metadata reader, replica.startup.phase = .replaying metadata reader
  · obtain ⟨metadata, reader, phase⟩ := replaying
    have waits : replica.startup.isLive = false := by
      rw [ClientStartup.isLive, phase]
    have loading {sim : σ} (live : replica.startup.isLive = true) : sim = replica.sim := by
      rw [waits] at live
      cases live
    apply (ensures_stepStartup passes phase).mono
    · rintro _ next ⟨result, startup, returns, rfl⟩
      cases returns with
      | more => exact mutters_of_same waits.symm loading rfl rfl
      | ready =>
          exact mutters_of_sent waits.symm loading rfl rfl
            (spoken_encode fun _ => ClientMessage.noConfusion)
    · rintro _ next ⟨startup, fails, rfl⟩
      have still : startup.1.isLive = false := by
        cases fails with
        | uninitialized => exact waits
        | stopped => rfl
        | exceeds => rfl
        | mismatch => rfl
      exact mutters_of_same (still.trans waits.symm) loading rfl rfl
  · rw [ensures_ok (stepStartup_elsewhere passes fun metadata reader phase =>
      replaying ⟨metadata, reader, phase⟩)]
    exact .refl replica

/-- So is all that loading does in an iteration. -/
theorem mutters_load (input : ClientInput) (replica : Replica σ) :
    Ensures (load input) replica (fun _ next => Mutters replica next)
      (fun _ next => Mutters replica next) := by
  unfold load
  rw [ensures_bind]
  apply (mutters_receiveSaves replica).mono
  · intro _ taken mutters
    rw [ensures_bind, ensures_ok (reportConsumption_eq taken), ensures_bind]
    have reported := mutters.trans
      (mutters_reporting taken (taken.startup.progress.1 ≠ taken.reported.1))
    apply (mutters_stepStartup input.passes _).mono
    · intro _ stepped steps
      rw [ensures_ok (reportLoading_eq input.progressDue stepped)]
      have shown := (reported.trans steps).trans (mutters_reporting stepped
        ((stepped.startup.isLoading ∧ input.progressDue) ∧
          stepped.startup.progress ≠ stepped.reported))
      exact ⟨shown.live, shown.sim, shown.incoming, shown.lockstep, shown.elsewhere⟩
    · intro _ _ steps
      exact reported.trans steps
  · intro _ _ mutters
    exact mutters

/-- A replica that awaits its start is where the save led. -/
def Arrived (last : σ) (replica : Replica σ) : Prop :=
  ∀ metadata, replica.startup.phase = .awaitingStart metadata → replica.sim = last

/-- A replica that agrees with its authority is where the save led when it awaits its start. -/
theorem Agrees.arrived {said : List Bytes}
    (agrees : Agrees save metadata initial last got said replica) : Arrived last replica := by
  intro announced awaits
  cases agrees.stage with
  | live live =>
      rw [awaits] at live
      cases live
  | loading _ _ _ _ _ track =>
      generalize replica.sim = sim at track
      cases track with
      | receiving phase =>
          rw [awaits] at phase
          cases phase
      | replaying phase =>
          rw [awaits] at phase
          cases phase
      | awaitingStart => rfl

/-- A live replica may say anything to the authority. -/
theorem Voices.send (voices : Voices last interval got said replica)
    (live : replica.startup.isLive = true) (bytes : Bytes) : Voices last interval got said
      { replica with outgoing := replica.outgoing.push .lockstep bytes } where
  silent waits := by
    cases live.symm.trans waits
  speaks _ := by
    obtain ⟨received, entries, some, heard, prints, reports⟩ := voices.speaks live
    refine ⟨received, entries, some, heard, prints, ?_⟩
    change said .desync ++ replica.outgoing.push .lockstep bytes .desync = _
    rw [Mailbox.push_other _ _ Channel.noConfusion]
    exact reports

/-- Forwarding commands reports nothing, and says nothing before the client is live. -/
theorem voices_forwardInputs (input : ClientInput)
    (voices : Voices last interval got said replica) :
    Ensures (forwardInputs input) replica (fun _ next => Voices last interval got said next)
      (fun _ next => Voices last interval got said next) := by
  unfold forwardInputs
  rw [ensures_bind, ensures_get, ensures_bind]
  apply (ensures_forEach _ (fun next => Voices last interval got said next ∧
    next.startup = replica.startup) (fun _ _ => False) _ _ replica ⟨voices, rfl⟩).mono
  · intro _ next outcome
    by_cases closed : input.inputClosed ∧ input.inputs.length < 256
    · rw [if_pos closed]
      exact outcome.1
    · rw [if_neg closed]
      exact outcome.1
  · intro _ _ impossible
    exact impossible.elim
  · intro payload _ next outcome
    obtain ⟨voices, same⟩ := outcome
    by_cases live : replica.startup.isLive = true
    · rw [if_pos live]
      rw [← same] at live
      exact ⟨voices.send live _, same⟩
    · rw [if_neg live]
      exact ⟨voices, same⟩

/-- A tick that a replica applies is reported if it is a multiple of the interval. -/
theorem ensures_applyTick (advance : TickAdvance) (replica : Replica σ) :
    Ensures (applyTick advance) replica
      (fun _ next => ∃ sim, TickApplied advance replica.sim .live sim ∧
        next = { replica with
          sim
          outgoing := if advance.tick % hashInterval sim = 0 then
            replica.outgoing.push .desync (report (advance.tick, stateHash sim))
          else replica.outgoing })
      (fun _ next => ∃ sim, next = { replica with sim }) := by
  unfold applyTick
  rw [ensures_bind, ensures_zoom]
  apply (ensures_advanceTick advance .live replica.sim).mono
  · intro _ sim applies
    rw [ensures_bind, ensures_get]
    dsimp only
    by_cases multiple : advance.tick % hashInterval sim = 0
    · rw [if_pos multiple]
      refine ⟨sim, applies, ?_⟩
      rw [if_pos multiple]
      rfl
    · rw [if_neg multiple]
      refine ⟨sim, applies, ?_⟩
      rw [if_neg multiple]
  · intro _ sim _
    exact ⟨sim, rfl⟩

/-- A replica that awaits the start, and gets it, says nothing. -/
theorem voices_startLive (tick hash : UInt64) (arrived : Arrived last replica)
    {received : List Bytes} (some : received ≠ [])
    (heard : got .lockstep = received ++ replica.incoming .lockstep)
    (nothing : heardTicks received = [])
    (quiet : said .desync ++ replica.outgoing .desync = []) :
    Ensures (startLive tick hash) replica
      (fun _ next => Voices last interval got said next ∧ next.startup.isLive = true)
      (fun _ next => next.outgoing = replica.outgoing) := by
  unfold startLive onStartup
  rw [ensures_bind, ensures_zoom]
  apply (ClientStartup.ensures_start tick hash replica.startup).mono
  · rintro _ startup ⟨announced, awaits, _, _, rfl⟩
    rw [ensures_bind, ensures_zoom]
    apply (ensures_self _ _).mono
    · intro _ sim publishes
      change publish replica.sim = .ok () sim at publishes
      rw [arrived announced awaits] at publishes
      refine ⟨⟨fun impossible => (by cases impossible), fun _ => ?_⟩, rfl⟩
      refine ⟨received, [], some, heard, ?_, quiet⟩
      rw [nothing]
      exact .publish .here publishes
    · intro _ _ _
      rfl
  · intro _ _ _
    rfl

omit [SessionSimulation σ] in
/-- A live replica awaits no start. -/
theorem arrived_of_isLive (live : replica.startup.isLive = true) : Arrived last replica := by
  intro metadata awaits
  unfold ClientStartup.isLive at live
  rw [awaits] at live
  cases live

/-- A live replica does not start again. -/
theorem startLive_again (tick hash : UInt64) (live : replica.startup.isLive = true) :
    Ensures (startLive tick hash) replica (fun _ _ => False)
      (fun _ next => next.outgoing = replica.outgoing) := by
  unfold startLive onStartup
  rw [ensures_bind, ensures_zoom]
  apply (ClientStartup.ensures_start tick hash replica.startup).mono
  · rintro _ startup ⟨announced, awaits, _⟩
    unfold ClientStartup.isLive at live
    rw [awaits] at live
    cases live
  · intro _ _ _
    rfl

/-- A live replica reports the next tick if it is a multiple of the interval. -/
theorem voices_applyTick
    (paced : ∀ {ticks : List TickAdvance} {sim : σ}, Evolves last ticks sim →
      hashInterval sim = interval)
    (live : replica.startup.isLive = true) {advance : TickAdvance} {received : List Bytes}
    {ticks : List TickAdvance} {entries : List (UInt64 × UInt64)} (some : received ≠ [])
    (heard : got .lockstep = received ++ replica.incoming .lockstep)
    (newest : heardTicks received = ticks ++ [advance])
    (prints : Fingerprints last ticks entries replica.sim)
    (reports : said .desync ++ replica.outgoing .desync = reportsOf interval entries) :
    Ensures (applyTick advance) replica
      (fun _ next => Voices last interval got said next ∧ next.startup.isLive = true)
      (fun _ next => next.outgoing = replica.outgoing) := by
  apply (ensures_applyTick advance replica).mono
  · rintro _ next ⟨sim, applies, rfl⟩
    have further := prints.tick applies
    rw [← newest] at further
    refine ⟨⟨fun waits => (by cases live.symm.trans waits), fun _ => ?_⟩, live⟩
    refine ⟨received, _, some, heard, further, ?_⟩
    rw [paced further.evolves, reportsOf_append, ← reports, List.append_assoc]
    congr 1
    by_cases multiple : advance.tick % interval = 0
    · rw [if_pos multiple]
      simp [reportsOf, multiple]
    · rw [if_neg multiple]
      simp [reportsOf, multiple]
  · rintro _ next ⟨_, rfl⟩
    rfl

/-- Whatever the next message of the server is, a replica reports what it heard. -/
theorem voices_receiveServer
    (paced : ∀ {ticks : List TickAdvance} {sim : σ}, Evolves last ticks sim →
      hashInterval sim = interval)
    (voices : Voices last interval got said replica) (arrived : Arrived last replica) :
    Ensures receiveServer replica
      (fun _ next => Voices last interval got said next ∧ Arrived last next)
      (fun _ next => next.outgoing = replica.outgoing) := by
  unfold receiveServer
  rw [ensures_bind]
  cases incoming : replica.incoming .lockstep with
  | nil =>
      rw [ensures_ok (receiveMessage_nil incoming)]
      exact ⟨voices, arrived⟩
  | cons bytes later =>
      rw [ensures_ok (receiveMessage_cons incoming)]
      dsimp only
      have left : replica.incoming.pop .lockstep .lockstep = later := by
        rw [Mailbox.pop_same, incoming]
        rfl
      cases decodes : decodeServerMessage bytes with
      | error error => rfl
      | ok message =>
          cases message with
          | start tick hash =>
              dsimp only
              rw [ensures_bind]
              have outcome : Ensures (startLive tick hash)
                  { replica with incoming := replica.incoming.pop .lockstep }
                  (fun _ next => Voices last interval got said next ∧ next.startup.isLive = true)
                  (fun _ next => next.outgoing = replica.outgoing) := by
                cases live : replica.startup.isLive with
                | false =>
                    obtain ⟨unheard, _, quiet⟩ := voices.silent live
                    rw [incoming] at unheard
                    rw [← left] at unheard
                    exact voices_startLive tick hash arrived (List.cons_ne_nil bytes []) unheard
                      (heardTicks_start decodes) quiet
                | true =>
                    have live' : ({ replica with
                      incoming := replica.incoming.pop .lockstep } : Replica σ).startup.isLive =
                        true := live
                    exact (startLive_again tick hash live').mono
                      (fun _ _ impossible => impossible.elim) fun _ _ same => same
              exact outcome.mono (fun _ _ next => ⟨next.1, arrived_of_isLive next.2⟩)
                fun _ _ same => same
          | tick advance =>
              dsimp only
              rw [ensures_bind, ensures_get]
              dsimp only
              by_cases live : replica.startup.isLive = true
              · rw [if_pos live, ensures_bind]
                obtain ⟨received, entries, some, heard, prints, reports⟩ := voices.speaks live
                rw [incoming] at heard
                have onwards : got .lockstep =
                    (received ++ [bytes]) ++ replica.incoming.pop .lockstep .lockstep := by
                  rw [left, heard, List.append_assoc]
                  rfl
                have newest : heardTicks (received ++ [bytes]) =
                    heardTicks received ++ [advance] := by
                  rw [heardTicks_append, heardTicks_tick decodes]
                have live' : ({ replica with
                  incoming := replica.incoming.pop .lockstep } : Replica σ).startup.isLive =
                    true := live
                have outcome : Ensures (applyTick advance)
                    { replica with incoming := replica.incoming.pop .lockstep }
                    (fun _ next => Voices last interval got said next ∧
                      next.startup.isLive = true)
                    (fun _ next => next.outgoing = replica.outgoing) :=
                  voices_applyTick paced live' (List.append_ne_nil_of_left_ne_nil some _) onwards
                    newest prints reports
                exact outcome.mono (fun _ _ next => ⟨next.1, arrived_of_isLive next.2⟩)
                  fun _ _ same => same
              · rw [if_neg live]
                rfl

/-- With each message of the server a replica reports the tick that it applied, if its number is a
multiple of the interval. -/
theorem voices_receiveServers
    (paced : ∀ {ticks : List TickAdvance} {sim : σ}, Evolves last ticks sim →
      hashInterval sim = interval) (passes : Nat)
    (voices : Voices last interval got said replica) (arrived : Arrived last replica) :
    Ensures (receiveServers passes) replica (fun _ next => Voices last interval got said next)
      (fun _ next => Spoke last interval got said next.outgoing) := by
  induction passes generalizing replica with
  | zero => exact voices
  | succ passes ih =>
      unfold receiveServers
      rw [ensures_bind]
      apply (voices_receiveServer paced voices arrived).mono
      · rintro more next ⟨voices, arrived⟩
        cases more with
        | true => exact ih voices arrived
        | false => exact voices
      · intro _ next same
        rw [same]
        exact voices.spoke

/-- In an iteration, a replica that agrees with its authority says what it should. -/
theorem voices_iteration (deterministic : Deterministic state)
    (valid : ValidSave save metadata initial last)
    (paced : ∀ {ticks : List TickAdvance} {sim : σ}, Evolves last ticks sim →
      hashInterval sim = interval) (input : ClientInput) {heard : List Bytes}
    (agrees : Agrees save metadata initial last got heard replica)
    (voices : Voices last interval got said replica) :
    Ensures (iteration input) replica (fun _ next => Voices last interval got said next)
      (fun _ next => Spoke last interval got said next.outgoing) := by
  have keeps : FinishKeepsTick σ := fun sim => deterministic.tick (deterministic.finish sim)
  unfold iteration
  rw [ensures_bind]
  apply (ensures_failWith input.network replica).mono
  · intro _ start outcome
    rw [outcome.2, ensures_bind]
    apply ((agrees_forwardInputs input agrees).and (voices_forwardInputs input voices)).mono
    · rintro _ forwarded ⟨agrees, voices⟩
      rw [ensures_bind]
      apply ((agrees_load keeps valid input agrees).and (mutters_load input forwarded)).mono
      · rintro _ loaded ⟨agrees, mutters⟩
        rw [ensures_bind]
        apply (voices_receiveServers paced _ (voices.mutters mutters) agrees.arrived).mono
        · intro _ received voices
          rw [ensures_bind]
          cases incoming : received.incoming .desync with
          | nil =>
              rw [ensures_ok (receiveMessage_nil incoming)]
              apply (ensures_failWith input.flush received).mono
              · intro _ next outcome
                rw [outcome.2]
                exact voices
              · intro _ next outcome
                rw [outcome.2]
                exact voices.spoke
          | cons bytes later =>
              rw [ensures_ok (receiveMessage_cons incoming)]
              exact voices.spoke
        · intro _ _ spoke
          exact spoke
      · rintro _ _ ⟨impossible, _⟩
        exact impossible.elim
    · rintro _ next ⟨_, voices⟩
      exact voices.spoke
  · intro _ next outcome
    rw [outcome.2]
    exact voices.spoke

end Replica

namespace Member

variable {state : σ → κ} {save : Bytes} {metadata : SaveMetadata} {initial last : σ}
  {ticks : List TickAdvance} {interval : UInt64} {member next : Member σ} {server : RenetServer}

/-- What a replica said since it was there. -/
structure Speech (last : σ) (interval : UInt64) (member : Member σ) : Prop where
  runs : member.stopped = none →
    Replica.Voices last interval member.got member.said member.replica
  spoke : Replica.Spoke last interval member.got member.said member.replica.outgoing

/-- A message that is delivered was said before. -/
theorem said_deliver {said outgoing : Mailbox} {channel : Channel} {bytes : Bytes}
    {later : List Bytes} (first : outgoing channel = bytes :: later) (on : Channel) :
    said.push channel bytes on ++ outgoing.pop channel on = said on ++ outgoing on := by
  by_cases here : on = channel
  · subst here
    rw [Mailbox.push_same, Mailbox.pop_same, first, List.append_assoc]
    rfl
  · rw [Mailbox.push_other _ _ here, Mailbox.pop_other _ here]

/-- What a replica is delivered, it did not receive yet. -/
theorem Speech.arrive (speech : member.Speech last interval) (channel : Channel) (bytes : Bytes) :
    Speech last interval { member with
      got := member.got.push channel bytes
      replica := { member.replica with
        incoming := member.replica.incoming.push channel bytes } } := by
  have grows : member.got .lockstep <+: member.got.push channel bytes .lockstep := by
    by_cases here : .lockstep = channel
    · subst here
      rw [Mailbox.push_same]
      exact List.prefix_append _ _
    · rw [Mailbox.push_other _ _ here]
  have both {received : List Bytes}
      (heard : member.got .lockstep = received ++ member.replica.incoming .lockstep) :
      member.got.push channel bytes .lockstep =
        received ++ member.replica.incoming.push channel bytes .lockstep := by
    by_cases here : .lockstep = channel
    · subst here
      rw [Mailbox.push_same, Mailbox.push_same, heard, List.append_assoc]
    · rw [Mailbox.push_other _ _ here, Mailbox.push_other _ _ here, heard]
  refine ⟨fun runs => ⟨?_, ?_⟩, ?_, ?_⟩
  · intro waits
    obtain ⟨unheard, quiet⟩ := (speech.runs runs).silent waits
    have nothing : member.got .lockstep = [] ++ member.replica.incoming .lockstep := unheard
    exact ⟨both nothing, quiet⟩
  · intro live
    obtain ⟨received, entries, some, heard, rest⟩ := (speech.runs runs).speaks live
    exact ⟨received, entries, some, both heard, rest⟩
  · intro nothing
    change member.got.push channel bytes .lockstep = [] at nothing
    apply speech.spoke.unheard
    rw [nothing] at grows
    exact List.prefix_nil.mp grows
  · obtain ⟨received, entries, sim, first, rest⟩ := speech.spoke.reports
    exact ⟨received, entries, sim, first.trans grows, rest⟩

/-- What is delivered was said, and stays so. -/
theorem Speech.deliver (speech : member.Speech last interval) {channel : Channel} {bytes : Bytes}
    {later : List Bytes} (first : member.replica.outgoing channel = bytes :: later) :
    Speech last interval { member with
      said := member.said.push channel bytes
      replica := { member.replica with outgoing := member.replica.outgoing.pop channel } } := by
  have same : ∀ on, member.said.push channel bytes on ++ member.replica.outgoing.pop channel on =
      member.said on ++ member.replica.outgoing on := said_deliver first
  refine ⟨fun runs => ⟨?_, ?_⟩, ?_, ?_⟩
  · intro waits
    obtain ⟨unheard, commands, reports⟩ := (speech.runs runs).silent waits
    exact ⟨unheard, (congrArg spoken (same _)).trans commands, (same _).trans reports⟩
  · intro live
    obtain ⟨received, entries, some, heard, prints, reports⟩ := (speech.runs runs).speaks live
    exact ⟨received, entries, some, heard, prints, (same _).trans reports⟩
  · intro nothing
    exact (congrArg spoken (same _)).trans (speech.spoke.unheard nothing)
  · obtain ⟨received, entries, sim, first, prints, reports⟩ := speech.spoke.reports
    exact ⟨received, entries, sim, first, prints, (same _).trans reports⟩

/-- Whatever happens to a replica that agrees with its authority, it says what it should. -/
theorem Speech.moves (deterministic : Deterministic state)
    (valid : ValidSave save metadata initial last)
    (paced : ∀ {ticks : List TickAdvance} {sim : σ}, Evolves last ticks sim →
      hashInterval sim = interval)
    (sound : member.Sound save metadata initial last ticks)
    (speech : member.Speech last interval) {actions : List NetAction}
    (moves : member.Moves server actions next) : next.Speech last interval := by
  cases moves with
  | join => exact ⟨speech.runs, speech.spoke⟩
  | leave => exact ⟨speech.runs, speech.spoke⟩
  | close => exact speech
  | deliver joined first => exact speech.deliver first
  | arrive => exact speech.arrive _ _
  | iterate runs returns =>
      have voices := ensures_of_ok (Replica.voices_iteration deterministic valid paced _
        (sound.runs runs) (speech.runs runs)) returns
      exact ⟨fun _ => voices, voices.spoke⟩
  | fail runs fails =>
      have spoke := ensures_of_error (Replica.voices_iteration deterministic valid paced _
        (sound.runs runs) (speech.runs runs)) fails
      refine ⟨?_, spoke⟩
      intro impossible
      cases impossible

/-- Flushing moves what was said on its way. -/
theorem Speech.flushed (speech : member.Speech last interval) :
    (member.flushed server).Speech last interval := by
  rcases flushed_cases server member with ⟨same, _⟩ | ⟨_, _, _, _, same⟩
  · rw [same]
    exact speech
  · rw [same]
    exact ⟨speech.runs, speech.spoke⟩

/-- A replica that was not created yet says nothing. -/
theorem speech_new (client : UInt64) (last : σ) (interval : UInt64) (initial : σ) :
    Speech last interval { client, replica := { sim := initial } } := by
  refine ⟨fun _ => ⟨fun _ => ⟨rfl, rfl, rfl⟩, fun impossible => (by cases impossible)⟩,
    fun _ => rfl, [], [], last, List.nil_prefix, .here, rfl⟩

end Member

namespace System

variable {ι : Type} [DecidableEq ι] {state : σ → κ} {config : ServerCfg} {save : Bytes}
  {metadata : SaveMetadata} {initial last base : σ} {ticks : List TickAdvance} {interval : UInt64}
  {start system next : System ι σ}

/-- In every step, the replicas say what they should. -/
theorem Sound.speech (deterministic : Deterministic state)
    (valid : ValidSave save metadata initial last)
    (paced : ∀ {ticks : List TickAdvance} {sim : σ}, Evolves last ticks sim →
      hashInterval sim = interval)
    (sound : system.Sound config save metadata initial last base ticks)
    (speech : ∀ i, (system.members i).Speech last interval)
    (steps : system.Step config save metadata next) :
    ∀ i, (next.members i).Speech last interval := by
  cases steps with
  | authority => exact fun i => (speech i).flushed
  | ends => exact speech
  | @member i actions later moves =>
      rw [Function.forall_update_iff _ fun _ member => Member.Speech last interval member]
      exact ⟨(speech i).moves deterministic valid paced (sound.members i) moves,
        fun j _ => speech j⟩
  | stranger => exact speech

end System

end Synctick
