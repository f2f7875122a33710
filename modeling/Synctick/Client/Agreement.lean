import Synctick.Determinism
import Synctick.Protocol.Lockstep
import Synctick.Startup.Honest

/-! # A replica that hears an authority

A replica receives a valid save and the messages that its authority broadcasts, in order. It
replays the save, goes live at the start, and then applies the ticks of the authority. It fails
only for its environment, or when its own publication does.
-/

namespace Synctick

open SessionSimulation Effect

variable {σ κ : Type} [SessionSimulation σ]

/-- An authority that was like `last` applied ticks that it could broadcast. -/
def Leads (state : σ → κ) (last : σ) (ticks : List TickAdvance) : Prop :=
  (∀ advance ∈ ticks, advance.Broadcastable) ∧
    ∃ base current, state base = state last ∧ Evolves base ticks current

namespace Replica

/-- How far a replica is with what it was delivered. -/
inductive Stage (save : Bytes) (metadata : SaveMetadata) (initial last : σ) (got : Mailbox)
    (replica : Replica σ) : Prop
  | loading {count delivered : Nat} (transfer : got .save = transferBytes save metadata 0 delivered)
      (within : delivered ≤ chunkCount save + 1) (behind : count ≤ delivered)
      (waiting : replica.incoming .save = transferBytes save metadata count delivered)
      (holds : replica.startup.Holds save metadata count)
      (track : replica.startup.OnTrack save metadata initial last replica.sim)
      (unheard : got .lockstep = replica.incoming .lockstep)
      (awaited : got .lockstep ≠ [] → replica.startup.phase = .awaitingStart metadata) :
      Stage save metadata initial last got replica
  | live {applied : List TickAdvance} (live : replica.startup.phase = .live)
      (transfer : got .save = transferBytes save metadata 0 (chunkCount save + 1))
      (taken : replica.incoming .save = [])
      (applies : ∀ advance ∈ applied, advance.Broadcastable)
      (evolves : Evolves last applied replica.sim)
      (heard : got .lockstep = lockstepMessages metadata applied ++ replica.incoming .lockstep) :
      Stage save metadata initial last got replica

/-- A replica that announced that it is ready. -/
def Past (metadata : SaveMetadata) (replica : Replica σ) : Prop :=
  replica.startup.phase = .awaitingStart metadata ∨ replica.startup.phase = .live

/-- A replica that was delivered `got`, and of whose messages `said` were delivered. -/
structure Agrees (save : Bytes) (metadata : SaveMetadata) (initial last : σ) (got : Mailbox)
    (said : List Bytes) (replica : Replica σ) : Prop where
  stage : Stage save metadata initial last got replica
  announced : ∀ bytes ∈ said ++ replica.outgoing .lockstep, ∀ tick hash,
    decodeClientMessage bytes = .ok (.ready tick hash) → replica.Past metadata
  quiet : replica.incoming .desync = []

variable {state : σ → κ} {save : Bytes} {metadata : SaveMetadata} {initial last : σ}
  {ticks : List TickAdvance} {got : Mailbox} {said : List Bytes} {replica next : Replica σ}

omit [SessionSimulation σ] in
/-- A live startup is past all others. -/
theorem past_of_isLive (live : replica.startup.isLive = true) : replica.startup.phase = .live := by
  unfold ClientStartup.isLive at live
  cases phase : replica.startup.phase with
  | live => rfl
  | receiving =>
      rw [phase] at live
      cases live
  | replaying =>
      rw [phase] at live
      cases live
  | awaitingStart =>
      rw [phase] at live
      cases live
  | failed =>
      rw [phase] at live
      cases live

/-- Where the simulation of a replica is: as it was, on its way through the save, or past it. -/
inductive Placed (save : Bytes) (initial last : σ) (ticks : List TickAdvance) (sim : σ) : Prop
  | fresh (same : sim = initial) : Placed save initial last ticks sim
  | loading {initialized : Bool} {reader : ReplayReader}
      (read : ReadSoFar save initial sim initialized reader) : Placed save initial last ticks sim
  | live {applied : List TickAdvance} (within : applied <+: ticks)
      (evolves : Evolves last applied sim) : Placed save initial last ticks sim

/-- A replica that is among the ticks is so also when there are more. -/
theorem Placed.mono {ticks' : List TickAdvance} {sim : σ}
    (placed : Placed save initial last ticks sim) (grows : ticks <+: ticks') :
    Placed save initial last ticks' sim := by
  cases placed with
  | fresh same => exact .fresh same
  | loading read => exact .loading read
  | live within evolves => exact .live (within.trans grows) evolves

/-- A replica that heard a part of the stream applied ticks of the authority. -/
theorem Agrees.placed (agrees : Agrees save metadata initial last got said replica)
    (hears : got .lockstep <+: lockstepMessages metadata ticks)
    (broadcastable : ∀ advance ∈ ticks, advance.Broadcastable) :
    Placed save initial last ticks replica.sim := by
  cases agrees.stage with
  | loading _ _ _ _ _ track =>
      generalize replica.sim = sim at track
      cases track with
      | receiving => exact .fresh rfl
      | replaying _ read => exact .loading read
      | awaitingStart => exact .live List.nil_prefix .here
  | live _ _ _ applies evolves heard =>
      rw [heard] at hears
      exact .live (prefix_of_lockstepMessages applies broadcastable
        ((List.prefix_append _ _).trans hears)) evolves

/-- What a replica shows and reported changes nothing. -/
theorem Agrees.congr (agrees : Agrees save metadata initial last got said replica)
    (startup : next.startup = replica.startup) (sim : next.sim = replica.sim)
    (incoming : next.incoming = replica.incoming)
    (outgoing : next.outgoing .lockstep = replica.outgoing .lockstep) :
    Agrees save metadata initial last got said next where
  stage := by
    cases agrees.stage with
    | loading transfer within behind waiting holds track unheard awaited =>
        rw [← incoming] at waiting unheard
        rw [← startup] at holds track awaited
        rw [← sim] at track
        exact .loading transfer within behind waiting holds track unheard awaited
    | live live transfer taken applies evolves heard =>
        rw [← incoming] at taken heard
        rw [← startup] at live
        rw [← sim] at evolves
        exact .live live transfer taken applies evolves heard
  announced := by
    intro bytes member
    unfold Past
    rw [startup]
    rw [outgoing] at member
    exact agrees.announced bytes member
  quiet := by
    rw [incoming]
    exact agrees.quiet

/-- A replica may send whatever does not announce that it is ready. -/
theorem Agrees.send (agrees : Agrees save metadata initial last got said replica) {bytes : Bytes}
    (harmless : ∀ tick hash, decodeClientMessage bytes = .ok (.ready tick hash) →
      replica.Past metadata) :
    Agrees save metadata initial last got said
      { replica with outgoing := replica.outgoing.push .lockstep bytes } where
  stage := by
    cases agrees.stage with
    | loading transfer within behind waiting holds track unheard awaited =>
        exact .loading transfer within behind waiting holds track unheard awaited
    | live live transfer taken applies evolves heard =>
        exact .live live transfer taken applies evolves heard
  announced := by
    intro sent member
    change sent ∈ said ++ replica.outgoing.push .lockstep bytes .lockstep at member
    rw [Mailbox.push_same, ← List.append_assoc] at member
    rcases List.mem_append.mp member with earlier | newest
    · exact agrees.announced sent earlier
    · rw [List.mem_singleton.mp newest]
      exact harmless
  quiet := agrees.quiet

/-- A report of a fingerprint keeps a replica in agreement. -/
theorem Agrees.report (agrees : Agrees save metadata initial last got said replica)
    (bytes : Bytes) : Agrees save metadata initial last got said
      { replica with outgoing := replica.outgoing.push .desync bytes } := by
  have aside : replica.outgoing.push .desync bytes .lockstep = replica.outgoing .lockstep :=
    Mailbox.push_other _ _ Channel.noConfusion
  exact agrees.congr rfl rfl rfl aside

/-- So does a report of progress. -/
theorem Agrees.reporting (agrees : Agrees save metadata initial last got said replica) :
    Agrees save metadata initial last got said replica.reporting := by
  have harmless : ∀ tick hash, decodeClientMessage (encode
      (ClientMessage.progress replica.startup.received replica.startup.replayed)) =
        .ok (.ready tick hash) → replica.Past metadata := by
    intro tick hash decoded
    rw [decodeClientMessage_encode (.progress _ _) fun _ impossible => nomatch impossible]
      at decoded
    cases decoded
  exact (agrees.send harmless).congr rfl rfl rfl rfl

/-- A message of the replica was delivered to the authority. -/
theorem Agrees.speak {said : Mailbox} {channel : Channel} {bytes : Bytes} {later : List Bytes}
    (agrees : Agrees save metadata initial last got (said .lockstep) replica)
    (first : replica.outgoing channel = bytes :: later) :
    Agrees save metadata initial last got (said.push channel bytes .lockstep)
      { replica with outgoing := replica.outgoing.pop channel } where
  stage := by
    cases agrees.stage with
    | loading transfer within behind waiting holds track unheard awaited =>
        exact .loading transfer within behind waiting holds track unheard awaited
    | live live transfer taken applies evolves heard =>
        exact .live live transfer taken applies evolves heard
  announced := by
    have same : said.push channel bytes .lockstep ++ replica.outgoing.pop channel .lockstep =
        said .lockstep ++ replica.outgoing .lockstep := by
      by_cases about : .lockstep = channel
      · subst about
        rw [Mailbox.push_same, Mailbox.pop_same, first, List.append_assoc]
        rfl
      · rw [Mailbox.push_other _ _ about, Mailbox.pop_other _ about]
    intro sent member
    rw [same] at member
    exact agrees.announced sent member
  quiet := agrees.quiet

omit [SessionSimulation σ] in
/-- The message of a save that follows the first ones is the next one. -/
theorem next_transferBytes {delivered : Nat} {bytes : Bytes}
    (within : delivered ≤ chunkCount save + 1)
    (more : transferBytes save metadata 0 delivered ++ [bytes] <+:
      transferBytes save metadata 0 (chunkCount save + 1)) :
    delivered < chunkCount save + 1 ∧
      ∀ count ≤ delivered, transferBytes save metadata count delivered ++ [bytes] =
        transferBytes save metadata count (delivered + 1) := by
  rw [← transferBytes_append (Nat.zero_le delivered) within, List.prefix_append_right_inj] at more
  have inside : delivered < chunkCount save + 1 := by
    apply Nat.lt_of_le_of_ne within
    intro whole
    rw [whole, transferBytes_self] at more
    cases List.prefix_nil.mp more
  refine ⟨inside, ?_⟩
  intro count behind
  rw [transferBytes_cons inside] at more
  rw [← transferBytes_append behind (Nat.le_succ delivered),
    transferBytes_cons (Nat.lt_succ_self delivered), transferBytes_self,
    (List.cons_prefix_cons.mp more).1]

/-- A message of the authority is delivered to the replica. -/
theorem Agrees.arrive (agrees : Agrees save metadata initial last got said replica)
    {channel : Channel} {bytes : Bytes}
    (saves : got.push channel bytes .save <+: transferBytes save metadata 0 (chunkCount save + 1))
    (past : channel = .lockstep → replica.Past metadata) (other : channel ≠ .desync) :
    Agrees save metadata initial last (got.push channel bytes) said
      { replica with incoming := replica.incoming.push channel bytes } where
  stage := by
    cases agrees.stage with
    | @loading count delivered transfer within behind waiting holds track unheard awaited =>
        cases channel with
        | desync => exact (other rfl).elim
        | save =>
            rw [Mailbox.push_same, transfer] at saves
            obtain ⟨inside, next⟩ := next_transferBytes within saves
            refine .loading ?_ inside (Nat.le_succ_of_le behind) ?_ holds track unheard awaited
            · rw [Mailbox.push_same, transfer]
              exact next 0 (Nat.zero_le _)
            · change replica.incoming.push .save bytes .save = _
              rw [Mailbox.push_same, waiting]
              exact next _ behind
        | lockstep =>
            refine .loading transfer within behind waiting holds track ?_ ?_
            · change got.push .lockstep bytes .lockstep =
                replica.incoming.push .lockstep bytes .lockstep
              rw [Mailbox.push_same, Mailbox.push_same, unheard]
            · intro _
              rcases past rfl with waits | live
              · exact waits
              · cases track with
                | receiving phase =>
                    rw [live] at phase
                    cases phase
                | replaying phase =>
                    rw [live] at phase
                    cases phase
                | awaitingStart phase => exact phase
    | live live transfer taken applies evolves heard =>
        cases channel with
        | desync => exact (other rfl).elim
        | save =>
            rw [Mailbox.push_same, transfer] at saves
            obtain ⟨impossible, _⟩ := next_transferBytes (Nat.le_refl _) saves
            exact (Nat.lt_irrefl _ impossible).elim
        | lockstep =>
            refine .live live transfer taken applies evolves ?_
            change got.push .lockstep bytes .lockstep =
              _ ++ replica.incoming.push .lockstep bytes .lockstep
            rw [Mailbox.push_same, Mailbox.push_same, heard, List.append_assoc]
  announced := agrees.announced
  quiet := by
    change replica.incoming.push channel bytes .desync = []
    rw [Mailbox.push_other _ _ other.symm]
    exact agrees.quiet

/-- Forwarding commands keeps it in agreement, also where its input was closed. -/
theorem agrees_forwardInputs (input : ClientInput)
    (agrees : Agrees save metadata initial last got said replica) :
    Ensures (forwardInputs input) replica
      (fun _ next => Agrees save metadata initial last got said next)
      (fun error next => (error = .inputDisconnected ∧ input.inputClosed = true) ∧
        Agrees save metadata initial last got said next) := by
  unfold forwardInputs
  rw [ensures_bind, ensures_get, ensures_bind]
  apply (ensures_forEach _ (fun next => Agrees save metadata initial last got said next ∧
    next.startup = replica.startup) (fun _ _ => False) _ _ replica ⟨agrees, rfl⟩).mono
  · intro _ next outcome
    by_cases closed : input.inputClosed ∧ input.inputs.length < 256
    · rw [if_pos closed]
      exact ⟨⟨rfl, closed.1⟩, outcome.1⟩
    · rw [if_neg closed]
      exact outcome.1
  · intro _ _ impossible
    exact impossible.elim
  · intro payload _ next outcome
    obtain ⟨agrees, same⟩ := outcome
    by_cases live : replica.startup.isLive = true
    · rw [if_pos live]
      refine ⟨agrees.send ?_, same⟩
      intro _ _ _
      right
      rw [same]
      exact past_of_isLive live
    · rw [if_neg live]
      exact ⟨agrees, same⟩

/-- A replica takes the next message of the save. -/
theorem agrees_receiveSave (valid : ValidSave save metadata initial last)
    (agrees : Agrees save metadata initial last got said replica) :
    Ensures receiveSave replica (fun _ next => Agrees save metadata initial last got said next)
      (fun _ _ => False) := by
  by_cases empty : replica.incoming .save = []
  · unfold receiveSave
    rw [ensures_bind, ensures_ok (receiveMessage_nil empty)]
    exact agrees
  · obtain ⟨stage, announced, quiet⟩ := agrees
    cases stage with
    | live _ _ taken => exact (empty taken).elim
    | @loading count delivered transfer within behind waiting holds track unheard awaited =>
        have more : count < delivered := by
          apply Nat.lt_of_le_of_ne behind
          intro same
          rw [same, transferBytes_self] at waiting
          exact empty waiting
        have inside : count ≤ chunkCount save := by omega
        have early (past : replica.Past metadata) : False := by
          have whole := holds.whole_of_past (by
            intro announced bytes receiving
            rcases past with waits | live
            · rw [waits] at receiving
              cases receiving
            · rw [live] at receiving
              cases receiving)
          omega
        rw [transferBytes_cons more] at waiting
        have taken := ClientStartup.onTrack_receiveSave valid holds inside track
        have held := ClientStartup.holds_receiveSave valid.size holds inside
        rw [ensures_receiveSave waiting (transferMessage_decodes inside)]
        apply (taken.and held).mono
        · intro _ startup outcome
          obtain ⟨⟨track, _, _⟩, holds⟩ := outcome
          refine ⟨.loading transfer within more ?_ holds track ?_ ?_, ?_, ?_⟩
          · change replica.incoming.pop .save .save = _
            rw [Mailbox.pop_same, waiting]
            rfl
          · change got .lockstep = replica.incoming.pop .save .lockstep
            rw [Mailbox.pop_other _ Channel.noConfusion]
            exact unheard
          · intro some
            exact (early (Or.inl (awaited some))).elim
          · intro bytes member tick hash decoded
            exact (early (announced bytes member tick hash decoded)).elim
          · change replica.incoming.pop .save .desync = []
            rw [Mailbox.pop_other _ Channel.noConfusion]
            exact quiet
        · intro _ _ outcome
          exact outcome.1

/-- Receiving the save never fails, and keeps it in agreement. -/
theorem agrees_receiveSaves (valid : ValidSave save metadata initial last)
    (agrees : Agrees save metadata initial last got said replica) :
    Ensures receiveSaves replica (fun _ next => Agrees save metadata initial last got said next)
      (fun _ _ => False) := by
  unfold receiveSaves
  rw [ensures_bind, ensures_get]
  apply ensures_forEach _ (fun next => Agrees save metadata initial last got said next)
  · intro _ _ next agrees
    exact agrees_receiveSave valid agrees
  · exact agrees

/-- A replica goes on with the replay, and may announce that it is ready. -/
theorem agrees_stepStartup (keeps : FinishKeepsTick σ) (valid : ValidSave save metadata initial last)
    (passes : Nat) (agrees : Agrees save metadata initial last got said replica) :
    Ensures (stepStartup passes) replica
      (fun _ next => Agrees save metadata initial last got said next) (fun _ _ => False) := by
  by_cases replaying : ∃ announced reader, replica.startup.phase = .replaying announced reader
  · obtain ⟨announced, reader, phase⟩ := replaying
    obtain ⟨stage, said', quiet⟩ := agrees
    cases stage with
    | live live =>
        rw [phase] at live
        cases live
    | @loading count delivered transfer within behind waiting holds track unheard awaited =>
        obtain ⟨rfl, read, replayed⟩ := track.read phase
        obtain ⟨whole, nonempty, received⟩ :=
          holds.whole_of_past (ClientStartup.past_of_replaying phase)
        have unannounced (past : replica.Past announced) : False := by
          rcases past with waits | live
          · rw [phase] at waits
            cases waits
          · rw [phase] at live
            cases live
        have silence : got .lockstep = [] := by
          by_contra some
          exact unannounced (Or.inl (awaited some))
        unfold stepStartup
        rw [ensures_bind, ensures_zoom]
        apply (ClientStartup.onTrack_step keeps valid passes phase read replayed).mono
        · intro result state outcome
          obtain ⟨track, same, _, _, ⟨rfl, reader', phase'⟩ | ⟨rfl, waits⟩⟩ := outcome
          · have holds : state.1.Holds save announced count := by
              rw [whole]
              exact .whole nonempty (same.trans received) (ClientStartup.past_of_replaying phase')
            refine ⟨.loading transfer within behind waiting holds track unheard ?_, ?_, quiet⟩
            · intro some
              exact (some silence).elim
            · intro bytes member tick hash decoded
              exact (unannounced (said' bytes member tick hash decoded)).elim
          · have holds : state.1.Holds save announced count := by
              rw [whole]
              exact .whole nonempty (same.trans received) (ClientStartup.past_of_awaitingStart waits)
            refine ⟨.loading transfer within behind waiting holds track unheard ?_, ?_, quiet⟩
            · intro _
              exact waits
            · intro _ _ _ _ _
              exact Or.inl waits
        · intro _ _ impossible
          exact impossible
  · rw [ensures_ok (stepStartup_elsewhere passes fun announced reader phase =>
      replaying ⟨announced, reader, phase⟩)]
    exact agrees

/-- Taking, reporting and replaying the save never fails. -/
theorem agrees_load (keeps : FinishKeepsTick σ) (valid : ValidSave save metadata initial last)
    (input : ClientInput) (agrees : Agrees save metadata initial last got said replica) :
    Ensures (load input) replica (fun _ next => Agrees save metadata initial last got said next)
      (fun _ _ => False) := by
  have reported (news : Prop) [Decidable news] {sent : Replica σ}
      (agrees : Agrees save metadata initial last got said sent) :
      Agrees save metadata initial last got said (if news then sent.reporting else sent) := by
    by_cases some : news
    · rw [if_pos some]
      exact agrees.reporting
    · rw [if_neg some]
      exact agrees
  unfold load
  rw [ensures_bind]
  apply (agrees_receiveSaves valid agrees).mono
  · intro _ taken agrees
    rw [ensures_bind, ensures_ok (reportConsumption_eq taken), ensures_bind]
    apply (agrees_stepStartup keeps valid input.passes (reported _ agrees)).mono
    · intro _ stepped agrees
      rw [ensures_ok (reportLoading_eq input.progressDue stepped)]
      exact (reported _ agrees).congr rfl rfl rfl rfl
    · intro _ _ impossible
      exact impossible
  · intro _ _ impossible
    exact impossible

/-- What a replica leaves behind whose publication failed, at its start or in a tick that it was
to apply. -/
inductive Torn (last : σ) (ticks : List TickAdvance) (error : SessionError) (sim : σ) : Prop
  | start (fails : publish last = .error error sim) : Torn last ticks error sim
  | tick {applied back : List TickAdvance} {advance : TickAdvance} {current : σ}
      (split : ticks = applied ++ advance :: back) (evolves : Evolves last applied current)
      (rejects : TickRejected advance .live current error sim)
      (unpublished : Unpublished error sim) : Torn last ticks error sim

/-- A replica that stopped at its start or within a tick failed to publish. -/
theorem Torn.unpublished {error : SessionError} {sim : σ} (torn : Torn last ticks error sim) :
    Unpublished error sim := by
  cases torn with
  | start fails => exact ⟨_, _, fails, Or.inl rfl⟩
  | tick _ _ _ unpublished => exact unpublished

/-- A replica that awaits the start, and gets it, goes live. -/
theorem agrees_startLive {count delivered : Nat} {later : List Bytes}
    (transfer : got .save = transferBytes save metadata 0 delivered)
    (within : delivered ≤ chunkCount save + 1) (behind : count ≤ delivered)
    (waiting : replica.incoming .save = transferBytes save metadata count delivered)
    (holds : replica.startup.Holds save metadata count)
    (track : replica.startup.OnTrack save metadata initial last replica.sim)
    (awaits : replica.startup.phase = .awaitingStart metadata)
    (heard : got .lockstep = lockstepMessages metadata [] ++ later)
    (left : replica.incoming .lockstep = later) (quiet : replica.incoming .desync = []) :
    Ensures (startLive metadata.tick metadata.hash) replica
      (fun _ next => Agrees save metadata initial last got said next)
      (fun error next => Torn last ticks error next.sim) := by
  obtain ⟨whole, _⟩ := holds.whole_of_past (ClientStartup.past_of_awaitingStart awaits)
  have arrived : replica.sim = last := by
    cases track with
    | receiving phase =>
        rw [awaits] at phase
        cases phase
    | replaying phase =>
        rw [awaits] at phase
        cases phase
    | awaitingStart => rfl
  unfold startLive onStartup
  rw [ensures_bind, ensures_zoom]
  apply (ClientStartup.ensures_start metadata.tick metadata.hash replica.startup).mono
  · intro _ startup outcome
    obtain ⟨_, _, _, _, started⟩ := outcome
    rw [ensures_bind, ensures_zoom]
    apply (ensures_self _ _).mono
    · intro _ sim publishes
      change publish replica.sim = .ok () sim at publishes
      rw [arrived] at publishes
      have complete : delivered = chunkCount save + 1 := by omega
      have live : startup.phase = .live := by rw [started]
      have nothing : ∀ advance ∈ ([] : List TickAdvance), advance.Broadcastable :=
        fun _ impossible => nomatch impossible
      refine ⟨.live live ?_ ?_ nothing (.publish .here publishes) ?_, ?_, quiet⟩
      · rw [transfer, complete]
      · change replica.incoming .save = []
        rw [waiting, whole, complete, transferBytes_self]
      · change got .lockstep = _ ++ replica.incoming .lockstep
        rw [heard, left]
      · intro _ _ _ _ _
        exact Or.inr live
    · intro error sim fails
      change publish replica.sim = .error error sim at fails
      rw [arrived] at fails
      exact .start fails
  · intro _ _ outcome
    exact (outcome.2.2 metadata awaits ⟨rfl, rfl⟩).elim

/-- A live replica applies the next tick of the authority. -/
theorem agrees_applyTick (deterministic : Deterministic state) (leads : Leads state last ticks)
    {applied rest : List TickAdvance} {advance : TickAdvance}
    (split : ticks = applied ++ advance :: rest) (live : replica.startup.phase = .live)
    (transfer : got .save = transferBytes save metadata 0 (chunkCount save + 1))
    (taken : replica.incoming .save = []) (evolves : Evolves last applied replica.sim)
    (heard : got .lockstep =
      lockstepMessages metadata (applied ++ [advance]) ++ replica.incoming .lockstep)
    (quiet : replica.incoming .desync = []) :
    Ensures (applyTick advance) replica
      (fun _ next => Agrees save metadata initial last got said next)
      (fun error next => Torn last ticks error next.sim) := by
  obtain ⟨sound, base, current, alike, authority⟩ := leads
  obtain ⟨sim, phase, reached, before, applies⟩ := authority.before split
  have same := deterministic.alike_of_evolves before evolves alike
  unfold applyTick
  rw [ensures_bind, ensures_zoom]
  apply (deterministic.ensures_advanceTick applies same).mono
  · intro _ sim applied'
    have agrees : Agrees save metadata initial last got said { replica with sim } := by
      refine ⟨.live live transfer taken ?_ (evolves.tick applied') heard, ?_, quiet⟩
      · intro other member
        apply sound other
        rw [split]
        rcases List.mem_append.mp member with earlier | newest
        · exact List.mem_append_left _ earlier
        · rw [List.mem_singleton.mp newest]
          exact List.mem_append_right _ List.mem_cons_self
      · intro _ _ _ _ _
        exact Or.inr live
    rw [ensures_bind, ensures_get]
    dsimp only
    by_cases multiple : advance.tick % hashInterval sim = 0
    · rw [if_pos multiple]
      exact agrees.report _
    · rw [if_neg multiple]
      exact agrees
  · intro error sim outcome
    exact .tick split evolves outcome.1 outcome.2

/-- The next message of the authority is the start or the next tick, and the replica takes it. -/
theorem agrees_receiveServer (deterministic : Deterministic state) (leads : Leads state last ticks)
    (hears : got .lockstep <+: lockstepMessages metadata ticks)
    (agrees : Agrees save metadata initial last got said replica) :
    Ensures receiveServer replica (fun _ next => Agrees save metadata initial last got said next)
      (fun error next => Torn last ticks error next.sim) := by
  unfold receiveServer
  rw [ensures_bind]
  cases incoming : replica.incoming .lockstep with
  | nil =>
      rw [ensures_ok (receiveMessage_nil incoming)]
      exact agrees
  | cons bytes later =>
      rw [ensures_ok (receiveMessage_cons incoming)]
      dsimp only
      have left : replica.incoming.pop .lockstep .lockstep = later := by
        rw [Mailbox.pop_same, incoming]
        rfl
      have aside {channel : Channel} (other : channel ≠ .lockstep) :
          replica.incoming.pop .lockstep channel = replica.incoming channel :=
        Mailbox.pop_other _ other
      have quiet : replica.incoming.pop .lockstep .desync = [] := by
        rw [aside Channel.noConfusion]
        exact agrees.quiet
      cases agrees.stage with
      | loading transfer within behind waiting holds track unheard awaited =>
          rw [unheard, incoming] at hears
          have first : bytes = encode (ServerMessage.start metadata.tick metadata.hash) :=
            (List.cons_prefix_cons.mp hears).1
          rw [incoming, first] at unheard
          have awaits := awaited (by rw [unheard]; exact List.cons_ne_nil _ _)
          rw [← aside Channel.noConfusion] at waiting
          rw [first, decodeServerMessage_start]
          dsimp only
          rw [ensures_bind]
          exact agrees_startLive transfer within behind waiting holds track awaits unheard left quiet
      | @live applied live transfer taken applies evolves heard =>
          rw [heard, incoming] at hears
          obtain ⟨earlier, advance, rest, split, same, newest⟩ := next_lockstepMessage hears
          have sound := leads.1
          have follows : earlier = applied := by
            apply eq_of_messages _ applies same
            intro other member
            apply sound other
            rw [split]
            exact List.mem_append_left _ member
          subst follows
          obtain ⟨bounded, within⟩ := sound advance (by
            rw [split]
            exact List.mem_append_right _ List.mem_cons_self)
          rw [newest, decodeServerMessage_tick advance bounded within]
          dsimp only
          rw [ensures_bind, ensures_get]
          have isLive : replica.startup.isLive = true := by
            unfold ClientStartup.isLive
            rw [live]
          dsimp only
          rw [if_pos isLive, ensures_bind]
          rw [← aside Channel.noConfusion] at taken
          have onwards : got .lockstep = lockstepMessages metadata (earlier ++ [advance]) ++
              replica.incoming.pop .lockstep .lockstep := by
            rw [left, heard, incoming, newest, lockstepMessages_concat, List.append_assoc]
            rfl
          have outcome : Ensures (applyTick advance)
              { replica with incoming := replica.incoming.pop .lockstep }
              (fun _ next => Agrees save metadata initial last got said next)
              (fun error next => Torn last ticks error next.sim) :=
            agrees_applyTick deterministic leads split live transfer taken evolves onwards quiet
          exact outcome

/-- The ticks of the stream keep a replica in agreement, unless it cannot publish one. -/
theorem agrees_receiveServers (deterministic : Deterministic state)
    (leads : Leads state last ticks) (hears : got .lockstep <+: lockstepMessages metadata ticks)
    (passes : Nat) (agrees : Agrees save metadata initial last got said replica) :
    Ensures (receiveServers passes) replica
      (fun _ next => Agrees save metadata initial last got said next)
      (fun error next => Torn last ticks error next.sim) := by
  induction passes generalizing replica with
  | zero => exact agrees
  | succ passes ih =>
      unfold receiveServers
      rw [ensures_bind]
      apply (agrees_receiveServer deterministic leads hears agrees).mono
      · intro more next agrees
        cases more with
        | true => exact ih agrees
        | false => exact agrees
      · intro _ _ torn
        exact torn

/-- The environment of an iteration makes it fail. -/
inductive Disturbed (input : ClientInput) : SessionError → Prop
  | network {error : SessionError} (fails : input.network = some error) : Disturbed input error
  | flush {error : SessionError} (fails : input.flush = some error) : Disturbed input error
  | closed (closed : input.inputClosed = true) : Disturbed input .inputDisconnected

/-- An iteration of a replica that agrees with its authority fails only for its environment, or
because its own publication does. -/
theorem agrees_iteration (deterministic : Deterministic state)
    (valid : ValidSave save metadata initial last) (leads : Leads state last ticks)
    (hears : got .lockstep <+: lockstepMessages metadata ticks) (input : ClientInput)
    (agrees : Agrees save metadata initial last got said replica) :
    Ensures (iteration input) replica
      (fun _ next => Agrees save metadata initial last got said next)
      (fun error next => Disturbed input error ∧ Agrees save metadata initial last got said next ∨
        Torn last ticks error next.sim) := by
  have keeps : FinishKeepsTick σ := fun sim => deterministic.tick (deterministic.finish sim)
  unfold iteration
  rw [ensures_bind]
  apply (ensures_failWith input.network replica).mono
  · intro _ start outcome
    rw [outcome.2, ensures_bind]
    apply (agrees_forwardInputs input agrees).mono
    · intro _ forwarded agrees
      rw [ensures_bind]
      apply (agrees_load keeps valid input agrees).mono
      · intro _ loaded agrees
        rw [ensures_bind]
        apply (agrees_receiveServers deterministic leads hears _ agrees).mono
        · intro _ received agrees
          rw [ensures_bind, ensures_ok (receiveMessage_nil agrees.quiet)]
          apply (ensures_failWith input.flush received).mono
          · intro _ next outcome
            rw [outcome.2]
            exact agrees
          · intro error next outcome
            rw [outcome.2]
            exact Or.inl ⟨.flush outcome.1, agrees⟩
        · intro _ _ torn
          exact Or.inr torn
      · intro _ _ impossible
        exact impossible.elim
    · intro error next outcome
      obtain ⟨⟨rfl, closed⟩, agrees⟩ := outcome
      exact Or.inl ⟨.closed closed, agrees⟩
  · intro error next outcome
    rw [outcome.2]
    exact Or.inl ⟨.network outcome.1, agrees⟩

end Replica

end Synctick
