import Synctick.Api
import Synctick.Determinism
import Synctick.Protocol.Format
import Synctick.Server.Run

/-! # What a recording reproduces

A session records the header that it began with and the ticks that it applied, whether it
replayed them from the save that it loaded or took them live. So its recording replays to
its last state. That holds of each session in a chain in which a session loads the recording
of the one before.
-/

namespace Synctick

open SessionSimulation Effect

/-- The records that were read are within the limits of a tick. -/
theorem Replays.within {σ : Type} [SessionSimulation σ] {sim last : σ}
    {reader final : ReplayReader} {ticks : List TickAdvance}
    (path : Replays sim reader ticks last final) : ∀ advance ∈ ticks, advance.Within := by
  induction path with
  | here =>
      intro _ member
      cases member
  | tick reads _ _ ih =>
      intro advance member
      rcases List.mem_cons.mp member with same | member
      · rw [same]
        obtain ⟨_, _, payload, _, _, _, _, decoded⟩ :=
          ensures_of_ok (ReplayReader.ensures_nextRecord _) reads
        exact accepted_of_decodeTickAdvance decoded
      · exact ih advance member

variable {G : Game}

/-- So are the ticks that were applied live. -/
theorem Lives.within {sim last : Adapter G} {ticks : List TickAdvance}
    (lives : Lives sim ticks last) : ∀ advance ∈ ticks, advance.Within := by
  induction lives with
  | here =>
      intro _ member
      cases member
  | tick _ sequenced _ ih =>
      intro advance member
      rcases List.mem_append.mp member with earlier | newest
      · exact ih advance earlier
      · rw [List.mem_singleton.mp newest]
        exact ⟨sequenced.bounded, Nat.le_trans (length_encode_tick_le _) sequenced.within⟩

/-- A session that began at `begun` applied ticks, and recorded them behind its header. -/
structure Logged {σ : Type} [SessionSimulation σ] (header : ReplayHeader) (begun : σ)
    (session : ServerSession σ) (ticks : List TickAdvance) : Prop where
  evolves : Evolves begun ticks session.sim
  recorded : ∀ writer, session.writer = some writer →
    writer.written = encode header ++ records ticks
  within : ∀ advance ∈ ticks, advance.Within

/-- A recording begins with the header that it was created with. -/
theorem ServerCfg.written_of_createWriter (config : ServerCfg) {header : ReplayHeader}
    {created : Option ReplayWriter} (creates : config.createWriter header = .ok created)
    {writer : ReplayWriter} (there : created = some writer) : writer.written = encode header := by
  unfold createWriter at creates
  cases record : config.record with
  | none =>
      rw [record] at creates
      cases creates
      cases there
  | some target =>
      rw [record] at creates
      dsimp only at creates
      cases made : ReplayWriter.create header target.1 target.2 with
      | ok other =>
          rw [made] at creates
          cases creates
          cases there
          exact ReplayWriter.written_of_create made
      | error error =>
          rw [made] at creates
          cases creates

/-- There is a recording where there is to be one. -/
theorem ServerCfg.isSome_of_createWriter (config : ServerCfg) {header : ReplayHeader}
    {created : Option ReplayWriter} (creates : config.createWriter header = .ok created) :
    created.isSome = config.record.isSome := by
  unfold createWriter at creates
  cases record : config.record with
  | none =>
      rw [record] at creates
      cases creates
      rfl
  | some target =>
      rw [record] at creates
      dsimp only at creates
      cases made : ReplayWriter.create header target.1 target.2 with
      | ok other =>
          rw [made] at creates
          cases creates
          rfl
      | error error =>
          rw [made] at creates
          cases creates

namespace ServerSession

section Loading

variable {σ : Type} [SessionSimulation σ] {header : ReplayHeader} {begun : σ}
  {session next : ServerSession σ} {ticks more : List TickAdvance}

/-- A session that neither applies nor records stays logged. -/
theorem logged_congr (logged : Logged header begun session ticks) (sim : next.sim = session.sim)
    (writer : next.writer = session.writer) : Logged header begun next ticks where
  evolves := by
    rw [sim]
    exact logged.evolves
  recorded := by
    rw [writer]
    exact logged.recorded
  within := logged.within

/-- A session went on over ticks that it recorded. -/
theorem logged_append (logged : Logged header begun session ticks)
    (onwards : Evolves session.sim more next.sim)
    (mirrored : Mirrors more session.writer next.writer)
    (within : ∀ advance ∈ more, advance.Within) :
    Logged header begun next (ticks ++ more) where
  evolves := logged.evolves.trans onwards
  recorded := by
    intro writer recording
    cases before : session.writer with
    | none =>
        rw [mirrored.absent before] at recording
        cases recording
    | some earlier =>
        obtain ⟨grown, there, written, _⟩ := mirrored.written earlier before
        rw [recording] at there
        cases there
        rw [written, logged.recorded earlier before, records_append, List.append_assoc]
  within := by
    intro advance member
    rcases List.mem_append.mp member with earlier | later
    · exact logged.within advance earlier
    · exact within advance later

/-- Flushing keeps a session logged. -/
theorem ensures_flush_logged (logged : Logged header begun session ticks) :
    Ensures flush session (fun _ next => Logged header begun next ticks) (fun _ _ => True) := by
  unfold flush
  rw [ensures_bind, ensures_get]
  cases recording : session.writer with
  | none => exact logged
  | some writer =>
      dsimp only
      rw [ensures_zoom, ensures_mapError]
      apply (ReplayWriter.ensures_flush writer).mono
      · intro _ flushed outcome
        refine ⟨logged.evolves, ?_, logged.within⟩
        intro last same
        cases same
        rw [outcome.1, logged.recorded writer recording]
      · intro _ _ _
        trivial

/-- A pass over the save mirrors the ticks that it applies. -/
theorem ensures_loadPass_logged (input : LoadInput) (logged : Logged header begun session ticks) :
    Ensures (loadPass input) session (fun _ next => ∃ ticks, Logged header begun next ticks)
      (fun _ _ => True) := by
  unfold loadPass
  rw [ensures_bind, ensures_ofExcept]
  refine ⟨?_, fun _ _ => trivial⟩
  intro _ _
  rw [ensures_bind, ensures_get]
  cases session.source with
  | none => exact ⟨ticks, logged⟩
  | some reader =>
      dsimp only
      rw [ensures_bind, ensures_zoom]
      apply (ensures_replayBatch input.passes _).mono
      · intro batch replay outcome
        obtain ⟨more, progress, _⟩ := outcome
        have further : Logged header begun { session with
            sim := replay.sim, source := some replay.reader, writer := replay.mirror }
            (ticks ++ more) :=
          logged_append logged progress.path.evolves progress.mirrored progress.path.within
        rw [ensures_bind, ensures_get]
        by_cases due : input.progressDue = true
        · rw [if_pos due]
          exact ⟨_, logged_congr further rfl rfl⟩
        · rw [if_neg due]
          exact ⟨_, further⟩
      · intro _ _ _
        trivial

/-- So do the passes up to the end of the save. -/
theorem ensures_loadSave_logged (inputs : List LoadInput)
    (logged : Logged header begun session ticks) :
    Ensures (loadSave inputs) session (fun _ next => ∃ ticks, Logged header begun next ticks)
      (fun _ _ => True) := by
  induction inputs generalizing session ticks with
  | nil => exact ⟨ticks, logged⟩
  | cons input later ih =>
      unfold loadSave
      rw [ensures_bind]
      apply (ensures_loadPass_logged input logged).mono
      · intro finished next outcome
        obtain ⟨ticks, logged⟩ := outcome
        cases finished with
        | true => exact ⟨ticks, logged⟩
        | false => exact ih logged
      · intro _ _ _
        trivial

/-- Loading keeps a session logged, whether there is a save or not. -/
theorem ensures_load_logged (inputs : List LoadInput) (logged : Logged header begun session ticks) :
    Ensures (load inputs) session (fun _ next => ∃ ticks, Logged header begun next ticks)
      (fun _ _ => True) := by
  unfold load
  rw [ensures_bind, ensures_get]
  cases session.source with
  | none => exact ⟨ticks, logged⟩
  | some reader =>
      dsimp only
      unfold publishStatus
      rw [ensures_bind, ensures_modify]
      exact ensures_loadSave_logged inputs (logged_congr logged rfl rfl)

end Loading

variable {header : ReplayHeader} {begun : Adapter G} {session : ServerSession (Adapter G)}
  {ticks : List TickAdvance}

/-- The tick loop records each tick that it applies. -/
theorem ensures_live_logged (policy : DesyncPolicy) (inputs : List TickInput)
    (logged : Logged header begun session ticks) :
    Ensures (live policy inputs) session (fun _ next => ∃ ticks, Logged header begun next ticks)
      (fun _ _ => True) := by
  unfold live
  rw [ensures_zoom]
  apply (ensures_tickLoop policy inputs _).mono
  · intro _ authority outcome
    obtain ⟨steps, run, _⟩ := outcome
    have running := run.running
    exact ⟨_, logged_append logged running.lives.evolves running.recorded running.lives.within⟩
  · intro _ _ _
    trivial

/-- Waiting for the participants records nothing. -/
theorem ensures_waitForParticipants_logged (config : ServerCfg) (save : Bytes)
    (metadata : SaveMetadata) (inputs : List WaitInput)
    (logged : Logged header begun session ticks) :
    Ensures (waitForParticipants config save metadata inputs) session
      (fun _ next => Logged header begun next ticks) (fun _ _ => True) := by
  unfold waitForParticipants
  rw [ensures_bind, ensures_zoom]
  apply (ensures_self _ _).mono
  · intro _ _ _
    exact logged_congr logged rfl rfl
  · intro _ _ _
    trivial

/-- Nor does going live. -/
theorem ensures_goLive_logged (logged : Logged header begun session ticks) :
    Ensures goLive session (fun _ next => Logged header begun next ticks) (fun _ _ => True) := by
  unfold goLive
  rw [ensures_bind, ensures_zoom]
  apply (ensures_self _ _).mono
  · intro _ sim publishes
    exact ⟨logged.evolves.publish publishes, logged.recorded, logged.within⟩
  · intro _ _ _
    trivial

/-- From the save that it announces to its end, a session stays logged. -/
theorem ensures_serve_logged (config : ServerCfg) (save : Bytes) (metadata : SaveMetadata)
    (input : SessionInput) (logged : Logged header begun session ticks) :
    Ensures (serve config save metadata input) session
      (fun _ next => ∃ ticks, Logged header begun next ticks) (fun _ _ => True) := by
  unfold serve
  rw [ensures_bind]
  apply (ensures_waitForParticipants_logged config save metadata input.wait logged).mono
  · intro started waited logged
    by_cases starts : started = true ∧ input.abandoned = false
    · rw [if_pos starts, ensures_bind]
      apply (ensures_goLive_logged logged).mono
      · intro _ _ logged
        exact ensures_live_logged config.desyncPolicy input.ticks logged
      · intro _ _ _
        trivial
    · rw [if_neg starts]
      exact ⟨ticks, logged⟩
  · intro _ _ _
    trivial

/-- So does one that loads a save first. -/
theorem ensures_runSession_logged (config : ServerCfg) (input : SessionInput)
    (logged : Logged header begun session ticks) :
    Ensures (runSession config input) session
      (fun _ next => ∃ ticks, Logged header begun next ticks) (fun _ _ => True) := by
  unfold runSession
  rw [ensures_bind]
  apply (ensures_load_logged input.load logged).mono
  · intro loaded _ outcome
    obtain ⟨ticks, logged⟩ := outcome
    by_cases goes : loaded = true ∧ input.cancelled = false
    · rw [if_pos goes, ensures_bind]
      apply (ensures_flush_logged logged).mono
      · intro _ flushed logged
        rw [ensures_bind]
        apply (ensures_readSave config input flushed).mono
        · intro save read outcome
          rw [outcome.1, ensures_bind]
          apply (ensures_announce save flushed).mono
          · intro metadata announced outcome
            rw [outcome.1, ensures_bind]
            apply (ensures_failWith input.bound flushed).mono
            · intro _ bound outcome
              rw [outcome.2]
              exact ensures_serve_logged config save metadata input logged
            · intro _ _ _
              trivial
          · intro _ _ _
            trivial
        · intro _ _ _
          trivial
      · intro _ _ _
        trivial
    · rw [if_neg goes]
      exact ⟨ticks, logged⟩
  · intro _ _ _
    trivial

/-- A session that returns recorded its header and the ticks that it applied. -/
theorem ensures_runServer_logged (config : ServerCfg) (input : SessionInput)
    (session : ServerSession (Adapter G)) :
    Ensures (runServer config input) session
      (fun _ next => ∃ source begun ticks, config.openSource = .ok source ∧
        SessionSimulation.initializeWith (session.beginsWith source) session.sim = .ok () begun ∧
        Logged (session.beginsWith source) begun next ticks) (fun _ _ => True) := by
  unfold runServer
  rw [ensures_bind]
  apply (ensures_openSession config session).mono
  · intro _ opened outcome
    obtain ⟨source, begun, writer, opens, initializes, creates, same⟩ := outcome
    have logged : Logged (session.beginsWith source) begun opened [] := by
      rw [same]
      refine ⟨.here, ?_, fun _ impossible => nomatch impossible⟩
      intro recording there
      rw [records_nil, List.append_nil]
      exact config.written_of_createWriter creates there
    simp only [ensures_bind, ensures_attempt]
    apply (ensures_runSession_logged config input logged).mono
    · intro _ ended outcome
      obtain ⟨ticks, logged⟩ := outcome
      apply (ensures_flush_logged logged).mono
      · intro _ next logged
        exact ⟨source, begun, ticks, opens, initializes, logged⟩
      · intro _ _ _
        trivial
    · intro _ ended _
      apply (ensures_self _ _).mono
      · intro _ _ _
        trivial
      · intro _ _ _
        trivial
  · intro _ _ _
    trivial

end ServerSession

/-- A header of this build. -/
structure ReplayHeader.Current (header : ReplayHeader) : Prop where
  magic : header.magic = Synctick.magic
  protocolId : header.protocolId = Synctick.protocolId
  formatVersion : header.formatVersion = Synctick.formatVersion

/-- A header that is read is one of this build. -/
theorem ensures_readHeader (source : Source) :
    Ensures readHeader source (fun header _ => header.Current) (fun _ _ => True) := by
  have any {α β : Type} {program : Effect IoError Source α} {next : α → Effect IoError Source β}
      {post : β → Source → Prop} (every : ∀ value source, Ensures (next value) source post
        fun _ _ => True) (source : Source) :
      Ensures (program >>= next) source post fun _ _ => True := by
    rw [ensures_bind]
    apply (ensures_self _ _).mono
    · intro value middle _
      exact every value middle
    · intro _ _ _
      trivial
  have guarded {β : Type} {condition : Prop} [Decidable condition] {error : IoError}
      {rest : Effect IoError Source β} {post : β → Source → Prop} {source : Source}
      (otherwise : ¬ condition → Ensures rest source post fun _ _ => True) :
      Ensures (do
        if condition then throw error
        rest) source post fun _ _ => True := by
    by_cases holds : condition
    · rw [if_pos holds]
      trivial
    · rw [if_neg holds]
      exact otherwise holds
  unfold readHeader
  apply any
  intro magic source
  apply guarded
  intro magicSame
  apply any
  intro protocolId source
  apply any
  intro formatVersion source
  apply any
  intro gameId source
  apply any
  intro gameVersion source
  apply any
  intro tickNanos source
  apply any
  intro length source
  apply guarded
  intro _
  apply any
  intro initialization source
  apply guarded
  intro _
  apply guarded
  intro protocolSame
  apply guarded
  intro formatSame
  cases validateTickDuration tickNanos with
  | ok _ => exact ⟨not_not.mp magicSame, not_not.mp protocolSame, not_not.mp formatSame⟩
  | error error => trivial

/-- So is that of a recording that opens. -/
theorem ReplayReader.current_of_fromReader {source : Source} {reader : ReplayReader}
    (opens : fromReader source = .ok reader) : reader.header.Current := by
  unfold fromReader at opens
  cases read : readHeader source with
  | ok header next =>
      rw [read] at opens
      cases opens
      have outcome := ensures_of_ok (ensures_readHeader source) read
      exact outcome
  | error error next =>
      rw [read] at opens
      cases opens

/-- So is that of a save. -/
theorem current_of_openSave {file : Except IoError Bytes} {reader : ReplayReader}
    (opens : openSave file = .ok reader) : reader.header.Current := by
  unfold openSave at opens
  obtain ⟨data, _, opens⟩ := except_bind_eq_ok.mp opens
  cases opened : ReplayReader.fromReader (bufReader data) with
  | ok other =>
      rw [opened] at opens
      cases opens
      exact ReplayReader.current_of_fromReader opened
  | error error =>
      rw [opened] at opens
      cases opens

/-- A header that is valid for a game is one of the game, with a tick duration and an initialization
that it accepts. -/
theorem validateHeader_ok {header : ReplayHeader} (compatible : validateHeader G header = .ok ()) :
    header.gameId = G.id ∧ header.gameVersion = G.version ∧
      validateTickDuration header.tickNanos = .ok () ∧
      Codec.validate G.Initialization header.initialization = .ok () := by
  unfold validateHeader at compatible
  by_cases game : header.gameId ≠ G.id
  · rw [if_pos game] at compatible
    cases compatible
  · rw [if_neg game] at compatible
    by_cases version : header.gameVersion ≠ G.version
    · rw [if_pos version] at compatible
      cases compatible
    · rw [if_neg version] at compatible
      obtain ⟨_, duration, compatible⟩ := except_bind_eq_ok.mp compatible
      refine ⟨not_not.mp game, not_not.mp version, duration, ?_⟩
      cases accepted : Codec.validate G.Initialization header.initialization with
      | ok _ => rfl
      | error error =>
          rw [accepted] at compatible
          cases compatible

/-- A header of this build that is compatible with a game is read back from its encoding. -/
theorem ReplayHeader.Current.valid {header : ReplayHeader} (current : header.Current)
    (compatible : validateHeader G header = .ok ()) : header.Valid where
  magic := current.magic
  protocolId := current.protocolId
  formatVersion := current.formatVersion
  tickNanos := by
    obtain ⟨_, _, duration, _⟩ := validateHeader_ok compatible
    exact duration
  initialization := by
    obtain ⟨_, _, _, initialization⟩ := validateHeader_ok compatible
    exact Codec.length_le_of_validate initialization

/-- With room for it, a replay of a log ends where the log does. -/
theorem replayInto_of_replays {σ : Type} [SessionSimulation σ] {sim last : σ}
    {reader final : ReplayReader} {ticks : List TickAdvance}
    (path : Replays sim reader ticks last final)
    (clean : ReplayReader.nextRecord final = .ok none final) {batches : List Nat}
    (enough : ticks.length < room batches) :
    replayInto batches ({ sim, reader } : Replay σ) =
      .ok ticks.length { sim := last, reader := final } := by
  apply eq_ok_of_ensures
  apply (ensures_replayInto batches _).mono
  · intro total next outcome
    obtain ⟨front, progress, counted, exit⟩ := outcome
    obtain ⟨back, split, onwards⟩ := progress.path.remaining path clean
    rcases exit with ⟨_, ended⟩ | full
    · obtain ⟨nothing, sim, reader⟩ := onwards.ended ended
      rw [nothing, List.append_nil] at split
      have unmirrored := progress.mirrored.absent rfl
      refine ⟨by rw [counted, split], ?_⟩
      rw [sim, reader, ← unmirrored]
    · have short := progress.path.length_le path clean
      omega
  · intro error next outcome
    obtain ⟨front, middle, progress, _, stops⟩ := outcome
    obtain ⟨back, _, onwards⟩ := progress.path.remaining path clean
    refine onwards.not_stopped clean ?_ stops
    intro writer recording
    rw [progress.mirrored.absent rfl] at recording
    cases recording

section Reproduction

variable {κ : Type} {state : G.Simulation → κ} {header : ReplayHeader} {begun : Adapter G}
  {session : ServerSession (Adapter G)} {ticks : List TickAdvance} {writer : ReplayWriter}

/-- The recording of a session replays to the last state of the session. -/
theorem replay_of_logged (game : G.Deterministic state) (current : header.Current)
    (creates : Adapter.Creates header begun) (logged : Logged header begun session ticks)
    (recording : session.writer = some writer) {batches : List Nat}
    (enough : (currentTick session.sim).toNat < room batches) (cancelled : Bool) :
    replay G (.ok writer.written) batches cancelled = .ok
      { records := (currentTick session.sim).toNat
        finalTick := currentTick session.sim
        finalHash := stateHash session.sim
        cancelled } := by
  have deterministic := Adapter.deterministic game
  have counted : (currentTick session.sim).toNat = ticks.length := by
    rw [deterministic.tick_of_evolves logged.evolves, creates.currentTick]
    exact Nat.zero_add _
  have bytes : (bufReader writer.written).bytes =
      logUpTo header ticks ticks.length ++ [] := by
    rw [bytes_bufReader, List.append_nil, logUpTo_length]
    exact logged.recorded writer recording
  obtain ⟨final, ⟨reader, opens, named, yields⟩, left⟩ :=
    ReplayReader.opens_upTo (current.valid creates.valid) logged.within ticks.length bytes
  rw [List.take_length] at yields
  obtain ⟨last, path, alike⟩ := deterministic.replays logged.evolves rfl yields
  have replays := replayInto_of_replays path (ReplayReader.nextRecord_end final left)
    (by rw [← counted]; exact enough)
  have opened : openSave (.ok writer.written) = .ok reader := by
    unfold openSave
    change (ReplayReader.fromReader (bufReader writer.written)).mapError SessionError.io = .ok reader
    rw [opens]
    rfl
  have saved : replaySave reader batches cancelled ({ header := reader.header } : Adapter G) = .ok
      { records := ticks.length
        finalTick := currentTick last
        finalHash := stateHash last
        cancelled } last := by
    have initializes : SessionSimulation.initializeWith header ({ header } : Adapter G) =
        .ok () begun := creates.initializes rfl
    apply eq_ok_of_ensures
    unfold replaySave
    rw [ensures_bind, named, ensures_ok initializes, ensures_bind, ensures_zoom, ensures_ok replays,
      ensures_bind, ensures_get]
    exact ⟨rfl, rfl⟩
  have compatible : validateHeader G reader.header = .ok () := by
    rw [named]
    exact creates.valid
  apply except_bind_eq_ok.mpr
  refine ⟨reader, opened, except_bind_eq_ok.mpr ⟨(), compatible, ?_⟩⟩
  rw [saved, counted, ← deterministic.tick alike, ← deterministic.hash alike]

/-- The header that a started server begins with is of this build. -/
theorem current_of_startServer {config : ServerConfig G} {cfg : ServerCfg}
    {source : Option ReplayReader} (starts : startServer config = .ok (cfg, session))
    (opens : cfg.openSource = .ok source) : (session.beginsWith source).Current := by
  obtain ⟨header, made, same, begins⟩ := startServer_ok starts
  subst same begins
  unfold ServerCfg.openSource ServerConfig.worker at opens
  unfold ServerConfig.header at made
  cases loads : config.load with
  | some file =>
      rw [loads] at opens
      cases opened : openSave file with
      | ok reader =>
          dsimp only at opens
          rw [opened] at opens
          cases opens
          exact current_of_openSave opened
      | error error =>
          dsimp only at opens
          rw [opened] at opens
          cases opens
  | none =>
      rw [loads] at opens made
      cases opens
      obtain ⟨initialization, _, made⟩ := except_bind_eq_ok.mp made
      cases made
      exact ⟨rfl, rfl, rfl⟩

/-- Sessions of a game, each of which but the first loads what the one before it recorded, however
that one ended; `Chain G recording result` is about the last of them, which left `recording` and
ended with `result`. -/
inductive Chain (G : Game) :
    Bytes → EStateM.Result SessionError (ServerSession (Adapter G)) Unit → Prop
  | fresh {config : ServerConfig G} {cfg : ServerCfg} {input : SessionInput}
      {session : ServerSession (Adapter G)} {writer : ReplayWriter}
      (unloaded : config.load = none) (starts : startServer config = .ok (cfg, session))
      (recording : ((ServerSession.runServer cfg input).final session).writer = some writer) :
      Chain G writer.written (ServerSession.runServer cfg input session)
  | resumed {config : ServerConfig G} {cfg : ServerCfg} {input : SessionInput}
      {session : ServerSession (Adapter G)} {writer : ReplayWriter} {save : Bytes}
      {result : EStateM.Result SessionError (ServerSession (Adapter G)) Unit}
      (earlier : Chain G save result) (loads : config.load = some (.ok save))
      (starts : startServer config = .ok (cfg, session))
      (recording : ((ServerSession.runServer cfg input).final session).writer = some writer) :
      Chain G writer.written (ServerSession.runServer cfg input session)

/-- A session that returns leaves a recording that replays to its last state, whatever it
loaded. -/
theorem replay_of_returned (game : G.Deterministic state) {config : ServerConfig G}
    {cfg : ServerCfg} {input : SessionInput} {next : ServerSession (Adapter G)}
    (starts : startServer config = .ok (cfg, session))
    (returns : ServerSession.runServer cfg input session = .ok () next)
    (recording : next.writer = some writer) {batches : List Nat}
    (enough : (currentTick next.sim).toNat < room batches) :
    replay G (.ok writer.written) batches false = .ok
      { records := (currentTick next.sim).toNat
        finalTick := currentTick next.sim
        finalHash := stateHash next.sim
        cancelled := false } := by
  obtain ⟨source, begun, ticks, opens, initializes, logged⟩ :=
    ensures_of_ok (ServerSession.ensures_runServer_logged cfg input session) returns
  have current := current_of_startServer starts opens
  have creates := Adapter.creates_of_initializeWith initializes
  exact replay_of_logged game current creates logged recording enough false

/-- In a chain of sessions of a deterministic game, the recording of one that returned replays to
exactly the tick and the hash that it ended with, and has a record for each tick. -/
theorem recording_reproduces (game : G.Deterministic state) {recording : Bytes}
    {next : ServerSession (Adapter G)} (chain : Chain G recording (.ok () next))
    {batches : List Nat} (enough : (currentTick next.sim).toNat < room batches) :
    replay G (.ok recording) batches false = .ok
      { records := (currentTick next.sim).toNat
        finalTick := currentTick next.sim
        finalHash := stateHash next.sim
        cancelled := false } := by
  generalize returns : EStateM.Result.ok () next = result at chain
  cases chain with
  | fresh _ starts recorded =>
      rw [final_of_ok returns.symm] at recorded
      exact replay_of_returned game starts returns.symm recorded enough
  | resumed _ _ starts recorded =>
      rw [final_of_ok returns.symm] at recorded
      exact replay_of_returned game starts returns.symm recorded enough

end Reproduction

theorem deterministic_tallyGame : tallyGame.Deterministic (fun tally : Tally => tally) where
  tick alike := by rw [alike]
  hash alike := by rw [alike]
  advance alike executes := by
    rw [← alike]
    exact ⟨_, executes, rfl⟩
  publish publishes := by
    cases publishes
    rfl
  finish _ := rfl

/-- A server of `tallyGame` that records. -/
def tallyConfig : ServerConfig tallyGame where
  initialization := (0 : UInt8)
  record := some (none, [])

/-- A server that resumes `tallyLog`. -/
def tallyResumed : ServerConfig tallyGame where
  initialization := (0 : UInt8)
  load := some (.ok tallyLog)
  record := some (none, [])

/-- A server of `tallyGame` before it runs. -/
def tallySession : ServerSession (Adapter tallyGame) := { sim := { header := tallyHeader } }

/-- The log of `tallyGame` with one more tick. -/
def tallyLonger : Bytes := tallyLog ++ record { tick := 2, inputs := [⟨.host, ⟨[5]⟩⟩] }

theorem ensures_runServer_tallyConfig :
    Ensures (ServerSession.runServer (tallyConfig.worker tallyHeader)
      { wait := [{ }], ticks := [{ inputs := [⟨[7]⟩] }] }) tallySession
      (fun _ next => next.writer = some { written := tallyLog }) (fun _ _ => False) := by
  decide +kernel

theorem ensures_runServer_tallyResumed :
    Ensures (ServerSession.runServer (tallyResumed.worker tallyHeader)
      { load := [{ passes := 2 }], wait := [{ }], ticks := [{ inputs := [⟨[5]⟩] }] }) tallySession
      (fun _ next => next.writer = some { written := tallyLonger } ∧
        currentTick next.sim = 2 ∧ stateHash next.sim = 12) (fun _ _ => False) := by
  decide +kernel

theorem recording_reproduces_tally : ∃ next,
    Chain tallyGame tallyLonger (.ok () next) ∧
      replay tallyGame (.ok tallyLonger) [3] false = .ok
        { records := (currentTick next.sim).toNat
          finalTick := currentTick next.sim
          finalHash := stateHash next.sim
          cancelled := false } ∧
      currentTick next.sim = 2 ∧ stateHash next.sim = 12 := by
  obtain ⟨_, middle, returned, recorded⟩ := ensures_runServer_tallyConfig.returns
  obtain ⟨_, next, returns, recording, tick, hash⟩ :=
    ensures_runServer_tallyResumed.returns
  rw [← final_of_ok returned] at recorded
  rw [← final_of_ok returns] at recording
  have starts : startServer tallyConfig = .ok (tallyConfig.worker tallyHeader, tallySession) := rfl
  have resumes : startServer tallyResumed =
      .ok (tallyResumed.worker tallyHeader, tallySession) := by rfl
  have chain := Chain.resumed (Chain.fresh rfl starts recorded) rfl resumes recording
  rw [returns] at chain
  refine ⟨next, chain, ?_, tick, hash⟩
  apply recording_reproduces deterministic_tallyGame chain
  rw [tick]
  decide

end Synctick
