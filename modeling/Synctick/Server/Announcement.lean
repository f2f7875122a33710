import Synctick.Server.Reproduction
import Synctick.Startup.Honest

/-! # The save that an authority announces

An authority that loaded its save announces it with its tick and its hash. Where the file of the
save is what was recorded or loaded, it is valid: a replica that replays it goes through the ticks
of the authority, to a state that is like that of the authority.
-/

namespace Synctick

open SessionSimulation Effect

namespace Traced

variable {σ κ : Type} [SessionSimulation σ]

omit [SessionSimulation σ] in
/-- A call that returned ran on the instrumented simulation. -/
theorem call_ok {α : Type} {program : SessionEffect σ α}
    {hook : Except SessionError α → σ → List Hook} {traced next : Traced σ} {value : α} :
    call program hook traced = .ok value next ↔ ∃ sim, program traced.sim = .ok value sim ∧
      next = { sim, hooks := traced.hooks ++ hook (.ok value) sim } := by
  unfold call
  cases program traced.sim with
  | ok other sim =>
      constructor
      · intro same
        cases same
        exact ⟨sim, rfl, rfl⟩
      · rintro ⟨other, same, rfl⟩
        cases same
        rfl
  | error error sim =>
      constructor
      · intro impossible
        cases impossible
      · rintro ⟨_, impossible, _⟩
        cases impossible

/-- An instrumented simulation is as deterministic as its simulation. -/
theorem deterministic {state : σ → κ} (deterministic : Deterministic state) :
    Deterministic fun traced : Traced σ => state traced.sim where
  tick alike := deterministic.tick alike
  hash alike := deterministic.hash alike
  advance {tick sim other next} alike executes := by
    obtain ⟨after, executes, same⟩ := call_ok.mp executes
    obtain ⟨reached, follows, settled⟩ := deterministic.advance alike executes
    rw [same]
    exact ⟨_, call_ok.mpr ⟨reached, follows, rfl⟩, settled⟩
  publish publishes := by
    obtain ⟨after, publishes, same⟩ := call_ok.mp publishes
    rw [same]
    exact deterministic.publish publishes
  finish traced := deterministic.finish traced.sim

/-- The ticks that a session went through are those that its calls applied. -/
theorem applied_of_evolves {first last : Traced σ} {ticks : List TickAdvance}
    (evolves : Evolves first ticks last) : last.applied = first.applied ++ ticks := by
  induction evolves with
  | here => exact (List.append_nil _).symm
  | publish _ publishes ih =>
      have kept := ensures_of_ok (ensures_publish _) publishes
      rw [kept, ih]
  | tick _ applies ih => rw [applied_of_tickApplied applies, ih, List.append_assoc]

end Traced

namespace ServerSession

variable {σ : Type} [SessionSimulation σ] {session : ServerSession σ}

/-- A session whose recording is there or not as before, and which went along its save. -/
structure Along {σ : Type} [SessionSimulation σ] (before : ServerSession σ) (begun : σ)
    (opened : ReplayReader) (finished : Bool) (session : ServerSession σ) : Prop where
  writer : session.writer.isSome = before.writer.isSome
  path : ∃ ticks reader, session.source = some reader ∧ Replays begun opened ticks session.sim reader ∧
    (finished = true → ReplayReader.nextRecord reader = .ok none reader)

variable {before : ServerSession σ} {begun : σ} {opened : ReplayReader}

theorem ensures_loadPass_along (input : LoadInput) (along : Along before begun opened false session) :
    Ensures (loadPass input) session (fun finished next => Along before begun opened finished next)
      (fun _ _ => True) := by
  obtain ⟨present, ticks, reader, loads, path, _⟩ := along
  unfold loadPass
  rw [ensures_bind, ensures_ofExcept]
  refine ⟨?_, fun _ _ => trivial⟩
  intro _ _
  rw [ensures_bind, ensures_get, loads]
  dsimp only
  rw [ensures_bind, ensures_zoom]
  apply (ensures_replayBatch input.passes _).mono
  · intro batch replay outcome
    obtain ⟨more, progress, _, exit⟩ := outcome
    have kept : replay.mirror.isSome = session.writer.isSome := by
      cases recording : session.writer with
      | none => rw [progress.mirrored.absent recording]
      | some writer =>
          obtain ⟨grown, there, _⟩ := progress.mirrored.written writer recording
          rw [there]
          rfl
    have clean (finished : batch.finished = true) :
        ReplayReader.nextRecord replay.reader = .ok none replay.reader := by
      rcases exit with ⟨_, _, clean⟩ | ⟨more, _⟩
      · exact clean
      · rw [finished] at more
        cases more
    have onwards := path.append progress.path
    rw [ensures_bind, ensures_get]
    by_cases due : input.progressDue = true
    · rw [if_pos due]
      exact ⟨kept.trans present, _, _, rfl, onwards, clean⟩
    · rw [if_neg due]
      exact ⟨kept.trans present, _, _, rfl, onwards, clean⟩
  · intro _ _ _
    trivial

/-- The loading loop goes along the save, to its end where it says so. -/
theorem ensures_loadSave_along (inputs : List LoadInput)
    (along : Along before begun opened false session) :
    Ensures (loadSave inputs) session
      (fun finished next => Along before begun opened finished next) (fun _ _ => True) := by
  induction inputs generalizing session with
  | nil => exact along
  | cons input later ih =>
      unfold loadSave
      rw [ensures_bind]
      apply (ensures_loadPass_along input along).mono
      · intro finished next along
        cases finished with
        | true => exact along
        | false => exact ih along
      · intro _ _ _
        trivial

theorem ensures_load_along (inputs : List LoadInput) (source : session.source = some opened) :
    Ensures (load inputs) session
      (fun finished next => Along session session.sim opened finished next) (fun _ _ => True) := by
  unfold load
  rw [ensures_bind, ensures_get, source]
  dsimp only
  unfold publishStatus
  rw [ensures_bind, ensures_modify]
  apply ensures_loadSave_along
  exact ⟨rfl, [], opened, source, .here _ _, fun impossible => nomatch impossible⟩

/-- With nothing to load, a session stays as it is. -/
theorem load_nothing (inputs : List LoadInput) (nothing : session.source = none) :
    load inputs session = .ok true session := by
  apply eq_ok_of_ensures
  unfold load
  rw [ensures_bind, ensures_get, nothing]
  exact ⟨rfl, rfl⟩

omit [SessionSimulation σ] in
/-- A flush keeps the simulation and the recording. -/
theorem ensures_flush_keeps (session : ServerSession σ) :
    Ensures flush session
      (fun _ next => next.sim = session.sim ∧ next.writer.isSome = session.writer.isSome)
      (fun _ _ => True) := by
  unfold flush
  rw [ensures_bind, ensures_get]
  cases recording : session.writer with
  | none => exact ⟨rfl, by rw [recording]⟩
  | some writer =>
      dsimp only
      rw [ensures_zoom]
      apply (ensures_self _ _).mono
      · intro _ _ _
        exact ⟨rfl, rfl⟩
      · intro _ _ _
        trivial

end ServerSession

/-- A save that is handed over: from `initial` it replays the ticks that the authority, which was
then at `base`, had applied since `begun`. -/
structure Handed {σ : Type} [SessionSimulation σ] (save : Bytes) (metadata : SaveMetadata)
    (initial begun last base : σ) (loaded : List TickAdvance) : Prop where
  valid : ValidSave save metadata initial last
  path : ∃ opened final, ReplayReader.fromReader (bufReader save) = .ok opened ∧
    initializeWith opened.header initial = .ok () begun ∧
    Replays begun opened loaded last final ∧ ReplayReader.nextRecord final = .ok none final
  evolves : Evolves begun loaded base

/-- A save whose log ends in a state that is like that of the authority that announced it. -/
theorem handed_of_path {σ κ : Type} [SessionSimulation σ] {state : σ → κ}
    (deterministic : Deterministic state) {save : Bytes} {metadata : SaveMetadata}
    {initial begun last base : σ} {loaded : List TickAdvance} {opened final : ReplayReader}
    (opens : ReplayReader.fromReader (bufReader save) = .ok opened)
    (initializes : initializeWith opened.header initial = .ok () begun)
    (path : Replays begun opened loaded last final)
    (clean : ReplayReader.nextRecord final = .ok none final) (evolves : Evolves begun loaded base)
    (short : save.length < 2 ^ 64)
    (announced : metadata =
      { totalBytes := UInt64.ofNat save.length, tick := currentTick base, hash := stateHash base }) :
    Handed save metadata initial begun last base loaded := by
  have alike := deterministic.alike_of_evolves path.evolves evolves rfl
  refine ⟨⟨?_, ⟨opened, begun, loaded, final, opens, initializes, path, clean⟩, ?_, ?_⟩,
    ⟨opened, final, opens, initializes, path, clean⟩, evolves⟩
  · rw [announced]
    exact UInt64.toNat_ofNat_of_lt' short
  · rw [announced]
    exact deterministic.tick alike
  · rw [announced]
    exact deterministic.hash alike

/-- An authority of a game that loaded its save and announced it. The file of the save is as it was
written: what is read back is what was recorded, or else what was loaded. -/
structure Announcement (G : Game) where
  config : ServerConfig G
  cfg : ServerCfg
  adapter : Adapter G
  input : SessionInput
  opened : ServerSession (Traced (Adapter G))
  loaded : ServerSession (Traced (Adapter G))
  session : ServerSession (Traced (Adapter G))
  save : Bytes
  metadata : SaveMetadata
  starts : startServer config = .ok (cfg, { sim := adapter })
  opens : ServerSession.openSession cfg { sim := { sim := adapter } } = .ok () opened
  loads : ServerSession.load input.load opened = .ok true loaded
  flushes : ServerSession.flush loaded = .ok () session
  reads : ServerSession.readSave cfg input session = .ok save session
  announces : ServerSession.announce save session = .ok metadata session
  recorded : ∀ writer, session.writer = some writer → input.saved = .ok writer.written
  unchanged : session.writer = none → ∀ file, cfg.load = some file → input.saved = file

theorem fromReader_of_openSave {save : Bytes} {reader : ReplayReader}
    (opens : openSave (.ok save) = .ok reader) :
    ReplayReader.fromReader (bufReader save) = .ok reader := by
  unfold openSave at opens
  obtain ⟨data, same, opens⟩ := except_bind_eq_ok.mp opens
  cases same
  cases opened : ReplayReader.fromReader (bufReader save) with
  | ok other =>
      rw [opened] at opens
      exact congrArg Except.ok (Except.ok.inj opens)
  | error error =>
      rw [opened] at opens
      cases opens

namespace Announcement

variable {G : Game} {κ : Type} {state : G.Simulation → κ} (announcement : Announcement G)

/-- What an announced save is about. -/
theorem announced : announcement.save.length < 2 ^ 64 ∧ announcement.metadata =
    { totalBytes := UInt64.ofNat announcement.save.length
      tick := currentTick announcement.session.sim
      hash := stateHash announcement.session.sim } := by
  obtain ⟨_, short, same⟩ :=
    ensures_of_ok (ServerSession.ensures_announce _ _) announcement.announces
  exact ⟨short, same⟩

/-- What an authority began with. -/
theorem begins : ∃ header source writer begun, announcement.cfg.openSource = .ok source ∧
    header = (source.map ReplayReader.header).getD announcement.adapter.header ∧
    header.Current ∧ Adapter.Creates header begun ∧
    announcement.cfg.createWriter header = .ok writer ∧
    announcement.opened = { sim := { sim := begun }, source, writer } := by
  obtain ⟨source, sim, writer, opens, initializes, creates, same⟩ :=
    ensures_of_ok (ServerSession.ensures_openSession _ _) announcement.opens
  obtain ⟨begun, initializes, same'⟩ := Traced.call_ok.mp initializes
  refine ⟨_, source, writer, begun, opens, rfl, ?_, Adapter.creates_of_initializeWith initializes,
    creates, ?_⟩
  · have current := current_of_startServer announcement.starts opens
    exact current
  · rw [same, same']
    rfl

/-- A log of the ticks of an authority, behind the header that it began with, is handed over. -/
theorem handed_of_log (game : G.Deterministic state) {header : ReplayHeader} {begun : Adapter G}
    {ticks : List TickAdvance} {fresh : Adapter G} (current : header.Current)
    (creates : Adapter.Creates header begun) (empty : fresh.simulation = none)
    (log : announcement.save = encode header ++ records ticks)
    (within : ∀ advance ∈ ticks, advance.Within)
    (evolves : Evolves ({ sim := begun } : Traced (Adapter G)) ticks announcement.session.sim) :
    ∃ last, Handed announcement.save announcement.metadata { sim := fresh } { sim := begun } last
      announcement.session.sim ticks := by
  obtain ⟨short, announced⟩ := announcement.announced
  have bytes : (bufReader announcement.save).bytes = logUpTo header ticks ticks.length ++ [] := by
    rw [bytes_bufReader, List.append_nil, logUpTo_length]
    exact log
  obtain ⟨final, ⟨reader, opens, named, yields⟩, left⟩ :=
    ReplayReader.opens_upTo (current.valid creates.valid) within ticks.length bytes
  rw [List.take_length] at yields
  have deterministic := Traced.deterministic (Adapter.deterministic game)
  obtain ⟨last, path, _⟩ := deterministic.replays evolves rfl yields
  have initializes : initializeWith reader.header ({ sim := fresh } : Traced (Adapter G)) =
      .ok () { sim := begun } := by
    rw [named]
    exact Traced.call_ok.mpr ⟨begun, creates.initializes empty, rfl⟩
  exact ⟨last, handed_of_path deterministic opens initializes path
    (ReplayReader.nextRecord_end final left) evolves short announced⟩

/-- A session records where it was configured to. -/
theorem recording : announcement.session.writer.isSome = announcement.cfg.record.isSome := by
  obtain ⟨header, source, writer, begun, _, _, _, _, created, opened⟩ := announcement.begins
  have made : writer.isSome = announcement.cfg.record.isSome :=
    announcement.cfg.isSome_of_createWriter created
  obtain ⟨_, flushed⟩ :=
    ensures_of_ok (ServerSession.ensures_flush_keeps _) announcement.flushes
  have present : announcement.opened.writer = writer := by rw [opened]
  have loads := announcement.loads
  rw [flushed, ← made, ← present]
  cases from' : announcement.opened.source with
  | none =>
      rw [ServerSession.load_nothing _ from'] at loads
      rw [(EStateM.Result.ok.inj loads).2]
  | some reader =>
      have along := ensures_of_ok (ServerSession.ensures_load_along _ from') loads
      exact along.writer

/-- An announced save is handed over to every replica of the game. -/
theorem handed (game : G.Deterministic state) {fresh : Adapter G}
    (empty : fresh.simulation = none) : ∃ header begun last loaded,
      Adapter.Creates header begun ∧ Handed announcement.save announcement.metadata
        { sim := fresh } { sim := begun } last announcement.session.sim loaded := by
  have deterministic := Traced.deterministic (Adapter.deterministic game)
  have recording := announcement.recording
  obtain ⟨header, source, writer, begun, opens, named, current, creates, created, opened⟩ :=
    announcement.begins
  obtain ⟨kept, _⟩ := ensures_of_ok (ServerSession.ensures_flush_keeps _) announcement.flushes
  have reads := (ensures_of_ok (ServerSession.ensures_readSave _ _ _) announcement.reads).2
  have loads := announcement.loads
  cases written : announcement.session.writer with
  | some last =>
      -- What is read back was recorded.
      rw [written] at recording
      have logged : Logged header ({ sim := begun } : Traced (Adapter G)) announcement.opened [] := by
        rw [opened]
        refine ⟨.here, ?_, fun _ impossible => nomatch impossible⟩
        intro recording there
        rw [records_nil, List.append_nil]
        exact announcement.cfg.written_of_createWriter created there
      obtain ⟨ticks, logged⟩ := ensures_of_ok (ServerSession.ensures_load_logged _ logged) loads
      have logged := ensures_of_ok (ServerSession.ensures_flush_logged logged) announcement.flushes
      have log : announcement.save = encode header ++ records ticks := by
        have saved := announcement.recorded last written
        rcases reads with ⟨_, read⟩ | ⟨unstored, _⟩
        · rw [Except.ok.inj (read.symm.trans saved)]
          exact logged.recorded last written
        · exact (unstored (Or.inl recording.symm)).elim
      obtain ⟨last, handed⟩ := announcement.handed_of_log game current creates empty log
        logged.within logged.evolves
      exact ⟨header, begun, last, ticks, creates, handed⟩
  | none =>
      rw [written] at recording
      cases load : announcement.cfg.load with
      | some file =>
          -- What is read back was loaded.
          have saved : file = .ok announcement.save := by
            rw [← announcement.unchanged written file load]
            rcases reads with ⟨_, read⟩ | ⟨unstored, _⟩
            · exact read
            · exact (unstored (Or.inr (by rw [load]; rfl))).elim
          obtain ⟨reader, begins, first⟩ :
              ∃ reader, source = some reader ∧ openSave (.ok announcement.save) = .ok reader := by
            unfold ServerCfg.openSource at opens
            rw [load, saved] at opens
            dsimp only at opens
            cases opened : openSave (.ok announcement.save) with
            | ok reader =>
                rw [opened] at opens
                exact ⟨reader, (Except.ok.inj opens).symm, rfl⟩
            | error error =>
                rw [opened] at opens
                cases opens
          subst begins
          have from' : announcement.opened.source = some reader := by rw [opened]
          have along := ensures_of_ok (ServerSession.ensures_load_along _ from') loads
          obtain ⟨ticks, final, _, path, clean⟩ := along.path
          rw [← kept, opened] at path
          have initializes : initializeWith reader.header ({ sim := fresh } : Traced (Adapter G)) =
              .ok () { sim := begun } := by
            have header : reader.header = header := named.symm
            rw [header]
            exact Traced.call_ok.mpr ⟨begun, creates.initializes empty, rfl⟩
          obtain ⟨short, announced⟩ := announcement.announced
          exact ⟨header, begun, _, ticks, creates, handed_of_path deterministic
            (fromReader_of_openSave first) initializes path (clean rfl) path.evolves short announced⟩
      | none =>
          -- What is sent is just a header.
          have nothing : source = none := by
            unfold ServerCfg.openSource at opens
            rw [load] at opens
            cases opens
            rfl
          subst nothing
          have unopened : announcement.opened.source = none := by rw [opened]
          rw [ServerSession.load_nothing _ unopened] at loads
          have sim : announcement.session.sim = { sim := begun } := by
            rw [kept, ← (EStateM.Result.ok.inj loads).2, opened]
          have log : announcement.save = encode header ++ records [] := by
            rw [records_nil, List.append_nil]
            rcases reads with ⟨stored, _⟩ | ⟨_, made⟩
            · rw [load, ← recording] at stored
              rcases stored with impossible | impossible
              · cases impossible
              · cases impossible
            · rw [made, sim]
              exact congrArg encode creates.header
          obtain ⟨last, handed⟩ := announcement.handed_of_log game current creates empty log
            (fun _ impossible => nomatch impossible) (by rw [sim]; exact .here)
          exact ⟨header, begun, last, [], creates, handed⟩

end Announcement

end Synctick
