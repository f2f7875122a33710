import Synctick.Agreement
import Synctick.Server.Announcement
import Synctick.System.Perform

/-! # Replicas agree with their authority

From the announcement of a save on, whatever the order of the iterations of the authority and of
the replicas and of the deliveries between them, a replica applies the ticks that the authority
loaded and broadcast, in their order. At the same tick they have the same hash.
-/

namespace Synctick

open SessionSimulation Effect RenetServer

/-- Ticks that are numbered by their places. -/
def Numbered (ticks : List TickAdvance) : Prop :=
  ticks.map (fun advance => advance.tick.toNat) = List.range' 1 ticks.length

theorem Numbered.mono {front ticks : List TickAdvance} (numbered : Numbered ticks)
    (first : front <+: ticks) : Numbered front := by
  obtain ⟨back, rfl⟩ := first
  unfold Numbered at *
  rw [List.map_append, List.length_append, ← List.range'_append_1] at numbered
  exact List.append_inj_left numbered (by simp)

section Runs

variable {ι σ κ : Type} [SessionSimulation σ] {state : σ → κ} {config : ServerCfg} {save : Bytes}
  {metadata : SaveMetadata} {initial begun last base : σ} {loaded ticks ticks' : List TickAdvance}

/-- The ticks of a session that began at tick zero are numbered. -/
theorem Deterministic.numbered (deterministic : Deterministic state)
    (evolves : Evolves begun ticks last) (zero : currentTick begun = 0) : Numbered ticks := by
  induction evolves with
  | here => rfl
  | publish _ _ ih => exact ih
  | @tick ticks advance phase sim next earlier applies ih =>
      have count := deterministic.tick_of_evolves earlier
      have number := toNat_of_checkedAdd applies.continues
      rw [zero] at count
      unfold Numbered at *
      rw [List.map_append, ih, List.length_append, List.length_singleton, List.range'_1_concat,
        List.map_singleton, number, count]
      congr 2
      change 0 + ticks.length + 1 = 1 + ticks.length
      omega

/-- A replica that is past its initial state applied ticks of the authority. -/
theorem Handed.evolves_of_placed (handed : Handed save metadata initial begun last base loaded)
    {sim : σ} (placed : Replica.Placed save initial last ticks sim) :
    sim = initial ∨ ∃ applied, applied <+: loaded ++ ticks ∧ Evolves begun applied sim := by
  obtain ⟨opened, final, opens, initializes, path, clean⟩ := handed.path
  cases placed with
  | fresh same => exact Or.inl same
  | loading read =>
      obtain ⟨opened', opens', read⟩ := read
      rw [opens] at opens'
      cases opens'
      rcases read with ⟨_, same, _⟩ | ⟨_, begun', front, initializes', path'⟩
      · exact Or.inl same
      · rw [initializes] at initializes'
        cases initializes'
        obtain ⟨back, split, _⟩ := path'.remaining path clean
        refine Or.inr ⟨front, ?_, path'.evolves⟩
        rw [split, List.append_assoc]
        exact List.prefix_append _ _
  | live within evolves =>
      exact Or.inr ⟨_, (List.prefix_append_right_inj loaded).mpr within,
        path.evolves.trans evolves⟩

/-- Where a replica is, unless it failed to publish. -/
theorem Member.Sound.placed {member : Member σ}
    (sound : member.Sound save metadata initial last ticks)
    (broadcastable : ∀ advance ∈ ticks, advance.Broadcastable) :
    Replica.Placed save initial last ticks member.replica.sim ∨
      ∃ error, member.stopped = some error ∧
        Replica.Torn last ticks error member.replica.sim := by
  cases stopped : member.stopped with
  | none =>
      have hears := (sound.delivered .lockstep).trans sound.hears
      exact Or.inl ((sound.runs stopped).placed hears broadcastable)
  | some error => exact (sound.stops error stopped).imp_right fun torn => ⟨error, rfl, torn⟩

/-- A save that is handed over replays to a state that is like that of the authority. -/
theorem Handed.alike (handed : Handed save metadata initial begun last base loaded)
    (deterministic : Deterministic state) : state base = state last := by
  obtain ⟨_, _, _, _, path, _⟩ := handed.path
  exact deterministic.alike_of_evolves handed.evolves path.evolves rfl

/-- A new replica agrees with an authority that sent nothing. -/
theorem Replica.agrees_new (initial last : σ) :
    Replica.Agrees save metadata initial last (fun _ => []) [] { sim := initial } where
  stage := by
    refine .loading ?_ (Nat.zero_le _) (Nat.le_refl _) ?_ .silent (.receiving rfl rfl rfl) rfl ?_
    · exact (transferBytes_self 0).symm
    · exact (transferBytes_self 0).symm
    · intro impossible
      exact (impossible rfl).elim
  announced _ impossible := by cases impossible
  quiet := rfl

theorem System.sound_start {session : ServerSession σ} (clients : ι → UInt64)
    (same : session.sim = base) :
    (System.start session { sim := initial } clients).Sound config save metadata initial last base
      [] where
  broadcastable _ impossible := by cases impossible
  follows := by
    refine ⟨rfl, same, ?_, Nat.zero_le _, rfl⟩
    intro id connected
    cases connected
  members i := by
    refine ⟨?_, ?_, ?_, List.nil_prefix, List.nil_prefix, rfl, ?_, ?_⟩
    · intro _
      exact Replica.agrees_new initial last
    · intro _ impossible
      cases impossible
    · intro _
      exact List.nil_prefix
    · intro impossible
      exact (impossible rfl).elim
    · intro _
      exact ⟨fun _ => rfl, rfl⟩
  tracks _ impossible := by cases impossible
  alone _ _ _ impossible := by cases impossible

/-- An authority and a replica that are at the same tick are alike. -/
theorem Handed.hash (deterministic : Deterministic state)
    (handed : Handed save metadata initial begun last base loaded)
    (zero : currentTick begun = 0) {phase : Phase σ} {sim : σ} {applied : List TickAdvance}
    (serving : phase.Serving) (follows : phase.Follows config save metadata base ticks)
    (within : applied <+: loaded ++ ticks') (evolves : Evolves begun applied sim)
    (grows : ticks <+: ticks' ∨ ticks' <+: ticks) (same : currentTick sim = currentTick phase.sim) :
    stateHash sim = stateHash phase.sim := by
  have authority : Evolves begun (loaded ++ ticks) phase.sim := by
    cases phase with
    | waiting session current =>
        obtain ⟨none, same, _⟩ := follows
        rw [none, List.append_nil]
        change Evolves begun loaded session.sim
        rw [same]
        exact handed.evolves
    | live authority => exact handed.evolves.trans follows.1
    | ended => exact serving.elim
  have lengths : applied.length = (loaded ++ ticks).length := by
    have first := deterministic.tick_of_evolves evolves
    have second := deterministic.tick_of_evolves authority
    rw [zero] at first second
    rw [same, second] at first
    omega
  have equal : applied = loaded ++ ticks := by
    rcases grows with grows | grows
    · apply List.IsPrefix.eq_of_length _ lengths
      exact List.prefix_of_prefix_length_le within
        ((List.prefix_append_right_inj loaded).mpr grows) (Nat.le_of_eq lengths)
    · apply List.IsPrefix.eq_of_length _ lengths
      exact within.trans ((List.prefix_append_right_inj loaded).mpr grows)
  rw [equal] at evolves
  exact deterministic.hash (deterministic.alike_of_evolves evolves authority rfl)

end Runs

/-- An adapter accepts the commands of its game only, which are within their limit. -/
theorem commandsBounded (G : Game) : CommandsBounded (Traced (Adapter G)) := by
  intro traced bytes valid
  change (Codec.validate G.Command bytes).mapError SessionError.codec = .ok () at valid
  cases accepted : Codec.validate G.Command bytes with
  | ok _ => exact Codec.length_le_of_validate accepted
  | error error =>
      rw [accepted] at valid
      cases valid

theorem connect_ok {G : Game} {capacity : Nat} {replica : Replica (Adapter G)}
    (connects : connect G capacity = .ok replica) :
    ∃ fresh : Adapter G, fresh.simulation = none ∧ replica = { sim := fresh } := by
  unfold connect at connects
  obtain ⟨_, _, connects⟩ := except_bind_eq_ok.mp connects
  cases connects
  exact ⟨_, rfl, rfl⟩

variable {ι κ : Type} {G : Game}

/-- The ticks that an authority loaded before it announced its save, and broadcast since. -/
def Announcement.sequence (announcement : Announcement G) (phase : Phase (Traced (Adapter G))) :
    List TickAdvance :=
  announcement.session.sim.applied ++ broadcastTicks phase.server.broadcasts

/-- A replica applied the first ticks of its authority, one after another, and its next iteration
fails for its environment or its own publication only. -/
structure Replicates (announcement : Announcement G) (phase : Phase (Traced (Adapter G)))
    (member : Member (Traced (Adapter G))) : Prop where
  applied : member.replica.sim.applied <+: announcement.sequence phase
  numbered : Numbered member.replica.sim.applied
  fails : ∀ input error next, member.stopped = none →
    Replica.iteration input member.replica = .error error next →
      Replica.Disturbed input error ∨ Unpublished error next.sim

/-- A replica that completed the same tick as an authority has its hash. A tick whose publication
failed is not completed. -/
def SameHash (phase : Phase (Traced (Adapter G))) (member : Member (Traced (Adapter G))) : Prop :=
  phase.Serving → member.replica.sim.sim.simulation.isSome →
    (∀ error, member.stopped = some error → ¬ Unpublished error member.replica.sim) →
    currentTick member.replica.sim = currentTick phase.sim →
    stateHash member.replica.sim = stateHash phase.sim

/-- The ticks that a replica applied are those of its authority. -/
theorem Member.Sound.applied {fresh begun : Adapter G} {save : Bytes} {metadata : SaveMetadata}
    {last base : Traced (Adapter G)} {loaded ticks : List TickAdvance}
    {member : Member (Traced (Adapter G))}
    (sound : member.Sound save metadata { sim := fresh } last ticks)
    (broadcastable : ∀ advance ∈ ticks, advance.Broadcastable)
    (handed : Handed save metadata { sim := fresh } { sim := begun } last base loaded) :
    member.replica.sim.applied <+: loaded ++ ticks := by
  obtain ⟨_, _, _, _, path, _⟩ := handed.path
  have before {applied : List TickAdvance} {sim : Traced (Adapter G)}
      (evolves : Evolves last applied sim) : sim.applied = loaded ++ applied :=
    Traced.applied_of_evolves (path.evolves.trans evolves)
  rcases sound.placed broadcastable with placed | ⟨error, _, torn⟩
  · rcases handed.evolves_of_placed placed with same | ⟨applied, within, evolves⟩
    · rw [same]
      exact List.nil_prefix
    · rw [Traced.applied_of_evolves evolves]
      exact within
  · cases torn with
    | start fails =>
        have kept := ensures_of_error (Traced.ensures_publish _) fails
        rw [kept, before .here]
        exact (List.prefix_append_right_inj loaded).mpr List.nil_prefix
    | @tick applied back advance current split evolves rejects =>
        rw [split]
        rcases Traced.applied_of_tickRejected rejects with same | ⟨_, more⟩
        · rw [same, before evolves]
          exact (List.prefix_append_right_inj loaded).mpr (List.prefix_append _ _)
        · rw [more, before evolves, List.append_assoc]
          refine (List.prefix_append_right_inj loaded).mpr ?_
          rw [List.prefix_append_right_inj]
          exact List.prefix_append [advance] back

/-- In every run of an authority of a deterministic game and of its replicas, a replica applies the
ticks of the authority in their order, and it never fails for what it is sent. At the same tick it
has the same hash as the authority, whichever of them gets there first. -/
theorem replicas_agree [DecidableEq ι] {state : G.Simulation → κ} (game : G.Deterministic state)
    (announcement : Announcement G) {capacity : Nat} {replica : Replica (Adapter G)}
    (connects : connect G capacity = .ok replica) {clients : ι → UInt64}
    {earlier later : System ι (Traced (Adapter G))}
    (reaches : (System.start announcement.session { sim := { sim := replica.sim } }
      clients).Reaches announcement.cfg announcement.save announcement.metadata earlier)
    (onwards : earlier.Reaches announcement.cfg announcement.save announcement.metadata later)
    (i : ι) :
    Replicates announcement later.phase (later.members i) ∧
      SameHash earlier.phase (later.members i) ∧ SameHash later.phase (earlier.members i) := by
  obtain ⟨fresh, empty, same⟩ := connect_ok connects
  subst same
  obtain ⟨header, begun, last, loaded, creates, handed⟩ := announcement.handed game empty
  have deterministic := Traced.deterministic (Adapter.deterministic game)
  have zero : currentTick ({ sim := begun } : Traced (Adapter G)) = 0 := creates.currentTick
  have alike := handed.alike deterministic
  have bounded := commandsBounded G
  obtain ⟨ticks, _, before⟩ := (System.sound_start clients rfl).reaches deterministic bounded
    handed.valid alike reaches
  obtain ⟨ticks', grows, after⟩ := before.reaches deterministic bounded handed.valid alike onwards
  have past : announcement.session.sim.applied = loaded := Traced.applied_of_evolves handed.evolves
  have applied := (after.members i).applied after.broadcastable handed
  have hashes {phase : Phase (Traced (Adapter G))} {member : Member (Traced (Adapter G))}
      {front back : List TickAdvance}
      (follows : phase.Follows announcement.cfg announcement.save announcement.metadata
        announcement.session.sim front)
      (sound : member.Sound announcement.save announcement.metadata { sim := fresh } last back)
      (broadcastable : ∀ advance ∈ back, advance.Broadcastable)
      (ordered : front <+: back ∨ back <+: front) : SameHash phase member := by
    intro serving created published same
    rcases sound.placed broadcastable with placed | ⟨error, stopped, torn⟩
    · rcases handed.evolves_of_placed placed with initial | ⟨applied, within, evolves⟩
      · rw [initial] at created
        change fresh.simulation.isSome = true at created
        rw [empty] at created
        cases created
      · exact handed.hash deterministic zero serving follows within evolves ordered same
    · exact (published error stopped torn.unpublished).elim
  refine ⟨⟨?_, ?_, ?_⟩, ?_, ?_⟩
  · unfold Announcement.sequence
    rw [past]
    exact applied.trans ((List.prefix_append_right_inj loaded).mpr
      (after.follows.broadcast after.broadcastable))
  · obtain ⟨current, evolves⟩ := after.follows.evolves
    exact (deterministic.numbered (handed.evolves.trans evolves) zero).mono applied
  · intro input error next runs fails
    have hears := ((after.members i).delivered .lockstep).trans (after.members i).hears
    rcases ensures_of_error (Replica.agrees_iteration deterministic handed.valid
        (after.leads alike) hears input ((after.members i).runs runs)) fails with
      ⟨disturbed, _⟩ | torn
    · exact Or.inl disturbed
    · exact Or.inr torn.unpublished
  · exact hashes before.follows (after.members i) after.broadcastable (Or.inl grows)
  · exact hashes after.follows (before.members i) before.broadcastable (Or.inr grows)

/-- A server of `tallyGame` that waits for a client. -/
def tallyHost : ServerConfig tallyGame where
  initialization := (0 : UInt8)
  expectedClients := 1

/-- Its announcement: the save is just a header. -/
def tallyAnnouncement : Announcement tallyGame where
  config := tallyHost
  cfg := tallyHost.worker tallyHeader
  adapter := { header := tallyHeader }
  input := {}
  opened := { sim := { sim := tallyAdapter } }
  loaded := { sim := { sim := tallyAdapter } }
  session := { sim := { sim := tallyAdapter } }
  save := encode tallyHeader
  metadata := { totalBytes := 38, tick := 0, hash := 0 }
  starts := rfl
  opens := rfl
  loads := rfl
  flushes := rfl
  reads := rfl
  announces := rfl
  recorded _ impossible := by cases impossible
  unchanged _ _ impossible := by cases impossible

/-- A client of it that is sent the save, reports that it is ready, and goes live with its server
for one tick. -/
def tallyActs : List (Act Unit) :=
  [.member () .join, .pass { peers := fun _ => { answers := Joining.twoAdmitted } },
    .member () (.arrive .save), .member () (.arrive .save), .member () (.iterate { passes := 4 }),
    .member () (.deliver .lockstep), .member () (.deliver .lockstep), .pass {},
    .member () (.arrive .lockstep), .member () (.iterate { messages := 4 }),
    .tick { inputs := [⟨[7]⟩] }]

/-- It is sent the tick, and applies it. -/
def tallyLater : List (Act Unit) :=
  [.member () (.arrive .lockstep), .member () (.iterate { messages := 4 })]

theorem replicas_agree_tally : ∃ earlier later : System Unit (Traced (Adapter tallyGame)),
    Replicates tallyAnnouncement later.phase (later.members ()) ∧
      SameHash earlier.phase (later.members ()) ∧ SameHash later.phase (earlier.members ()) ∧
      (earlier.members ()).replica.sim.applied = [] ∧
      (later.members ()).replica.sim.applied = [{ tick := 1, inputs := [⟨.host, ⟨[7]⟩⟩] }] ∧
      stateHash earlier.phase.sim = stateHash (later.members ()).replica.sim := by
  have connects : connect tallyGame 256 =
      .ok { sim := { header := .new tallyGame.id tallyGame.version 33_333_333 [] } } := rfl
  have runs : ((System.start tallyAnnouncement.session
      { sim := { sim := { header := .new tallyGame.id tallyGame.version 33_333_333 [] } } }
      fun _ => 7).run tallyAnnouncement.cfg tallyAnnouncement.save tallyAnnouncement.metadata
      tallyActs).any fun earlier => (earlier.members ()).replica.sim.applied = [] ∧
        (earlier.run tallyAnnouncement.cfg tallyAnnouncement.save tallyAnnouncement.metadata
          tallyLater).any fun later =>
            (later.members ()).replica.sim.applied = [{ tick := 1, inputs := [⟨.host, ⟨[7]⟩⟩] }] ∧
            stateHash earlier.phase.sim = stateHash (later.members ()).replica.sim := by
    decide +kernel
  obtain ⟨earlier, reaches, runs⟩ := Option.any_eq_true _ _ |>.mp runs
  obtain ⟨none, runs⟩ := of_decide_eq_true runs
  obtain ⟨later, onwards, runs⟩ := Option.any_eq_true _ _ |>.mp runs
  obtain ⟨one, hash⟩ := of_decide_eq_true runs
  obtain ⟨replicates, behind, ahead⟩ := replicas_agree deterministic_tallyGame tallyAnnouncement
    connects (System.reaches_of_run reaches) (System.reaches_of_run onwards) ()
  exact ⟨earlier, later, replicates, behind, ahead, none, one, hash⟩

end Synctick
