import Mathlib.Data.List.Perm.Subperm
import Mathlib.Data.List.Nodup
import Synctick.Server.Reporting

/-! # What an authority keeps

However long a session is live, its authority retains the fingerprints of eleven checkpoints at
most, has no more participants than it started with, and leaves nothing unread that they sent.
-/

namespace Synctick

open SessionSimulation Effect Std RenetServer

/-- Of the multiples of an interval, at most eleven lie within ten intervals of one of them. -/
theorem length_le_of_multiples {interval last : Nat} (multiple : interval ∣ last) {keys : List Nat} (distinct : keys.Nodup)
    (within : ∀ key ∈ keys, interval ∣ key ∧ key ≤ last ∧ last - key ≤ interval * 10) :
    keys.length ≤ 11 := by
  -- Each of them is told by how many intervals before the last one it is.
  have apart : (keys.map fun key => (last - key) / interval).Nodup := by
    apply distinct.map_on
    intro first member second member' same
    obtain ⟨divides, below, _⟩ := within first member
    obtain ⟨divides', below', _⟩ := within second member'
    have equal : last - first = last - second := by
      rw [← Nat.div_mul_cancel (Nat.dvd_sub multiple divides), same,
        Nat.div_mul_cancel (Nat.dvd_sub multiple divides')]
    omega
  have few : (keys.map fun key => (last - key) / interval) ⊆ List.range 11 := by
    intro count member
    obtain ⟨key, there, rfl⟩ := List.mem_map.mp member
    have bound := (within key there).2.2
    rw [List.mem_range]
    exact Nat.lt_succ_of_le (Nat.div_le_of_le_mul bound)
  have length := (apart.subperm few).length_le
  rw [List.length_map, List.length_range] at length
  exact length

variable {σ : Type} [SessionSimulation σ] {policy : DesyncPolicy} {start current next : Authority σ}
  {steps : List (LiveStep σ)} {id verified : UInt64}

theorem dvd_of_mod {interval tick : UInt64} (multiple : tick % interval = 0) :
    interval.toNat ∣ tick.toNat := by
  apply Nat.dvd_of_mod_eq_zero
  rw [← UInt64.toNat_mod, multiple]
  rfl

/-- Where the checkpoints increase, eleven of them at most are retained. -/
theorem Retains.size_le {interval : UInt64} {hashes : ExtTreeMap UInt64 UInt64}
    {checkpoints : List (UInt64 × UInt64)} (retains : Retains interval hashes checkpoints)
    (increasing : checkpoints.Pairwise fun first second => first.1 < second.1)
    (multiples : ∀ entry ∈ checkpoints, entry.1 % interval = 0) : hashes.size ≤ 11 := by
  have known (tick : UInt64) (member : tick ∈ hashes.keys) :
      ∃ hash, (tick, hash) ∈ checkpoints ∧
        ∀ last ∈ checkpoints.getLast?, saturatingSub last.1 tick ≤ interval * 10 := by
    obtain ⟨hash, stored⟩ := Option.isSome_iff_exists.mp
      (ExtTreeMap.mem_iff_isSome_getElem?.mp (ExtTreeMap.mem_keys.mp member))
    exact ⟨hash, (retains tick hash).mp stored⟩
  rw [← ExtTreeMap.length_keys]
  cases end' : checkpoints.getLast? with
  | none =>
      have nothing : hashes.keys = [] := by
        apply List.eq_nil_iff_forall_not_mem.mpr
        intro tick member
        obtain ⟨hash, impossible, _⟩ := known tick member
        rw [List.getLast?_eq_none_iff.mp end'] at impossible
        cases impossible
      rw [nothing]
      exact Nat.zero_le _
  | some last =>
      obtain ⟨earlier, split⟩ := List.getLast?_eq_some_iff.mp end'
      have newest : last ∈ checkpoints := List.mem_of_getLast? end'
      have latest (entry : UInt64 × UInt64) (member : entry ∈ checkpoints) :
          entry.1.toNat ≤ last.1.toNat := by
        rw [split] at member increasing
        rcases List.mem_append.mp member with before | same
        · have below := (List.pairwise_append.mp increasing).2.2 entry before last
            (List.mem_singleton_self _)
          exact Nat.le_of_lt (UInt64.lt_iff_toNat_lt.mp below)
        · rw [List.mem_singleton.mp same]
      have distinct := hashes.nodup_keys.map (f := UInt64.toNat) fun _ _ => UInt64.toNat_inj.mp
      have few := length_le_of_multiples (dvd_of_mod (multiples last newest)) distinct (by
        intro key member
        obtain ⟨tick, there, rfl⟩ := List.mem_map.mp member
        obtain ⟨hash, among, bound⟩ := known tick there
        have near := UInt64.le_iff_toNat_le.mp (bound last end')
        rw [toNat_saturatingSub, UInt64.toNat_mul] at near
        exact ⟨dvd_of_mod (multiples _ among), latest _ among,
          Nat.le_trans near (Nat.mod_le _ _)⟩)
      rw [List.length_map] at few
      exact few

namespace LiveRun

/-- A run retains the fingerprints of eleven ticks at most. -/
theorem size_hashes_le (steady : Steady σ) (begins : start.hashes = ∅)
    (run : LiveRun policy start steps current) : current.hashes.size ≤ 11 := by
  apply (run.retains steady begins).size_le ((run.increasing steady).filter _)
  intro entry member
  exact of_decide_eq_true (List.mem_filter.mp member).2

/-- Nobody becomes a participant in a run. -/
theorem size_verified_le (steady : Steady σ) (begins : start.hashes = ∅)
    (run : LiveRun policy start steps current) : current.verified.size ≤ start.verified.size := by
  rw [← ExtTreeMap.length_keys, ← ExtTreeMap.length_keys]
  apply (current.verified.nodup_keys.subperm ?_).length_le
  intro id member
  obtain ⟨tick, known⟩ := Option.isSome_iff_exists.mp
    (ExtTreeMap.mem_iff_isSome_getElem?.mp (ExtTreeMap.mem_keys.mp member))
  obtain ⟨first, known, _⟩ := run.verified_sound steady begins known
  apply ExtTreeMap.mem_keys.mpr
  apply ExtTreeMap.mem_iff_isSome_getElem?.mpr
  rw [known]
  rfl

/-- What the participants sent was received in the last iteration. -/
theorem drained (run : LiveRun policy start steps current) (went : steps ≠ [])
    (known : current.verified[id]? = some verified)
    (connected : current.server.isConnected id = true) :
    current.server.pending id .lockstep = [] ∧ current.server.pending id .desync = [] := by
  cases run with
  | here => exact (went rfl).elim
  | @iteration steps before _ input advance run returns iterated =>
      obtain ⟨⟨earlier, entered⟩, connected'⟩ :=
        Authority.participant_of_iteration returns known connected
      obtain ⟨middle, bytes, drained, server, _⟩ :=
        Authority.iteration_of_service returns entered connected'
          (fun gathering => gathering.server.pending id .lockstep = [] ∧
            gathering.server.pending id .desync = [])
          (by
            intro before after connections _ held
            rw [pending_congr connections, pending_congr connections]
            exact held)
          (by
            intro gathering _ known
            apply (Gathering.ensures_service_drains before.sim policy before.hashes id known).mono
            · exact fun _ _ outcome => outcome.1
            · exact fun _ _ _ => trivial)
      rw [server, pending_broadcastMessage, pending_broadcastMessage]
      exact drained

end LiveRun

/-- In every state of a live session that began with no fingerprints, at most eleven are retained,
there are no more participants than at the start, and after each iteration nothing that a connected
participant sent on either channel is left unread. -/
theorem live_state_bounded (steady : Steady σ) (begins : start.hashes = ∅)
    (run : LiveRun policy start steps current) :
    current.hashes.size ≤ 11 ∧ current.verified.size ≤ start.verified.size ∧
      (steps ≠ [] → ∀ id verified : UInt64, current.verified[id]? = some verified →
        current.server.isConnected id = true →
        current.server.pending id .lockstep = [] ∧ current.server.pending id .desync = []) :=
  ⟨run.size_hashes_le steady begins, run.size_verified_le steady begins,
    fun went _ _ known connected => run.drained went known connected⟩

/-- After a checkpoint and its report, one fingerprint is retained and nothing is left unread. -/
theorem live_state_bounded_attended : ∃ (steps : List (LiveStep (Adapter tallyGame)))
    (current : Authority (Adapter tallyGame)), steps.length = 31 ∧
    delivered 7 .desync steps = [attendedReport] ∧ current.hashes.size = 1 ∧
    current.hashes.size ≤ 11 ∧ current.verified.size ≤ attended.verified.size ∧
    current.server.pending 7 .lockstep = [] ∧ current.server.pending 7 .desync = [] := by
  have goes : (LiveRun.perform .disconnect (attendedTicks ++ [attendedReporting])
      ([], attended)).any fun run => decide (run.1.length = 31 ∧
        delivered 7 .desync run.1 = [attendedReport] ∧ run.2.hashes.size = 1 ∧
        run.2.verified[(7 : UInt64)]? = some 30 ∧ run.2.server.isConnected 7 = true) := by
    decide +kernel
  obtain ⟨⟨steps, current⟩, performs, holds⟩ := Option.any_eq_true _ _ |>.mp goes
  obtain ⟨counted, heard, retained, known, connected⟩ := of_decide_eq_true holds
  have went : steps ≠ [] := by
    rintro rfl
    cases counted
  obtain ⟨few, kept, drained⟩ :=
    live_state_bounded steady_tallyAdapter rfl (LiveRun.of_perform .here performs)
  exact ⟨steps, current, counted, heard, retained, few, kept, drained went 7 30 known connected⟩

end Synctick
