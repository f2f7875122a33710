import Synctick.Session

/-! # The pacer of the live loop

The deadline of a tick advances by the tick duration. A late tick is followed by the next one at
once, so that the lateness of single ticks evens out, and a pacer that is grossly behind starts
over at the clock. So it does not drift, and it catches up by a bounded burst only.
-/

namespace Synctick

/-- A pacer; the clock counts nanoseconds. -/
structure TickPacer where
  nextDeadline : Nat
  tickDuration : Nat
  deriving DecidableEq, Repr

namespace TickPacer

def new (now tickDuration : Nat) : TickPacer where
  nextDeadline := now + tickDuration
  tickDuration := tickDuration

/-- What a call does that reads the clock at `now`: for how long it sleeps, if it does, and the
pacer it leaves. -/
def sleepUntilNext (now : Nat) (pacer : TickPacer) : Option Nat × TickPacer :=
  if pacer.nextDeadline > now then
    (some (pacer.nextDeadline - now),
      { pacer with nextDeadline := pacer.nextDeadline + pacer.tickDuration })
  else
    let lag := now - pacer.nextDeadline
    if lag > pacer.tickDuration * 10 then
      (none, { pacer with nextDeadline := now + pacer.tickDuration })
    else (none, { pacer with nextDeadline := pacer.nextDeadline + pacer.tickDuration })

/-- A call: the clock that it read, and the time at which it returned. -/
structure Call where
  now : Nat
  returned : Nat
  deriving DecidableEq, Repr

def call (pacer : TickPacer) (call : Call) : TickPacer := (pacer.sleepUntilNext call.now).2

def run (pacer : TickPacer) (calls : List Call) : TickPacer := calls.foldl TickPacer.call pacer

/-- A call returns after it read the clock, and after it slept. -/
def Takes (pacer : TickPacer) (call : Call) : Prop :=
  call.now + (pacer.sleepUntilNext call.now).1.getD 0 ≤ call.returned

/-- The calls of a run read the clock one after another. -/
def Paced (pacer : TickPacer) : List Call → Prop
  | [] => True
  | call :: later => pacer.Takes call ∧ (∀ next ∈ later.head?, call.returned ≤ next.now) ∧
      (pacer.call call).Paced later

instance (pacer : TickPacer) (call : Call) : Decidable (pacer.Takes call) :=
  inferInstanceAs (Decidable (_ ≤ _))

instance decidablePaced : (pacer : TickPacer) → (calls : List Call) → Decidable (pacer.Paced calls)
  | _, [] => inferInstanceAs (Decidable True)
  | pacer, call :: later =>
      have := decidablePaced (pacer.call call) later
      inferInstanceAs (Decidable (_ ∧ _ ∧ _))

variable {pacer : TickPacer} {call : Call} {calls : List Call}

/-- The three things that a call does to the deadline. -/
theorem call_cases (pacer : TickPacer) (call : Call) :
    (call.now < pacer.nextDeadline ∧ (pacer.Takes call → pacer.nextDeadline ≤ call.returned) ∧
      pacer.call call = { pacer with nextDeadline := pacer.nextDeadline + pacer.tickDuration }) ∨
    (pacer.nextDeadline ≤ call.now ∧ call.now ≤ pacer.nextDeadline + 10 * pacer.tickDuration ∧
      pacer.call call = { pacer with nextDeadline := pacer.nextDeadline + pacer.tickDuration }) ∨
    (pacer.nextDeadline + 10 * pacer.tickDuration < call.now ∧
      pacer.call call = { pacer with nextDeadline := call.now + pacer.tickDuration }) := by
  unfold Takes TickPacer.call sleepUntilNext
  by_cases early : pacer.nextDeadline > call.now
  · rw [if_pos early]
    refine Or.inl ⟨early, ?_, rfl⟩
    intro takes
    change call.now + (pacer.nextDeadline - call.now) ≤ _ at takes
    omega
  · rw [if_neg early]
    dsimp only
    by_cases gross : call.now - pacer.nextDeadline > pacer.tickDuration * 10
    · rw [if_pos gross]
      exact Or.inr (Or.inr ⟨by omega, rfl⟩)
    · rw [if_neg gross]
      exact Or.inr (Or.inl ⟨by omega, by omega, rfl⟩)

@[simp] theorem tickDuration_call (pacer : TickPacer) (call : Call) :
    (pacer.call call).tickDuration = pacer.tickDuration := by
  rcases call_cases pacer call with ⟨_, _, same⟩ | ⟨_, _, same⟩ | ⟨_, same⟩
  · rw [same]
  · rw [same]
  · rw [same]

@[simp] theorem tickDuration_run (pacer : TickPacer) (calls : List Call) :
    (pacer.run calls).tickDuration = pacer.tickDuration := by
  induction calls generalizing pacer with
  | nil => rfl
  | cons call later ih => exact (ih (pacer.call call)).trans (tickDuration_call pacer call)

/-- A call moves the deadline forward by a tick, at least. -/
theorem deadline_advances (pacer : TickPacer) (call : Call) :
    pacer.nextDeadline + pacer.tickDuration ≤ (pacer.call call).nextDeadline := by
  rcases call_cases pacer call with ⟨_, _, same⟩ | ⟨_, _, same⟩ | ⟨late, same⟩
  · rw [same]
  · rw [same]
  · rw [same]
    change _ ≤ call.now + pacer.tickDuration
    omega

/-- A call that is not grossly late moves it by one tick. -/
theorem deadline_steps (steady : call.now ≤ pacer.nextDeadline + 10 * pacer.tickDuration) :
    (pacer.call call).nextDeadline = pacer.nextDeadline + pacer.tickDuration := by
  rcases call_cases pacer call with ⟨_, _, same⟩ | ⟨_, _, same⟩ | ⟨late, _⟩
  · rw [same]
  · rw [same]
  · omega

/-- No call returns before the deadline that it found. -/
theorem deadline_le_returned (takes : pacer.Takes call) : pacer.nextDeadline ≤ call.returned := by
  rcases call_cases pacer call with ⟨_, slept, _⟩ | ⟨late, _⟩ | ⟨late, _⟩
  · exact slept takes
  · unfold Takes at takes
    omega
  · unfold Takes at takes
    omega

/-- A call leaves the deadline at most nine ticks behind the clock that it read. -/
theorem now_le_deadline (pacer : TickPacer) (call : Call) :
    call.now ≤ (pacer.call call).nextDeadline + 9 * pacer.tickDuration := by
  rcases call_cases pacer call with ⟨early, _, same⟩ | ⟨_, lag, same⟩ | ⟨_, same⟩
  · rw [same]
    change call.now ≤ pacer.nextDeadline + pacer.tickDuration + 9 * pacer.tickDuration
    omega
  · rw [same]
    change call.now ≤ pacer.nextDeadline + pacer.tickDuration + 9 * pacer.tickDuration
    omega
  · rw [same]
    change call.now ≤ call.now + pacer.tickDuration + 9 * pacer.tickDuration
    omega

/-- How many calls returned up to a time. -/
def returnedBy (time : Nat) (calls : List Call) : Nat := calls.countP (·.returned ≤ time)

/-- The calls that returned up to a time took a tick each, from the deadline on. -/
theorem deadline_add_le {time : Nat} (paced : pacer.Paced calls)
    (some : 1 ≤ returnedBy time calls) :
    pacer.nextDeadline + (returnedBy time calls - 1) * pacer.tickDuration ≤ time := by
  induction calls generalizing pacer with
  | nil => exact (Nat.not_succ_le_zero 0 some).elim
  | cons call later ih =>
      obtain ⟨takes, _, paced⟩ := paced
      have advances := deadline_advances pacer call
      have rest := ih paced
      rw [tickDuration_call] at rest
      have count : returnedBy time (call :: later) =
          returnedBy time later + if call.returned ≤ time then 1 else 0 := by
        unfold returnedBy
        rw [List.countP_cons]
        congr 1
        simp
      rw [count] at some ⊢
      by_cases first : call.returned ≤ time
      · rw [if_pos first, Nat.add_sub_cancel]
        have found := deadline_le_returned takes
        cases counted : returnedBy time later with
        | zero => omega
        | succ number =>
            rw [counted] at rest
            have rest := rest (Nat.succ_pos number)
            rw [Nat.add_sub_cancel] at rest
            rw [Nat.succ_mul]
            omega
      · rw [if_neg first] at some ⊢
        have rest := rest some
        rw [Nat.add_zero]
        omega

/-- In any window from the clock that a call read on, the calls that return are as many as its ticks,
and eleven. -/
theorem burst_bounded (positive : 0 < pacer.tickDuration) (paced : pacer.Paced (call :: calls))
    (time : Nat) :
    returnedBy time (call :: calls) ≤ (time - call.now) / pacer.tickDuration + 11 := by
  obtain ⟨takes, _, paced⟩ := paced
  have behind := now_le_deadline pacer call
  have count : returnedBy time (call :: calls) ≤ returnedBy time calls + 1 := by
    unfold returnedBy
    rw [List.countP_cons]
    split
    · exact Nat.le_refl _
    · exact Nat.le_succ _
  by_cases few : returnedBy time calls < 10
  · generalize (time - call.now) / pacer.tickDuration = ticks
    omega
  · obtain ⟨number, same⟩ := Nat.exists_eq_add_of_le (Nat.le_of_not_lt few)
    have some : 1 ≤ returnedBy time calls := by omega
    have reached := deadline_add_le paced some
    have steps : returnedBy time calls - 1 = number + 9 := by omega
    rw [tickDuration_call, steps, Nat.add_mul] at reached
    have ticks : number ≤ (time - call.now) / pacer.tickDuration := by
      rw [Nat.le_div_iff_mul_le positive]
      omega
    calc returnedBy time (call :: calls)
        ≤ number + 11 := by omega
      _ ≤ (time - call.now) / pacer.tickDuration + 11 := Nat.add_le_add_right ticks 11

theorem Paced.suffix {front : List Call} (paced : pacer.Paced (front ++ calls)) :
    (pacer.run front).Paced calls := by
  induction front generalizing pacer with
  | nil => exact paced
  | cons call front ih => exact ih paced.2.2

theorem run_append (pacer : TickPacer) (front back : List Call) :
    pacer.run (front ++ back) = (pacer.run front).run back := List.foldl_append

/-- Without a gross lag, the deadline does not drift. -/
theorem deadline_exact
    (steady : ∀ front call back, calls = front ++ call :: back →
      call.now ≤ (pacer.run front).nextDeadline + 10 * pacer.tickDuration) :
    (pacer.run calls).nextDeadline = pacer.nextDeadline + calls.length * pacer.tickDuration := by
  induction calls generalizing pacer with
  | nil => simp [run]
  | cons call later ih =>
      have first : (pacer.call call).nextDeadline = pacer.nextDeadline + pacer.tickDuration :=
        deadline_steps (steady [] call later rfl)
      have rest := ih (fun front other back split => by
        rw [tickDuration_call]
        exact steady (call :: front) other back (congrArg (call :: ·) split))
      change ((pacer.call call).run later).nextDeadline = _
      rw [rest, first, tickDuration_call, List.length_cons, Nat.succ_mul]
      omega

theorem pos_of_validateTickDuration {nanos : UInt64}
    (accepted : validateTickDuration nanos = .ok ()) : 0 < nanos.toNat := by
  unfold validateTickDuration at accepted
  by_cases outside : nanos < 1_000 ∨ nanos > 1_000_000_000
  · rw [if_pos outside] at accepted
    cases accepted
  · rw [not_or, UInt64.not_lt, UInt64.le_iff_toNat_le] at outside
    have least : 1_000 ≤ nanos.toNat := outside.1
    omega

/-- In every run of a pacer with an accepted tick duration, each call moves the deadline forward by
a tick, at least; from the clock that a call read on, no more calls return than there are ticks, and
eleven; and unless a call finds itself more than ten ticks late, the deadline is that of its number. -/
theorem pacing {nanos : UInt64} (accepted : validateTickDuration nanos = .ok ())
    (duration : pacer.tickDuration = nanos.toNat) (paced : pacer.Paced calls) :
    (∀ front call back, calls = front ++ call :: back →
      (pacer.run front).nextDeadline + nanos.toNat ≤ (pacer.run (front ++ [call])).nextDeadline ∧
        ∀ time, returnedBy time (call :: back) ≤ (time - call.now) / nanos.toNat + 11) ∧
    ∀ front back, calls = front ++ back →
      (∀ before call after, front = before ++ call :: after →
        call.now ≤ (pacer.run before).nextDeadline + 10 * nanos.toNat) →
      (pacer.run front).nextDeadline = pacer.nextDeadline + front.length * nanos.toNat := by
  rw [← duration]
  constructor
  · intro front call back split
    rw [split] at paced
    have reached := paced.suffix
    have same := tickDuration_run pacer front
    constructor
    · have advances := deadline_advances (pacer.run front) call
      rw [same] at advances
      rw [run_append]
      exact advances
    · have positive : 0 < (pacer.run front).tickDuration := by
        rw [same, duration]
        exact pos_of_validateTickDuration accepted
      intro time
      have burst := burst_bounded positive reached time
      rw [same] at burst
      exact burst
  · intro front back _ steady
    exact deadline_exact steady

/-- A stall of a second in a run at thirty ticks in a second: a late call starts over. -/
def stalled : List Call :=
  [{ now := 5_000_000, returned := 33_333_333 }, { now := 1_040_000_000, returned := 1_040_000_000 },
    { now := 1_050_000_000, returned := 1_073_333_333 }]

theorem pacing_stalled :
    ((new 0 33_333_333).run stalled).nextDeadline = 1_106_666_666 ∧
      returnedBy 1_073_333_333 stalled ≤ (1_073_333_333 - 5_000_000) / 33_333_333 + 11 := by
  have paced : (new 0 33_333_333).Paced stalled := by decide
  have both := (pacing (by rfl : validateTickDuration 33_333_333 = .ok ()) rfl paced).1 [] _ _ rfl
  exact ⟨by decide, both.2 1_073_333_333⟩

end TickPacer

end Synctick
