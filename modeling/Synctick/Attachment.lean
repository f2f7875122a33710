import Mathlib.Logic.Function.Basic
import Synctick.Worker

/-! # The session slot of a Bevy app

An app has one slot for a session. A controller attaches sessions to it and detaches them, a guard
outside the app shuts down what is attached, and a system of the app observes the slot and keeps
the resources of the app in step with it. It compares a generation with that of its last run.
-/

namespace Synctick

structure SessionSlot where
  handle : Option Nat := none
  result : SessionResult Unit := .ok ()
  generation : UInt64 := 0
  deriving DecidableEq, Repr

/-- An app with its slot. Sessions are numbered in the order in which they were handed over; the
resources name the session that they belong to, and `observed` is the generation that the observing
system saw last. -/
structure App where
  sessions : Nat → SessionHandle
  count : Nat
  slot : SessionSlot
  commands : Option Nat := none
  cancellation : Option Nat := none
  state : SessionStatus := .stopped
  observed : Option UInt64 := none

namespace App

/-- Something happens to a session. -/
def update (id : Nat) (change : SessionHandle → SessionHandle) (app : App) : App :=
  { app with sessions := Function.update app.sessions id (change (app.sessions id)) }

/-- A plugin with a session, or an idle one. -/
def fromHandle : Option SessionHandle → App
  | some handle => { sessions := fun _ => handle, count := 1, slot := { handle := some 0 } }
  | none => { sessions := fun _ => {}, count := 0, slot := {} }

/-- Cancel and join what is attached, which stays attached. -/
def shutdown (exit : WorkerExit) (app : App) : SessionResult Unit × App :=
  match app.slot.handle with
  | some id =>
      let result := ((app.sessions id).shutdown exit).1
      (result, { app.update id fun handle => (handle.shutdown exit).2 with
        slot := { app.slot with result } })
  | none => (app.slot.result, app)

/-- Attach a session. An occupied slot rejects it, and the rejected handle is dropped. -/
def attach (incoming : SessionHandle) (exit : WorkerExit) (app : App) :
    SessionResult Unit × App :=
  match app.slot.handle with
  | some _ =>
      (.error (.configuration "session slot is occupied; detach it first"),
        { app with
          sessions := Function.update app.sessions app.count (incoming.drop exit)
          count := app.count + 1 })
  | none =>
      (.ok (), { app with
        sessions := Function.update app.sessions app.count incoming
        count := app.count + 1
        slot := {
          handle := some app.count
          result := .ok ()
          generation := app.slot.generation + 1 } })

/-- Cancel and join, release the slot, and retain the terminal result. -/
def detach (exit : WorkerExit) (app : App) : SessionResult Unit × App :=
  let result := (app.shutdown exit).1
  let app := (app.shutdown exit).2
  match app.slot.handle with
  | some id =>
      (result, { app.update id (SessionHandle.drop exit) with
        slot := { app.slot with handle := none, generation := app.slot.generation + 1 } })
  | none => (result, app)

/-- The plugin inserts the resources of the session that it was made with. -/
def build (app : App) : App :=
  match app.slot.handle with
  | some id =>
      { app with
        commands := some id
        cancellation := some id
        state := (app.sessions id).control.status }
  | none => { app with state := .stopped }

/-- The state resource follows the attached session, or its terminal result. -/
def observeState (app : App) : App :=
  match app.slot.handle with
  | some id =>
      { app.update id SessionHandle.poll with
        state := (app.sessions id).poll.control.status }
  | none =>
      match app.slot.result with
      | .ok () => { app with state := .stopped }
      | .error error => { app with state := .failed error.display }

/-- The command and cancellation resources follow the slot when its generation is not the observed
one. -/
def synchronize (app : App) : App :=
  if app.observed ≠ some app.slot.generation then
    match app.slot.handle with
    | some id =>
        { app with
          commands := some id
          cancellation := some id
          observed := some app.slot.generation }
    | none =>
        { app with
          commands := none
          cancellation := none
          observed := some app.slot.generation }
  else app

/-- One run of the observing system. -/
def observe (app : App) : App := app.observeState.synchronize

/-- The app is asked to exit. -/
def cancelOnExit (app : App) : App :=
  match app.cancellation with
  | some id => app.update id SessionHandle.cancel
  | none => app

/-- Who asks for a shutdown: the controller releases the slot, the guard does not. -/
inductive Stopping
  | detach
  | guard
  deriving DecidableEq, Repr

def stop (exit : WorkerExit) : Stopping → App → SessionResult Unit × App
  | .detach => detach exit
  | .guard => shutdown exit

/-- What can happen, in any order: calls of the controller and of the guard, runs of the systems,
and what the sessions and the holders of their controls do. An exit is how a worker ends that still
runs when it is joined. -/
inductive Action
  | attach (incoming : SessionHandle) (exit : WorkerExit)
  | stop (stopping : Stopping) (exit : WorkerExit)
  | build
  | observe
  | cancelOnExit
  | finish (id : Nat) (exit : WorkerExit)
  | publish (id : Nat) (status : SessionStatus)
  | cancel (id : Nat)

def perform : Action → App → App
  | .attach incoming exit, app => (app.attach incoming exit).2
  | .stop stopping exit, app => (app.stop exit stopping).2
  | .build, app => app.build
  | .observe, app => app.observe
  | .cancelOnExit, app => app.cancelOnExit
  | .finish id exit, app => app.update id (SessionHandle.finish exit)
  | .publish id status, app => app.update id (SessionHandle.publish status)
  | .cancel id, app => app.update id SessionHandle.cancel

def run (actions : List Action) (app : App) : App :=
  actions.foldl (fun app action => app.perform action) app

end App

/-! ## What a slot is for -/

/-- Sessions take turns in a slot: `attached` is the one in it, `last` the one that was attached
last, and so many were handed over. -/
structure Turns where
  attached : Option Nat := none
  last : Option Nat := none
  count : Nat := 0
  deriving DecidableEq, Repr

namespace Turns

def fromHandle : Option SessionHandle → Turns
  | some _ => { attached := some 0, last := some 0, count := 1 }
  | none => {}

def next (turns : Turns) : App.Action → Turns
  | .attach _ _ =>
      match turns.attached with
      | some _ => { turns with count := turns.count + 1 }
      | none =>
          { attached := some turns.count, last := some turns.count, count := turns.count + 1 }
  | .stop .detach _ => { turns with attached := none }
  | _ => turns

def run (actions : List App.Action) (turns : Turns) : Turns := actions.foldl next turns

end Turns

namespace App

section Steps

variable {app : App} {turns : Turns}

@[simp] theorem update_same (id : Nat) (change : SessionHandle → SessionHandle) (app : App) :
    (app.update id change).sessions id = change (app.sessions id) := Function.update_self _ _ _

@[simp] theorem update_other {id other : Nat} (change : SessionHandle → SessionHandle) (app : App)
    (different : other ≠ id) : (app.update id change).sessions other = app.sessions other :=
  Function.update_of_ne different _ _

/-- What happens to a session leads it on, and leaves the others alone. -/
theorem update_leads {change : SessionHandle → SessionHandle}
    (leads : ∀ handle : SessionHandle, handle.Leads (change handle)) (id other : Nat) (app : App) :
    (app.sessions other).Leads ((app.update id change).sessions other) := by
  by_cases same : other = id
  · rw [same, update_same]
    exact leads _
  · rw [update_other _ _ same]
    exact .refl _

/-- A vacant slot gives the result that it retains. -/
theorem shutdown_vacant (vacant : app.slot.handle = none) (exit : WorkerExit) :
    app.shutdown exit = (app.slot.result, app) := by
  simp only [shutdown, vacant]

/-- The attached session is shut down, and its result retained. -/
theorem shutdown_occupied {id : Nat} (occupied : app.slot.handle = some id) (exit : WorkerExit) :
    app.shutdown exit = (((app.sessions id).shutdown exit).1,
      { app.update id fun handle => (handle.shutdown exit).2 with
        slot := { app.slot with result := ((app.sessions id).shutdown exit).1 } }) := by
  simp only [shutdown, occupied]

/-- Detaching from a vacant slot changes nothing. -/
theorem detach_vacant (vacant : app.slot.handle = none) (exit : WorkerExit) :
    app.detach exit = (app.slot.result, app) := by
  simp only [detach, shutdown_vacant vacant, vacant]

/-- A detached session was shut down, and its handle is dropped to no further effect. -/
theorem detach_occupied {id : Nat} (occupied : app.slot.handle = some id) (exit : WorkerExit) :
    app.detach exit = (((app.sessions id).shutdown exit).1,
      { app.update id fun handle => (handle.shutdown exit).2 with
        slot := {
          handle := none
          result := ((app.sessions id).shutdown exit).1
          generation := app.slot.generation + 1 } }) := by
  have down := SessionHandle.down_shutdown exit (app.sessions id)
  simp only [detach, shutdown_occupied occupied, update, occupied]
  rw [Function.update_self, SessionHandle.drop_of_down down, Function.update_idem]

/-- A synchronization leaves the slot and the sessions alone. -/
theorem synchronize_keeps (app : App) : app.synchronize.slot = app.slot ∧
    app.synchronize.sessions = app.sessions ∧ app.synchronize.count = app.count := by
  unfold synchronize
  by_cases stale : app.observed ≠ some app.slot.generation
  · rw [if_pos stale]
    cases app.slot.handle <;> exact ⟨rfl, rfl, rfl⟩
  · rw [if_neg stale]
    exact ⟨rfl, rfl, rfl⟩

/-- The terminal result of the session that was attached last. -/
def Terminal (app : App) (last : Option Nat) (result : SessionResult Unit) : Prop :=
  match last with
  | none => result = .ok ()
  | some id => (app.sessions id).worker = .joined result

/-- An app follows the turns of its sessions. What left the slot was cancelled and joined, and a
vacant slot retains the terminal result of the last session. -/
structure Follows (app : App) (turns : Turns) : Prop where
  handle : app.slot.handle = turns.attached
  count : app.count = turns.count
  latest : ∀ id, turns.attached = some id → turns.last = some id
  known : ∀ id, turns.last = some id → id < turns.count
  left : ∀ id, id < turns.count → turns.attached ≠ some id → (app.sessions id).Down
  retained : turns.attached = none → app.Terminal turns.last app.slot.result

/-- The resources belong to the slot unless the slot changed since it was observed. So many changes
were made. -/
structure Synchronized (app : App) (changes : Nat) : Prop where
  generation : app.slot.generation.toNat = changes
  observed : ∀ generation, app.observed = some generation → generation.toNat ≤ changes ∧
    (generation.toNat = changes →
      app.commands = app.slot.handle ∧ app.cancellation = app.slot.handle)

/-- What happens to the session later does not change its terminal result. -/
theorem terminal_leads {other : App} {last : Option Nat} {result : SessionResult Unit}
    (leads : ∀ id, last = some id → (app.sessions id).Leads (other.sessions id))
    (terminal : app.Terminal last result) : other.Terminal last result := by
  cases last with
  | none => exact terminal
  | some id => exact (leads id rfl).retained result terminal

/-- An app that only differs in where its sessions got follows the same turns. -/
theorem Follows.leads {other : App} (follows : app.Follows turns) (slot : other.slot = app.slot)
    (count : other.count = app.count)
    (leads : ∀ id, (app.sessions id).Leads (other.sessions id)) : other.Follows turns where
  handle := by rw [slot, follows.handle]
  count := by rw [count, follows.count]
  latest := follows.latest
  known := follows.known
  left id before apart := (leads id).down (follows.left id before apart)
  retained vacant := by
    rw [slot]
    exact terminal_leads (fun id _ => leads id) (follows.retained vacant)

/-- Whatever happens to one session keeps the turns. -/
theorem Follows.update (follows : app.Follows turns) (id : Nat)
    {change : SessionHandle → SessionHandle}
    (leads : ∀ handle : SessionHandle, handle.Leads (change handle)) :
    (app.update id change).Follows turns :=
  follows.leads rfl rfl fun other => update_leads leads id other app

/-- The plugin's build keeps the turns. -/
theorem Follows.build (follows : app.Follows turns) : app.build.Follows turns := by
  unfold App.build
  cases app.slot.handle with
  | none => exact follows.leads rfl rfl fun id => .refl _
  | some id => exact follows.leads rfl rfl fun id => .refl _

/-- So does observing the state. -/
theorem Follows.observeState (follows : app.Follows turns) : app.observeState.Follows turns := by
  unfold App.observeState
  cases app.slot.handle with
  | none =>
      cases app.slot.result with
      | ok _ => exact follows.leads rfl rfl fun id => .refl _
      | error error => exact follows.leads rfl rfl fun id => .refl _
  | some id =>
      exact (follows.update id SessionHandle.leads_poll).leads rfl rfl fun id => .refl _

/-- So does synchronizing the resources. -/
theorem Follows.synchronize (follows : app.Follows turns) : app.synchronize.Follows turns := by
  obtain ⟨slot, sessions, count⟩ := synchronize_keeps app
  refine follows.leads slot count fun id => ?_
  rw [sessions]
  exact .refl _

/-- So does the exit of the app. -/
theorem Follows.cancelOnExit (follows : app.Follows turns) : app.cancelOnExit.Follows turns := by
  unfold App.cancelOnExit
  cases app.cancellation with
  | none => exact follows
  | some id => exact follows.update id SessionHandle.leads_cancel

/-- A shutdown returns the terminal result of the last session, which it leaves where it is. -/
theorem Follows.shutdown (follows : app.Follows turns) (exit : WorkerExit) :
    (app.shutdown exit).2.Follows turns ∧
      (app.shutdown exit).2.Terminal turns.last (app.shutdown exit).1 := by
  cases attached : turns.attached with
  | none =>
      have vacant : app.slot.handle = none := by rw [follows.handle, attached]
      rw [shutdown_vacant vacant]
      exact ⟨follows, follows.retained attached⟩
  | some id =>
      have occupied : app.slot.handle = some id := by rw [follows.handle, attached]
      rw [shutdown_occupied occupied]
      constructor
      · have led := follows.update id (SessionHandle.leads_shutdown exit)
        exact {
          handle := follows.handle
          count := follows.count
          latest := follows.latest
          known := follows.known
          left := led.left
          retained := fun vacant => by rw [vacant] at attached; cases attached }
      · rw [follows.latest id attached]
        change ((app.update id fun handle => (handle.shutdown exit).2).sessions id).worker =
          .joined ((app.sessions id).shutdown exit).1
        rw [update_same]
        exact SessionHandle.shutdown_joined exit (app.sessions id)

/-- So does a detachment, and the session leaves the slot. -/
theorem Follows.detach (follows : app.Follows turns) (exit : WorkerExit) :
    (app.detach exit).2.Follows { turns with attached := none } ∧
      (app.detach exit).2.Terminal turns.last (app.detach exit).1 := by
  cases attached : turns.attached with
  | none =>
      have vacant : app.slot.handle = none := by rw [follows.handle, attached]
      have same : { turns with attached := none } = turns := by
        cases turns
        cases attached
        rfl
      rw [detach_vacant vacant, same]
      exact ⟨follows, follows.retained attached⟩
  | some id =>
      have occupied : app.slot.handle = some id := by rw [follows.handle, attached]
      have led := follows.update id (SessionHandle.leads_shutdown exit)
      have joined : ((app.update id fun handle => (handle.shutdown exit).2).sessions id).worker =
          .joined ((app.sessions id).shutdown exit).1 := by
        rw [update_same]
        exact SessionHandle.shutdown_joined exit (app.sessions id)
      rw [detach_occupied occupied]
      refine ⟨?_, ?_⟩
      · refine ⟨rfl, follows.count, fun _ impossible => ?_, follows.known, ?_, ?_⟩
        · cases impossible
        · intro other before _
          by_cases same : other = id
          · rw [same]
            change ((app.update id fun handle => (handle.shutdown exit).2).sessions id).Down
            rw [update_same]
            exact SessionHandle.down_shutdown exit (app.sessions id)
          · apply led.left other before
            rw [attached]
            intro equal
            exact same (Option.some.inj equal).symm
        · intro _
          change App.Terminal _ turns.last _
          rw [follows.latest id attached]
          exact joined
      · rw [follows.latest id attached]
        exact joined

/-- An occupied slot rejects a session, which is shut down, and stays as it is. -/
theorem attach_occupied {id : Nat} (occupied : app.slot.handle = some id)
    (incoming : SessionHandle) (exit : WorkerExit) :
    app.attach incoming exit =
      (.error (.configuration "session slot is occupied; detach it first"),
        { app with
          sessions := Function.update app.sessions app.count (incoming.shutdown exit).2
          count := app.count + 1 }) := by
  simp only [attach, occupied]
  rfl

/-- Attaching takes a turn where the slot is vacant, and drops the session where it is not. -/
theorem Follows.attach (follows : app.Follows turns) (incoming : SessionHandle)
    (exit : WorkerExit) :
    (app.attach incoming exit).2.Follows (turns.next (.attach incoming exit)) := by
  have others {handle : SessionHandle} {id : Nat} (before : id < turns.count) :
      Function.update app.sessions app.count handle id = app.sessions id :=
    Function.update_of_ne (by rw [follows.count]; exact Nat.ne_of_lt before) _ _
  cases attached : turns.attached with
  | none =>
      have vacant : app.slot.handle = none := by rw [follows.handle, attached]
      have turn : turns.next (.attach incoming exit) =
          { attached := some turns.count, last := some turns.count, count := turns.count + 1 } := by
        change (match turns.attached with | some _ => _ | none => _) = _
        rw [attached]
      unfold App.attach
      rw [vacant, turn]
      refine ⟨congrArg some follows.count, congrArg Nat.succ follows.count, fun _ same => same,
        ?_, ?_, ?_⟩
      · rintro _ same
        cases same
        exact Nat.lt_succ_self _
      · intro id before apart
        have different : id ≠ turns.count := fun same => apart (by rw [same])
        have earlier : id < turns.count := Nat.lt_of_le_of_ne (Nat.le_of_lt_succ before) different
        change (Function.update app.sessions app.count incoming id).Down
        rw [others earlier]
        apply follows.left id earlier
        rw [attached]
        exact (Option.some_ne_none id).symm
      · intro impossible
        cases impossible
  | some current =>
      have occupied : app.slot.handle = some current := by rw [follows.handle, attached]
      have turn : turns.next (.attach incoming exit) = { turns with count := turns.count + 1 } := by
        change (match turns.attached with | some _ => _ | none => _) = _
        rw [attached]
      rw [attach_occupied occupied, turn]
      refine ⟨follows.handle, congrArg Nat.succ follows.count, follows.latest, ?_, ?_, ?_⟩
      · intro id same
        exact Nat.lt_succ_of_lt (follows.known id same)
      · intro id before apart
        change (Function.update app.sessions app.count (incoming.shutdown exit).2 id).Down
        by_cases newest : id = turns.count
        · rw [newest, ← follows.count, Function.update_self]
          exact SessionHandle.down_shutdown exit incoming
        · have earlier : id < turns.count :=
            Nat.lt_of_le_of_ne (Nat.le_of_lt_succ before) newest
          rw [others earlier]
          exact follows.left id earlier apart
      · intro impossible
        rw [attached] at impossible
        cases impossible

/-- Whatever happens, an app follows its turns. -/
theorem Follows.perform (follows : app.Follows turns) (action : Action) :
    (app.perform action).Follows (turns.next action) := by
  cases action with
  | attach incoming exit => exact follows.attach incoming exit
  | stop stopping exit =>
      cases stopping with
      | detach => exact (follows.detach exit).1
      | guard => exact (follows.shutdown exit).1
  | build => exact follows.build
  | observe => exact follows.observeState.synchronize
  | cancelOnExit => exact follows.cancelOnExit
  | finish id exit => exact follows.update id (SessionHandle.leads_finish exit)
  | publish id status => exact follows.update id (SessionHandle.leads_publish status)
  | cancel id => exact follows.update id SessionHandle.leads_cancel

/-- Any number of actions keeps the turns. -/
theorem Follows.run (follows : app.Follows turns) (actions : List Action) :
    (app.run actions).Follows (turns.run actions) := by
  induction actions generalizing app turns with
  | nil => exact follows
  | cons action actions ih => exact ih (follows.perform action)

/-! ## The resources -/

/-- What touches neither the slot nor the resources keeps them synchronized. -/
theorem Synchronized.keeps {other : App} {changes : Nat} (synchronized : app.Synchronized changes)
    (generation : other.slot.generation = app.slot.generation)
    (handle : other.slot.handle = app.slot.handle) (commands : other.commands = app.commands)
    (cancellation : other.cancellation = app.cancellation)
    (observed : other.observed = app.observed) : other.Synchronized changes where
  generation := by rw [generation, synchronized.generation]
  observed seen same := by
    rw [observed] at same
    rw [commands, cancellation, handle]
    exact synchronized.observed seen same

/-- A change of the slot is one that was not observed yet. -/
theorem Synchronized.changed {other : App} {changes : Nat} (synchronized : app.Synchronized changes)
    (room : changes + 1 < 2 ^ 64) (generation : other.slot.generation = app.slot.generation + 1)
    (observed : other.observed = app.observed) : other.Synchronized (changes + 1) where
  generation := by
    have one : (1 : UInt64).toNat = 1 := rfl
    rw [generation, UInt64.toNat_add, synchronized.generation, one, Nat.mod_eq_of_lt room]
  observed seen same := by
    rw [observed] at same
    have earlier := (synchronized.observed seen same).1
    exact ⟨Nat.le_succ_of_le earlier, fun now => by omega⟩

/-- What was just synchronized belongs to the slot. -/
theorem Synchronized.inserted {other : App} {changes : Nat} (synchronized : app.Synchronized changes)
    (generation : other.slot.generation = app.slot.generation)
    (belongs : other.commands = other.slot.handle ∧ other.cancellation = other.slot.handle)
    (observed : ∀ seen, other.observed = some seen → seen.toNat ≤ changes) :
    other.Synchronized changes where
  generation := by rw [generation, synchronized.generation]
  observed seen same := ⟨observed seen same, fun _ => belongs⟩

/-- The plugin's build gives the resources of the slot. -/
theorem Synchronized.build {changes : Nat} (synchronized : app.Synchronized changes) :
    app.build.Synchronized changes := by
  unfold App.build
  cases occupied : app.slot.handle with
  | none => exact synchronized.keeps rfl rfl rfl rfl rfl
  | some id =>
      exact synchronized.inserted rfl ⟨occupied.symm, occupied.symm⟩ fun seen same =>
        (synchronized.observed seen same).1

/-- Observing the state touches neither the slot nor the resources. -/
theorem Synchronized.observeState {changes : Nat} (synchronized : app.Synchronized changes) :
    app.observeState.Synchronized changes := by
  unfold App.observeState
  cases app.slot.handle with
  | none => cases app.slot.result <;> exact synchronized.keeps rfl rfl rfl rfl rfl
  | some id => exact synchronized.keeps rfl rfl rfl rfl rfl

/-- After a synchronization the resources belong to what is attached. -/
theorem Synchronized.resources {changes : Nat} (synchronized : app.Synchronized changes) :
    app.synchronize.commands = app.slot.handle ∧ app.synchronize.cancellation = app.slot.handle := by
  unfold App.synchronize
  by_cases stale : app.observed ≠ some app.slot.generation
  · rw [if_pos stale]
    cases app.slot.handle with
    | none => exact ⟨rfl, rfl⟩
    | some id => exact ⟨rfl, rfl⟩
  · rw [if_neg stale]
    exact (synchronized.observed _ (Decidable.not_not.mp stale)).2 synchronized.generation

/-- The slot stays as it is when its state is observed. -/
theorem observeState_slot (app : App) : app.observeState.slot = app.slot := by
  unfold observeState
  cases app.slot.handle with
  | none => cases app.slot.result <;> rfl
  | some id => rfl

/-- After the observation the resources are those of the slot. -/
theorem Synchronized.synchronize {changes : Nat} (synchronized : app.Synchronized changes) :
    app.synchronize.Synchronized changes := by
  refine synchronized.inserted ?_ ?_ ?_
  · rw [(synchronize_keeps app).1]
  · rw [(synchronize_keeps app).1]
    exact synchronized.resources
  · intro seen same
    unfold App.synchronize at same
    by_cases stale : app.observed ≠ some app.slot.generation
    · rw [if_pos stale] at same
      have now : seen = app.slot.generation := by
        cases occupied : app.slot.handle with
        | none =>
            rw [occupied] at same
            exact (Option.some.inj same).symm
        | some id =>
            rw [occupied] at same
            exact (Option.some.inj same).symm
      rw [now, synchronized.generation]
    · rw [if_neg stale] at same
      exact (synchronized.observed seen same).1

/-- Whatever happens, at most one change is made, and the resources are not taken for those of the
slot when they are not. -/
theorem Synchronized.perform {changes : Nat} (synchronized : app.Synchronized changes)
    (room : changes + 1 < 2 ^ 64) (action : Action) :
    ∃ now ≤ changes + 1, (app.perform action).Synchronized now := by
  have kept : changes ≤ changes + 1 := Nat.le_succ changes
  cases action with
  | attach incoming exit =>
      cases occupied : app.slot.handle with
      | none =>
          refine ⟨changes + 1, Nat.le_refl _, ?_⟩
          change (app.attach incoming exit).2.Synchronized (changes + 1)
          unfold App.attach
          rw [occupied]
          exact synchronized.changed room rfl rfl
      | some id =>
          refine ⟨changes, kept, ?_⟩
          change (app.attach incoming exit).2.Synchronized changes
          rw [attach_occupied occupied]
          exact synchronized.keeps rfl rfl rfl rfl rfl
  | stop stopping exit =>
      cases stopping with
      | detach =>
          cases occupied : app.slot.handle with
          | none =>
              refine ⟨changes, kept, ?_⟩
              change (app.detach exit).2.Synchronized changes
              rw [detach_vacant occupied]
              exact synchronized
          | some id =>
              refine ⟨changes + 1, Nat.le_refl _, ?_⟩
              change (app.detach exit).2.Synchronized (changes + 1)
              rw [detach_occupied occupied]
              exact synchronized.changed room rfl rfl
      | guard =>
          refine ⟨changes, kept, ?_⟩
          change (app.shutdown exit).2.Synchronized changes
          cases occupied : app.slot.handle with
          | none =>
              rw [shutdown_vacant occupied]
              exact synchronized
          | some id =>
              rw [shutdown_occupied occupied]
              exact synchronized.keeps rfl rfl rfl rfl rfl
  | build => exact ⟨changes, kept, synchronized.build⟩
  | observe => exact ⟨changes, kept, synchronized.observeState.synchronize⟩
  | cancelOnExit =>
      refine ⟨changes, kept, ?_⟩
      change app.cancelOnExit.Synchronized changes
      unfold App.cancelOnExit
      cases found : app.cancellation with
      | none => exact synchronized
      | some id => exact synchronized.keeps rfl rfl rfl rfl rfl
  | finish id exit => exact ⟨changes, kept, synchronized.keeps rfl rfl rfl rfl rfl⟩
  | publish id status => exact ⟨changes, kept, synchronized.keeps rfl rfl rfl rfl rfl⟩
  | cancel id => exact ⟨changes, kept, synchronized.keeps rfl rfl rfl rfl rfl⟩

/-- Any number of actions that the generation counts keeps the resources synchronized. -/
theorem Synchronized.run {changes : Nat} (synchronized : app.Synchronized changes)
    (actions : List Action) (room : changes + actions.length < 2 ^ 64) :
    ∃ now, (app.run actions).Synchronized now := by
  induction actions generalizing app changes with
  | nil => exact ⟨changes, synchronized⟩
  | cons action actions ih =>
      rw [List.length_cons] at room
      obtain ⟨now, bound, still⟩ := synchronized.perform (by omega) action
      exact ih still (by omega)

/-! ## Retained results -/

/-- Whatever happens, the sessions that were handed over lead on. -/
theorem Follows.performed (follows : app.Follows turns) (action : Action) {id : Nat}
    (known : id < turns.count) :
    (app.sessions id).Leads ((app.perform action).sessions id) := by
  have earlier : id ≠ app.count := by
    rw [follows.count]
    exact Nat.ne_of_lt known
  have shut (exit : WorkerExit) : (app.sessions id).Leads ((app.shutdown exit).2.sessions id) := by
    cases occupied : app.slot.handle with
    | none =>
        rw [shutdown_vacant occupied]
        exact .refl _
    | some current =>
        rw [shutdown_occupied occupied]
        exact update_leads (SessionHandle.leads_shutdown exit) current id app
  cases action with
  | attach incoming exit =>
      change (app.sessions id).Leads ((app.attach incoming exit).2.sessions id)
      have same : (app.attach incoming exit).2.sessions id = app.sessions id := by
        unfold App.attach
        cases app.slot.handle with
        | none => exact Function.update_of_ne earlier _ _
        | some current => exact Function.update_of_ne earlier _ _
      rw [same]
      exact .refl _
  | stop stopping exit =>
      cases stopping with
      | detach =>
          change (app.sessions id).Leads ((app.detach exit).2.sessions id)
          cases occupied : app.slot.handle with
          | none =>
              rw [detach_vacant occupied]
              exact .refl _
          | some current =>
              rw [detach_occupied occupied]
              exact update_leads (SessionHandle.leads_shutdown exit) current id app
      | guard => exact shut exit
  | build =>
      change (app.sessions id).Leads (app.build.sessions id)
      unfold App.build
      cases app.slot.handle <;> exact .refl _
  | observe =>
      change (app.sessions id).Leads (app.observeState.synchronize.sessions id)
      rw [(synchronize_keeps app.observeState).2.1]
      unfold App.observeState
      cases app.slot.handle with
      | none => cases app.slot.result <;> exact .refl _
      | some current => exact update_leads SessionHandle.leads_poll current id app
  | cancelOnExit =>
      change (app.sessions id).Leads (app.cancelOnExit.sessions id)
      unfold App.cancelOnExit
      cases app.cancellation with
      | none => exact .refl _
      | some current => exact update_leads SessionHandle.leads_cancel current id app
  | finish current exit => exact update_leads (SessionHandle.leads_finish exit) current id app
  | publish current status => exact update_leads (SessionHandle.leads_publish status) current id app
  | cancel current => exact update_leads SessionHandle.leads_cancel current id app

/-- Sessions are only ever handed over. -/
theorem next_count (turns : Turns) (action : Action) : turns.count ≤ (turns.next action).count := by
  cases action with
  | attach incoming exit =>
      change turns.count ≤ (match turns.attached with | some _ => _ | none => _ : Turns).count
      cases turns.attached <;> exact Nat.le_succ _
  | stop stopping exit => cases stopping <;> exact Nat.le_refl _
  | _ => exact Nat.le_refl _

/-- Whatever happens, what was cancelled stays so and what was retained is kept. -/
theorem Follows.ran (follows : app.Follows turns) (actions : List Action) {id : Nat}
    (known : id < turns.count) :
    (app.sessions id).Leads ((app.run actions).sessions id) := by
  induction actions generalizing app turns with
  | nil => exact .refl _
  | cons action actions ih =>
      have now := ih (follows.perform action) (Nat.lt_of_lt_of_le known (next_count turns action))
      exact (follows.performed action known).trans now

/-- There is one terminal result. -/
theorem Terminal.unique {last : Option Nat} {result other : SessionResult Unit}
    (terminal : app.Terminal last result) (terminal' : app.Terminal last other) :
    result = other := by
  cases last with
  | none =>
      have first : result = .ok () := terminal
      have second : other = .ok () := terminal'
      rw [first, second]
  | some id =>
      have first : (app.sessions id).worker = .joined result := terminal
      have second : (app.sessions id).worker = .joined other := terminal'
      rw [first] at second
      exact SessionWorker.joined.inj second

/-- Who stops the session is returned the terminal result of the last one. -/
theorem Follows.stop (follows : app.Follows turns) (stopping : Stopping) (exit : WorkerExit) :
    (app.stop exit stopping).2.Terminal turns.last (app.stop exit stopping).1 := by
  cases stopping with
  | detach => exact (follows.detach exit).2
  | guard => exact (follows.shutdown exit).2

/-- Stopping hands no session over. -/
theorem next_stop (turns : Turns) (stopping : Stopping) (exit : WorkerExit) :
    (turns.next (.stop stopping exit)).last = turns.last ∧
      (turns.next (.stop stopping exit)).count = turns.count := by
  cases stopping <;> exact ⟨rfl, rfl⟩

/-- The result is returned again until another session was attached. -/
theorem Follows.repeats (follows : app.Follows turns) (stopping stopping' : Stopping)
    (exit exit' : WorkerExit) (later : List Action)
    (same : (turns.run (.stop stopping exit :: later)).last = turns.last) :
    (((app.stop exit stopping).2.run later).stop exit' stopping').1 =
      (app.stop exit stopping).1 := by
  have stopped := follows.perform (.stop stopping exit)
  have ran := stopped.run later
  have first := follows.stop stopping exit
  have second := ran.stop stopping' exit'
  have last : ((turns.next (.stop stopping exit)).run later).last = turns.last := same
  rw [last] at second
  apply second.unique
  apply terminal_leads ?_ first
  intro id attached
  have known : id < (turns.next (.stop stopping exit)).count := by
    rw [(next_stop turns stopping exit).2]
    exact follows.known id attached
  have led := stopped.ran (later ++ [.stop stopping' exit']) known
  unfold App.run at led
  rw [List.foldl_append] at led
  exact led

end Steps

/-- A new plugin follows the turn of the session that it was made with. -/
theorem follows_fromHandle (initial : Option SessionHandle) :
    (fromHandle initial).Follows (.fromHandle initial) := by
  cases initial with
  | none =>
      refine ⟨rfl, rfl, fun _ impossible => ?_, fun _ impossible => ?_, fun id impossible => ?_,
        fun _ => rfl⟩
      · cases impossible
      · cases impossible
      · exact (Nat.not_lt_zero id impossible).elim
  | some handle =>
      refine ⟨rfl, rfl, fun _ same => same, ?_, ?_, fun impossible => ?_⟩
      · rintro _ same
        cases same
        exact Nat.one_pos
      · intro id before apart
        have zero : id = 0 := Nat.lt_one_iff.mp before
        exact (apart (by rw [zero]; rfl)).elim
      · cases impossible

/-- Its slot did not change yet. -/
theorem synchronized_fromHandle (initial : Option SessionHandle) :
    (fromHandle initial).Synchronized 0 := by
  cases initial with
  | none => exact ⟨rfl, fun _ impossible => by cases impossible⟩
  | some handle => exact ⟨rfl, fun _ impossible => by cases impossible⟩

/-- In every order of fewer than 2^64 actions, the slot holds the session whose turn it is, and
every other session that was handed over is cancelled and joined. An occupied slot rejects a session
and shuts down that session alone. Who stops the session is returned the terminal result of the one
that was attached last, and again so until another one is attached. After the slot was observed, the
command and cancellation resources are those of the attached session, and there are none without
one. -/
theorem slot_consistent (initial : Option SessionHandle) (actions : List Action)
    (few : actions.length < 2 ^ 64) {app : App} {turns : Turns}
    (ran : (fromHandle initial).run actions = app)
    (took : (Turns.fromHandle initial).run actions = turns) :
    app.slot.handle = turns.attached ∧
    (∀ id < turns.count, turns.attached ≠ some id → (app.sessions id).Down) ∧
    (∀ incoming exit, turns.attached ≠ none →
      app.attach incoming exit =
        (.error (.configuration "session slot is occupied; detach it first"),
          { app with
            sessions := Function.update app.sessions app.count (incoming.shutdown exit).2
            count := app.count + 1 }) ∧
      (incoming.shutdown exit).2.Down) ∧
    (∀ stopping exit,
      (app.stop exit stopping).2.Terminal turns.last (app.stop exit stopping).1 ∧
      ∀ later stopping' exit', (turns.run (.stop stopping exit :: later)).last = turns.last →
        (((app.stop exit stopping).2.run later).stop exit' stopping').1 =
          (app.stop exit stopping).1) ∧
    (app.observe.commands = turns.attached ∧ app.observe.cancellation = turns.attached) := by
  have follows := (follows_fromHandle initial).run actions
  obtain ⟨changes, synchronized⟩ := (synchronized_fromHandle initial).run actions (by omega)
  rw [ran] at follows synchronized
  rw [took] at follows
  refine ⟨follows.handle, follows.left, ?_, ?_, ?_⟩
  · intro incoming exit occupied
    obtain ⟨id, attached⟩ := Option.ne_none_iff_exists'.mp occupied
    have holds : app.slot.handle = some id := by rw [follows.handle, attached]
    exact ⟨attach_occupied holds incoming exit, SessionHandle.down_shutdown exit incoming⟩
  · intro stopping exit
    exact ⟨follows.stop stopping exit, fun later stopping' exit' same =>
      follows.repeats stopping stopping' exit exit' later same⟩
  · have resources := synchronized.observeState.resources
    rw [observeState_slot, follows.handle] at resources
    exact resources

/-- A session is attached, observed and detached, and another one takes its place before the slot is
observed again. -/
def replaced : List Action :=
  [.build, .attach {} (.returned (.ok ())), .observe, .stop .detach (.returned (.ok ())),
    .attach {} (.returned (.ok ()))]

theorem slot_consistent_replaced :
    ((fromHandle none).run replaced).commands = some 0 ∧
    ((fromHandle none).run replaced).observe.commands = some 1 ∧
    (((fromHandle none).run replaced).sessions 0).Down := by
  have few : replaced.length < 2 ^ 64 := by decide
  obtain ⟨_, left, _, _, resources⟩ := slot_consistent none replaced few rfl rfl
  exact ⟨rfl, resources.1, left 0 (by decide) (by decide)⟩

end App

end Synctick
