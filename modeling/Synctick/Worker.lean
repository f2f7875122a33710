import Synctick.Session

/-! # Session workers

A worker runs a session on a thread of its own. Its completion, a panic included, must be observed:
whoever joins it retains its terminal result, which later joins return again.
-/

namespace Synctick

/-- How the thread of a worker ended. -/
inductive WorkerExit
  | returned (result : SessionResult Unit)
  | panicked (payload : Option String)
  deriving DecidableEq, Repr

/-- The thread of a worker until it is joined, and its terminal result from then on. -/
inductive SessionWorker
  | running
  | finished (exit : WorkerExit)
  | joined (result : SessionResult Unit)
  deriving DecidableEq, Repr

/-- The terminal result of a worker that ended: that of its session, where an end without an error
is one only after a cancellation. -/
def WorkerExit.terminal (cancelled : Bool) : WorkerExit → SessionResult Unit
  | .returned (.ok ()) =>
      if cancelled then .ok () else .error (.worker "simulation worker stopped unexpectedly")
  | .returned (.error .inputDisconnected) =>
      if cancelled then .ok () else .error .inputDisconnected
  | .returned (.error error) => .error error
  | .panicked payload =>
      let text := payload.getD "unknown panic"
      .error (.worker s!"simulation worker panicked: {text}")

/-- A terminal result is published; a failure cancels whatever is left of the session. -/
def SessionControl.conclude (result : SessionResult Unit) (control : SessionControl) :
    SessionControl :=
  match result with
  | .error error => control.cancel.publish (.failed error.display)
  | .ok () =>
      match control.status with
      | .failed _ => control
      | _ => control.publish .stopped

/-- What owns a session. -/
structure SessionHandle where
  control : SessionControl := {}
  worker : SessionWorker := .running
  deriving DecidableEq, Repr

namespace SessionHandle

def cancel (handle : SessionHandle) : SessionHandle :=
  { handle with control := handle.control.cancel }

/-- The worker ended, and its terminal result is retained. -/
def retain (exit : WorkerExit) (handle : SessionHandle) : SessionResult Unit × SessionHandle :=
  let result := exit.terminal handle.control.cancelled
  (result, { control := handle.control.conclude result, worker := .joined result })

/-- Wait for the worker; one that still runs ends with this exit. -/
def join (exit : WorkerExit) (handle : SessionHandle) : SessionResult Unit × SessionHandle :=
  match handle.worker with
  | .joined result => (result, handle)
  | .finished ended => handle.retain ended
  | .running => handle.retain exit

/-- A worker that finished is joined. -/
def poll (handle : SessionHandle) : SessionHandle :=
  match handle.worker with
  | .finished ended => (handle.retain ended).2
  | _ => handle

def shutdown (exit : WorkerExit) (handle : SessionHandle) : SessionResult Unit × SessionHandle :=
  handle.cancel.join exit

/-- A handle that goes out of scope is shut down. -/
def drop (exit : WorkerExit) (handle : SessionHandle) : SessionHandle :=
  (handle.cancel.join exit).2

/-- The thread of the worker ends. -/
def finish (exit : WorkerExit) (handle : SessionHandle) : SessionHandle :=
  match handle.worker with
  | .running => { handle with worker := .finished exit }
  | _ => handle

/-- The worker publishes its status. -/
def publish (status : SessionStatus) (handle : SessionHandle) : SessionHandle :=
  { handle with control := handle.control.publish status }

/-- The session was cancelled and joined. -/
def Down (handle : SessionHandle) : Prop :=
  handle.control.cancelled = true ∧ ∃ result, handle.worker = .joined result

/-- A later state of a session: what was cancelled stays so, and a retained result is kept. -/
structure Leads (before after : SessionHandle) : Prop where
  cancelled : before.control.cancelled = true → after.control.cancelled = true
  retained : ∀ result, before.worker = .joined result → after.worker = .joined result

theorem Leads.refl (handle : SessionHandle) : handle.Leads handle :=
  ⟨fun cancelled => cancelled, fun _ joined => joined⟩

/-- A later state of a later state is a later state. -/
theorem Leads.trans {first second third : SessionHandle} (before : first.Leads second)
    (after : second.Leads third) : first.Leads third :=
  ⟨fun cancelled => after.cancelled (before.cancelled cancelled),
    fun result joined => after.retained result (before.retained result joined)⟩

/-- Once a session is down it stays down. -/
theorem Leads.down {before after : SessionHandle} (leads : before.Leads after)
    (down : before.Down) : after.Down := by
  obtain ⟨cancelled, result, joined⟩ := down
  exact ⟨leads.cancelled cancelled, result, leads.retained result joined⟩

/-- The end of a worker does not take a cancellation back. -/
theorem conclude_cancelled (result : SessionResult Unit) {control : SessionControl}
    (cancelled : control.cancelled = true) : (control.conclude result).cancelled = true := by
  unfold SessionControl.conclude
  cases result with
  | error error => rfl
  | ok _ => cases control.status <;> exact cancelled

/-- Cancelling takes nothing back that was cancelled or retained. -/
theorem leads_cancel (handle : SessionHandle) : handle.Leads handle.cancel :=
  ⟨fun _ => rfl, fun _ joined => joined⟩

/-- Nor does a status that the worker publishes. -/
theorem leads_publish (status : SessionStatus) (handle : SessionHandle) :
    handle.Leads (handle.publish status) :=
  ⟨fun cancelled => cancelled, fun _ joined => joined⟩

/-- Nor does the end of its thread. -/
theorem leads_finish (exit : WorkerExit) (handle : SessionHandle) :
    handle.Leads (handle.finish exit) := by
  unfold finish
  cases worker : handle.worker with
  | running =>
      refine ⟨fun cancelled => cancelled, fun result joined => ?_⟩
      rw [worker] at joined
      cases joined
  | finished ended => exact .refl handle
  | joined result => exact .refl handle

/-- A result may be retained where none was. -/
theorem leads_retain (exit : WorkerExit) {handle : SessionHandle}
    (unjoined : ∀ result, handle.worker ≠ .joined result) :
    handle.Leads (handle.retain exit).2 :=
  ⟨fun cancelled => conclude_cancelled _ cancelled,
    fun result joined => (unjoined result joined).elim⟩

/-- Polling joins a worker that finished, and replaces no retained result. -/
theorem leads_poll (handle : SessionHandle) : handle.Leads handle.poll := by
  unfold poll
  cases worker : handle.worker with
  | running => exact .refl handle
  | finished ended =>
      apply leads_retain
      intro result joined
      rw [worker] at joined
      cases joined
  | joined result => exact .refl handle

/-- Joining takes nothing back either. -/
theorem leads_join (exit : WorkerExit) (handle : SessionHandle) :
    handle.Leads (handle.join exit).2 := by
  unfold join
  cases worker : handle.worker with
  | running =>
      apply leads_retain
      intro result joined
      rw [worker] at joined
      cases joined
  | finished ended =>
      apply leads_retain
      intro result joined
      rw [worker] at joined
      cases joined
  | joined result => exact .refl handle

/-- A join returns the terminal result that it retains. -/
theorem join_joined (exit : WorkerExit) (handle : SessionHandle) :
    (handle.join exit).2.worker = .joined (handle.join exit).1 := by
  unfold join
  cases worker : handle.worker with
  | running => rfl
  | finished ended => rfl
  | joined result => exact worker

/-- A worker that was joined gives the same result again, and nothing changes. -/
theorem join_of_joined {handle : SessionHandle} {result : SessionResult Unit}
    (joined : handle.worker = .joined result) (exit : WorkerExit) :
    handle.join exit = (result, handle) := by
  simp only [join, joined]

/-- Shutting down takes nothing back. -/
theorem leads_shutdown (exit : WorkerExit) (handle : SessionHandle) :
    handle.Leads (handle.shutdown exit).2 :=
  (leads_cancel handle).trans (leads_join exit handle.cancel)

/-- After a shutdown the worker is joined, with the result that was returned. -/
theorem shutdown_joined (exit : WorkerExit) (handle : SessionHandle) :
    (handle.shutdown exit).2.worker = .joined (handle.shutdown exit).1 :=
  join_joined exit handle.cancel

/-- A session that was shut down is down. -/
theorem down_shutdown (exit : WorkerExit) (handle : SessionHandle) :
    (handle.shutdown exit).2.Down :=
  ⟨(leads_join exit handle.cancel).cancelled rfl, _, shutdown_joined exit handle⟩

/-- Dropping what is down changes nothing. -/
theorem drop_of_down {handle : SessionHandle} (down : handle.Down) (exit : WorkerExit) :
    handle.drop exit = handle := by
  obtain ⟨cancelled, result, joined⟩ := down
  have same : handle.cancel = handle := by
    cases handle with
    | mk control worker =>
        cases control
        cases cancelled
        rfl
  unfold drop
  rw [same, join_of_joined joined exit]

end SessionHandle

end Synctick
