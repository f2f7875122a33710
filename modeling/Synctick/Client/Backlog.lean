import Synctick.Speech

/-! # What a replica is still to handle

An iteration handles the messages of the lockstep channel in order, as many as it has time for, and
leaves the others where they are. So a replica that is let run comes to the end of what it was sent.
-/

namespace Synctick

open SessionSimulation Effect

/-- How many messages of the lockstep channel an iteration handles at most. -/
def ClientInput.handles (input : ClientInput) : Nat := min input.messages 128

/-- Neither the network nor the transport fails, and the local inputs are not closed. -/
structure ClientInput.Undisturbed (input : ClientInput) : Prop where
  network : input.network = none
  flush : input.flush = none
  opens : input.inputClosed = false

namespace Replica

variable {σ κ : Type} [SessionSimulation σ] {state : σ → κ} {save : Bytes} {metadata : SaveMetadata}
  {initial last : σ} {ticks : List TickAdvance} {got : Mailbox} {said : List Bytes}

theorem not_disturbed {input : ClientInput} (undisturbed : input.Undisturbed) {error : SessionError} :
    ¬ Disturbed input error := by
  intro disturbed
  cases disturbed with
  | network fails =>
      rw [undisturbed.network] at fails
      cases fails
  | flush fails =>
      rw [undisturbed.flush] at fails
      cases fails
  | closed closed =>
      rw [undisturbed.opens] at closed
      cases closed

omit [SessionSimulation σ] in
theorem forwardInputs_incoming (input : ClientInput) (replica : Replica σ) :
    Ensures (forwardInputs input) replica (fun _ next => next.incoming = replica.incoming)
      (fun _ _ => True) := by
  unfold forwardInputs
  rw [ensures_bind, ensures_get, ensures_bind]
  apply (ensures_forEach _ (fun next => next.incoming = replica.incoming) (fun _ _ => True) _ _
    replica rfl).mono
  · intro _ next kept
    by_cases closed : input.inputClosed ∧ input.inputs.length < 256
    · rw [if_pos closed]
      trivial
    · rw [if_neg closed]
      exact kept
  · exact fun _ _ _ => trivial
  · intro payload _ next kept
    by_cases live : replica.startup.isLive = true
    · rw [if_pos live]
      exact kept
    · rw [if_neg live]
      exact kept

theorem startLive_incoming (tick hash : UInt64) (replica : Replica σ) :
    Ensures (startLive tick hash) replica (fun _ next => next.incoming = replica.incoming)
      (fun _ _ => True) := by
  unfold startLive onStartup
  rw [ensures_bind, ensures_zoom]
  apply (ensures_self _ _).mono
  · intro _ startup _
    rw [ensures_bind, ensures_zoom]
    apply (ensures_self _ _).mono
    · intro _ sim _
      rfl
    · exact fun _ _ _ => trivial
  · exact fun _ _ _ => trivial

/-- A message is handled, or there is none. -/
theorem receiveServer_handles (replica : Replica σ) :
    Ensures receiveServer replica
      (fun more next => next.incoming .lockstep = (replica.incoming .lockstep).tail ∧
        (more = false → replica.incoming .lockstep = []))
      (fun _ _ => True) := by
  unfold receiveServer
  rw [ensures_bind]
  cases incoming : replica.incoming .lockstep with
  | nil =>
      rw [ensures_ok (receiveMessage_nil incoming)]
      exact ⟨incoming, fun _ => rfl⟩
  | cons bytes later =>
      rw [ensures_ok (receiveMessage_cons incoming)]
      dsimp only
      have left : replica.incoming.pop .lockstep .lockstep = later := by
        rw [Mailbox.pop_same, incoming]
        rfl
      cases decodeServerMessage bytes with
      | error error => trivial
      | ok message =>
          cases message with
          | start tick hash =>
              dsimp only
              rw [ensures_bind]
              apply (startLive_incoming tick hash _).mono
              · intro _ next kept
                refine ⟨?_, Bool.noConfusion⟩
                rw [kept]
                exact left
              · exact fun _ _ _ => trivial
          | tick advance =>
              dsimp only
              rw [ensures_bind, ensures_get]
              dsimp only
              by_cases live : replica.startup.isLive = true
              · rw [if_pos live, ensures_bind]
                apply (ensures_applyTick advance _).mono
                · rintro _ _ ⟨sim, _, rfl⟩
                  exact ⟨left, Bool.noConfusion⟩
                · exact fun _ _ _ => trivial
              · rw [if_neg live]
                trivial

theorem receiveServers_handles (passes : Nat) (replica : Replica σ) :
    Ensures (receiveServers passes) replica
      (fun _ next => next.incoming .lockstep = (replica.incoming .lockstep).drop passes)
      (fun _ _ => True) := by
  induction passes generalizing replica with
  | zero => rfl
  | succ passes ih =>
      unfold receiveServers
      rw [ensures_bind]
      apply (receiveServer_handles replica).mono
      · rintro more next ⟨left, none⟩
        cases more with
        | true =>
            apply (ih next).mono
            · intro _ last dropped
              rw [dropped, left, List.drop_tail]
            · exact fun _ _ _ => trivial
        | false =>
            rw [none rfl] at left ⊢
            exact left
      · exact fun _ _ _ => trivial

/-- The messages that there is time for are handled, and no others. -/
theorem iteration_handles (input : ClientInput) (replica : Replica σ) :
    Ensures (iteration input) replica
      (fun _ next => next.incoming .lockstep = (replica.incoming .lockstep).drop input.handles)
      (fun _ _ => True) := by
  unfold iteration
  rw [ensures_bind]
  apply (ensures_failWith input.network replica).mono
  · rintro _ start ⟨_, rfl⟩
    rw [ensures_bind]
    apply (forwardInputs_incoming input start).mono
    · intro _ forwarded kept
      rw [ensures_bind]
      apply (mutters_load input forwarded).mono
      · intro _ loaded mutters
        rw [ensures_bind]
        apply (receiveServers_handles (min input.messages 128) loaded).mono
        · intro _ received dropped
          rw [mutters.incoming, kept] at dropped
          rw [ensures_bind]
          cases quiet : received.incoming .desync with
          | nil =>
              rw [ensures_ok (receiveMessage_nil quiet)]
              apply (ensures_failWith input.flush received).mono
              · rintro _ next ⟨_, rfl⟩
                exact dropped
              · exact fun _ _ _ => trivial
          | cons bytes later =>
              rw [ensures_ok (receiveMessage_cons quiet)]
              trivial
        · exact fun _ _ _ => trivial
      · exact fun _ _ _ => trivial
    · exact fun _ _ _ => trivial
  · exact fun _ _ _ => trivial

/-- A replica that agrees with its authority takes undisturbed iterations until its own publication
fails, and handles the messages that there is time for. -/
theorem agrees_iterations (deterministic : Deterministic state)
    (valid : ValidSave save metadata initial last) (leads : Leads state last ticks)
    (hears : got .lockstep <+: lockstepMessages metadata ticks) {inputs : List ClientInput}
    (undisturbed : ∀ input ∈ inputs, input.Undisturbed) {replica : Replica σ}
    (agrees : Agrees save metadata initial last got said replica) :
    Ensures (forEach iteration inputs) replica
      (fun _ next => Agrees save metadata initial last got said next ∧ next.incoming .lockstep =
        (replica.incoming .lockstep).drop (inputs.map ClientInput.handles).sum)
      (fun error next => Torn last ticks error next.sim) := by
  induction inputs generalizing replica with
  | nil => exact ⟨agrees, rfl⟩
  | cons input inputs ih =>
      unfold forEach
      rw [ensures_bind]
      apply ((agrees_iteration deterministic valid leads hears input agrees).and
        (iteration_handles input replica)).mono
      · rintro _ middle ⟨agrees, left⟩
        apply (ih (fun other member => undisturbed other (List.mem_cons_of_mem _ member)) agrees).mono
        · rintro _ next ⟨agrees, dropped⟩
          refine ⟨agrees, ?_⟩
          rw [dropped, left, List.drop_drop, List.map_cons, List.sum_cons]
        · exact fun _ _ torn => torn
      · rintro error next ⟨⟨disturbed, _⟩ | torn, _⟩
        · exact (not_disturbed (undisturbed input List.mem_cons_self) disturbed).elim
        · exact torn

/-- A replica that handled the whole stream is live and applied its ticks. -/
theorem Agrees.whole {replica : Replica σ}
    (agrees : Agrees save metadata initial last got said replica)
    (broadcastable : ∀ advance ∈ ticks, advance.Broadcastable)
    (stream : got .lockstep = lockstepMessages metadata ticks)
    (handled : replica.incoming .lockstep = []) :
    replica.startup.phase = .live ∧ Evolves last ticks replica.sim := by
  cases agrees.stage with
  | loading _ _ _ _ _ _ unheard =>
      rw [stream, handled] at unheard
      cases unheard
  | @live applied live _ _ applies evolves heard =>
      rw [stream, handled, List.append_nil] at heard
      unfold lockstepMessages at heard
      rw [eq_of_messages broadcastable applies (List.cons.inj heard).2]
      exact ⟨live, evolves⟩

end Replica

end Synctick
