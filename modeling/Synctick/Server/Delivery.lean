import Synctick.Server.Origin
import Synctick.Speech

/-! # What an authority makes of what a client says

Up to any iteration of the live loop, the commands that the ticks tag with a client are the first
of those that its connection was delivered. While the client takes part, they are all of them, but
for those that are still to be received.
-/

namespace Synctick

open SessionSimulation Effect Std RenetServer

/-- The commands that some ticks tag with a client. -/
def commandsOf (id : UInt64) (ticks : List TickAdvance) : List CommandPayload :=
  (ticks.flatMap (tagged (.remote id))).map Command.payload

@[simp] theorem commandsOf_append (id : UInt64) (front back : List TickAdvance) :
    commandsOf id (front ++ back) = commandsOf id front ++ commandsOf id back := by
  simp [commandsOf]

variable {σ : Type} [SessionSimulation σ]

/-- What is accepted of some messages are the first of their commands. -/
theorem payload_acceptedCommands (sim : σ) (id : UInt64) (messages : List Bytes) :
    (acceptedCommands sim id messages).map Command.payload <+: spoken messages := by
  induction messages with
  | nil => exact List.prefix_refl _
  | cons bytes later ih =>
      by_cases valid : Commands sim bytes
      · obtain ⟨command, _, decodes, accepts⟩ := acceptedCommands_valid id later valid
        rw [accepts]
        unfold spoken
        rw [List.filterMap_cons, decodes]
        exact (List.prefix_cons_inj _).mpr ih
      · rw [acceptedCommands_invalid later valid]
        exact List.nil_prefix

/-- Where all messages are valid, all of their commands are accepted. -/
theorem payload_acceptedCommands_of_valid {sim : σ} {messages : List Bytes}
    (valid : ∀ bytes ∈ messages, Commands sim bytes) (id : UInt64) :
    (acceptedCommands sim id messages).map Command.payload = spoken messages := by
  induction messages with
  | nil => rfl
  | cons bytes later ih =>
      obtain ⟨command, _, decodes, accepts⟩ :=
        acceptedCommands_valid id later (valid bytes List.mem_cons_self)
      have rest := ih fun other member => valid other (List.mem_cons_of_mem _ member)
      rw [accepts, List.map_cons, rest]
      unfold spoken
      rw [List.filterMap_cons, decodes]

section

variable {step : LiveStep σ} {id : UInt64}

/-- The commands of a tick are those that were accepted of what was received for it. -/
theorem commandsOf_step (inputs : step.advance.inputs = step.entered.available step.input) :
    commandsOf id [step.advance] =
      (acceptedCommands step.before.sim id (taken id step)).map Command.payload := by
  unfold commandsOf
  rw [List.flatMap_singleton, tagged_remote inputs]

end

section

variable {policy : DesyncPolicy} {start current : Authority σ} {steps : List (LiveStep σ)}
  {input : TickInput} {id verified : UInt64}

/-- Where all that was received is valid, the ticks have all of its commands. -/
theorem LiveRun.commandsOf_of_valid (run : LiveRun policy start steps current)
    (valid : ∀ step ∈ steps, ∀ bytes ∈ Synctick.taken id step, Commands step.before.sim bytes) :
    commandsOf id (steps.map LiveStep.advance) = spoken (steps.flatMap (Synctick.taken id)) := by
  induction run with
  | here => rfl
  | @iteration steps current next input advance run returns iterated ih =>
      have now := @commandsOf_step σ _ ⟨current, input, advance, next⟩ id iterated.inputs
      have last := payload_acceptedCommands_of_valid
        (valid _ (List.mem_append_right _ (List.mem_singleton_self _))) id
      rw [List.map_append, commandsOf_append, List.flatMap_append, spoken_append,
        ih fun step member => valid step (List.mem_append_left _ member), List.flatMap_singleton,
        ← last]
      exact congrArg _ now

/-- While a client takes part, the ticks have all of its commands, but for those that are still to
be received. -/
theorem LiveRun.commandsOf_of_participant (run : LiveRun policy start steps current)
    (silent : start.server.pending id .lockstep = [])
    (known : (current.entered input).verified[id]? = some verified)
    (connected : (current.entered input).server.isConnected id = true) :
    commandsOf id (steps.map LiveStep.advance) ++
        spoken ((current.entered input).server.pending id .lockstep) =
      spoken (delivered id .lockstep steps ++ deliveries id .lockstep input.actions) := by
  have taken := run.taken (Authority.verified_entered known)
    (Authority.pending_entered known connected .lockstep).1
  rw [run.commandsOf_of_valid taken.valid, ← spoken_append, taken.entered known connected, silent,
    List.nil_append]

/-- With the next tick, the ticks have the first commands of those that were delivered. -/
theorem LiveRun.commandsOf_next (run : LiveRun policy start steps current)
    (silent : start.server.pending id .lockstep = []) {advance : TickAdvance}
    (inputs : advance.inputs = (current.entered input).available input)
    (earlier : commandsOf id (steps.map LiveStep.advance) <+: spoken (delivered id .lockstep steps)) :
    commandsOf id (steps.map LiveStep.advance ++ [advance]) <+:
      spoken (delivered id .lockstep steps ++ deliveries id .lockstep input.actions) := by
  have now := @commandsOf_step σ _ ⟨current, input, advance, current⟩ id inputs
  rw [commandsOf_append]
  dsimp only at now
  rw [now]
  by_cases participates : Participates id ⟨current, input, advance, current⟩
  · obtain ⟨known, connected⟩ := participates
    obtain ⟨verified, known'⟩ := Option.isSome_iff_exists.mp known
    rw [← run.commandsOf_of_participant silent known' connected, List.prefix_append_right_inj]
    have all : Synctick.taken id ⟨current, input, advance, current⟩ =
        (current.entered input).server.pending id .lockstep := if_pos known
    rw [all]
    exact payload_acceptedCommands _ _ _
  · rw [taken_outside participates, spoken_append]
    change commandsOf id (steps.map LiveStep.advance) ++ [] <+: _
    rw [List.append_nil]
    exact earlier.trans (List.prefix_append _ _)

/-- The ticks have the first commands of those that were delivered. -/
theorem LiveRun.commandsOf_delivered (run : LiveRun policy start steps current)
    (silent : start.server.pending id .lockstep = []) :
    commandsOf id (steps.map LiveStep.advance) <+: spoken (delivered id .lockstep steps) := by
  induction run with
  | here => exact List.prefix_refl _
  | iteration run returns iterated ih =>
      rw [List.map_append, delivered_concat]
      exact run.commandsOf_next silent iterated.inputs ih

end

end Synctick
