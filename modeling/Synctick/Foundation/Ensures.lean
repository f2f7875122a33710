import Mathlib.Logic.Basic

/-! # Weakest preconditions of fallible stateful programs

A program that mutates a state and may stop early with an error leaves a state
behind on both exits. `Effect.Ensures` is its weakest precondition, with one
postcondition for each exit. The equations below evaluate it through the
control structure of a program, and `Effect.Ensures.mono` lets the specification
of a part stand for its body.
-/

namespace Synctick

/-- A program over the state `σ` that returns an `α` or stops with an `ε`. -/
abbrev Effect (ε σ α : Type) := EStateM ε σ α

namespace Effect

variable {ε ε' σ τ α β : Type}

/-- Run from `state`, the program either returns with `post` or stops with
`fail`. -/
def Ensures (program : Effect ε σ α) (state : σ) (post : α → σ → Prop) (fail : ε → σ → Prop) :
    Prop :=
  match program state with
  | .ok value next => post value next
  | .error error next => fail error next

/-- The state that a run leaves, on either exit. -/
def final (program : Effect ε σ α) (state : σ) : σ :=
  match program state with
  | .ok _ next => next
  | .error _ next => next

/-- A property of either outcome is one of the final state. -/
theorem Ensures.final {program : Effect ε σ α} {state : σ} {post : σ → Prop}
    (spec : Ensures program state (fun _ next => post next) (fun _ next => post next)) :
    post (program.final state) := by
  unfold Ensures at spec
  unfold Effect.final
  cases exit : program state with
  | ok value next => simpa only [exit] using spec
  | error error next => simpa only [exit] using spec

/-- The final state of a program that returns. -/
theorem final_of_ok {program : Effect ε σ α} {state next : σ} {value : α}
    (returned : program state = .ok value next) : program.final state = next := by
  unfold Effect.final
  rw [returned]

/-- The final state of a program that fails. -/
theorem final_of_error {program : Effect ε σ α} {state next : σ} {error : ε}
    (stopped : program state = .error error next) : program.final state = next := by
  unfold Effect.final
  rw [stopped]

/-- Whether a program returns in a state that passes a check. -/
def passes (program : Effect ε σ α) (state : σ) (check : σ → Bool) : Bool :=
  match program state with
  | .ok _ next => check next
  | .error _ _ => false

/-- A run that passes a check returns. -/
theorem returns_of_passes {program : Effect ε σ α} {state : σ} {check : σ → Bool}
    (passed : program.passes state check = true) :
    ∃ value next, program state = .ok value next ∧ check next = true := by
  unfold passes at passed
  cases returned : program state with
  | ok value next =>
      rw [returned] at passed
      exact ⟨value, next, rfl, passed⟩
  | error error next =>
      rw [returned] at passed
      cases passed

/-- What is ensured holds of the value that was returned. -/
theorem ensures_of_ok {program : Effect ε σ α} {state next : σ} {value : α}
    {post : α → σ → Prop} {fail : ε → σ → Prop} (spec : Ensures program state post fail)
    (returned : program state = .ok value next) : post value next := by
  simpa only [Ensures, returned] using spec

/-- What is ensured holds of the error. -/
theorem ensures_of_error {program : Effect ε σ α} {state next : σ} {error : ε}
    {post : α → σ → Prop} {fail : ε → σ → Prop} (spec : Ensures program state post fail)
    (stopped : program state = .error error next) : fail error next := by
  simpa only [Ensures, stopped] using spec

/-- Of a program that is known to return, only the value matters. -/
theorem ensures_ok {program : Effect ε σ α} {state next : σ} {value : α} {post : α → σ → Prop}
    {fail : ε → σ → Prop} (returned : program state = .ok value next) :
    Ensures program state post fail ↔ post value next := by
  unfold Ensures
  rw [returned]

/-- Of a program that is known to fail, only the error matters. -/
theorem ensures_error {program : Effect ε σ α} {state next : σ} {error : ε}
    {post : α → σ → Prop} {fail : ε → σ → Prop} (stopped : program state = .error error next) :
    Ensures program state post fail ↔ fail error next := by
  unfold Ensures
  rw [stopped]

/-- Running the program decides its specification. -/
instance {program : Effect ε σ α} {state : σ} {post : α → σ → Prop} {fail : ε → σ → Prop}
    [∀ value next, Decidable (post value next)] [∀ error next, Decidable (fail error next)] :
    Decidable (Ensures program state post fail) :=
  match run : program state with
  | .ok value next => decidable_of_iff (post value next) (ensures_ok run).symm
  | .error error next => decidable_of_iff (fail error next) (ensures_error run).symm

/-- A program that cannot stop returns. -/
theorem Ensures.returns {program : Effect ε σ α} {state : σ} {post : α → σ → Prop}
    (spec : Ensures program state post fun _ _ => False) :
    ∃ value next, program state = .ok value next ∧ post value next := by
  cases exit : program state with
  | ok value next => exact ⟨value, next, rfl, ensures_of_ok spec exit⟩
  | error error next => exact (ensures_of_error spec exit).elim

/-- The strongest specification: the postconditions name the actual exit. -/
theorem ensures_self (program : Effect ε σ α) (state : σ) :
    Ensures program state (fun value next => program state = .ok value next)
      (fun error next => program state = .error error next) := by
  unfold Ensures
  cases program state <;> rfl

/-- A program that cannot stop, and whose return is determined, returns it. -/
theorem eq_ok_of_ensures {program : Effect ε σ α} {state next : σ} {value : α}
    (spec : Ensures program state (fun result last => result = value ∧ last = next)
      fun _ _ => False) : program state = .ok value next := by
  unfold Ensures at spec
  cases exit : program state with
  | ok result last =>
      simp only [exit] at spec
      rw [spec.1, spec.2]
  | error error last => simp only [exit] at spec

/-- A program that cannot return, and whose stop is determined, stops so. -/
theorem eq_error_of_ensures {program : Effect ε σ α} {state next : σ} {failure : ε}
    (spec : Ensures program state (fun _ _ => False)
      fun error last => error = failure ∧ last = next) : program state = .error failure next := by
  unfold Ensures at spec
  cases exit : program state with
  | ok result last => simp only [exit] at spec
  | error error last =>
      simp only [exit] at spec
      rw [spec.1, spec.2]

/-- The consequence rule: both postconditions may be weakened. -/
theorem Ensures.mono {program : Effect ε σ α} {state : σ} {post post' : α → σ → Prop}
    {fail fail' : ε → σ → Prop} (spec : Ensures program state post fail)
    (onReturn : ∀ value next, post value next → post' value next)
    (onError : ∀ error next, fail error next → fail' error next) :
    Ensures program state post' fail' := by
  unfold Ensures at *
  cases exit : program state with
  | ok value next => exact onReturn value next (by simpa only [exit] using spec)
  | error error next => exact onError error next (by simpa only [exit] using spec)

/-- Two specifications of a program are one. -/
theorem Ensures.and {program : Effect ε σ α} {state : σ} {post post' : α → σ → Prop}
    {fail fail' : ε → σ → Prop} (first : Ensures program state post fail)
    (second : Ensures program state post' fail') :
    Ensures program state (fun value next => post value next ∧ post' value next)
      (fun error next => fail error next ∧ fail' error next) := by
  unfold Ensures at *
  cases exit : program state <;> simp only [exit] at first second ⊢ <;> exact ⟨first, second⟩

section Equations

variable (state : σ) (post : α → σ → Prop) (fail : ε → σ → Prop)

/-- A pure program returns its value and leaves the state. -/
@[simp] theorem ensures_pure (value : α) :
    Ensures (pure value : Effect ε σ α) state post fail ↔ post value state := Iff.rfl

/-- A thrown error leaves the state. -/
@[simp] theorem ensures_throw (error : ε) :
    Ensures (throw error : Effect ε σ α) state post fail ↔ fail error state := Iff.rfl

/-- The sequence rule: the second program starts where the first one returned. -/
@[simp] theorem ensures_bind (first : Effect ε σ β) (next : β → Effect ε σ α) :
    Ensures (first >>= next) state post fail ↔
      Ensures first state (fun value middle => Ensures (next value) middle post fail) fail := by
  unfold Ensures
  change (match EStateM.bind first next state with
    | .ok value next => post value next
    | .error error next => fail error next) ↔ _
  unfold EStateM.bind
  cases first state <;> rfl

/-- A function of the value does not concern the state. -/
@[simp] theorem ensures_map (first : Effect ε σ β) (f : β → α) :
    Ensures (f <$> first) state post fail ↔
      Ensures first state (fun value middle => post (f value) middle) fail := by
  unfold Ensures
  change (match EStateM.map f first state with
    | .ok value next => post value next
    | .error error next => fail error next) ↔ _
  unfold EStateM.map
  cases first state <;> rfl

/-- A conditional is specified by its branches. -/
@[simp] theorem ensures_ite (condition : Prop) [Decidable condition]
    (yes no : Effect ε σ α) :
    Ensures (if condition then yes else no) state post fail ↔
      (condition → Ensures yes state post fail) ∧ (¬ condition → Ensures no state post fail) := by
  by_cases holds : condition <;> simp [holds]

@[simp] theorem ensures_get (post : σ → σ → Prop) :
    Ensures (get : Effect ε σ σ) state post fail ↔ post state state := Iff.rfl

@[simp] theorem ensures_set (next : σ) (post : PUnit → σ → Prop) :
    Ensures (set next : Effect ε σ PUnit) state post fail ↔ post ⟨⟩ next := Iff.rfl

@[simp] theorem ensures_modify (f : σ → σ) (post : PUnit → σ → Prop) :
    Ensures (modify f : Effect ε σ PUnit) state post fail ↔ post ⟨⟩ (f state) := Iff.rfl

end Equations

/-- A computed result, as a program that leaves the state alone. -/
def ofExcept : Except ε α → Effect ε σ α
  | .ok value => pure value
  | .error error => throw error

/-- A pure result leaves the state. -/
@[simp] theorem ensures_ofExcept (result : Except ε α) (state : σ) (post : α → σ → Prop)
    (fail : ε → σ → Prop) :
    Ensures (ofExcept result) state post fail ↔
      (∀ value, result = .ok value → post value state) ∧
        (∀ error, result = .error error → fail error state) := by
  cases result <;> simp [ofExcept]

/-- A value that may be missing, which is an error. -/
@[simp] theorem ensures_getDM (value : Option α) (error : ε) (state : σ) (post : α → σ → Prop)
    (fail : ε → σ → Prop) :
    Ensures (value.getDM (throw error)) state post fail ↔
      (∀ found, value = some found → post found state) ∧ (value = none → fail error state) := by
  cases value <;> simp [Option.getDM]

/-- Convert the error of a program, as the `?` operator does. -/
def mapError (convert : ε → ε') (program : Effect ε σ α) : Effect ε' σ α := fun state =>
  match program state with
  | .ok value next => .ok value next
  | .error error next => .error (convert error) next

/-- A conversion concerns the error only. -/
@[simp] theorem ensures_mapError (convert : ε → ε') (program : Effect ε σ α) (state : σ)
    (post : α → σ → Prop) (fail : ε' → σ → Prop) :
    Ensures (program.mapError convert) state post fail ↔
      Ensures program state post (fun error next => fail (convert error) next) := by
  unfold Ensures mapError
  cases program state <;> rfl

/-- Run a program on a component of a larger state. -/
def zoom (component : τ → σ) (replace : τ → σ → τ) (program : Effect ε σ α) : Effect ε τ α :=
  fun state =>
    match program (component state) with
    | .ok value next => .ok value (replace state next)
    | .error error next => .error error (replace state next)

/-- A program of a component leaves the rest of the state. -/
@[simp] theorem ensures_zoom (component : τ → σ) (replace : τ → σ → τ) (program : Effect ε σ α)
    (state : τ) (post : α → τ → Prop) (fail : ε → τ → Prop) :
    Ensures (program.zoom component replace) state post fail ↔
      Ensures program (component state) (fun value next => post value (replace state next))
        (fun error next => fail error (replace state next)) := by
  unfold Ensures zoom
  cases program (component state) <;> rfl

/-- Run a program, keep the state it leaves, and hand its exit on as a value. -/
def attempt (program : Effect ε σ α) : Effect ε' σ (Except ε α) := fun state =>
  match program state with
  | .ok value next => .ok (.ok value) next
  | .error error next => .ok (.error error) next

/-- A program that is attempted always returns its outcome. -/
@[simp] theorem ensures_attempt (program : Effect ε σ α) (state : σ)
    (post : Except ε α → σ → Prop) (fail : ε' → σ → Prop) :
    Ensures program.attempt state post fail ↔
      Ensures program state (fun value next => post (.ok value) next)
        (fun error next => post (.error error) next) := by
  unfold Ensures attempt
  cases program state <;> rfl

/-- Fail with an error, if there is one. -/
def failWith : Option ε → Effect ε σ Unit
  | some error => throw error
  | none => pure ()

/-- An outside failure is thrown, and where there is none nothing happens. -/
theorem ensures_failWith (failure : Option ε) (state : σ) :
    Ensures (failWith failure) state (fun _ next => failure = none ∧ next = state)
      (fun error next => failure = some error ∧ next = state) := by
  cases failure with
  | some error => exact ⟨rfl, rfl⟩
  | none => exact ⟨rfl, rfl⟩

/-- Perform a program for each element of a list, in order. -/
def forEach (body : β → Effect ε σ Unit) : List β → Effect ε σ Unit
  | [] => pure ()
  | element :: rest => do
      body element
      forEach body rest

/-- The loop rule: an invariant that every pass keeps holds when the loop ends,
and an early stop is a stop of one of the passes. -/
theorem ensures_forEach (body : β → Effect ε σ Unit) (invariant : σ → Prop)
    (fail : ε → σ → Prop) (elements : List β)
    (pass : ∀ element ∈ elements, ∀ state, invariant state →
      Ensures (body element) state (fun _ next => invariant next) fail)
    (state : σ) (initially : invariant state) :
    Ensures (forEach body elements) state (fun _ next => invariant next) fail := by
  induction elements generalizing state with
  | nil => exact initially
  | cons element rest ih =>
      simp only [forEach, ensures_bind]
      refine (pass element List.mem_cons_self state initially).mono ?_ fun _ _ failed => failed
      intro _ next kept
      exact ih (fun other member => pass other (List.mem_cons_of_mem _ member)) next kept

/-- The loop rule for an invariant of the elements that were passed. An early stop is one at the
element that follows those that were passed. -/
theorem ensures_forEach_along (body : β → Effect ε σ Unit) (elements : List β)
    (invariant : List β → σ → Prop) (fail : List β → β → ε → σ → Prop)
    (pass : ∀ front element state, invariant front state →
      Ensures (body element) state (fun _ next => invariant (front ++ [element]) next)
        (fail front element))
    {state : σ} (initially : invariant [] state) :
    Ensures (forEach body elements) state (fun _ next => invariant elements next)
      (fun error next => ∃ front element back, elements = front ++ element :: back ∧
        fail front element error next) := by
  have loop (back front : List β) (state : σ) (reached : invariant front state) :
      Ensures (forEach body back) state (fun _ next => invariant (front ++ back) next)
        (fun error next => ∃ front' element back', front ++ back = front' ++ element :: back' ∧
          fail front' element error next) := by
    induction back generalizing front state with
    | nil =>
        rw [List.append_nil]
        exact reached
    | cons element back ih =>
        simp only [forEach, ensures_bind]
        refine (pass front element state reached).mono ?_ ?_
        · intro _ next kept
          have rest := ih (front ++ [element]) next kept
          rw [List.append_assoc] at rest
          exact rest
        · intro error next failed
          exact ⟨front, element, back, rfl, failed⟩
  exact loop elements [] state initially

end Effect

/-- A sequence of two fallible computations returns when both do. -/
theorem except_bind_eq_ok {ε α β : Type} {first : Except ε α} {next : α → Except ε β} {value : β} :
    (first >>= next) = .ok value ↔ ∃ middle, first = .ok middle ∧ next middle = .ok value := by
  cases first with
  | error error =>
      constructor
      · intro returned
        cases returned
      · rintro ⟨_, failed, _⟩
        cases failed
  | ok middle =>
      constructor
      · intro returned
        exact ⟨middle, rfl, returned⟩
      · rintro ⟨_, same, returned⟩
        cases same
        exact returned

end Synctick
