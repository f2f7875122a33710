import Synctick.Foundation.Ensures
import Mathlib.Data.List.Basic

/-! # Readers of self-delimiting codes

A reader consumes a code from the front of its input when, whatever follows the
code, it returns the coded value and leaves exactly what follows. Codes read one
after the other concatenate, which is how the code of a record is read back from
the codes of its fields.
-/

namespace Synctick

namespace Effect

variable {ε τ α β γ : Type} {view : τ → List γ}

/-- `read` returns `value` from any input that starts with `code`, and leaves
the rest of that input. -/
def Reads (view : τ → List γ) (read : Effect ε τ α) (code : List γ) (value : α) : Prop :=
  ∀ state rest, view state = code ++ rest →
    ∃ next, read state = .ok value next ∧ view next = rest

/-- A value that is returned takes no code. -/
theorem Reads.pure (value : α) : Reads view (Pure.pure value : Effect ε τ α) [] value := by
  intro state rest input
  exact ⟨state, rfl, by simpa only [List.nil_append] using input⟩

/-- Two readers in sequence read one code behind the other. -/
theorem Reads.bind {first : Effect ε τ β} {next : β → Effect ε τ α} {front back : List γ}
    {middle : β} {value : α} (head : Reads view first front middle)
    (tail : Reads view (next middle) back value) :
    Reads view (first >>= next) (front ++ back) value := by
  intro state rest input
  rw [List.append_assoc] at input
  obtain ⟨between, returned, remaining⟩ := head state (back ++ rest) input
  obtain ⟨last, finished, left⟩ := tail between rest remaining
  refine ⟨last, ?_, left⟩
  change EStateM.bind first next state = _
  simp only [EStateM.bind, returned, finished]

/-- The last reading of a sequence, whose value is returned. -/
theorem Reads.last {read : Effect ε τ β} {code : List γ} {value : β} (f : β → α)
    (reads : Reads view read code value) :
    Reads view (read >>= fun result => Pure.pure (f result)) code (f value) := by
  have joined : Reads view (read >>= fun result => Pure.pure (f result)) (code ++ []) (f value) :=
    reads.bind (Reads.pure (f value))
  rwa [List.append_nil] at joined

/-- A reader of a code cannot stop on an input that starts with it. -/
theorem Reads.ensures {read : Effect ε τ α} {code : List γ} {value : α}
    (reads : Reads view read code value) {state : τ} {rest : List γ}
    (input : view state = code ++ rest) :
    Ensures read state (fun result next => result = value ∧ view next = rest)
      fun _ _ => False := by
  obtain ⟨next, returned, left⟩ := reads state rest input
  simp only [Ensures, returned, left, and_self]

/-- A reader that is specified on every input with a code in front reads that code. -/
theorem reads_of_ensures {read : Effect ε τ α} {code : List γ} {value : α}
    (spec : ∀ state rest, view state = code ++ rest →
      Ensures read state (fun result next => result = value ∧ view next = rest)
        fun _ _ => False) : Reads view read code value := by
  intro state rest input
  have exit := spec state rest input
  unfold Ensures at exit
  cases returned : read state with
  | ok result next =>
      simp only [returned] at exit
      obtain ⟨rfl, left⟩ := exit
      exact ⟨next, rfl, left⟩
  | error error next => simp only [returned] at exit

/-- A code at the end of the input is read to the end. -/
theorem Reads.whole {read : Effect ε τ α} {code : List γ} {value : α}
    (reads : Reads view read code value) {state : τ} (input : view state = code) :
    ∃ next, read state = .ok value next ∧ view next = [] :=
  reads state [] (by rw [input, List.append_nil])

/-- A reader that returns does the same, and leaves the more, when its input goes on. -/
def Stable (view : τ → List γ) (read : Effect ε τ α) : Prop :=
  ∀ state value next, read state = .ok value next →
    ∀ longer extra, view longer = view state ++ extra →
      ∃ last, read longer = .ok value last ∧ view last = view next ++ extra

/-- A value that is returned does not depend on the input. -/
theorem Stable.pure (value : α) : Stable view (Pure.pure value : Effect ε τ α) := by
  intro state value' next returned longer extra input
  cases returned
  exact ⟨longer, rfl, input⟩

/-- Nor does an error. -/
theorem Stable.throw (error : ε) : Stable view (MonadExcept.throw error : Effect ε τ α) := by
  intro state value next impossible
  cases impossible

/-- Stable readers in sequence are stable. -/
theorem Stable.bind {first : Effect ε τ β} {next : β → Effect ε τ α} (head : Stable view first)
    (tail : ∀ value, Stable view (next value)) : Stable view (first >>= next) := by
  intro state value last returned longer extra input
  change EStateM.bind first next state = _ at returned
  change ∃ last', EStateM.bind first next longer = _ ∧ _
  unfold EStateM.bind at returned ⊢
  cases begins : first state with
  | error error stopped =>
      rw [begins] at returned
      cases returned
  | ok middle between =>
      rw [begins] at returned
      obtain ⟨between', begins', input'⟩ := head state middle between begins longer extra input
      obtain ⟨last', returned', left⟩ := tail middle between value last returned between' extra input'
      exact ⟨last', by rw [begins']; exact returned', left⟩

/-- So is the choice between two. -/
theorem Stable.ite {condition : Prop} [Decidable condition] {yes no : Effect ε τ α}
    (first : Stable view yes) (second : Stable view no) :
    Stable view (if condition then yes else no) := by
  by_cases holds : condition
  · rw [if_pos holds]
    exact first
  · rw [if_neg holds]
    exact second

/-- A check on the way stops the reader or leaves it alone. -/
theorem Stable.guard {condition : Prop} [Decidable condition] {error : ε}
    {rest : PUnit → Effect ε τ α} (stable : ∀ resumed, Stable view (rest resumed)) :
    Stable view (if condition then MonadExcept.throw error >>= rest else rest ⟨⟩) :=
  .ite ((Stable.throw error).bind stable) (stable ⟨⟩)

/-- No proper prefix of a code is read, if the reader is stable. -/
theorem Stable.nothing_left {read : Effect ε τ α} {code front back : List γ} {value other : α}
    (stable : Stable view read) (reads : Reads view read code value) (split : code = front ++ back)
    {state next whole : τ} (short : view state = front) (full : view whole = code)
    (returned : read state = .ok other next) : back = [] := by
  obtain ⟨last, returned', left⟩ :=
    stable state other next returned whole back (by rw [full, split, short])
  obtain ⟨last', returned'', left'⟩ := reads.whole full
  rw [returned'] at returned''
  cases returned''
  rw [left] at left'
  exact (List.append_eq_nil_iff.mp left').2

/-- Read a fixed number of values. -/
def readMany (read : Effect ε τ α) : Nat → Effect ε τ (List α)
  | 0 => pure []
  | count + 1 => do
      let value ← read
      let rest ← readMany read count
      pure (value :: rest)

/-- So is a stable reader that is repeated. -/
theorem Stable.readMany {read : Effect ε τ α} (stable : Stable view read) (count : Nat) :
    Stable view (readMany read count) := by
  induction count with
  | zero => exact .pure []
  | succ count ih => exact stable.bind fun value => ih.bind fun rest => .pure (value :: rest)

/-- Readings that differ in a map differ in it as a sequence. -/
theorem readMany_map (read : Effect ε τ α) (f : α → β) (count : Nat) :
    readMany (f <$> read) count = List.map f <$> readMany read count := by
  induction count with
  | zero => rfl
  | succ count ih =>
      unfold readMany
      rw [ih]
      simp only [bind_map_left, map_bind, map_pure, List.map_cons]

/-- A sequence is read back from the concatenation of the codes of its elements,
element by element through the map that a single reading applies. -/
theorem Reads.manyMap {read : Effect ε τ α} (encode : α → List γ) (f : α → α) (values : List α)
    (each : ∀ value ∈ values, Reads view read (encode value) (f value)) :
    Reads view (readMany read values.length) (values.flatMap encode) (values.map f) := by
  induction values with
  | nil => exact Reads.pure []
  | cons value values ih =>
      have head := each value List.mem_cons_self
      have tail := ih fun other member => each other (List.mem_cons_of_mem _ member)
      rw [List.flatMap_cons]
      exact head.bind (tail.last _)

end Effect

end Synctick
