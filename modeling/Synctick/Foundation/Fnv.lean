import Mathlib.Logic.Function.Basic
import Synctick.Foundation.LittleEndian

/-! # The FNV-1a hash

A hash that folds a string of bytes into a 64-bit state. Each step mixes one byte in by an
exclusive or and multiplies by a prime. A fold whose steps are injective, in the state for each
byte and in the byte for each state, tells two strings apart that differ in one byte.
-/

namespace Synctick

section Folds

variable {σ β : Type} {step : σ → β → σ}

/-- A fold keeps states apart when its steps do. -/
theorem foldl_injective (keeps : ∀ byte, Function.Injective fun state => step state byte)
    (bytes : List β) : Function.Injective fun state => bytes.foldl step state := by
  induction bytes with
  | nil => exact Function.injective_id
  | cons byte bytes ih => exact ih.comp (keeps byte)

/-- Strings that differ in one symbol. -/
inductive Edit : List β → List β → Prop
  | one (front back : List β) {symbol other : β} (different : symbol ≠ other) :
      Edit (front ++ symbol :: back) (front ++ other :: back)

/-- A change of a part is a change of the whole. -/
theorem Edit.within {bytes changed : List β} (edit : Edit bytes changed) (front back : List β) :
    Edit (front ++ (bytes ++ back)) (front ++ (changed ++ back)) := by
  cases edit with
  | one before after different =>
      rw [List.append_assoc, List.append_assoc, ← List.append_assoc front,
        ← List.append_assoc front]
      exact .one (front ++ before) (after ++ back) different

/-- A change of one symbol changes the result. -/
theorem foldl_ne_of_edit (keeps : ∀ byte, Function.Injective fun state => step state byte)
    (reads : ∀ state, Function.Injective (step state)) {bytes changed : List β}
    (edit : Edit bytes changed) (state : σ) :
    bytes.foldl step state ≠ changed.foldl step state := by
  cases edit with
  | one front back different =>
      intro same
      rw [List.foldl_append, List.foldl_append, List.foldl_cons, List.foldl_cons] at same
      exact different (reads _ (foldl_injective keeps back same))

end Folds

namespace Fnv

def offsetBasis : UInt64 := 0xcbf29ce484222325

def prime : UInt64 := 0x100000001b3

/-- Mix one byte into a state. -/
def step (state : UInt64) (byte : UInt8) : UInt64 := (state ^^^ byte.toUInt64) * prime

/-- The hash of a string of bytes. -/
def hash (bytes : Bytes) : UInt64 := bytes.foldl step offsetBasis

/-- The inverse of the prime modulo 2^64. -/
def inverse : UInt64 := 0xce965057aff6957b

theorem prime_mul_inverse : prime * inverse = 1 := rfl

theorem mul_prime_injective : Function.Injective fun state => state * prime := by
  intro state other same
  have undone (value : UInt64) : value * prime * inverse = value := by
    rw [UInt64.mul_assoc, prime_mul_inverse, UInt64.mul_one]
  rw [← undone state, ← undone other]
  exact congrArg (· * inverse) same

/-- A byte is mixed in without loss of the state. -/
theorem step_injective (byte : UInt8) : Function.Injective fun state => step state byte := by
  intro state other same
  exact (UInt64.xor_left_inj byte.toUInt64).mp (mul_prime_injective same)

/-- Different bytes take a state to different states. -/
theorem step_reads (state : UInt64) : Function.Injective (step state) := by
  intro byte other same
  have mixed : state ^^^ byte.toUInt64 = state ^^^ other.toUInt64 := mul_prime_injective same
  exact UInt8.toUInt64_inj.mp ((UInt64.xor_right_inj state).mp mixed)

/-- A change of one byte is seen from every state. -/
theorem foldl_step_ne {bytes changed : Bytes} (edit : Edit bytes changed) (state : UInt64) :
    bytes.foldl step state ≠ changed.foldl step state :=
  foldl_ne_of_edit step_injective step_reads edit state

/-- The reference value of the string foobar. -/
example : hash [102, 111, 111, 98, 97, 114] = 0x85944171f73967e8 := by decide

end Fnv

end Synctick
