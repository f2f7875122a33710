import Mathlib.Data.Nat.Basic
import Mathlib.Data.List.Basic
import Mathlib.Tactic.Ring

/-! # Little-endian integers

The fixed-width little-endian representation of a natural number, and its value.
Writing `width` bytes keeps a number modulo `256 ^ width`.
-/

namespace Synctick

/-- A string of bytes. -/
abbrev Bytes := List UInt8

/-- The `width` low bytes of a number, least significant first. -/
def littleEndian : Nat → Nat → Bytes
  | 0, _ => []
  | width + 1, value => UInt8.ofNat value :: littleEndian width (value / 256)

/-- The number whose bytes, least significant first, are given. -/
def ofLittleEndian : Bytes → Nat
  | [] => 0
  | byte :: bytes => byte.toNat + 256 * ofLittleEndian bytes

@[simp] theorem length_littleEndian (width value : Nat) :
    (littleEndian width value).length = width := by
  induction width generalizing value with
  | zero => rfl
  | succ width ih => rw [littleEndian, List.length_cons, ih]

theorem ofLittleEndian_littleEndian (width value : Nat) :
    ofLittleEndian (littleEndian width value) = value % 256 ^ width := by
  induction width generalizing value with
  | zero => simp only [littleEndian, ofLittleEndian, Nat.pow_zero, Nat.mod_one]
  | succ width ih =>
      have low : (UInt8.ofNat value).toNat = value % 256 := by simp
      rw [littleEndian, ofLittleEndian, ih, low, Nat.pow_succ', Nat.mod_mul]

theorem ofLittleEndian_lt (bytes : Bytes) : ofLittleEndian bytes < 256 ^ bytes.length := by
  induction bytes with
  | nil => exact Nat.one_pos
  | cons byte bytes ih =>
      have low : byte.toNat < 256 := byte.toNat_lt
      rw [ofLittleEndian, List.length_cons, Nat.pow_succ']
      calc byte.toNat + 256 * ofLittleEndian bytes
          < 256 + 256 * ofLittleEndian bytes := by omega
        _ = 256 * (ofLittleEndian bytes + 1) := by ring
        _ ≤ 256 * 256 ^ bytes.length := Nat.mul_le_mul_left _ ih

/-- A number that fits its width is read back from its bytes. -/
theorem ofLittleEndian_littleEndian_of_lt {width value : Nat} (fits : value < 256 ^ width) :
    ofLittleEndian (littleEndian width value) = value := by
  rw [ofLittleEndian_littleEndian, Nat.mod_eq_of_lt fits]

/-- Bytes are those of the number they make. -/
theorem littleEndian_ofLittleEndian (bytes : Bytes) :
    littleEndian bytes.length (ofLittleEndian bytes) = bytes := by
  induction bytes with
  | nil => rfl
  | cons byte bytes ih =>
      have low : byte.toNat < 256 := byte.toNat_lt
      have first : UInt8.ofNat (byte.toNat + 256 * ofLittleEndian bytes) = byte := by
        apply UInt8.toNat_inj.mp
        rw [UInt8.toNat_ofNat']
        omega
      have rest : (byte.toNat + 256 * ofLittleEndian bytes) / 256 = ofLittleEndian bytes := by
        omega
      rw [List.length_cons, ofLittleEndian, littleEndian, first, rest, ih]

end Synctick
