import Synctick.Codec.Schema
import Synctick.Hashing

/-! # The tiles of Power Garden

A tile has a role, ports in the four directions, and an orientation. Rotating a tile clockwise
moves its ports from north to east to south to west.
-/

namespace Synctick

namespace Garden

def north : UInt8 := 1

def east : UInt8 := 2

def south : UInt8 := 4

def west : UInt8 := 8

/-- A fixed role. -/
inductive Kind
  | empty
  | wire
  | source
  | beacon
  deriving DecidableEq, Repr

/-- The derived format of a role: an enum with stable tags. -/
def kindSchema : Codec.Schema :=
  .enum (.cons 0 .nil (.cons 1 .nil (.cons 2 .nil (.cons 3 .nil .nil))))

def Kind.values : Kind ≃ kindSchema.Value where
  toFun
    | .empty => .inl ()
    | .wire => .inr (.inl ())
    | .source => .inr (.inr (.inl ()))
    | .beacon => .inr (.inr (.inr (.inl ())))
  invFun
    | .inl _ => .empty
    | .inr (.inl _) => .wire
    | .inr (.inr (.inl _)) => .source
    | .inr (.inr (.inr (.inl _))) => .beacon
  left_inv kind := by cases kind <;> rfl
  right_inv
    | .inl _ => rfl
    | .inr (.inl _) => rfl
    | .inr (.inr (.inl _)) => rfl
    | .inr (.inr (.inr (.inl _))) => rfl

/-- The tag of a role, which is all that is hashed of it. -/
def Kind.tag : Kind → UInt8
  | .empty => 0
  | .wire => 1
  | .source => 2
  | .beacon => 3

instance : StableHash Kind where
  hashInto kind hasher := hasher.field kind.tag

/-- The recorded role of a cell, its ports before any rotation, and its orientation. -/
structure Tile where
  kind : Kind
  ports : UInt8
  rotation : UInt8
  deriving DecidableEq, Repr

/-- The derived format of a tile, which takes three bytes of memory. -/
def tileSchema : Codec.Schema := .struct (.cons kindSchema (.cons .u8 (.cons .u8 .nil)))

def Tile.values : Tile ≃ tileSchema.Value where
  toFun tile := (Kind.values tile.kind, tile.ports, tile.rotation, ())
  invFun value := ⟨Kind.values.symm value.1, value.2.1, value.2.2.1⟩
  left_inv tile := by
    change (⟨Kind.values.symm (Kind.values tile.kind), tile.ports, tile.rotation⟩ : Tile) = tile
    rw [Equiv.symm_apply_apply]
  right_inv value := by
    obtain ⟨kind, ports, rotation, _⟩ := value
    change (Kind.values (Kind.values.symm kind), ports, rotation, ()) = _
    rw [Equiv.apply_symm_apply]
    rfl

instance : StableHash Tile where
  hashInto tile hasher := ((hasher.field tile.kind).field tile.ports).field tile.rotation

/-- The ports after clockwise rotation. -/
def Tile.connections (tile : Tile) : UInt8 :=
  let rotation := tile.rotation % 4
  ((tile.ports <<< rotation) ||| (tile.ports >>> (4 - rotation))) &&& 15

example : (Tile.mk .wire (north ||| east) 1).connections = east ||| south := by decide

/-- A tile that is not rotated has its own ports. -/
theorem Tile.connections_unrotated {tile : Tile} (encoded : tile.ports ≤ 15)
    (unrotated : tile.rotation = 0) : tile.connections = tile.ports := by
  have all : ∀ ports : Fin 16, Tile.connections ⟨.empty, UInt8.ofNat ports, 0⟩ = UInt8.ofNat ports := by
    decide
  have small : tile.ports.toNat < 16 := Nat.lt_succ_of_le (UInt8.le_iff_toNat_le.mp encoded)
  have same : UInt8.ofNat tile.ports.toNat = tile.ports := UInt8.ofNat_toNat
  have turned := all ⟨tile.ports.toNat, small⟩
  change Tile.connections ⟨.empty, UInt8.ofNat tile.ports.toNat, 0⟩ = _ at turned
  unfold Tile.connections at turned ⊢
  dsimp only at turned
  rw [same] at turned
  rw [unrotated]
  exact turned

end Garden

end Synctick
