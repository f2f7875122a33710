import Synctick.Garden.Connectivity
import Synctick.Simulation

/-! # The board of Power Garden

A recorded setup is validated before it becomes a board: its shape, the encoding and the role of
each tile, its endpoints, and whether the unrotated layout connects all of them. A board keeps the
power of its cells as a cache. Rotations that are not allowed change nothing.
-/

namespace Synctick

namespace Garden

open Relation

/-- The complete initial board, stored before the command log. -/
structure Initialization where
  width : UInt8
  height : UInt8
  tiles : List Tile
  deriving DecidableEq, Repr

def initializationSchema : Codec.Schema :=
  .struct (.cons .u8 (.cons .u8 (.cons (.vec 3 tileSchema) .nil)))

def Initialization.values : Initialization ≃ initializationSchema.Value where
  toFun initial := (initial.width, initial.height, initial.tiles.map Tile.values, ())
  invFun value := ⟨value.1, value.2.1, value.2.2.1.map Tile.values.symm⟩
  left_inv initial := by
    change (⟨_, _, (initial.tiles.map Tile.values).map Tile.values.symm⟩ : Initialization) = initial
    rw [List.map_map, Equiv.symm_comp_self, List.map_id]
  right_inv value := by
    obtain ⟨width, height, tiles, _⟩ := value
    have same (tiles : List tileSchema.Value) :
        (tiles.map Tile.values.symm).map Tile.values = tiles := by
      rw [List.map_map, Equiv.self_comp_symm, List.map_id]
    exact congrArg (fun tiles : List tileSchema.Value => (width, height, tiles, ())) (same tiles)

/-- Why a recorded board cannot become a playable puzzle. -/
inductive InitializationError
  | dimensions
  | tileEncoding
  | tileRole
  | endpoints
  | unsolvable
  deriving DecidableEq, Repr

def InitializationError.display : InitializationError → String
  | .dimensions => "Power Garden requires a 5 x 5 board"
  | .tileEncoding => "Invalid tile port mask or orientation"
  | .tileRole => "Tile ports or orientation do not match its role"
  | .endpoints => "A garden needs one source and four beacons"
  | .unsolvable => "The unrotated board does not connect all four beacons"

def countOnes (bits : UInt8) : Nat := (List.range 8).countP bits.toNat.testBit

namespace Initialization

/-- A row of the default puzzle with beacons at both ends; the wire in its middle also has `inward`. -/
def beaconRow (row : Nat) (inward : UInt8) (tiles : List Tile) : List Tile :=
  [1, 2, 3].foldl
    (fun tiles column => tiles.set (row * 5 + column)
      ⟨.wire, east ||| west ||| (if column = 2 then inward else 0), 1⟩)
    ((tiles.set (row * 5) ⟨.beacon, east, 0⟩).set (row * 5 + 4) ⟨.beacon, west, 0⟩)

/-- The default puzzle. -/
def default : Initialization where
  width := 5
  height := 5
  tiles :=
    let tiles := beaconRow 4 north (beaconRow 0 south (List.replicate 25 ⟨.empty, 0, 0⟩))
    let tiles := [7, 17].foldl (fun tiles index => tiles.set index ⟨.wire, north ||| south, 1⟩) tiles
    tiles.set 12 ⟨.source, north ||| south, 0⟩

/-- The loop over the tiles, which counts the sources and the beacons. -/
def count : List Tile → Nat → Nat → Except InitializationError (Nat × Nat)
  | [], sources, beacons => .ok (sources, beacons)
  | tile :: tiles, sources, beacons =>
      if tile.ports > 15 ∨ tile.rotation > 3 then .error .tileEncoding
      else
        let ports := countOnes tile.ports
        let (valid, sources, beacons) := match tile.kind with
          | .empty => (decide (ports = 0), sources, beacons)
          | .wire => (decide (ports = 2 ∨ ports = 3), sources, beacons)
          | .source => (decide (ports > 0), sources + 1, beacons)
          | .beacon => (decide (ports = 1), sources, beacons + 1)
        if ¬ valid ∨ (tile.kind ≠ .wire ∧ tile.rotation ≠ 0) then .error .tileRole
        else count tiles sources beacons

/-- Check the shape of the board, its tiles, and a solvable base layout. The outer option is a
panic of the traversal. -/
def validate (initial : Initialization) : Option (Except InitializationError Unit) :=
  if initial.width ≠ 5 ∨ initial.height ≠ 5 ∨ initial.tiles.length ≠ 25 then
    some (.error .dimensions)
  else
    match count initial.tiles 0 0 with
    | .error error => some (.error error)
    | .ok (sources, beacons) =>
        if sources ≠ 1 ∨ beacons ≠ 4 then some (.error .endpoints)
        else do
          let solution ← connectivity initial.tiles Tile.ports
          if connectedBeacons initial.tiles solution ≠ 4 then some (.error .unsolvable)
          else some (.ok ())

end Initialization

/-- Rotate a cell clockwise once. -/
structure Rotate where
  cell : UInt32
  deriving DecidableEq, Repr

def rotateSchema : Codec.Schema := .struct (.cons .u32 .nil)

def Rotate.values : Rotate ≃ rotateSchema.Value where
  toFun command := (command.cell, ())
  invFun value := ⟨value.1⟩
  left_inv _ := rfl
  right_inv _ := rfl

/-- Authoritative board state. -/
structure PuzzleState where
  width : UInt8
  height : UInt8
  tiles : List Tile
  moves : UInt64
  complete : Bool
  deriving DecidableEq, Repr

/-- A puzzle, with the power of its cells as a cache. -/
structure Board where
  state : PuzzleState
  powered : List Bool
  deriving DecidableEq, Repr

def PuzzleState.tryFrom (initial : Initialization) :
    Option (Except InitializationError PuzzleState) := do
  match ← initial.validate with
  | .error error => some (.error error)
  | .ok _ => do
      let powered ← connectivity initial.tiles Tile.connections
      some (.ok {
        width := initial.width
        height := initial.height
        tiles := initial.tiles
        moves := 0
        complete := connectedBeacons initial.tiles powered = 4 })

namespace Board

/-- Validate a recorded setup, then build its connectivity cache. -/
def new (initial : Initialization) : Option (Except InitializationError Board) := do
  match ← PuzzleState.tryFrom initial with
  | .error error => some (.error error)
  | .ok state => do
      let powered ← connectivity state.tiles Tile.connections
      some (.ok { state, powered })

def recompute (board : Board) : Option Board := do
  let powered ← connectivity board.state.tiles Tile.connections
  some { board with
    state := { board.state with complete := connectedBeacons board.state.tiles powered = 4 }
    powered }

/-- Apply a rotation, and tell whether it was allowed. -/
def rotate (command : Rotate) (board : Board) : Option (Bool × Board) :=
  match board.state.tiles[command.cell.toNat]? with
  | none => some (false, board)
  | some tile =>
      if board.state.complete ∨ tile.kind ≠ .wire then some (false, board)
      else
        match checkedAdd board.state.moves 1 with
        | none => some (false, board)
        | some moves => do
            let tile := { tile with rotation := (tile.rotation + 1) % 4 }
            let tiles := board.state.tiles.set command.cell.toNat tile
            let board ← recompute { board with state := { board.state with tiles, moves } }
            some (true, board)

end Board

end Garden

end Synctick
