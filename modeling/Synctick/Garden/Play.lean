import Synctick.Garden.Validation
import Synctick.Replay.Log

/-! # Playing on a board

Whatever is played on a playable board, it keeps its layout, its cache is that of its tiles, and it
is complete exactly when the source is linked to all beacons. Moves are counted, and a completed
board does not change any more. From every position the puzzle can still be solved.
-/

namespace Synctick

namespace Garden

open Relation

/-- What rotations leave alone: the roles and the ports of the cells. -/
def layout (tiles : List Tile) : List (Kind × UInt8) := tiles.map fun tile => (tile.kind, tile.ports)

/-- A place of a list is between those before it and those after it. -/
theorem split_set {α : Type} {elements : List α} {place : Nat} {element : α}
    (there : elements[place]? = some element) : ∃ front back,
      elements = front ++ element :: back ∧ front.length = place ∧
        ∀ other, elements.set place other = front ++ other :: back := by
  obtain ⟨inside, same⟩ := List.getElem?_eq_some_iff.mp there
  refine ⟨elements.take place, elements.drop (place + 1), ?_, ?_, ?_⟩
  · rw [← same, ← List.drop_eq_getElem_cons inside, List.take_append_drop]
  · rw [List.length_take, Nat.min_eq_left (Nat.le_of_lt inside)]
  · intro other
    rw [List.set_eq_take_append_cons_drop, if_pos inside]

variable {tiles tiles' : List Tile} {tile : Tile} {cell : Nat}

/-- The sources of a board are those of its layout. -/
theorem sources_eq (tiles : List Tile) :
    sources tiles = (layout tiles).countP fun entry => entry.1 = .source := by
  unfold sources layout
  rw [List.countP_map]
  rfl

/-- So are its beacons. -/
theorem beacons_eq (tiles : List Tile) :
    beacons tiles = (layout tiles).countP fun entry => entry.1 = .beacon := by
  unfold beacons layout
  rw [List.countP_map]
  rfl

/-- The next orientation of a wire. -/
def Tile.turned (tile : Tile) : Tile := { tile with rotation := (tile.rotation + 1) % 4 }

/-- A wire that is turned stays admissible. -/
theorem Tile.Admissible.turned (admissible : tile.Admissible) (isWire : tile.kind = .wire) :
    tile.turned.Admissible where
  encoded := by
    refine ⟨admissible.encoded.1, ?_⟩
    have small : ∀ rotation : UInt8, (rotation + 1) % 4 ≤ 3 := by
      intro rotation
      rw [UInt8.le_iff_toNat_le, UInt8.toNat_mod]
      exact Nat.le_of_lt_succ (Nat.mod_lt _ (by decide))
    exact small tile.rotation
  inRole := ⟨admissible.inRole.1, fun fixed => absurd isWire fixed⟩

/-- Turning a tile keeps the layout. -/
theorem layout_set (there : tiles[cell]? = some tile) :
    layout (tiles.set cell tile.turned) = layout tiles := by
  obtain ⟨front, back, split, _, put⟩ := split_set there
  rw [put]
  unfold layout
  rw [split, List.map_append, List.map_append, List.map_cons, List.map_cons]
  rfl

/-- Connections depend on roles and ports only. -/
theorem Connected.congr {ports ports' : Tile → UInt8}
    (same : tiles.map (fun tile => (tile.kind, ports tile)) =
      tiles'.map fun tile => (tile.kind, ports' tile))
    (connected : Connected tiles ports) : Connected tiles' ports' := by
  have matching {cell : Nat} {tile : Tile} : (tiles[cell]? = some tile →
        ∃ other, tiles'[cell]? = some other ∧ other.kind = tile.kind ∧ ports' other = ports tile) ∧
      (tiles'[cell]? = some tile →
        ∃ other, tiles[cell]? = some other ∧ other.kind = tile.kind ∧ ports other = ports' tile) := by
    have here := congrArg (fun entries => entries[cell]?) same
    simp only [List.getElem?_map] at here
    constructor
    · intro there
      rw [there] at here
      obtain ⟨other, found, entry⟩ := Option.map_eq_some_iff.mp here.symm
      exact ⟨other, found, congrArg Prod.fst entry, congrArg Prod.snd entry⟩
    · intro there
      rw [there] at here
      obtain ⟨other, found, entry⟩ := Option.map_eq_some_iff.mp here
      exact ⟨other, found, congrArg Prod.fst entry, congrArg Prod.snd entry⟩
  intro source cell first tile here isSource there isBeacon
  obtain ⟨first', here', kind, _⟩ := matching.2 here
  obtain ⟨tile', there', kind', _⟩ := matching.2 there
  have path := connected source cell first' tile' here' (kind.trans isSource) there'
    (kind'.trans isBeacon)
  refine ReflTransGen.mono ?_ _ _ path
  rintro _ _ ⟨outgoing, incoming, leaving, entering, around, found, found', leads, faces⟩
  obtain ⟨leaving', found, _, ports⟩ := matching.1 found
  obtain ⟨entering', found', _, ports'⟩ := matching.1 found'
  exact ⟨outgoing, incoming, leaving', entering', around, found, found',
    by rw [ports]; exact leads, by rw [ports']; exact faces⟩

namespace Board

/-- The rotations of a game in order, and whether each was allowed. -/
def play : List Rotate → Board → Option (List Bool × Board)
  | [], board => some ([], board)
  | command :: commands, board => do
      let (allowed, board) ← rotate command board
      let (verdicts, board) ← play commands board
      some (allowed :: verdicts, board)

/-- A board that came of a recorded one. -/
structure Coherent (initial : Initialization) (board : Board) : Prop where
  width : board.state.width = initial.width
  height : board.state.height = initial.height
  layout : layout board.state.tiles = layout initial.tiles
  tiles : ∀ tile ∈ board.state.tiles, tile.Admissible
  cached : connectivity board.state.tiles Tile.connections = some board.powered
  complete : board.state.complete = true ↔ Connected board.state.tiles Tile.connections

/-- What a rotation does: it is refused, or it turns a wire of a board that is not complete. -/
inductive Rotated (board : Board) (command : Rotate) : Bool → Board → Prop
  | refused (why : board.state.complete = true ∨ board.state.moves.toNat + 1 = 2 ^ 64 ∨
      ∀ tile, board.state.tiles[command.cell.toNat]? = some tile → tile.kind ≠ .wire) :
      Rotated board command false board
  | turned {tile : Tile} {next : Board} (incomplete : board.state.complete = false)
      (there : board.state.tiles[command.cell.toNat]? = some tile) (isWire : tile.kind = .wire)
      (counts : next.state.moves.toNat = board.state.moves.toNat + 1)
      (turns : next.state.tiles = board.state.tiles.set command.cell.toNat tile.turned) :
      Rotated board command true next

variable {initial : Initialization} {board next : Board} {command : Rotate}

/-- The tiles of a board with the layout of a playable one are connected as its power tells. -/
theorem connects (playable : initial.Playable) (same : Garden.layout tiles = Garden.layout initial.tiles)
    (ports : Tile → UInt8) : ∃ powered, connectivity tiles ports = some powered ∧
      powered.length = 25 ∧ (connectedBeacons tiles powered = 4 ↔ Connected tiles ports) := by
  apply connectivity_connects
  · have size := congrArg List.length same
    unfold Garden.layout at size
    rw [List.length_map, List.length_map] at size
    exact size.trans playable.shaped.2.2
  · rw [sources_eq, same, ← sources_eq]
    exact playable.ended.1
  · rw [beacons_eq, same, ← beacons_eq]
    exact playable.ended.2

/-- A playable board is built. -/
theorem new_coherent (playable : initial.Playable) :
    ∃ board, new initial = some (.ok board) ∧ board.Coherent initial ∧ board.state.moves = 0 ∧
      board.state.tiles = initial.tiles := by
  obtain ⟨powered, runs, _, complete⟩ := connects playable rfl Tile.connections
  refine ⟨⟨⟨initial.width, initial.height, initial.tiles, 0,
    connectedBeacons initial.tiles powered = 4⟩, powered⟩, ?_, ?_, rfl, rfl⟩
  · have state : PuzzleState.tryFrom initial = some (.ok ⟨initial.width, initial.height,
        initial.tiles, 0, connectedBeacons initial.tiles powered = 4⟩) := by
      unfold PuzzleState.tryFrom
      rw [(Initialization.Verdict.playable playable).validate]
      change (connectivity initial.tiles Tile.connections >>= _) = _
      rw [runs]
      rfl
    unfold new
    rw [state]
    change (connectivity initial.tiles Tile.connections >>= _) = _
    rw [runs]
    rfl
  · exact {
      width := rfl
      height := rfl
      layout := rfl
      tiles := playable.tiles
      cached := runs
      complete := by
        rw [← complete]
        exact decide_eq_true_iff }

/-- Every recorded board is playable and built, or it is rejected. -/
theorem new_cases (initial : Initialization) :
    (∃ error, new initial = some (.error error) ∧ initial.Verdict (.error error)) ∨
      initial.Playable ∧ ∃ board, new initial = some (.ok board) ∧ board.Coherent initial := by
  obtain ⟨verdict, holds⟩ := Initialization.exists_verdict initial
  cases verdict with
  | error error =>
      refine Or.inl ⟨error, ?_, holds⟩
      unfold new PuzzleState.tryFrom
      rw [holds.validate]
      rfl
  | ok =>
      cases holds with
      | playable playable =>
          obtain ⟨board, builds, coherent, _⟩ := new_coherent playable
          exact Or.inr ⟨playable, board, builds, coherent⟩

/-- Every rotation of a coherent board returns, and keeps it coherent. -/
theorem rotate_coherent (playable : initial.Playable) (coherent : board.Coherent initial)
    (command : Rotate) : ∃ allowed next, board.rotate command = some (allowed, next) ∧
      board.Rotated command allowed next ∧ next.Coherent initial := by
  unfold rotate
  cases there : board.state.tiles[command.cell.toNat]? with
  | none =>
      refine ⟨false, board, rfl, .refused (Or.inr (Or.inr ?_)), coherent⟩
      intro tile impossible
      rw [there] at impossible
      cases impossible
  | some tile =>
      dsimp only
      by_cases complete : board.state.complete = true
      · rw [if_pos (Or.inl complete)]
        exact ⟨false, board, rfl, .refused (Or.inl complete), coherent⟩
      by_cases isWire : tile.kind = .wire
      · have open_ : ¬ (board.state.complete = true ∨ tile.kind ≠ .wire) := by
          rw [not_or, not_not]
          exact ⟨complete, isWire⟩
        rw [if_neg open_]
        cases counts : checkedAdd board.state.moves 1 with
        | none =>
            refine ⟨false, board, rfl, .refused (Or.inr (Or.inl ?_)), coherent⟩
            exact exhausted_of_checkedAdd counts
        | some moves =>
            have same := (layout_set there).trans coherent.layout
            obtain ⟨powered, runs, _, connected⟩ := connects playable same Tile.connections
            refine ⟨true, ⟨⟨board.state.width, board.state.height,
              board.state.tiles.set command.cell.toNat tile.turned, moves,
              connectedBeacons (board.state.tiles.set command.cell.toNat tile.turned) powered = 4⟩,
              powered⟩, ?_, ?_, ?_⟩
            · change (recompute _ >>= fun board => some (true, board)) = _
              unfold recompute
              dsimp only
              change ((connectivity (board.state.tiles.set command.cell.toNat tile.turned)
                Tile.connections >>= _) >>= _) = _
              rw [runs]
              rfl
            · exact .turned (Bool.eq_false_iff.mpr complete) there isWire (toNat_of_checkedAdd counts)
                rfl
            · refine ⟨coherent.width, coherent.height, same, ?_, runs, ?_⟩
              · intro other member
                rcases List.mem_or_eq_of_mem_set member with before | turned
                · exact coherent.tiles other before
                · rw [turned]
                  exact (coherent.tiles tile (List.mem_of_getElem? there)).turned isWire
              · rw [← connected]
                exact decide_eq_true_iff
      · rw [if_pos (Or.inr isWire)]
        refine ⟨false, board, rfl, .refused (Or.inr (Or.inr ?_)), coherent⟩
        intro other found
        rw [there] at found
        cases found
        exact isWire

/-! ## Runs -/

/-- The course of a game, move by move: what each rotation did, and whether it was allowed. -/
inductive Course : Board → List Rotate → List Bool → Board → Prop
  | nil (board : Board) : Course board [] [] board
  | cons {board next last : Board} {command : Rotate} {commands : List Rotate} {allowed : Bool}
      {verdicts : List Bool} (rotated : board.Rotated command allowed next)
      (rest : Course next commands verdicts last) :
      Course board (command :: commands) (allowed :: verdicts) last

/-- The allowed rotations of a cell. -/
def turns (cell : Nat) (commands : List Rotate) (verdicts : List Bool) : Nat :=
  (commands.zip verdicts).countP fun (command, allowed) => allowed && command.cell.toNat = cell

/-- A board after a game that began on `board`. -/
structure Played (initial : Initialization) (board : Board) (commands : List Rotate)
    (verdicts : List Bool) (last : Board) : Prop extends Coherent initial last where
  course : board.Course commands verdicts last
  each : verdicts.length = commands.length
  moves : last.state.moves.toNat = board.state.moves.toNat + verdicts.count true
  rotations : ∀ (cell : Nat) (base tile : Tile), board.state.tiles[cell]? = some base →
    last.state.tiles[cell]? = some tile →
    tile.rotation.toNat = (base.rotation.toNat + turns cell commands verdicts) % 4

variable {last : Board} {allowed : Bool} {commands : List Rotate} {verdicts : List Bool}

/-- Boards of one game have the same cells. -/
theorem Coherent.size (coherent : board.Coherent initial) (other : next.Coherent initial) :
    next.state.tiles.length = board.state.tiles.length := by
  have same := congrArg List.length (other.layout.trans coherent.layout.symm)
  unfold Garden.layout at same
  rw [List.length_map, List.length_map] at same
  exact same

/-- An allowed rotation is counted, and a refused one is not. -/
theorem Rotated.moves (rotated : board.Rotated command allowed next) :
    next.state.moves.toNat = board.state.moves.toNat + [allowed].count true := by
  cases rotated with
  | refused => rfl
  | turned _ _ _ counts => exact counts

/-- An allowed rotation turns its cell, and no other one. -/
theorem Rotated.rotation (rotated : board.Rotated command allowed next)
    (coherent : board.Coherent initial) {cell : Nat} {base tile : Tile}
    (here : board.state.tiles[cell]? = some base) (there : next.state.tiles[cell]? = some tile) :
    tile.rotation.toNat =
      (base.rotation.toNat + if allowed && command.cell.toNat = cell then 1 else 0) % 4 := by
  have small : base.rotation.toNat < 4 :=
    Nat.lt_succ_of_le (UInt8.le_iff_toNat_le.mp
      (coherent.tiles base (List.mem_of_getElem? here)).encoded.2)
  cases rotated with
  | refused =>
      rw [here] at there
      cases there
      exact (Nat.mod_eq_of_lt small).symm
  | @turned wire next _ found _ _ turns =>
      rw [turns, List.getElem?_set] at there
      by_cases same : command.cell.toNat = cell
      · rw [if_pos same] at there
        rw [same, here] at found
        cases found
        have put := Option.ite_none_right_eq_some.mp there
        cases put.2
        have next : (base.rotation + 1).toNat = base.rotation.toNat + 1 := by
          rw [UInt8.toNat_add]
          exact Nat.mod_eq_of_lt (Nat.lt_of_lt_of_le (Nat.succ_lt_succ small) (by decide))
        change ((base.rotation + 1) % 4).toNat = _
        rw [UInt8.toNat_mod, next, same, Bool.true_and, decide_eq_true rfl, if_pos rfl]
        rfl
      · rw [if_neg same, here] at there
        cases there
        rw [Bool.true_and, decide_eq_false same, if_neg Bool.false_ne_true, Nat.add_zero,
          Nat.mod_eq_of_lt small]

/-- Every game returns, and leaves a board that tells what was played. -/
theorem play_coherent (playable : initial.Playable) (coherent : board.Coherent initial)
    (commands : List Rotate) : ∃ verdicts last, board.play commands = some (verdicts, last) ∧
      Played initial board commands verdicts last := by
  induction commands generalizing board with
  | nil =>
      refine ⟨[], board, rfl, coherent, .nil board, rfl, rfl, ?_⟩
      intro cell base tile here there
      rw [here] at there
      cases there
      exact (Nat.mod_eq_of_lt (Nat.lt_succ_of_le (UInt8.le_iff_toNat_le.mp
        (coherent.tiles base (List.mem_of_getElem? here)).encoded.2))).symm
  | cons command commands ih =>
      obtain ⟨allowed, next, rotates, rotated, kept⟩ := rotate_coherent playable coherent command
      obtain ⟨verdicts, last, plays, played⟩ := ih kept
      refine ⟨allowed :: verdicts, last, ?_, played.toCoherent, .cons rotated played.course, ?_, ?_, ?_⟩
      · change (board.rotate command >>= _) = _
        rw [rotates]
        change (next.play commands >>= _) = _
        rw [plays]
        rfl
      · rw [List.length_cons, List.length_cons, played.each]
      · rw [played.moves, rotated.moves, Nat.add_assoc, ← List.count_append, List.singleton_append]
      · intro cell base tile here there
        obtain ⟨middle, between⟩ : ∃ middle, next.state.tiles[cell]? = some middle := by
          have inside := (List.getElem?_eq_some_iff.mp here).1
          exact ⟨_, List.getElem?_eq_getElem (by rw [coherent.size kept]; exact inside)⟩
        have counted : turns cell (command :: commands) (allowed :: verdicts) =
            turns cell commands verdicts + if allowed && command.cell.toNat = cell then 1 else 0 := by
          unfold turns
          rw [List.zip_cons_cons, List.countP_cons]
        rw [played.rotations cell middle tile between there, rotated.rotation coherent here between,
          counted]
        omega

/-- A game may be played in parts. -/
theorem play_append {middle : Board} {front back : List Rotate}
    {verdicts' : List Bool} (first : board.play front = some (verdicts, middle))
    (rest : middle.play back = some (verdicts', last)) :
    board.play (front ++ back) = some (verdicts ++ verdicts', last) := by
  induction front generalizing board verdicts with
  | nil =>
      cases first
      exact rest
  | cons command front ih =>
      obtain ⟨⟨allowed, turned⟩, rotates, first⟩ := Option.bind_eq_some_iff.mp first
      obtain ⟨⟨later, _⟩, plays, same⟩ := Option.bind_eq_some_iff.mp first
      cases same
      change (board.rotate command >>= _) = _
      rw [rotates]
      change (turned.play (front ++ back) >>= _) = _
      rw [ih plays]
      rfl

/-- A board that is complete is not changed any more. -/
theorem play_complete (complete : board.state.complete = true) (commands : List Rotate) :
    board.play commands = some (commands.map fun _ => false, board) := by
  induction commands with
  | nil => rfl
  | cons command commands ih =>
      have refused : board.rotate command = some (false, board) := by
        unfold rotate
        cases board.state.tiles[command.cell.toNat]? with
        | none => rfl
        | some tile => exact if_pos (Or.inl complete)
      change (board.rotate command >>= _) = _
      rw [refused]
      change (board.play commands >>= _) = _
      rw [ih]
      rfl

/-! ## Solving -/

/-- The rotations that are left until each wire is as in the solution. -/
def lag (tiles : List Tile) : Nat := (tiles.map fun tile => (4 - tile.rotation.toNat) % 4).sum

/-- The number of the wires of a board. -/
def wires (tiles : List Tile) : Nat := tiles.countP fun tile => tile.kind = .wire

/-- No wire is more than three rotations away from the solution. -/
theorem lag_le (admissible : ∀ tile ∈ tiles, tile.Admissible) : lag tiles ≤ 3 * wires tiles := by
  induction tiles with
  | nil => exact Nat.zero_le _
  | cons tile tiles ih =>
      have rest := ih fun other member => admissible other (List.mem_cons_of_mem _ member)
      have own : (4 - tile.rotation.toNat) % 4 ≤ 3 * if tile.kind = .wire then 1 else 0 := by
        by_cases isWire : tile.kind = .wire
        · rw [if_pos isWire]
          omega
        · rw [(admissible tile List.mem_cons_self).inRole.2 isWire]
          exact Nat.zero_le _
      unfold lag wires at *
      rw [List.map_cons, List.sum_cons, List.countP_cons, Nat.mul_add, Nat.add_comm]
      apply Nat.add_le_add rest
      simpa using own

/-- Every other tile of a board than its endpoints may be a wire. -/
theorem wires_le (tiles : List Tile) : wires tiles + sources tiles + beacons tiles ≤ tiles.length := by
  induction tiles with
  | nil => exact Nat.le_refl _
  | cons tile tiles ih =>
      have one : wires (tile :: tiles) = wires tiles + if tile.kind = .wire then 1 else 0 := by
        unfold wires
        rw [List.countP_cons]
        simp
      rw [one, sources_cons, beacons_cons, List.length_cons]
      cases tile.kind <;> simp <;> omega

/-- No board is more than 60 rotations away from its solution. -/
theorem Coherent.lag_le (playable : initial.Playable) (coherent : board.Coherent initial) :
    lag board.state.tiles ≤ 60 := by
  have few := Board.lag_le coherent.tiles
  have room := wires_le board.state.tiles
  have size := congrArg List.length coherent.layout
  unfold Garden.layout at size
  rw [List.length_map, List.length_map, playable.shaped.2.2] at size
  rw [sources_eq, beacons_eq, coherent.layout, ← sources_eq, ← beacons_eq, playable.ended.1,
    playable.ended.2, size] at room
  omega

/-- A tile that is turned is one rotation closer to the solution, unless it was there. -/
theorem lag_set (there : tiles[cell]? = some tile) (encoded : tile.Encoded)
    (away : tile.rotation ≠ 0) : lag (tiles.set cell tile.turned) + 1 = lag tiles := by
  obtain ⟨front, back, split, _, put⟩ := split_set there
  have small : tile.rotation.toNat ≤ 3 := UInt8.le_iff_toNat_le.mp encoded.2
  have some : tile.rotation.toNat ≠ 0 := fun none => away (UInt8.toNat_inj.mp none)
  have next : tile.turned.rotation.toNat = (tile.rotation.toNat + 1) % 4 := by
    change ((tile.rotation + 1) % 4).toNat = _
    rw [UInt8.toNat_mod, UInt8.toNat_add]
    change (tile.rotation.toNat + 1) % 2 ^ 8 % 4 = _
    omega
  rw [put]
  unfold lag
  rw [split, List.map_append, List.map_append, List.map_cons, List.map_cons, List.sum_append,
    List.sum_append, List.sum_cons, List.sum_cons, next]
  omega

/-- A board that is not solved has a wire to turn. -/
theorem exists_away (behind : 0 < lag tiles) :
    ∃ (cell : Nat) (tile : Tile), tiles[cell]? = some tile ∧ tile.rotation ≠ 0 := by
  by_contra none
  have zero : ∀ amount ∈ tiles.map fun tile => (4 - tile.rotation.toNat) % 4, amount = 0 := by
    intro amount among
    obtain ⟨tile, member, rfl⟩ := List.mem_map.mp among
    obtain ⟨cell, here⟩ := List.mem_iff_getElem?.mp member
    have solved : tile.rotation = 0 := by
      by_contra away
      exact none ⟨cell, tile, here, away⟩
    rw [solved]
    rfl
  have sum : lag tiles = 0 := List.sum_eq_zero zero
  omega

/-- A board on which every wire is as in the solution is complete. -/
theorem Coherent.solved (playable : initial.Playable) (coherent : board.Coherent initial)
    (none : lag board.state.tiles = 0) : board.state.complete = true := by
  rw [coherent.complete]
  apply playable.connected.congr
  refine coherent.layout.symm.trans (List.map_congr_left ?_)
  intro tile member
  have unrotated : tile.rotation = 0 := by
    by_contra away
    obtain ⟨cell, here⟩ := List.mem_iff_getElem?.mp member
    have more := lag_set here (coherent.tiles tile member).encoded away
    omega
  rw [Tile.connections_unrotated (coherent.tiles tile member).encoded.1 unrotated]

/-- A cell of the board is a command. -/
theorem toNat_cell (coherent : board.Coherent initial) (playable : initial.Playable)
    {cell : Nat} {tile : Tile} (here : board.state.tiles[cell]? = some tile) :
    (UInt32.ofNat cell).toNat = cell := by
  have inside := (List.getElem?_eq_some_iff.mp here).1
  have size := congrArg List.length coherent.layout
  unfold Garden.layout at size
  rw [List.length_map, List.length_map, playable.shaped.2.2] at size
  rw [UInt32.toNat_ofNat']
  omega

/-- A board that is not complete can be solved in as many rotations as are left. -/
theorem solves (playable : initial.Playable) {left : Nat} (coherent : board.Coherent initial)
    (within : lag board.state.tiles ≤ left) (room : board.state.moves.toNat + left < 2 ^ 64) :
    ∃ commands last, commands.length ≤ left ∧
      board.play commands = some (commands.map fun _ => true, last) ∧
      last.state.complete = true := by
  induction left generalizing board with
  | zero => exact ⟨[], board, Nat.le_refl _, rfl, coherent.solved playable (Nat.le_zero.mp within)⟩
  | succ left ih =>
      by_cases complete : board.state.complete = true
      · exact ⟨[], board, Nat.zero_le _, rfl, complete⟩
      by_cases behind : 0 < lag board.state.tiles
      · obtain ⟨cell, tile, here, away⟩ := exists_away behind
        have command := toNat_cell coherent playable here
        obtain ⟨allowed, next, rotates, rotated, kept⟩ :=
          rotate_coherent playable coherent ⟨UInt32.ofNat cell⟩
        have isWire : tile.kind = .wire := by
          by_contra fixed
          exact away ((coherent.tiles tile (List.mem_of_getElem? here)).inRole.2 fixed)
        cases rotated with
        | refused why =>
            rcases why with finished | exhausted | fixed
            · exact absurd finished complete
            · omega
            · exact absurd isWire (fixed tile (by rw [command]; exact here))
        | @turned found _ _ there _ counts turns =>
            dsimp only at there turns
            rw [command] at there turns
            rw [here] at there
            cases there
            have closer := lag_set here (coherent.tiles tile (List.mem_of_getElem? here)).encoded away
            rw [← turns] at closer
            obtain ⟨commands, last, few, plays, solved⟩ := ih kept (by omega) (by omega)
            refine ⟨⟨UInt32.ofNat cell⟩ :: commands, last, Nat.succ_le_succ few, ?_, solved⟩
            change (board.rotate _ >>= _) = _
            rw [rotates]
            change (next.play commands >>= _) = _
            rw [plays]
            rfl
      · exact ⟨[], board, Nat.zero_le _, rfl, coherent.solved playable (by omega)⟩

/-- Whatever is played from a playable board: the play returns, and each rotation is allowed exactly
where the board it comes to is not complete, its cell is that of a wire and the counter has room. The
board keeps its layout and its cache, its counter counts the allowed rotations, every cell is turned
as often as it was allowed to, and a completed board is not changed any more. -/
theorem play_keeps (playable : initial.Playable) (commands : List Rotate) :
    ∃ start verdicts board, new initial = some (.ok start) ∧
      start.play commands = some (verdicts, board) ∧
      Played initial start commands verdicts board ∧
      (board.state.complete = true → ∀ later,
        board.play later = some (later.map fun _ => false, board)) := by
  obtain ⟨start, builds, coherent, _⟩ := new_coherent playable
  obtain ⟨verdicts, board, plays, played⟩ := play_coherent playable coherent commands
  exact ⟨start, verdicts, board, builds, plays, played, play_complete⟩

/-- On the default board a wire may be turned, and neither the source nor an empty cell. -/
theorem play_keeps_default : ∃ start board, new Initialization.default = some (.ok start) ∧
    start.play [⟨7⟩, ⟨12⟩, ⟨6⟩, ⟨7⟩] = some ([true, false, false, true], board) ∧
    Played Initialization.default start [⟨7⟩, ⟨12⟩, ⟨6⟩, ⟨7⟩] [true, false, false, true] board := by
  obtain ⟨start, verdicts, board, builds, plays, played, _⟩ :=
    play_keeps Initialization.playable_default [⟨7⟩, ⟨12⟩, ⟨6⟩, ⟨7⟩]
  have told : (new Initialization.default).map (fun built => match built with
      | .ok start => (start.play [⟨7⟩, ⟨12⟩, ⟨6⟩, ⟨7⟩]).map Prod.fst
      | .error _ => none) = some (some [true, false, false, true]) := by
    decide +kernel
  rw [builds, Option.map_some] at told
  dsimp only at told
  rw [plays] at told
  cases told
  exact ⟨start, board, builds, plays, played⟩

/-- From every position of a game on a playable board, the puzzle can be solved by at most 60
further rotations, unless the counter of the moves comes to its end. -/
theorem play_solvable (playable : initial.Playable) (commands : List Rotate)
    (room : commands.length + 60 < 2 ^ 64) :
    ∃ start verdicts board later last, new initial = some (.ok start) ∧
      start.play commands = some (verdicts, board) ∧ later.length ≤ 60 ∧
      board.play later = some (later.map fun _ => true, last) ∧
      last.state.complete = true := by
  obtain ⟨start, builds, coherent, fresh, _⟩ := new_coherent playable
  obtain ⟨verdicts, board, plays, played⟩ := play_coherent playable coherent commands
  have few : verdicts.count true ≤ commands.length := by
    rw [← played.each]
    exact List.count_le_length
  have moves := played.moves
  rw [fresh] at moves
  obtain ⟨later, last, short, solves, complete⟩ := solves playable played.toCoherent
    (Coherent.lag_le playable played.toCoherent) (by
      rw [moves]
      change 0 + verdicts.count true + 60 < 2 ^ 64
      omega)
  exact ⟨start, verdicts, board, later, last, builds, plays, short, solves, complete⟩

theorem play_solvable_default : ∃ start verdicts board later last,
    new Initialization.default = some (.ok start) ∧
    start.play [⟨7⟩] = some (verdicts, board) ∧ later.length ≤ 60 ∧
    board.play later = some (later.map fun _ => true, last) ∧ last.state.complete = true :=
  play_solvable Initialization.playable_default [⟨7⟩] (by decide)

end Board

end Garden

end Synctick
