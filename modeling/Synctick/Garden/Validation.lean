import Synctick.Garden.Board

/-! # Which boards are playable

The validation of a recorded board returns on every input, and accepts exactly the playable boards:
well-formed ones whose unrotated layout connects the source to all four beacons. On any other board
it reports the first flaw that it comes across.
-/

namespace Synctick

namespace Garden

open Relation

/-- The port mask and the orientation of a tile are supported. -/
def Tile.Encoded (tile : Tile) : Prop := tile.ports ≤ 15 ∧ tile.rotation ≤ 3

/-- A role allows these ports. -/
def Kind.Allows (ports : UInt8) : Kind → Prop
  | .empty => countOnes ports = 0
  | .wire => countOnes ports = 2 ∨ countOnes ports = 3
  | .source => 0 < countOnes ports
  | .beacon => countOnes ports = 1

instance (ports : UInt8) : (kind : Kind) → Decidable (kind.Allows ports)
  | .empty => inferInstanceAs (Decidable (countOnes ports = 0))
  | .wire => inferInstanceAs (Decidable (countOnes ports = 2 ∨ countOnes ports = 3))
  | .source => inferInstanceAs (Decidable (0 < countOnes ports))
  | .beacon => inferInstanceAs (Decidable (countOnes ports = 1))

/-- The ports and the orientation of a tile fit its role. -/
def Tile.InRole (tile : Tile) : Prop :=
  tile.kind.Allows tile.ports ∧ (tile.kind ≠ .wire → tile.rotation = 0)

structure Tile.Admissible (tile : Tile) : Prop where
  encoded : tile.Encoded
  inRole : tile.InRole

/-- The number of the sources of a board. -/
def sources (tiles : List Tile) : Nat := tiles.countP fun tile => tile.kind = .source

/-- Each source is linked to each beacon. -/
def Connected (tiles : List Tile) (ports : Tile → UInt8) : Prop :=
  ∀ (source cell : Nat) (first tile : Tile), tiles[source]? = some first → first.kind = .source →
    tiles[cell]? = some tile → tile.kind = .beacon → ReflTransGen (Linked tiles ports) source cell

namespace Initialization

variable (initial : Initialization)

def Shaped : Prop := initial.width = 5 ∧ initial.height = 5 ∧ initial.tiles.length = 25

def Ended : Prop := sources initial.tiles = 1 ∧ beacons initial.tiles = 4

structure Playable : Prop where
  shaped : initial.Shaped
  tiles : ∀ tile ∈ initial.tiles, tile.Admissible
  ended : initial.Ended
  connected : Connected initial.tiles Tile.ports

/-- What is wrong with a board, or nothing is: of several tiles it is about the first one. -/
inductive Verdict : Except InitializationError Unit → Prop
  | playable (playable : initial.Playable) : Verdict (.ok ())
  | dimensions (wrong : ¬ initial.Shaped) : Verdict (.error .dimensions)
  | tileEncoding {front back : List Tile} {tile : Tile} (shaped : initial.Shaped)
      (split : initial.tiles = front ++ tile :: back) (before : ∀ tile ∈ front, tile.Admissible)
      (wrong : ¬ tile.Encoded) : Verdict (.error .tileEncoding)
  | tileRole {front back : List Tile} {tile : Tile} (shaped : initial.Shaped)
      (split : initial.tiles = front ++ tile :: back) (before : ∀ tile ∈ front, tile.Admissible)
      (encoded : tile.Encoded) (wrong : ¬ tile.InRole) : Verdict (.error .tileRole)
  | endpoints (shaped : initial.Shaped) (tiles : ∀ tile ∈ initial.tiles, tile.Admissible)
      (wrong : ¬ initial.Ended) : Verdict (.error .endpoints)
  | unsolvable (shaped : initial.Shaped) (tiles : ∀ tile ∈ initial.tiles, tile.Admissible)
      (ended : initial.Ended) (wrong : ¬ Connected initial.tiles Tile.ports) :
      Verdict (.error .unsolvable)

end Initialization

variable {tiles : List Tile} {tile : Tile} {ports : Tile → UInt8}

/-- The sources are counted tile by tile. -/
theorem sources_cons (tile : Tile) (tiles : List Tile) :
    sources (tile :: tiles) = sources tiles + if tile.kind = .source then 1 else 0 := by
  unfold sources
  rw [List.countP_cons]
  simp

/-- So are the beacons. -/
theorem beacons_cons (tile : Tile) (tiles : List Tile) :
    beacons (tile :: tiles) = beacons tiles + if tile.kind = .beacon then 1 else 0 := by
  unfold beacons
  rw [List.countP_cons]
  simp

/-- Where one element satisfies a predicate, it is in one place. -/
theorem unique_of_countP {α : Type} {p : α → Bool} {elements : List α}
    (one : elements.countP p = 1) {first second : Nat} {element other : α}
    (here : elements[first]? = some element) (holds : p element = true)
    (there : elements[second]? = some other) (holds' : p other = true) : first = second := by
  induction elements generalizing first second with
  | nil => cases here
  | cons head elements ih =>
      rw [List.countP_cons] at one
      have none_later (found : p head = true) (place : Nat) (value : α)
          (later : elements[place]? = some value) : p value ≠ true := by
        rw [if_pos found] at one
        exact List.countP_eq_zero.mp (Nat.succ.inj one) value (List.mem_of_getElem? later)
      cases first with
      | zero =>
          cases here
          cases second with
          | zero => rfl
          | succ second => exact absurd holds' (none_later holds second other there)
      | succ first =>
          cases second with
          | zero =>
              cases there
              exact absurd holds (none_later holds' first element here)
          | succ second =>
              by_cases found : p head = true
              · exact absurd holds (none_later found first element here)
              · rw [if_neg found] at one
                exact congrArg Nat.succ (ih one here there)

/-- On a board with its endpoints, all beacons are powered exactly if the source is linked to
each. -/
theorem connectivity_connects (whole : tiles.length = 25) (one : sources tiles = 1)
    (four : beacons tiles = 4) : ∃ powered, connectivity tiles ports = some powered ∧
      powered.length = 25 ∧ (connectedBeacons tiles powered = 4 ↔ Connected tiles ports) := by
  obtain ⟨source, found⟩ : ∃ source,
      tiles.findIdx? (fun tile => tile.kind = .source) = some source := by
    rw [← Option.isSome_iff_exists, List.findIdx?_isSome, List.any_eq_true, ← List.countP_pos_iff]
    exact Nat.lt_of_lt_of_eq Nat.zero_lt_one one.symm
  obtain ⟨inside, role, _⟩ := List.findIdx?_eq_some_iff_getElem.mp found
  have first : tiles[source]? = some tiles[source] := List.getElem?_eq_getElem inside
  obtain ⟨powered, runs, size, reaches⟩ : ∃ powered, connectivity tiles ports = some powered ∧
      powered.length = 25 ∧ ∀ cell < 25, powered[cell]? = some true ↔
        ReflTransGen (Linked tiles ports) source cell := connectivity_reaches whole found
  refine ⟨powered, runs, size, ?_⟩
  rw [← four, connectedBeacons_eq_iff (size.trans whole.symm)]
  have within {cell : Nat} {tile : Tile} (there : tiles[cell]? = some tile) : cell < 25 := by
    rw [← whole]
    exact (List.getElem?_eq_some_iff.mp there).1
  constructor
  · intro lit origin cell other tile here isSource there isBeacon
    have same : origin = source :=
      unique_of_countP one here (decide_eq_true isSource) first role
    rw [same]
    exact (reaches cell (within there)).mp (lit cell tile there isBeacon)
  · intro connected cell tile there isBeacon
    exact (reaches cell (within there)).mpr
      (connected source cell _ tile first (of_decide_eq_true role) there isBeacon)

namespace Initialization

variable {initial : Initialization}

/-- A tile that is not encoded ends the count. -/
theorem count_malformed (wrong : ¬ tile.Encoded) (rest : List Tile) (seen found : Nat) :
    count (tile :: rest) seen found = .error .tileEncoding := by
  unfold count
  apply if_pos
  unfold Tile.Encoded at wrong
  rw [not_and_or, UInt8.not_le, UInt8.not_le] at wrong
  exact wrong

/-- The loop goes on exactly after an encoded tile in its role. -/
theorem count_encoded (encoded : tile.Encoded) (rest : List Tile) (seen found : Nat) :
    count (tile :: rest) seen found =
      if ¬ tile.kind.Allows tile.ports ∨ (tile.kind ≠ .wire ∧ tile.rotation ≠ 0) then
        .error .tileRole
      else count rest (seen + if tile.kind = .source then 1 else 0)
        (found + if tile.kind = .beacon then 1 else 0) := by
  have supported : ¬ (tile.ports > 15 ∨ tile.rotation > 3) := by
    rw [not_or, gt_iff_lt, gt_iff_lt, UInt8.not_lt, UInt8.not_lt]
    exact encoded
  rw [count, if_neg supported]
  obtain ⟨kind, ports, rotation⟩ := tile
  cases kind <;> simp [Kind.Allows]

/-- So does one whose ports or orientation do not fit its role. -/
theorem count_misplaced (encoded : tile.Encoded) (wrong : ¬ tile.InRole) (rest : List Tile)
    (seen found : Nat) : count (tile :: rest) seen found = .error .tileRole := by
  rw [count_encoded encoded, if_pos]
  unfold Tile.InRole at wrong
  rw [not_and_or, Classical.not_imp] at wrong
  exact wrong

/-- Any other tile is counted. -/
theorem count_admissible (admissible : tile.Admissible) (rest : List Tile) (seen found : Nat) :
    count (tile :: rest) seen found = count rest (seen + if tile.kind = .source then 1 else 0)
      (found + if tile.kind = .beacon then 1 else 0) := by
  rw [count_encoded admissible.encoded, if_neg]
  rw [not_or, not_not]
  exact ⟨admissible.inRole.1, fun turned => turned.2 (admissible.inRole.2 turned.1)⟩

/-- Admissible tiles are counted. -/
theorem count_append {front : List Tile} (admissible : ∀ tile ∈ front, tile.Admissible)
    (rest : List Tile) (seen found : Nat) :
    count (front ++ rest) seen found = count rest (seen + sources front) (found + beacons front) := by
  induction front generalizing seen found with
  | nil => rfl
  | cons tile front ih =>
      rw [List.cons_append, count_admissible (admissible tile List.mem_cons_self),
        ih fun other member => admissible other (List.mem_cons_of_mem _ member), sources_cons,
        beacons_cons]
      congr 1 <;> omega

/-- Admissible tiles are all counted. -/
theorem count_all (admissible : ∀ tile ∈ tiles, tile.Admissible) :
    count tiles 0 0 = .ok (sources tiles, beacons tiles) := by
  have counted := count_append admissible [] 0 0
  rw [List.append_nil, Nat.zero_add, Nat.zero_add] at counted
  exact counted

/-- Among the tiles there is a first one that is not admissible, or there is none. -/
theorem admissible_or_first (tiles : List Tile) : (∀ tile ∈ tiles, tile.Admissible) ∨
    ∃ front tile back, tiles = front ++ tile :: back ∧ (∀ tile ∈ front, tile.Admissible) ∧
      ¬ tile.Admissible := by
  induction tiles with
  | nil => exact Or.inl fun _ impossible => nomatch impossible
  | cons tile tiles ih =>
      by_cases admissible : tile.Admissible
      · rcases ih with all | ⟨front, first, back, split, before, wrong⟩
        · exact Or.inl (List.forall_mem_cons.mpr ⟨admissible, all⟩)
        · refine Or.inr ⟨tile :: front, first, back, ?_, ?_, wrong⟩
          · rw [split, List.cons_append]
          · exact List.forall_mem_cons.mpr ⟨admissible, before⟩
      · exact Or.inr ⟨[], tile, tiles, rfl, fun _ impossible => (nomatch impossible), admissible⟩

/-- Every board is playable or has a flaw. -/
theorem exists_verdict (initial : Initialization) : ∃ verdict, initial.Verdict verdict := by
  by_cases shaped : initial.Shaped
  · rcases admissible_or_first initial.tiles with all | ⟨front, tile, back, split, before, wrong⟩
    · by_cases ended : initial.Ended
      · by_cases connected : Connected initial.tiles Tile.ports
        · exact ⟨_, .playable ⟨shaped, all, ended, connected⟩⟩
        · exact ⟨_, .unsolvable shaped all ended connected⟩
      · exact ⟨_, .endpoints shaped all ended⟩
    · by_cases encoded : tile.Encoded
      · exact ⟨_, .tileRole shaped split before encoded fun inRole => wrong ⟨encoded, inRole⟩⟩
      · exact ⟨_, .tileEncoding shaped split before encoded⟩
  · exact ⟨_, .dimensions shaped⟩

/-- A board of the right shape passes the first check. -/
theorem Shaped.accepted (shaped : initial.Shaped) :
    ¬ (initial.width ≠ 5 ∨ initial.height ≠ 5 ∨ initial.tiles.length ≠ 25) := by
  rw [not_or, not_or, not_not, not_not, not_not]
  exact shaped

/-- The validation of a board with admissible tiles and its endpoints comes to its layout. -/
theorem validate_ended (shaped : initial.Shaped)
    (tiles : ∀ tile ∈ initial.tiles, tile.Admissible) (ended : initial.Ended) :
    (Connected initial.tiles Tile.ports → initial.validate = some (.ok ())) ∧
      (¬ Connected initial.tiles Tile.ports → initial.validate = some (.error .unsolvable)) := by
  obtain ⟨powered, runs, _, connects⟩ : ∃ powered,
      connectivity initial.tiles Tile.ports = some powered ∧ powered.length = 25 ∧
        (connectedBeacons initial.tiles powered = 4 ↔ Connected initial.tiles Tile.ports) :=
    connectivity_connects shaped.2.2 ended.1 ended.2
  rw [validate, if_neg shaped.accepted, count_all tiles]
  dsimp only
  rw [ended.1, ended.2, if_neg (by decide), runs, Option.bind_eq_bind, Option.bind_some, ← connects]
  exact ⟨fun four => if_neg (not_not.mpr four), fun wrong => if_pos wrong⟩

/-- The validation returns the verdict. -/
theorem Verdict.validate {verdict : Except InitializationError Unit}
    (holds : initial.Verdict verdict) : initial.validate = some verdict := by
  cases holds with
  | playable playable =>
      exact (validate_ended playable.shaped playable.tiles playable.ended).1 playable.connected
  | dimensions wrong =>
      apply if_pos
      unfold Shaped at wrong
      rw [not_and_or, not_and_or] at wrong
      exact wrong
  | tileEncoding shaped split before wrong =>
      rw [Initialization.validate, if_neg shaped.accepted, split, count_append before, count_malformed wrong]
  | tileRole shaped split before encoded wrong =>
      rw [Initialization.validate, if_neg shaped.accepted, split, count_append before, count_misplaced encoded wrong]
  | endpoints shaped tiles wrong =>
      rw [Initialization.validate, if_neg shaped.accepted, count_all tiles]
      apply if_pos
      unfold Ended at wrong
      rw [not_and_or] at wrong
      exact wrong
  | unsolvable shaped tiles ended wrong => exact (validate_ended shaped tiles ended).2 wrong

/-- What the validation reports holds. -/
theorem verdict_of_validate {verdict : Except InitializationError Unit}
    (reports : initial.validate = some verdict) : initial.Verdict verdict := by
  obtain ⟨other, holds⟩ := exists_verdict initial
  rw [holds.validate] at reports
  rw [← Option.some.inj reports]
  exact holds

/-- The validation of every board returns, and tells what is wrong with it: it accepts exactly the
playable boards. -/
theorem validate_decides (initial : Initialization) :
    (∃ verdict, initial.validate = some verdict) ∧
      ∀ verdict, initial.validate = some verdict ↔ initial.Verdict verdict := by
  obtain ⟨verdict, holds⟩ := exists_verdict initial
  exact ⟨⟨verdict, holds.validate⟩, fun _ => ⟨verdict_of_validate, fun holds => holds.validate⟩⟩

/-- The default puzzle is playable. -/
theorem playable_default : default.Playable := by
  have accepted : default.validate = some (.ok ()) := by decide +kernel
  cases verdict_of_validate accepted with
  | playable playable => exact playable

end Initialization

end Garden

end Synctick
