import Synctick.Foundation.Search
import Synctick.Garden.Tile

/-! # The power of a board

Power spreads from the source through ports that face each other. The traversal is a breadth-first
search with a queue of as many entries as the board has cells. On a board of 25 cells with a source
it never leaves the arrays, and powers exactly what the source is linked to.
-/

namespace Synctick

namespace Garden

open Relation

/-- What is around a cell: the port that leads there, the one that leads in, and the neighbor, if
the board does not end. -/
def neighbors (index : Nat) : List (UInt8 × UInt8 × Option Nat) :=
  [(north, south, if 5 ≤ index then some (index - 5) else none),
    (east, west, if index % 5 < 4 then some (index + 1) else none),
    (south, north, if index < 20 then some (index + 5) else none),
    (west, east, if index % 5 > 0 then some (index - 1) else none)]

/-- The arrays of the traversal: what is powered, and the entries of the queue up to its tail. -/
structure Traversal where
  powered : List Bool
  queue : List Nat

variable (tiles : List Tile) (ports : Tile → UInt8)

/-- Power a neighbor and enqueue it, if the ports face each other and it was not. An index beyond
an array is a panic. -/
def offer (outgoingPorts : UInt8) (traversal : Traversal) :
    UInt8 × UInt8 × Option Nat → Option Traversal
  | (_, _, none) => some traversal
  | (outgoing, incoming, some next) =>
      if outgoingPorts &&& outgoing = 0 then some traversal
      else do
        let tile ← tiles[next]?
        if ports tile &&& incoming = 0 then some traversal
        else do
          let on ← traversal.powered[next]?
          if on then some traversal
          else if traversal.queue.length < 25 then
            some { powered := traversal.powered.set next true, queue := traversal.queue ++ [next] }
          else none

/-- The loop over the queue from `head` to the tail; `room` is what the array has from `head`. -/
def traverse : Nat → Nat → Traversal → Option Traversal
  | room, head, traversal =>
    if head < traversal.queue.length then
      match room with
      | 0 => none
      | room + 1 => do
          let index ← traversal.queue[head]?
          let tile ← tiles[index]?
          let traversal ← (neighbors index).foldlM (offer tiles ports (ports tile)) traversal
          traverse room (head + 1) traversal
    else some traversal

/-- Traverse a validated board with some ports of its tiles. -/
def connectivity : Option (List Bool) := do
  let source ← tiles.findIdx? fun tile => tile.kind = .source
  if source < 25 then
    let traversal ← traverse tiles ports 25 0
      { powered := (List.replicate 25 false).set source true, queue := [source] }
    pure traversal.powered
  else none

/-- The powered beacons. -/
def connectedBeacons (powered : List Bool) : Nat :=
  ((tiles.zip powered).filter fun (tile, on) => tile.kind = .beacon && on).length

/-- Two cells are linked if they are neighbors and their ports face each other. -/
def Linked (cell next : Nat) : Prop :=
  ∃ outgoing incoming tile other, (outgoing, incoming, some next) ∈ neighbors cell ∧
    tiles[cell]? = some tile ∧ tiles[next]? = some other ∧
    ports tile &&& outgoing ≠ 0 ∧ ports other &&& incoming ≠ 0

variable {tiles : List Tile} {ports : Tile → UInt8} {cell next : Nat}

/-- The sides of a cell. -/
inductive Beside (cell : Nat) : UInt8 → UInt8 → Nat → Prop
  | north {next : Nat} (above : cell = next + 5) : Beside cell north south next
  | east {next : Nat} (inside : cell % 5 < 4) (after : next = cell + 1) : Beside cell east west next
  | south {next : Nat} (inside : cell < 20) (below : next = cell + 5) : Beside cell south north next
  | west {next : Nat} (inside : cell % 5 > 0) (before : cell = next + 1) :
      Beside cell west east next

theorem beside_iff {outgoing incoming : UInt8} :
    (outgoing, incoming, some next) ∈ neighbors cell ↔ Beside cell outgoing incoming next := by
  constructor
  · intro member
    unfold neighbors at member
    simp only [List.mem_cons, Prod.mk.injEq, List.not_mem_nil, or_false] at member
    rcases member with ⟨rfl, rfl, found⟩ | ⟨rfl, rfl, found⟩ | ⟨rfl, rfl, found⟩ | ⟨rfl, rfl, found⟩
    · obtain ⟨inside, same⟩ := Option.ite_none_right_eq_some.mp found.symm
      cases same
      exact .north (by omega)
    · obtain ⟨inside, same⟩ := Option.ite_none_right_eq_some.mp found.symm
      cases same
      exact .east inside rfl
    · obtain ⟨inside, same⟩ := Option.ite_none_right_eq_some.mp found.symm
      cases same
      exact .south inside rfl
    · obtain ⟨inside, same⟩ := Option.ite_none_right_eq_some.mp found.symm
      cases same
      exact .west inside (by omega)
  · intro beside
    unfold neighbors
    cases beside with
    | north above => simp [above]
    | east inside after => simp [inside, after]
    | south inside below => simp [inside, below]
    | west inside before =>
        rw [if_pos inside, before, Nat.add_sub_cancel]
        exact List.mem_of_getElem? (i := 3) rfl

/-- A neighbor is on the board. -/
theorem Beside.lt {outgoing incoming : UInt8} (beside : Beside cell outgoing incoming next)
    (within : cell < 25) : next < 25 := by
  cases beside <;> omega

/-- A neighbor is on one side. -/
theorem Beside.unique {outgoing incoming outgoing' incoming' : UInt8}
    (beside : Beside cell outgoing incoming next) (again : Beside cell outgoing' incoming' next) :
    outgoing' = outgoing ∧ incoming' = incoming := by
  cases beside <;> cases again <;> first | exact ⟨rfl, rfl⟩ | omega

/-- A neighbor has the cell on its other side. -/
theorem Beside.symm {outgoing incoming : UInt8} (beside : Beside cell outgoing incoming next)
    (within : cell < 25) : Beside next incoming outgoing cell := by
  cases beside with
  | north above => exact .south (by omega) above
  | east inside after => exact .west (by omega) after
  | south inside below => exact .north below
  | west inside before => exact .east (by omega) before

/-- Links go both ways. -/
theorem Linked.symm (linked : Linked tiles ports cell next) (within : cell < 25) :
    Linked tiles ports next cell := by
  obtain ⟨outgoing, incoming, tile, other, member, here, there, leads, faces⟩ := linked
  exact ⟨incoming, outgoing, other, tile,
    beside_iff.mpr ((beside_iff.mp member).symm within), there, here, faces, leads⟩

/-! ## The traversal is a search -/

/-- What the arrays hold once these cells were found. -/
structure Marks (traversal : Traversal) (found : List Nat) : Prop where
  queue : traversal.queue = found
  size : traversal.powered.length = 25
  powered : ∀ cell < 25, traversal.powered[cell]? = some (decide (cell ∈ found))
  within : ∀ cell ∈ found, cell < 25

variable {traversal : Traversal} {found visited waiting : List Nat} {source : Nat} {tile : Tile}
  {left : List (UInt8 × UInt8 × Option Nat)}

/-- A new cell is powered and enqueued. -/
theorem Marks.push (marks : Marks traversal found) (inside : next < 25) :
    Marks { powered := traversal.powered.set next true, queue := traversal.queue ++ [next] }
      (found ++ [next]) where
  queue := by rw [marks.queue]
  size := (List.length_set ..).trans marks.size
  powered cell within := by
    rw [List.getElem?_set]
    by_cases same : next = cell
    · subst same
      rw [if_pos rfl, if_pos (by rw [marks.size]; exact inside)]
      simp
    · rw [if_neg same, marks.powered cell within]
      simp [Ne.symm same]
  within cell member := by
    rcases List.mem_append.mp member with before | new
    · exact marks.within cell before
    · rw [List.mem_singleton.mp new]
      exact inside

/-- A search of the board finds no more cells than there are. -/
theorem Marks.length_le {edge : Nat → Nat → Prop} (marks : Marks traversal (visited ++ waiting))
    (searching : Searching edge source visited waiting) : (visited ++ waiting).length ≤ 25 := by
  rw [← Finset.card_range 25]
  exact searching.length_le fun cell member => Finset.mem_range.mpr (marks.within cell member)

/-- A search of the board that finds another cell had room for it. -/
theorem Marks.room {edge : Nat → Nat → Prop} (marks : Marks traversal (visited ++ cell :: waiting))
    (inside : next < 25) (searching : Searching edge source visited (cell :: (waiting ++ [next]))) :
    traversal.queue.length < 25 := by
  have grown : visited ++ cell :: (waiting ++ [next]) = (visited ++ cell :: waiting) ++ [next] := by
    rw [List.append_assoc, List.cons_append]
  have pushed := marks.push inside
  rw [← grown] at pushed
  have bound := pushed.length_le searching
  rw [grown, List.length_append, List.length_singleton] at bound
  rw [marks.queue]
  exact bound

/-- The neighbors that are on the board. -/
def targets (items : List (UInt8 × UInt8 × Option Nat)) : List Nat :=
  items.filterMap fun item => item.2.2

/-- A neighbor that is offered is found if it is linked. -/
theorem offer_finds (whole : tiles.length = 25) (here : tiles[cell]? = some tile)
    {item : UInt8 × UInt8 × Option Nat} (around : item ∈ neighbors cell)
    (marks : Marks traversal (visited ++ cell :: waiting))
    (visiting : Visiting (Linked tiles ports) source visited cell waiting
      (targets (item :: left))) :
    ∃ next waiting', offer tiles ports (ports tile) traversal item = some next ∧
      Marks next (visited ++ cell :: waiting') ∧
      Visiting (Linked tiles ports) source visited cell waiting' (targets left) := by
  have inside : cell < 25 :=
    marks.within cell (List.mem_append_right _ List.mem_cons_self)
  obtain ⟨outgoing, incoming, neighbor⟩ := item
  cases neighbor with
  | none => exact ⟨traversal, waiting, rfl, marks, visiting⟩
  | some next =>
      have beside := beside_iff.mp around
      have within := beside.lt inside
      obtain ⟨other, there⟩ : ∃ other, tiles[next]? = some other :=
        ⟨_, List.getElem?_eq_getElem (by rw [whole]; exact within)⟩
      -- A neighbor is on one side, so only these ports can link it.
      have ports_of_linked (linked : Linked tiles ports cell next) :
          ports tile &&& outgoing ≠ 0 ∧ ports other &&& incoming ≠ 0 := by
        obtain ⟨_, _, tile', other', member, here', there', leads, faces⟩ := linked
        obtain ⟨rfl, rfl⟩ := beside.unique (beside_iff.mp member)
        rw [here] at here'
        rw [there] at there'
        cases here'
        cases there'
        exact ⟨leads, faces⟩
      change Visiting (Linked tiles ports) source visited cell waiting (next :: targets left)
        at visiting
      unfold offer
      dsimp only
      by_cases closed : ports tile &&& outgoing = 0
      · rw [if_pos closed]
        exact ⟨traversal, waiting, rfl, marks,
          visiting.skip fun linked => absurd closed (ports_of_linked linked).1⟩
      rw [if_neg closed, there]
      by_cases turned : ports other &&& incoming = 0
      · refine ⟨traversal, waiting, ?_, marks,
          visiting.skip fun linked => absurd turned (ports_of_linked linked).2⟩
        exact if_pos turned
      have linked : Linked tiles ports cell next :=
        ⟨outgoing, incoming, tile, other, around, here, there, closed, turned⟩
      rw [Option.bind_eq_bind, Option.bind_some, if_neg turned, marks.powered next within,
        Option.bind_eq_bind, Option.bind_some]
      by_cases known : next ∈ visited ++ cell :: waiting
      · rw [decide_eq_true known]
        exact ⟨traversal, waiting, rfl, marks, visiting.skip fun _ => known⟩
      · have finds := visiting.find linked known
        rw [decide_eq_false known, if_neg Bool.false_ne_true,
          if_pos (marks.room within finds.toSearching)]
        refine ⟨_, waiting ++ [next], rfl, ?_, finds⟩
        have pushed := marks.push within
        rw [List.append_assoc, List.cons_append] at pushed
        exact pushed

/-- The visit of a cell finds all that it is linked to. -/
theorem foldlM_offer (whole : tiles.length = 25) (here : tiles[cell]? = some tile)
    (around : ∀ item ∈ left, item ∈ neighbors cell)
    (marks : Marks traversal (visited ++ cell :: waiting))
    (visiting : Visiting (Linked tiles ports) source visited cell waiting (targets left)) :
    ∃ next waiting', left.foldlM (offer tiles ports (ports tile)) traversal = some next ∧
      Marks next (visited ++ cell :: waiting') ∧
      Visiting (Linked tiles ports) source visited cell waiting' [] := by
  induction left generalizing traversal waiting with
  | nil => exact ⟨traversal, waiting, rfl, marks, visiting⟩
  | cons item left ih =>
      obtain ⟨next, waiting', offers, marked, visits⟩ :=
        offer_finds whole here (around item List.mem_cons_self) marks visiting
      obtain ⟨last, waiting'', runs, marks, visiting⟩ :=
        ih (fun other member => around other (List.mem_cons_of_mem _ member)) marked visits
      refine ⟨last, waiting'', ?_, marks, visiting⟩
      rw [List.foldlM_cons, offers]
      exact runs

/-- The loop visits all that is left, and stays within its arrays. -/
theorem traverse_completes (whole : tiles.length = 25) {room : Nat}
    (head : room + visited.length = 25) (marks : Marks traversal (visited ++ waiting))
    (searching : Searching (Linked tiles ports) source visited waiting) :
    ∃ last cells, traverse tiles ports room visited.length traversal = some last ∧
      Marks last cells ∧ Searching (Linked tiles ports) source cells [] := by
  have bound := marks.length_le searching
  induction room generalizing traversal visited waiting with
  | zero =>
      cases waiting with
      | nil =>
          rw [List.append_nil] at marks
          refine ⟨traversal, visited, ?_, marks, searching⟩
          unfold traverse
          rw [marks.queue, if_neg (Nat.lt_irrefl _)]
      | cons cell waiting =>
          rw [List.length_append, List.length_cons] at bound
          omega
  | succ room ih =>
      cases waiting with
      | nil =>
          rw [List.append_nil] at marks
          refine ⟨traversal, visited, ?_, marks, searching⟩
          unfold traverse
          rw [marks.queue, if_neg (Nat.lt_irrefl _)]
      | cons cell waiting =>
          have inside : cell < 25 :=
            marks.within cell (List.mem_append_right _ List.mem_cons_self)
          obtain ⟨tile, here⟩ : ∃ tile, tiles[cell]? = some tile :=
            ⟨_, List.getElem?_eq_getElem (by rw [whole]; exact inside)⟩
          have every : ∀ next, Linked tiles ports cell next → next ∈ targets (neighbors cell) := by
            rintro next ⟨outgoing, incoming, _, _, around, _⟩
            exact List.mem_filterMap.mpr ⟨_, around, rfl⟩
          obtain ⟨next, waiting', visits, marked, visiting⟩ := foldlM_offer whole here
            (fun _ member => member) marks (searching.enter every)
          have same : visited ++ cell :: waiting' = (visited ++ [cell]) ++ waiting' := by
            rw [List.append_assoc, List.singleton_append]
          have later : (visited ++ [cell]).length = visited.length + 1 := by
            rw [List.length_append, List.length_singleton]
          rw [same] at marked
          obtain ⟨last, cells, runs, marks', complete⟩ := ih (by rw [later]; omega) marked
            visiting.leave (marked.length_le visiting.leave)
          refine ⟨last, cells, ?_, marks', complete⟩
          have ahead : visited.length < traversal.queue.length := by
            rw [marks.queue, List.length_append, List.length_cons]
            omega
          have first : traversal.queue[visited.length]? = some cell := by
            rw [marks.queue, List.getElem?_append_right (Nat.le_refl _), Nat.sub_self]
            rfl
          unfold traverse
          rw [if_pos ahead]
          dsimp only
          rw [first, Option.bind_eq_bind, Option.bind_some, here, Option.bind_eq_bind,
            Option.bind_some, visits, Option.bind_eq_bind, Option.bind_some, ← later]
          exact runs

/-- On a board of 25 cells with a source, power is what the source is linked to, over any number of
cells. No index is beyond an array. -/
theorem connectivity_reaches (whole : tiles.length = 25)
    (first : tiles.findIdx? (fun tile => tile.kind = .source) = some source) :
    ∃ powered, connectivity tiles ports = some powered ∧ powered.length = 25 ∧
      ∀ cell < 25, powered[cell]? = some true ↔ ReflTransGen (Linked tiles ports) source cell := by
  have inside : source < 25 := by
    obtain ⟨within, _⟩ := List.findIdx?_eq_some_iff_getElem.mp first
    rw [← whole]
    exact within
  have marks : Marks { powered := (List.replicate 25 false).set source true, queue := [source] }
      ([] ++ [source]) := by
    have empty : Marks { powered := List.replicate 25 false, queue := [] } [] := by
      refine ⟨rfl, List.length_replicate, ?_, ?_⟩
      · intro cell within
        rw [List.getElem?_replicate, if_pos within]
        rfl
      · intro cell impossible
        cases impossible
    exact empty.push inside
  obtain ⟨last, cells, runs, marked, complete⟩ := traverse_completes whole (by rfl) marks
    (searching_source (Linked tiles ports) source)
  refine ⟨last.powered, ?_, marked.size, ?_⟩
  · unfold connectivity
    rw [first, Option.bind_eq_bind, Option.bind_some, if_pos inside]
    have runs : traverse tiles ports 25 0
        { powered := (List.replicate 25 false).set source true, queue := [source] } = some last :=
      runs
    rw [runs]
    rfl
  · intro cell within
    rw [marked.powered cell within, ← complete.complete, Option.some.injEq, decide_eq_true_eq]

/-- A path can be walked back. -/
theorem linked_back (whole : tiles.length = 25)
    (path : ReflTransGen (Linked tiles ports) cell next) :
    ReflTransGen (Linked tiles ports) next cell := by
  induction path with
  | refl => exact .refl
  | tail _ linked ih =>
      obtain ⟨_, _, _, _, _, here, _⟩ := id linked
      have within := (List.getElem?_eq_some_iff.mp here).1
      rw [whole] at within
      exact ih.head (linked.symm within)

/-- On every board of 25 cells with a source the traversal returns, without leaving its arrays, and
power is a whole component of the board: a cell has it exactly if the source is linked to it, and
then it is linked to the cells that have power, and to no others. -/
theorem connectivity_component (whole : tiles.length = 25)
    (first : tiles.findIdx? (fun tile => tile.kind = .source) = some source) :
    ∃ powered, connectivity tiles ports = some powered ∧ powered.length = 25 ∧
      (∀ cell < 25, powered[cell]? = some true ↔
        ReflTransGen (Linked tiles ports) source cell) ∧
      ∀ cell < 25, ∀ next < 25, powered[cell]? = some true →
        (powered[next]? = some true ↔ ReflTransGen (Linked tiles ports) cell next) := by
  obtain ⟨powered, runs, size, reaches⟩ := connectivity_reaches whole first
  refine ⟨powered, runs, size, reaches, ?_⟩
  intro cell inside next inside' lit
  have path := (reaches cell inside).mp lit
  rw [reaches next inside']
  exact ⟨fun other => (linked_back whole path).trans other, fun other => path.trans other⟩

/-- A board of wires from west to east: only the row of the source is powered. -/
theorem connectivity_component_rows :
    let tiles := List.replicate 12 (Tile.mk .wire 10 0) ++ ⟨.source, 10, 0⟩ ::
      List.replicate 12 ⟨.wire, 10, 0⟩
    ∃ powered, connectivity tiles Tile.connections = some powered ∧ powered.length = 25 ∧
      ∀ cell < 25, powered[cell]? = some true ↔
        ReflTransGen (Linked tiles Tile.connections) 12 cell := by
  intro tiles
  have whole : tiles.length = 25 := rfl
  have first : tiles.findIdx? (fun tile => tile.kind = .source) = some 12 := by decide
  obtain ⟨powered, runs, size, reaches, _⟩ :=
    @connectivity_component tiles Tile.connections 12 whole first
  exact ⟨powered, runs, size, reaches⟩

/-- The number of the beacons of a board. -/
def beacons (tiles : List Tile) : Nat := tiles.countP fun tile => tile.kind = .beacon

theorem connectedBeacons_le (tiles : List Tile) (powered : List Bool) :
    connectedBeacons tiles powered ≤ beacons tiles := by
  unfold connectedBeacons beacons
  rw [← List.countP_eq_length_filter]
  induction tiles generalizing powered with
  | nil => exact Nat.zero_le _
  | cons tile tiles ih =>
      cases powered with
      | nil => exact Nat.zero_le _
      | cons on powered =>
          rw [List.zip_cons_cons, List.countP_cons, List.countP_cons]
          apply Nat.add_le_add (ih powered)
          cases on with
          | false => simp
          | true => simp

/-- All beacons are connected if each of them is powered. -/
theorem connectedBeacons_eq_iff {tiles : List Tile} {powered : List Bool}
    (size : powered.length = tiles.length) : connectedBeacons tiles powered = beacons tiles ↔
      ∀ (cell : Nat) (tile : Tile), tiles[cell]? = some tile → tile.kind = .beacon →
        powered[cell]? = some true := by
  induction tiles generalizing powered with
  | nil =>
      cases powered with
      | nil => simp [connectedBeacons, beacons]
      | cons => cases size
  | cons tile tiles ih =>
      cases powered with
      | nil => cases size
      | cons on powered =>
          have rest := ih (Nat.succ.inj size)
          have below := connectedBeacons_le tiles powered
          have split : connectedBeacons (tile :: tiles) (on :: powered) =
              connectedBeacons tiles powered + if tile.kind = .beacon ∧ on = true then 1 else 0 := by
            unfold connectedBeacons
            rw [← List.countP_eq_length_filter, ← List.countP_eq_length_filter, List.zip_cons_cons,
              List.countP_cons]
            simp
          have counted : beacons (tile :: tiles) =
              beacons tiles + if tile.kind = .beacon then 1 else 0 := by
            unfold beacons
            rw [List.countP_cons]
            simp
          rw [split, counted]
          constructor
          · intro same cell other there role
            cases cell with
            | zero =>
                cases there
                rw [if_pos role] at same
                cases on with
                | false =>
                    rw [if_neg fun both => Bool.false_ne_true both.2] at same
                    omega
                | true => rfl
            | succ cell =>
                apply rest.mp _ cell other there role
                by_cases first : tile.kind = .beacon
                · rw [if_pos first] at same
                  split at same <;> omega
                · rw [if_neg first, if_neg fun both => first both.1] at same
                  exact same
          · intro all
            have later := rest.mpr fun cell other there role => all (cell + 1) other there role
            rw [later]
            by_cases first : tile.kind = .beacon
            · have lit := Option.some.inj (all 0 tile rfl first)
              rw [if_pos first, if_pos ⟨first, lit⟩]
            · rw [if_neg first, if_neg fun both => first both.1]

end Garden

end Synctick
