import TibiaGame.SpawnSearch
import TibiaGame.Library.BestFirst

/-!
# The shortest way of a creature

`TShortway` reads the waypoints of the visible fields and looks for a way from the destination
back to the creature. The steps that are queued lead along that way. A point without a length holds
`INT_MAX`, and a point is named by its coordinates.
-/

namespace TibiaGame.Shortway

open GameTypes FieldSearch
open TibiaGame.SpawnSearch (Offset span mem_span)
open Library.BestFirst

section Map

/-- The map as `FillMap` leaves it: a field that cannot be entered has the waypoints -1, and so has
the frame around the visible fields. -/
structure Grid where
  visibleX : Nat
  visibleY : Nat
  waypoints : Offset → Int
  costs : ∀ offset, waypoints offset = -1 ∨ 0 < waypoints offset
  frame : ∀ offset, visibleX < offset.1.natAbs ∨ visibleY < offset.2.natAbs →
    waypoints offset = -1

variable {cfg : GameConfig}

/-- The waypoints of a field; `bankWaypoints` is the attribute `WAYPOINTS`. -/
def fieldWaypoints (bankWaypoints : ObjectType cfg → Nat) (field : Field cfg) (movePossible : Bool) :
    Int :=
  match field.objects.head? with
  | none => -1
  | some thing =>
      if thing.objectType.getFlag .bank && !thing.objectType.getFlag .unpass then
        let waypoints : Int := bankWaypoints thing.objectType
        let waypoints := if waypoints == 0 then -1 else waypoints
        if !movePossible then -1 else waypoints
      else -1

theorem field_waypoints_cost (bankWaypoints : ObjectType cfg → Nat) (field : Field cfg)
    (movePossible : Bool) :
    fieldWaypoints bankWaypoints field movePossible = -1 ∨
      0 < fieldWaypoints bankWaypoints field movePossible := by
  unfold fieldWaypoints
  rcases field.objects.head? with _ | thing
  · exact Or.inl rfl
  simp only [beq_iff_eq]
  split_ifs
  · exact Or.inl rfl
  · exact Or.inl rfl
  · right
    omega
  · exact Or.inl rfl

def fillMap (map : GameMap cfg) (bankWaypoints : ObjectType cfg → Nat)
    (movePossible : Coordinate → Bool) (start : Coordinate) (visibleX visibleY : Nat) : Grid where
  visibleX := visibleX
  visibleY := visibleY
  waypoints offset :=
    if visibleX < offset.1.natAbs ∨ visibleY < offset.2.natAbs then -1
    else fieldWaypoints bankWaypoints (map (start.shift offset)) (movePossible (start.shift offset))
  costs offset := by
    split_ifs
    · exact Or.inl rfl
    · exact field_waypoints_cost bankWaypoints _ _
  frame offset outside := by
    rw [if_pos outside]

/-- The offsets of the visible fields in the order of the two loops. -/
def Grid.cells (grid : Grid) : List Offset :=
  (span grid.visibleX).flatMap fun x => (span grid.visibleY).map fun y => (x, y)

def Grid.minWaypoints (grid : Grid) : Int :=
  grid.cells.foldl (fun least offset =>
    if grid.waypoints offset > 0 ∧ grid.waypoints offset < least then grid.waypoints offset
    else least) 1000

end Map

/-- The neighbors of a field with the price of a step from it towards the destination. -/
def neighbors (offset : Offset) (waypoints : Int) : List (Offset × Int) :=
  [-1, 0, 1].flatMap fun x => [-1, 0, 1].filterMap fun y =>
    if x = 0 ∧ y = 0 then none
    else
      some ((offset.1 + x, offset.2 + y),
        if x ≠ 0 ∧ y ≠ 0 then waypoints + waypoints * 2 else waypoints)

/-- What `Expand` reads of the map. The search goes on from every field but the origin that can be
entered; the frame keeps the length -1 that the points begin with. -/
def Grid.problem (grid : Grid) : Problem Offset where
  next offset := neighbors offset (grid.waypoints offset)
  enter offset := grid.waypoints offset != -1
  least offset := grid.waypoints offset
  estimate offset :=
    grid.waypoints offset * 1 + grid.minWaypoints * ((offset.1.natAbs + offset.2.natAbs : Int) - 1)
  goal := (0, 0)
  wall offset := decide (grid.visibleX < offset.1.natAbs ∨ grid.visibleY < offset.2.natAbs)

def distance (left right : Offset) : Nat :=
  max (left.1 - right.1).natAbs (left.2 - right.2).natAbs

def walkBack (predecessor : Offset → Option Offset) (dest : Offset) (mustReach : Bool) :
    Nat → Offset → Int → Option (List Offset)
  | 0, _, _ => none
  | fuel + 1, node, maxSteps =>
      match predecessor node with
      | none => some []
      | some other =>
          if maxSteps > 0 ∧ (mustReach = true ∨ distance node dest > 1) then
            (walkBack predecessor dest mustReach fuel other (maxSteps - 1)).map (other :: ·)
          else some []

/-- The value that is returned, the `TDGo` entries that are added, and whether a node was missed in
the list of nodes to expand. -/
structure Outcome where
  result : Bool
  toDo : List Coordinate
  lost : Bool

def calculate (grid : Grid) (start : Coordinate) (destX destY : Int) (mustReach : Bool)
    (maxSteps : Int) (fuel : Nat) : Option Outcome :=
  let dest : Offset := (destX - start.x, destY - start.y)
  if dest.1 = 0 ∧ dest.2 = 0 then some ⟨true, [], false⟩
  else if dest.1.natAbs > grid.visibleX ∨ dest.2.natAbs > grid.visibleY then
    some ⟨false, [], false⟩
  else do
    let search ← run grid.problem fuel (first grid.problem dest)
    if (search.length (0, 0)).isNone then return ⟨false, [], search.lost⟩
    else
      let steps ← walkBack search.before dest mustReach fuel (0, 0) maxSteps
      return ⟨true, steps.map start.shift, search.lost⟩

section Costs

variable {grid : Grid} {offset other : Offset} {price : Int}

theorem mem_cells : offset ∈ grid.cells ↔
    offset.1.natAbs ≤ grid.visibleX ∧ offset.2.natAbs ≤ grid.visibleY := by
  rcases offset with ⟨x, y⟩
  simp only [Grid.cells, List.mem_flatMap, List.mem_map, Prod.mk.injEq, mem_span]
  constructor
  · intro listed
    rcases listed with ⟨first, wide, second, tall, equal⟩
    rw [← equal.1, ← equal.2]
    exact ⟨wide, tall⟩
  · intro inside
    exact ⟨x, inside.1, y, inside.2, rfl, rfl⟩

theorem min_walk (grid : Grid) (cells : List Offset) (least : Int) (positive : 0 < least) :
    let found := cells.foldl (fun least offset =>
      if grid.waypoints offset > 0 ∧ grid.waypoints offset < least then grid.waypoints offset
      else least) least
    0 < found ∧ found ≤ least ∧
      ∀ offset, offset ∈ cells → 0 < grid.waypoints offset → found ≤ grid.waypoints offset := by
  induction cells generalizing least with
  | nil =>
    refine ⟨positive, Int.le_refl least, ?_⟩
    nofun
  | cons first rest ih =>
    have smaller : 0 < (if grid.waypoints first > 0 ∧ grid.waypoints first < least then
        grid.waypoints first else least) := by
      split_ifs with lower
      · exact lower.1
      · exact positive
    have after := ih _ smaller
    rw [List.foldl_cons]
    refine ⟨after.1, ?_, ?_⟩
    · have bound := after.2.1
      split_ifs at bound ⊢ <;> omega
    intro offset member cost
    rcases List.mem_cons.mp member with same | later
    · have bound := after.2.1
      rw [same] at cost ⊢
      split_ifs at bound ⊢ <;> omega
    · exact after.2.2 offset later cost

theorem min_waypoints_bounds (grid : Grid) : 0 < grid.minWaypoints ∧
    ∀ offset, 0 < grid.waypoints offset → grid.minWaypoints ≤ grid.waypoints offset := by
  have walked := min_walk grid grid.cells 1000 (by decide)
  refine ⟨walked.1, ?_⟩
  intro offset cost
  apply walked.2.2 offset _ cost
  rw [mem_cells]
  by_contra outside
  have framed := grid.frame offset (by omega)
  omega

/-- To enter a field costs its waypoints, and three times that on a diagonal step. -/
def stepCost (grid : Grid) (offset other : Offset) : Int :=
  if other.1 = offset.1 ∨ other.2 = offset.2 then grid.waypoints other
  else 3 * grid.waypoints other

def Beside (offset other : Offset) : Prop := distance offset other = 1

def Visible (grid : Grid) (offset : Offset) : Prop :=
  offset.1.natAbs ≤ grid.visibleX ∧ offset.2.natAbs ≤ grid.visibleY

/-- A route to the destination: the fields that are entered on it, and its cost. -/
inductive Route (grid : Grid) (dest : Offset) : Offset → List Offset → Int → Prop where
  | arrived : Route grid dest dest [] 0
  | step {offset other : Offset} {path : List Offset} {cost : Int} :
      Route grid dest other path cost → grid.waypoints other ≠ -1 → Beside offset other →
      Visible grid offset → Route grid dest offset (other :: path) (cost + stepCost grid offset other)

theorem passable_iff : grid.problem.enter offset = true ↔ 0 < grid.waypoints offset := by
  have cost := grid.costs offset
  rw [Grid.problem, bne_iff_ne]
  omega

theorem mem_neighbors {waypoints : Int} : (other, price) ∈ neighbors offset waypoints ↔
    distance other offset = 1 ∧
      price = if offset.1 = other.1 ∨ offset.2 = other.2 then waypoints else 3 * waypoints := by
  rcases offset with ⟨x, y⟩
  rcases other with ⟨otherX, otherY⟩
  simp only [neighbors, distance, List.mem_flatMap, List.mem_filterMap, Option.ite_none_left_eq_some,
    Option.some.injEq, Prod.mk.injEq, List.mem_cons, List.not_mem_nil, or_false]
  constructor
  · intro listed
    rcases listed with ⟨dx, columns, dy, rows, moved, ⟨sameX, sameY⟩, equal⟩
    split_ifs at equal ⊢ <;> omega
  intro near
  refine ⟨otherX - x, by omega, otherY - y, by omega, by omega, ⟨by omega, by omega⟩, ?_⟩
  rw [near.2]
  split_ifs <;> omega

theorem way_iff_route {dest : Offset} {path : List Offset} {cost : Int} :
    Way grid.problem dest offset path cost ↔ Route grid dest offset path cost := by
  constructor
  · intro way
    induction way with
    | here => exact Route.arrived
    | @step node target path cost price _ enter edge wall ih =>
      rcases mem_neighbors.mp edge with ⟨near, priced⟩
      have inside : Visible grid target := by
        have framed := of_decide_eq_false wall
        exact ⟨by omega, by omega⟩
      rw [priced]
      exact Route.step ih (bne_iff_ne.mp enter) near inside
  intro route
  induction route with
  | arrived => exact Way.here
  | @step target node path cost _ enter near inside ih =>
    apply Way.step ih (bne_iff_ne.mpr enter)
    · exact mem_neighbors.mpr ⟨near, rfl⟩
    · apply decide_eq_false
      unfold Visible at inside
      omega

def mostCost (grid : Grid) (offset : Offset) : Int := 3 * (grid.waypoints offset).natAbs

/-- The estimate counts a straight step from the field itself and the smallest waypoints for the
rest of the Manhattan distance. It falls by no more than the price of a step, since a diagonal step
costs three times the waypoints but makes up for two straight ones. -/
theorem estimate_consistent (grid : Grid) : Consistent grid.problem (mostCost grid) := by
  have least := min_waypoints_bounds grid
  apply Consistent.mk
  · intro node enter
    have cost := passable_iff.mp enter
    refine ⟨cost, ?_⟩
    unfold mostCost
    change grid.waypoints node ≤ _
    omega
  · intro node target price enter edge
    have cost := passable_iff.mp enter
    have priced := (mem_neighbors.mp edge).2
    unfold mostCost
    change grid.waypoints node ≤ price ∧ _
    split_ifs at priced <;> omega
  · intro node target price enter edge target_enter _
    rcases mem_neighbors.mp edge with ⟨near, priced⟩
    have cost := least.2 node (passable_iff.mp enter)
    have other := least.2 target (passable_iff.mp target_enter)
    unfold distance at near
    change grid.waypoints node * 1 + grid.minWaypoints * ((node.1.natAbs + node.2.natAbs : Int) - 1) ≤
      price + (grid.waypoints target * 1 +
        grid.minWaypoints * ((target.1.natAbs + target.2.natAbs : Int) - 1))
    have split : ∀ steps : Int,
        (node.1.natAbs + node.2.natAbs : Int) ≤ target.1.natAbs + target.2.natAbs + steps →
        grid.minWaypoints * ((node.1.natAbs + node.2.natAbs : Int) - 1) ≤
          grid.minWaypoints * ((target.1.natAbs + target.2.natAbs : Int) - 1) +
            grid.minWaypoints * steps := by
      intro steps close
      rw [← Int.mul_add]
      apply Int.mul_le_mul_of_nonneg_left _ (Int.le_of_lt least.1)
      omega
    split_ifs at priced with straight
    · have bound := split 1 (by omega)
      omega
    · have bound := split 2 (by omega)
      omega
  · intro node enter
    have cost := passable_iff.mp enter
    apply decide_eq_false
    intro outside
    have framed := grid.frame node outside
    omega

end Costs

section Results

variable {grid : Grid} {dest offset : Offset} {path : List Offset} {cost : Int}

structure Shortest (grid : Grid) (dest : Offset) (path : List Offset) (cost : Int) : Prop where
  route : Route grid dest (0, 0) path cost
  least : ∀ other otherCost, Route grid dest (0, 0) other otherCost → cost ≤ otherCost

/-- The steps are the beginning of a path. They stop before its end only when there are as many as
allowed, or next to a destination that need not be reached. -/
structure Follows (dest : Offset) (mustReach : Bool) (maxSteps : Int) (from_offset : Offset)
    (path steps : List Offset) : Prop where
  along : steps <+: path
  few : (steps.length : Int) ≤ max maxSteps 0
  stops : steps ≠ path → (steps.length : Int) = max maxSteps 0 ∨
    mustReach = false ∧ distance (steps.getLastD from_offset) dest ≤ 1

/-- What `Calculate` does: it returns whether there is a route, no node is missed in the list, and
the steps that are queued follow a shortest route. -/
structure Calculated (grid : Grid) (start : Coordinate) (dest : Offset) (mustReach : Bool)
    (maxSteps : Int) (outcome : Outcome) : Prop where
  listed : outcome.lost = false
  connected : outcome.result = true ↔ ∃ path cost, Route grid dest (0, 0) path cost
  nothing : outcome.result = false → outcome.toDo = []
  shortest : outcome.result = true → ∃ path cost steps, Shortest grid dest path cost ∧
    Follows dest mustReach maxSteps (0, 0) path steps ∧ outcome.toDo = steps.map start.shift

theorem way_cost_length (way : Way grid.problem dest offset path cost) :
    (path.length : Int) ≤ cost := by
  induction way with
  | here => exact Int.le_refl 0
  | @step node target path cost price _ enter edge _ ih =>
    have consistent := estimate_consistent grid
    have positive := (consistent.positive node enter).1
    have priced := (consistent.priced node target price enter edge).1
    rw [List.length_cons]
    omega

theorem walk_back_follows (dest : Offset) {predecessor : Offset → Option Offset}
    {mustReach : Bool} {fuel : Nat} {maxSteps : Int} (trail : Trail predecessor offset path)
    (enough : path.length < fuel) :
    ∃ steps, walkBack predecessor dest mustReach fuel offset maxSteps = some steps ∧
      Follows dest mustReach maxSteps offset path steps := by
  induction trail generalizing fuel maxSteps with
  | last ends =>
    rcases fuel with _ | fuel
    · omega
    refine ⟨[], by rw [walkBack, ends], List.nil_prefix, ?_, ?_⟩
    · exact le_max_right maxSteps 0
    · intro different
      exact absurd rfl different
  | @step node other path link _ ih =>
    rcases fuel with _ | fuel
    · omega
    rw [walkBack, link]
    simp only
    rw [List.length_cons] at enough
    by_cases further : maxSteps > 0 ∧ (mustReach = true ∨ distance node dest > 1)
    · rcases @ih fuel (maxSteps - 1) (by omega) with ⟨steps, walked, follows⟩
      have few := follows.few
      refine ⟨other :: steps, by rw [if_pos further, walked]; rfl, ?_, ?_, ?_⟩
      · exact List.cons_prefix_cons.mpr ⟨rfl, follows.along⟩
      · rw [List.length_cons]
        omega
      · intro different
        have rest : steps ≠ path := by
          intro same
          exact different (by rw [same])
        rw [List.getLastD_cons, List.length_cons]
        apply (follows.stops rest).imp_left
        intro full
        omega
    refine ⟨[], by rw [if_neg further], List.nil_prefix, ?_, ?_⟩
    · exact le_max_right maxSteps 0
    intro _
    by_cases steps : maxSteps > 0
    · right
      have stopped := not_or.mp (not_and.mp further steps)
      exact ⟨Bool.eq_false_of_not_eq_true stopped.1, Nat.le_of_not_lt stopped.2⟩
    left
    rw [max_eq_right (by omega)]
    rfl

/-- The fuel that is enough: for each field to be expanded once, and for the way back. -/
def enoughFuel (grid : Grid) : Nat :=
  grid.cells.toFinset.card + (∑ offset ∈ grid.cells.toFinset, mostCost grid offset).toNat

theorem passable_cell (enter : grid.problem.enter offset = true) : offset ∈ grid.cells.toFinset := by
  have outside := (estimate_consistent grid).outside offset enter
  have framed := of_decide_eq_false outside
  rw [List.mem_toFinset, mem_cells]
  exact ⟨by omega, by omega⟩

/-- No length comes near `INT_MAX` unless three times the waypoints of all visible fields do. -/
theorem length_bounded {closed : Finset Offset} {search : Search Offset} {value : Int}
    (explored : Explored grid.problem (mostCost grid) dest closed search)
    (part : closed ⊆ grid.cells.toFinset) (inside : grid.problem.wall offset = false)
    (known : search.length offset = some value) :
    value ≤ ∑ other ∈ grid.cells.toFinset, mostCost grid other := by
  have paid := (explored.measured.bounded offset value inside known).2
  apply paid.trans
  apply Finset.sum_le_sum_of_subset_of_nonneg part
  intro other _ _
  unfold mostCost
  omega

theorem search_calculated {fuel : Nat} (mustReach : Bool) (maxSteps : Int)
    (away : dest ≠ (0, 0)) (passable : grid.waypoints dest ≠ -1) (enough : enoughFuel grid < fuel) :
    ∃ search, run grid.problem fuel (first grid.problem dest) = some search ∧
      search.lost = false ∧
      (search.length (0, 0) = none → ¬ ∃ path cost, Route grid dest (0, 0) path cost) ∧
      (∀ value, search.length (0, 0) = some value → ∃ path steps,
        walkBack search.before dest mustReach fuel (0, 0) maxSteps = some steps ∧
          Shortest grid dest path value ∧ Follows dest mustReach maxSteps (0, 0) path steps) := by
  have consistent := estimate_consistent grid
  have listed : grid.problem.listed dest = true :=
    listed_iff.mpr ⟨away, bne_iff_ne.mpr passable⟩
  unfold enoughFuel at enough
  have room : grid.cells.toFinset.card < fuel + (∅ : Finset Offset).card := by
    omega
  rcases run_returns consistent (fun _ enter => passable_cell enter)
    (first_explored consistent listed) (Finset.empty_subset grid.cells.toFinset) room with
    ⟨search, all, returns, ended, part, explored⟩
  have inside : grid.problem.wall (0, 0) = false := by
    simp only [Grid.problem, Int.natAbs_zero, Nat.not_lt_zero, or_self, decide_false]
  have bound : ∀ other otherCost, Route grid dest (0, 0) other otherCost →
      ∃ value, value ≤ otherCost ∧ search.length (0, 0) = some value := by
    intro other otherCost route
    rcases way_reached consistent explored ended (way_iff_route.mpr route) with reached | reached
    all_goals exact reached
  refine ⟨search, returns, explored.queued.found, ?_, ?_⟩
  · intro missing connected
    rcases connected with ⟨other, otherCost, route⟩
    rcases bound other otherCost route with ⟨value, _, known⟩
    rw [missing] at known
    cases known
  intro value known
  rcases reached_way consistent explored inside known with ⟨path, trail, way⟩
  have short : path.length < fuel := by
    have few := way_cost_length way
    have paid := length_bounded explored part inside known
    omega
  rcases walk_back_follows dest trail short with ⟨steps, walked, follows⟩
  refine ⟨path, steps, walked, ⟨way_iff_route.mp way, ?_⟩, follows⟩
  intro other otherCost route
  rcases bound other otherCost route with ⟨least, low, there⟩
  rw [known] at there
  cases there
  exact low

def square : Grid where
  visibleX := 1
  visibleY := 1
  waypoints offset := if 1 < offset.1.natAbs ∨ 1 < offset.2.natAbs then -1 else 100
  costs offset := by
    split_ifs
    · exact Or.inl rfl
    · right
      decide
  frame offset outside := by
    rw [if_pos outside]

end Results

end TibiaGame.Shortway
