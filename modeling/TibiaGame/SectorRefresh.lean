import TibiaGame.AnnounceSearch

/-!
# Sectors that are refreshed

`sector_refreshable` of `operate.cpp` searches a rectangle around the middle of a sector for
players who can see its floor. What a client shows is another rectangle, and lies askew: each
floor between shifts it by a field.
-/

namespace TibiaGame.SectorRefresh

open ViewWindow ViewUpdates CreatureChains
  TibiaGame.CreatureSearch TibiaGame.AnnounceSearch

def canSeeFloor (position : Position) (floorZ : Int) : Bool :=
  if position.z ≤ 7 then decide (floorZ ≤ 7) else decide (|position.z - floorZ| ≤ 2)

def getPlayer (world : World) (characterID : UInt32) : Option Creature :=
  (getCreature world characterID).filter fun creature => creature.type == .player

/-- The search of `sector_refreshable`; a sector has its coordinates in sectors. -/
def sectorSearch (sector : Position) : Search :=
  initSearch 31 31 (sector.x * 32 + 16) (sector.y * 32 + 16) findPlayers

/-- The loop of `sector_refreshable`; the turns are those of each call of `getNext`. -/
def refreshLoop (bounds : Bounds) (world : World) (sectorZ : Int) (turns : Nat) :
    Nat → Search → Option Bool
  | 0, _ => none
  | calls + 1, search =>
      match getNext bounds world turns search with
      | none => none
      | some (characterID, after) =>
          if characterID = 0 then some true
          else
            match getPlayer world characterID with
            | none => refreshLoop bounds world sectorZ turns calls after
            | some player =>
                if canSeeFloor player.position sectorZ then some false
                else refreshLoop bounds world sectorZ turns calls after

def sectorRefreshable (bounds : Bounds) (world : World) (sector : Position) (turns calls : Nat) :
    Option Bool :=
  refreshLoop bounds world sector.z turns calls (sectorSearch sector)

theorem can_see_floor_iff {position : Position} {floorZ : Int} :
    canSeeFloor position floorZ = true ↔
      position.z ≤ 7 ∧ floorZ ≤ 7 ∨
        7 < position.z ∧ position.z - 2 ≤ floorZ ∧ floorZ ≤ position.z + 2 := by
  unfold canSeeFloor
  split_ifs with surface
  · rw [decide_eq_true_eq]
    omega
  · rw [decide_eq_true_eq, abs_le]
    omega

section Loop

variable {bounds : Bounds} {world : World} {search : Search} {found : List UInt32}

def seesFloor (world : World) (sectorZ : Int) (characterID : UInt32) : Bool :=
  (getPlayer world characterID).any fun player => canSeeFloor player.position sectorZ

theorem loop_answers (sectorZ : Int) (yields : Yields bounds world search found) :
    ∃ least, ∀ turns calls, least ≤ turns → least ≤ calls →
      refreshLoop bounds world sectorZ turns calls search =
        some (!found.any (seesFloor world sectorZ)) := by
  induction yields with
  | done turns returned finished =>
    refine ⟨turns + 1, ?_⟩
    intro more calls enough some_calls
    rcases calls with _ | calls
    · omega
    have again := get_next_more returned (more - turns)
    rw [Nat.add_sub_cancel' (by omega)] at again
    simp only [refreshLoop, again, if_true, List.any_nil, Bool.not_false]
  | @next search after creatureID found turns returned nonzero later induction =>
    rcases induction with ⟨least, answers⟩
    refine ⟨max (turns + 1) (least + 1), ?_⟩
    intro more calls enough some_calls
    rcases calls with _ | calls
    · omega
    have again := get_next_more returned (more - turns)
    rw [Nat.add_sub_cancel' (by omega)] at again
    have rest := answers more calls (by omega) (by omega)
    simp only [refreshLoop, again, if_neg nonzero, List.any_cons]
    rcases known : getPlayer world creatureID with _ | player
    · have unseen : seesFloor world sectorZ creatureID = false := by
        simp only [seesFloor, known, Option.any_none]
      simp only [unseen, Bool.false_or]
      exact rest
    have sees : seesFloor world sectorZ creatureID =
        canSeeFloor player.position sectorZ := by
      simp only [seesFloor, known, Option.any_some]
    simp only [sees]
    cases canSeeFloor player.position sectorZ with
    | true => rfl
    | false =>
      simp only [Bool.false_eq_true, if_false, Bool.false_or]
      exact rest

end Loop

section Views

variable {bounds : Bounds} {world : World} {members : Int × Int → List UInt32}
  {sector field : Position} {characterID : UInt32}

def Contains (sector field : Position) : Prop :=
  (sector.x * 32 ≤ field.x ∧ field.x ≤ sector.x * 32 + 31) ∧
    (sector.y * 32 ≤ field.y ∧ field.y ≤ sector.y * 32 + 31) ∧ field.z = sector.z

def Visible (world : World) (sector : Position) : Prop :=
  ∃ characterID field, Contains sector field ∧ Sees world characterID field

/-- A player in the rectangle of the search, on a floor from which that of the sector is seen. -/
def Noticed (world : World) (sector : Position) : Prop :=
  ∃ characterID, Wanted world (sectorSearch sector) characterID ∧
    seesFloor world sector.z characterID = true

/-- A player at sea level in the column before the rectangle, and the sector seven floors above. -/
def AtTheEdge (world : World) (sector : Position) : Prop :=
  sector.z = 0 ∧ ∃ characterID player, world.onMap characterID = true ∧
    world.creatures characterID = some player ∧ player.type = .player ∧
    player.position.x = sector.x * 32 - 16 ∧
    (sector.y * 32 - 14 ≤ player.position.y ∧ player.position.y ≤ sector.y * 32 + 30) ∧
    player.position.z = 7

theorem refreshable_iff (chained : Chained bounds world members) (sector : Position) :
    ∃ least, ∀ turns calls, least ≤ turns → least ≤ calls → ∃ refreshable,
      sectorRefreshable bounds world sector turns calls = some refreshable ∧
      (refreshable = false ↔ Noticed world sector) := by
  rcases search_exact chained 31 31 (sector.x * 32 + 16) (sector.y * 32 + 16) 0 findPlayers with
    ⟨found, yields, _, exactly⟩
  rcases loop_answers sector.z yields with ⟨least, answers⟩
  refine ⟨least, ?_⟩
  intro turns calls enough some_calls
  refine ⟨_, answers turns calls enough some_calls, ?_⟩
  rw [Bool.not_eq_false', List.any_eq_true]
  constructor
  · intro noticed
    rcases noticed with ⟨characterID, inside, sees⟩
    exact ⟨characterID, (exactly characterID).mp inside, sees⟩
  · intro noticed
    rcases noticed with ⟨characterID, wanted, sees⟩
    exact ⟨characterID, (exactly characterID).mpr wanted, sees⟩

/-- Who sees a field of the sector is in the rectangle, but for one column. -/
theorem viewer_placed {player : Position} (contains : Contains sector field)
    (visible : isVisible joined player field = true) (onMap : OnMap player)
    (onFloor : 0 ≤ sector.z) :
    canSeeFloor player sector.z = true ∧
      (sector.y * 32 - 15 ≤ player.y ∧ player.y ≤ sector.y * 32 + 47) ∧
      (sector.x * 32 - 15 ≤ player.x ∧ player.x ≤ sector.x * 32 + 47 ∨
        player.x = sector.x * 32 - 16 ∧ player.z = 7 ∧ sector.z = 0 ∧
          sector.y * 32 - 14 ≤ player.y ∧ player.y ≤ sector.y * 32 + 30) := by
  rw [is_visible_iff] at visible
  simp only [OnMap, joined, Contains] at visible onMap contains
  refine ⟨?_, by omega, by omega⟩
  rw [can_see_floor_iff]
  omega

theorem get_player_known (nobody : world.creatures 0 = none) {player : Creature}
    (known : world.creatures characterID = some player) (isPlayer : player.type = .player) :
    getPlayer world characterID = some player := by
  rw [getPlayer, get_creature_eq nobody, known]
  simp only [Option.filter_some, isPlayer, beq_self_eq_true, if_true]

theorem sees_floor_of_known (nobody : world.creatures 0 = none) {player : Creature}
    (known : world.creatures characterID = some player) (isPlayer : player.type = .player) :
    seesFloor world sector.z characterID = canSeeFloor player.position sector.z := by
  rw [seesFloor, get_player_known nobody known isPlayer]
  rfl

theorem visible_noticed (nobody : world.creatures 0 = none) (onFloor : 0 ≤ sector.z)
    (visible : Visible world sector) : Noticed world sector ∨ AtTheEdge world sector := by
  rcases visible with ⟨characterID, field, contains, on, player, known, isPlayer, onMap, shown⟩
  have placed := viewer_placed contains shown onMap onFloor
  rcases placed.2.2 with column | edge
  · left
    refine ⟨characterID, ⟨on, player, known, ?_, ?_, ?_, ?_⟩, ?_⟩
    · simp only [sectorSearch, initSearch]
      omega
    · simp only [sectorSearch, initSearch]
      omega
    · have players : (sectorSearch sector).mask = findPlayers := rfl
      rw [players, isPlayer]
      decide
    · intro zero
      have none_there : characterID = 0 := zero
      rw [none_there, nobody] at known
      cases known
    · rw [sees_floor_of_known nobody known isPlayer]
      exact placed.1
  right
  exact ⟨edge.2.2.1, characterID, player, on, known, isPlayer, edge.1, edge.2.2.2, edge.2.1⟩

/-- A player at the edge sees the last column that its client shows. -/
theorem edge_visible (edge : AtTheEdge world sector) : Visible world sector := by
  rcases edge with ⟨top, characterID, player, on, known, isPlayer, column, row, seaLevel⟩
  refine ⟨characterID, ⟨sector.x * 32, max (sector.y * 32) (player.position.y + 1), sector.z⟩, ?_,
    on, player, known, isPlayer, ?_, ?_⟩
  · simp only [Contains, and_true]
    omega
  · simp only [OnMap]
    omega
  · rw [is_visible_iff]
    simp only [joined]
    omega

/-- A sector that is shown is not refreshed, unless nobody is noticed and a player stands in the
one column from which the search is too narrow. -/
theorem visible_sector_refused_iff (chained : Chained bounds world members) (sector : Place) :
    ∃ least, ∀ turns calls, least ≤ turns → least ≤ calls → ∃ refreshable,
      sectorRefreshable bounds world sector.toPosition turns calls = some refreshable ∧
      ((Visible world sector.toPosition → refreshable = false) ↔
        (AtTheEdge world sector.toPosition → Noticed world sector.toPosition)) := by
  rcases refreshable_iff chained sector.toPosition with ⟨least, answers⟩
  refine ⟨least, ?_⟩
  intro turns calls enough some_calls
  rcases answers turns calls enough some_calls with ⟨refreshable, returned, refused⟩
  refine ⟨refreshable, returned, ?_⟩
  rw [refused]
  constructor
  · intro safe edge
    exact safe (edge_visible edge)
  · intro safe visible
    rcases visible_noticed chained.nobody sector.floor.1 visible with noticed | edge
    · exact noticed
    · exact safe edge

end Views

def lookout : Creature := playerAt 16 40

def lookoutArrival : World :=
  { emptyMap with creatures := Function.update emptyMap.creatures 1 (some lookout) }

def lookoutMap : World := insertedWorld lookoutArrival 1 lookout lookout.block

theorem lookout_chained : ∃ members, Chained smallMatrix lookoutMap members := by
  have arrived : Chained smallMatrix lookoutArrival fun _ => [] := by
    apply off_map_chained (empty_chained smallMatrix) rfl
    intro zero
    exact absurd zero (by decide)
  have known : lookoutArrival.creatures 1 = some lookout := rfl
  exact ⟨_, inserted_chained arrived known rfl (by decide)⟩

def highSector : Place := ⟨⟨1, 1, 0⟩, by decide⟩

def otherSector : Place := ⟨⟨0, 1, 0⟩, by decide⟩

theorem lookout_refuses : ∃ least, ∀ turns calls, least ≤ turns → least ≤ calls → ∃ refreshable,
    sectorRefreshable smallMatrix lookoutMap otherSector.toPosition turns calls =
      some refreshable ∧
    ((Visible lookoutMap otherSector.toPosition → refreshable = false) ↔
      (AtTheEdge lookoutMap otherSector.toPosition →
        Noticed lookoutMap otherSector.toPosition)) := by
  rcases lookout_chained with ⟨members, chained⟩
  exact visible_sector_refused_iff chained otherSector

/-- The sector is on the client's screen, and is refreshed. -/
theorem lookout_is_overlooked :
    Visible lookoutMap highSector.toPosition ∧
      sectorRefreshable smallMatrix lookoutMap highSector.toPosition 40 3 = some true := by
  refine ⟨?_, by decide +kernel⟩
  exact ⟨1, ⟨32, 41, 0⟩, by unfold Contains; decide, rfl, _, rfl, rfl, ⟨by decide, by decide⟩,
    by decide⟩

end TibiaGame.SectorRefresh
