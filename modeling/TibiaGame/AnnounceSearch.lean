import TibiaGame.CreatureSearch

/-!
# Who is told of a change

Every change on the map is announced by a search for the players around it:
`announce_changed_field`, `announce_graphical_effect`, `announce_moving_creature` and
`announce_missile`. The search knows no floors, while a player on another floor sees a
window that is shifted by the floors between.
-/

namespace TibiaGame.AnnounceSearch

open ViewWindow ViewUpdates CreatureChains
  TibiaGame.CreatureSearch

def findPlayers : UInt32 := 0x01

/-- The search of `announce_changed_field`. -/
def changedFieldSearch (field : Position) : Search := initSearch 16 14 field.x field.y findPlayers

def graphicalEffectSearch (field : Position) : Search :=
  initSearch 16 14 field.x field.y findPlayers

/-- The search between two fields, around the one in the middle. -/
def midwaySearch (orig dest : Position) : Search :=
  initSearch (16 + |orig.x - dest.x|.tdiv 2 + 1) (14 + |orig.y - dest.y|.tdiv 2 + 1)
    ((orig.x + dest.x).tdiv 2) ((orig.y + dest.y).tdiv 2) findPlayers

def movingCreatureSearch (creature con : Position) : Search := midwaySearch creature con

def missileSearch (orig dest : Position) : Search := midwaySearch orig dest

def Sees (world : World) (characterID : UInt32) (field : Position) : Prop :=
  world.onMap characterID = true ∧ ∃ player, world.creatures characterID = some player ∧
    player.type = .player ∧ OnMap player.position ∧
    isVisible joined player.position field = true

/-- The search ends, and has returned everyone who sees one of the fields. -/
def Reaches (bounds : Bounds) (world : World) (search : Search) (fields : List Position) : Prop :=
  ∃ found, Yields bounds world search found ∧
    ∀ field ∈ fields, ∀ characterID, Sees world characterID field → characterID ∈ found

variable {bounds : Bounds} {world : World} {members : Int × Int → List UInt32}
  {player field : Position} {characterID : UInt32}

/-- No floor of the map shifts the window of a player out of the search. -/
theorem viewer_near (visible : isVisible joined player field = true) (onMap : OnMap player)
    (onFloor : OnMap field) :
    (field.x - 16 ≤ player.x ∧ player.x ≤ field.x + 16) ∧
      (field.y - 14 ≤ player.y ∧ player.y ≤ field.y + 14) := by
  rw [is_visible_iff] at visible
  simp only [OnMap, joined] at visible onMap onFloor
  omega

theorem half_near (value : Int) : value - 1 ≤ 2 * value.tdiv 2 ∧ 2 * value.tdiv 2 ≤ value + 1 := by
  have split := Int.mul_tdiv_add_tmod value 2
  have above := Int.tmod_lt_of_pos value (by decide : (0 : Int) < 2)
  have below := Int.lt_tmod_of_pos value (by decide : (0 : Int) < 2)
  omega

/-- What is that near to one end is in the rectangle around the middle. -/
theorem near_midway {here there value radius : Int}
    (near : here - radius ≤ value ∧ value ≤ here + radius) :
    (here + there).tdiv 2 - (radius + |here - there|.tdiv 2 + 1) ≤ value ∧
      value ≤ (here + there).tdiv 2 + (radius + |here - there|.tdiv 2 + 1) := by
  have middle := half_near (here + there)
  have apart := half_near |here - there|
  have ahead := le_abs_self (here - there)
  have behind := neg_abs_le (here - there)
  omega

theorem midway_swap (orig dest : Position) : midwaySearch orig dest = midwaySearch dest orig := by
  rw [midwaySearch, midwaySearch, abs_sub_comm orig.x, abs_sub_comm orig.y, Int.add_comm orig.x,
    Int.add_comm orig.y]

theorem sees_wanted {search : Search} (sees : Sees world characterID field)
    (anyone : search.skipID = 0) (players : search.mask = findPlayers)
    (nobody : world.creatures 0 = none)
    (inside : ∀ player : Position, isVisible joined player field = true → OnMap player →
      (search.startx ≤ player.x ∧ player.x ≤ search.endx) ∧
        (search.starty ≤ player.y ∧ player.y ≤ search.endy)) : Wanted world search characterID := by
  rcases sees with ⟨on, player, known, isPlayer, onMap, visible⟩
  have within := inside player.position visible onMap
  refine ⟨on, player, known, within.1, within.2, ?_, ?_⟩
  · rw [players, isPlayer]
    decide
  rw [anyone]
  intro zero
  rw [zero, nobody] at known
  cases known

theorem field_reached (chained : Chained bounds world members) (field : Place) :
    Reaches bounds world (changedFieldSearch field.toPosition) [field.toPosition] := by
  rcases search_exact chained 16 14 field.x field.y 0 findPlayers with ⟨found, yields, _, exactly⟩
  refine ⟨found, yields, ?_⟩
  intro point chosen characterID sees
  rw [List.mem_singleton] at chosen
  rw [chosen] at sees
  apply (exactly characterID).mpr
  apply sees_wanted sees rfl rfl chained.nobody
  intro player visible onMap
  exact viewer_near visible onMap field.floor

theorem origin_wanted (nobody : world.creatures 0 = none) (orig : Place) (dest : Position)
    (sees : Sees world characterID orig.toPosition) :
    Wanted world (midwaySearch orig.toPosition dest) characterID := by
  apply sees_wanted sees rfl rfl nobody
  intro player visible onMap
  have near := viewer_near visible onMap orig.floor
  exact ⟨near_midway near.1, near_midway near.2⟩

theorem midway_reached (chained : Chained bounds world members) (orig dest : Place) :
    Reaches bounds world (midwaySearch orig.toPosition dest.toPosition)
      [orig.toPosition, dest.toPosition] := by
  rcases search_exact chained (16 + |orig.x - dest.x|.tdiv 2 + 1)
    (14 + |orig.y - dest.y|.tdiv 2 + 1) ((orig.x + dest.x).tdiv 2) ((orig.y + dest.y).tdiv 2) 0
    findPlayers with ⟨found, yields, _, exactly⟩
  refine ⟨found, yields, ?_⟩
  intro point chosen characterID sees
  apply (exactly characterID).mpr
  rcases List.mem_cons.mp chosen with atOrigin | atDest
  · rw [atOrigin] at sees
    exact origin_wanted chained.nobody orig dest.toPosition sees
  rw [List.mem_singleton] at atDest
  rw [atDest] at sees
  have wanted := origin_wanted chained.nobody dest orig.toPosition sees
  rw [← midway_swap] at wanted
  exact wanted

/-- Whoever sees a changed field, or one end of a move or of a missile, is found by the search
of its announcement, on any two floors. -/
theorem viewers_are_found (chained : Chained bounds world members) (field orig dest : Place) :
    Reaches bounds world (changedFieldSearch field.toPosition) [field.toPosition] ∧
      Reaches bounds world (graphicalEffectSearch field.toPosition) [field.toPosition] ∧
      Reaches bounds world (movingCreatureSearch orig.toPosition dest.toPosition)
        [orig.toPosition, dest.toPosition] ∧
      Reaches bounds world (missileSearch orig.toPosition dest.toPosition)
        [orig.toPosition, dest.toPosition] :=
  ⟨field_reached chained field, field_reached chained field, midway_reached chained orig dest,
    midway_reached chained orig dest⟩

def watcher : Creature := playerAt 20 20

def arrival : World :=
  { emptyMap with creatures := Function.update emptyMap.creatures 1 (some watcher) }

def watchedMap : World := insertedWorld arrival 1 watcher watcher.block

theorem watched_chained : ∃ members, Chained smallMatrix watchedMap members := by
  have arrived : Chained smallMatrix arrival fun _ => [] := by
    apply off_map_chained (empty_chained smallMatrix) rfl
    intro zero
    exact absurd zero (by decide)
  have known : arrival.creatures 1 = some watcher := rfl
  exact ⟨_, inserted_chained arrived known rfl (by decide)⟩

/-- Seven floors above the watcher, in the last row and column that its client shows. -/
def highField : Place := ⟨⟨36, 34, 0⟩, by decide⟩

theorem watcher_is_found :
    Sees watchedMap 1 highField.toPosition ∧
      Reaches smallMatrix watchedMap (changedFieldSearch highField.toPosition)
        [highField.toPosition] ∧
      Reaches smallMatrix watchedMap (graphicalEffectSearch highField.toPosition)
        [highField.toPosition] ∧
      Reaches smallMatrix watchedMap (movingCreatureSearch highField.toPosition highField.toPosition)
        [highField.toPosition, highField.toPosition] ∧
      Reaches smallMatrix watchedMap (missileSearch highField.toPosition highField.toPosition)
        [highField.toPosition, highField.toPosition] := by
  rcases watched_chained with ⟨members, chained⟩
  refine ⟨⟨rfl, _, rfl, rfl, ⟨by decide, by decide⟩, by decide⟩, ?_⟩
  exact viewers_are_found chained highField highField highField

end TibiaGame.AnnounceSearch
