import TibiaGame.OperateModel
import TibiaGame.Library.ForestSums

/-!
# The walks of the lookups end

In a forest an object lies in finitely many containers, each once, and a content list
is finite: every walk of `info.cpp` returns, and what it returns is said by the
containers above the object, or by the list.
-/

namespace TibiaGame.ContainerWalks

open GameTypes ObjectStore ObjectOperations InfoModel OperateModel ContentForest ForestSteps List
open ForestDeletion ForestOperations ForestRuns Library.LinkedList Library.OrderedForest
open Library.ForestSums

variable {cfg : GameConfig} {world : World cfg} {kids : Object → List Object}
  {obj con field : Object}

structure Ancestry (world : World cfg) (kids : Object → List Object) (obj : Object)
    (path : List Object) : Prop where
  chain : Chain NONE (getContainer world) obj path
  few : path.length ≤ 2 ^ 32
  member : ∀ node, node ∈ path ↔ Below kids node obj
  alive : ∀ node ∈ path, objectExists world node = true

section

variable (forest : Forest (liveRecord world) kids) (isLive : objectExists world obj = true)
include forest isLive

theorem container_cases :
    getContainer world obj = NONE ∧ (∀ con, obj ∉ kids con) ∨
      obj ∈ kids (getContainer world obj) ∧ objectExists world (getContainer world obj) = true := by
  by_cases loose : getContainer world obj = NONE
  · left
    constructor
    · exact loose
    intro con edge
    have inCon := (member_container forest edge).2
    rw [loose] at inCon
    exact ((forest.member con obj).mp edge).1 inCon.symm
  right
  have edge := (placed_edge forest).mp ⟨isLive, loose⟩
  exact ⟨edge, holder_exists (forest.parent_holds edge)⟩

theorem live_ne_none : obj ≠ NONE := by
  intro same
  rw [same, objectExists, forest.none_dead] at isLive
  cases isLive

theorem ancestry_exists : ∃ path, Ancestry world kids obj path := by
  have unbounded : ∃ path, Chain NONE (getContainer world) obj path ∧ path.Nodup ∧
      (∀ node, node ∈ path ↔ Below kids node obj) ∧
      ∀ node ∈ path, objectExists world node = true := by
    rcases forest.ranked with ⟨depth, rises⟩
    induction height : depth obj using Nat.strong_induction_on generalizing obj with
    | _ level ih =>
      have notNone := live_ne_none forest isLive
      rcases container_cases forest isLive with ⟨loose, root⟩ | ⟨edge, conLive⟩
      · exists [obj]
        constructor
        · exact ⟨rfl, notNone, loose⟩
        constructor
        · exact nodup_singleton obj
        constructor
        · intro node
          rw [mem_singleton]
          constructor
          · intro same
            rw [same]
            exact below_refl kids obj
          · intro under
            exact below_root root under
        · intro node member
          rw [mem_singleton.mp member]
          exact isLive
      have higher : depth (getContainer world obj) < level := by
        rw [← height]
        exact rises _ _ edge
      rcases ih _ higher conLive rfl with ⟨path, chain, nodup, member, alive⟩
      exists obj :: path
      constructor
      · exact ⟨rfl, notNone, chain⟩
      constructor
      · apply nodup_cons.mpr
        constructor
        · intro again
          exact forest.ranked.parent_not_below edge ((member obj).mp again)
        · exact nodup
      constructor
      · intro node
        rw [mem_cons, member]
        constructor
        · intro either
          rcases either with same | under
          · rw [same]
            exact below_refl kids obj
          · exact below_step under edge
        intro under
        rcases below_cases forest.single under edge with same | above
        · exact .inl same.symm
        · exact .inr above
      intro node either
      rcases mem_cons.mp either with same | later
      · rw [same]
        exact isLive
      · exact alive node later
  rcases unbounded with ⟨path, chain, nodup, member, alive⟩
  exact ⟨path, chain, nodup_length path nodup, member, alive⟩

end

/-- The first container in the ancestry where the walk has an answer decides it. -/
theorem climb_chain {Value : Type} {stop : Object → Option Value} {missing : Value}
    {path : List Object} {fuel : Nat} (chain : Chain NONE (getContainer world) obj path)
    (enough : path.length < fuel) :
    climb world stop missing fuel obj = .ok ((path.findSome? stop).getD missing) := by
  induction path generalizing obj fuel with
  | nil =>
    rcases fuel with _ | fuel
    · exact (Nat.not_lt_zero _ enough).elim
    have ended : obj = NONE := chain
    rw [climb, if_pos ended, List.findSome?_nil, Option.getD_none]
  | cons node rest ih =>
    rcases fuel with _ | fuel
    · exact (Nat.not_lt_zero _ enough).elim
    rcases chain with ⟨here, inner, above⟩
    rw [← here] at inner above ⊢
    rw [climb, if_neg inner, List.findSome?_cons]
    cases stop obj with
    | some value => rfl
    | none => exact ih above (Nat.lt_of_succ_lt_succ enough)

theorem Ancestry.climb {Value : Type} {path : List Object} (ancestry : Ancestry world kids obj path)
    (stop : Object → Option Value) (missing : Value) :
    climb world stop missing walkLimit obj = .ok ((path.findSome? stop).getD missing) := by
  apply climb_chain ancestry.chain
  have bound := ancestry.few
  unfold walkLimit
  omega

/-- The fields of the map lie in no container, and the sectors name fields that exist. -/
structure Grounded (world : World cfg) : Prop where
  root : ∀ field, objectExists world field = true →
    (getObjectType world field).isMapContainer = true → getContainer world field = NONE
  sector : ∀ x y z sector, world.sectors x y z = some sector →
    ∀ offsetX offsetY, objectExists world (sector.mapCon offsetX offsetY) = true ∧
      (getObjectType world (sector.mapCon offsetX offsetY)).isMapContainer = true

theorem held_on_path (grounded : Grounded world) {path : List Object}
    (chain : Chain NONE (getContainer world) obj path)
    (alive : ∀ node ∈ path, objectExists world node = true) (above : con ∈ path)
    (item : (getObjectType world con).isMapContainer = false) :
    path.findSome? (heldStop world con) = some true := by
  induction path generalizing obj with
  | nil => cases above
  | cons node rest ih =>
    rcases chain with ⟨here, inner, later⟩
    rw [← here] at inner later above alive ⊢
    rw [List.findSome?_cons]
    by_cases found : obj = con
    · rw [heldStop, found, item]
      simp
    have further : con ∈ rest := by
      rcases mem_cons.mp above with same | later
      · exact (found same.symm).elim
      · exact later
    have inside : getContainer world obj ≠ NONE := by
      intro loose
      rw [loose] at later
      cases rest with
      | nil => cases further
      | cons next others => exact later.2.1 later.1.symm
    have isItem : (getObjectType world obj).isMapContainer = false := by
      apply Bool.eq_false_iff.mpr
      intro isField
      exact inside (grounded.root obj (alive obj (by simp)) isField)
    have goesOn : heldStop world con obj = none := by
      rw [heldStop, isItem]
      simp [found]
    rw [goesOn]
    exact ih later (fun node member => alive node (mem_cons_of_mem obj member)) further

/-- `is_held_by_container` returns, and on the map it tells what lies inside what. -/
theorem held_returns (forest : Forest (liveRecord world) kids) (con : Object)
    (isLive : objectExists world obj = true) :
    ∃ held, isHeldByContainer world obj con = .ok held ∧
      (held = true → Below kids con obj) ∧
      (Grounded world → (getObjectType world con).isMapContainer = false →
        Below kids con obj → held = true) := by
  rcases ancestry_exists forest isLive with ⟨path, ancestry⟩
  refine ⟨_, ancestry.climb (heldStop world con) false, ?_, ?_⟩
  · intro found
    rcases answer : path.findSome? (heldStop world con) with _ | value
    · rw [answer] at found
      cases found
    rw [answer, Option.getD_some] at found
    rw [found] at answer
    rcases exists_of_findSome?_eq_some answer with ⟨node, member, stops⟩
    unfold heldStop at stops
    split_ifs at stops with isField isCon
    · cases stops
    · rw [← isCon]
      exact (ancestry.member node).mp member
  · intro grounded item under
    rw [held_on_path grounded ancestry.chain ancestry.alive ((ancestry.member con).mpr under) item,
      Option.getD_some]

theorem held_none (con : Object) : isHeldByContainer world NONE con = .ok false := rfl

theorem creature_id_returns (forest : Forest (liveRecord world) kids) (obj : Object) :
    ∃ creatureID, getObjectCreatureID world obj = .ok creatureID := by
  unfold getObjectCreatureID
  split_ifs with isLive
  · rcases ancestry_exists forest isLive with ⟨path, ancestry⟩
    exact ⟨_, ancestry.climb (creatureStop world) 0⟩
  · exact ⟨0, rfl⟩

theorem body_position_returns (forest : Forest (liveRecord world) kids) (obj : Object) :
    ∃ position, getObjectBodyPosition world obj = .ok position := by
  unfold getObjectBodyPosition
  split_ifs with isLive
  · rcases ancestry_exists forest isLive with ⟨path, ancestry⟩
    exact ⟨_, ancestry.climb (positionStop world) 0⟩
  · exact ⟨0, rfl⟩

/-- The content list of an object that exists, as `get_next_object` goes through it. -/
theorem row_chain (forest : Forest (liveRecord world) kids)
    (isLive : objectExists world con = true) :
    Chain NONE (getNextObject world) (getFirstContainerObject world con) (kids con) := by
  rcases object_exists_iff.mp isLive with ⟨record, live⟩
  have notNone := live_ne_none forest isLive
  have follows : ∀ node ∈ kids con, getNextObject world node = nextOf (liveRecord world) node := by
    intro node member
    rcases kids_alive forest node member with ⟨nodeRecord, nodeLive⟩
    exact next_of_live nodeLive
  unfold getFirstContainerObject
  rw [if_neg notNone]
  split_ifs with holds
  · have isHolder : holdsOf (liveRecord world) con = some true := holder_iff.mp ⟨isLive, holds⟩
    have content : contentOf (liveRecord world) con = some ⟨getAttribute world con .content⟩ := by
      rw [contentOf, live, getAttribute, access_live live]
      rfl
    exact chain_congr (forest.chain con _ isHolder content) follows
  have plain : holdsOf (liveRecord world) con ≠ some true := by
    rw [ne_eq, ← holder_iff]
    intro isHolder
    exact holds isHolder.2
  rw [forest.barren con plain]
  rfl

theorem row_count_chain {members : List Object} {fuel : Nat}
    (chain : Chain NONE (getNextObject world) obj members) (enough : members.length < fuel) :
    rowCount world fuel obj = .ok members.length := by
  induction members generalizing obj fuel with
  | nil =>
    rcases fuel with _ | fuel
    · exact (Nat.not_lt_zero _ enough).elim
    have ended : obj = NONE := chain
    rw [rowCount, if_pos ended, length_nil]
  | cons node rest ih =>
    rcases fuel with _ | fuel
    · exact (Nat.not_lt_zero _ enough).elim
    rcases chain with ⟨here, inner, later⟩
    rw [← here] at inner later
    rw [rowCount, if_neg inner, ih later (Nat.lt_of_succ_lt_succ enough), length_cons,
      Nat.add_comm]
    rfl

theorem row_count_spec (forest : Forest (liveRecord world) kids)
    (isLive : objectExists world con = true) :
    countObjectsInContainer world con = .ok (kids con).length := by
  rw [countObjectsInContainer, if_pos isLive]
  exact row_count_chain (row_chain forest isLive) (kids_length forest con)

theorem top_walk_chain {members : List Object} {fuel : Nat} (move : Bool)
    (chain : Chain NONE (getNextObject world) obj members) (someMember : members ≠ [])
    (enough : members.length < fuel) : ∃ top ∈ members, topWalk world move fuel obj = .ok top := by
  induction members generalizing obj fuel with
  | nil => exact (someMember rfl).elim
  | cons node rest ih =>
    rcases fuel with _ | fuel
    · exact (Nat.not_lt_zero _ enough).elim
    rcases chain with ⟨here, inner, later⟩
    rw [← here] at inner later ⊢
    rw [topWalk]
    split_ifs with isLast stops
    · exact ⟨obj, by simp, rfl⟩
    · exact ⟨obj, by simp, rfl⟩
    · have further : rest ≠ [] := by
        intro none
        rw [none] at later
        exact isLast later
      rcases ih later further (Nat.lt_of_succ_lt_succ enough) with ⟨top, member, found⟩
      exact ⟨top, mem_cons_of_mem obj member, found⟩

section

variable (forest : Forest (liveRecord world) kids) (grounded : Grounded world) (x y z : Int)
include forest grounded x y z

theorem first_object_row : getFirstObject world x y z = NONE ∨ ∃ field,
      (objectExists world field = true ∧ (getObjectType world field).isMapContainer = true) ∧
      Chain NONE (getNextObject world) (getFirstObject world x y z) (kids field) := by
  unfold getFirstObject
  split_ifs with onMap
  · right
    have isField : objectExists world (getMapContainer world x y z) = true ∧
        (getObjectType world (getMapContainer world x y z)).isMapContainer = true := by
      unfold getMapContainer at onMap ⊢
      cases found : world.sectors (x.tdiv 32) (y.tdiv 32) z with
      | none =>
        rw [found] at onMap
        exact (onMap rfl).elim
      | some sector => exact grounded.sector _ _ _ sector found _ _
    exists getMapContainer world x y z
    have row := row_chain forest isField.1
    have holds := map_container_holds _ isField.2
    rw [getFirstContainerObject, if_neg onMap, if_pos holds] at row
    exact ⟨isField, row⟩
  · exact .inl rfl

/-- `get_top_object` returns an object that lies on a field, or none. -/
theorem top_object_on_field (move : Bool) :
    ∃ top, getTopObject world x y z move = .ok top ∧
      (top = NONE ∨ ∃ field, (objectExists world field = true ∧
        (getObjectType world field).isMapContainer = true) ∧ top ∈ kids field) := by
  unfold getTopObject
  split_ifs with empty
  · exact ⟨NONE, rfl, .inl rfl⟩
  rcases first_object_row forest grounded x y z with none | ⟨field, isField, row⟩
  · exact (empty none).elim
  have someMember : kids field ≠ [] := by
    intro none
    rw [none] at row
    exact empty row
  rcases top_walk_chain move row someMember (kids_length forest field) with
    ⟨top, member, found⟩
  exact ⟨top, found, .inr ⟨field, isField, member⟩⟩

theorem top_object_returns (move : Bool) :
    ∃ top, getTopObject world x y z move = .ok top ∧
      (top = NONE ∨ objectExists world top = true) := by
  rcases top_object_on_field forest grounded x y z move with ⟨top, found, none | onField⟩
  · exact ⟨top, found, .inl none⟩
  rcases onField with ⟨field, _, member⟩
  exact ⟨top, found, .inr (member_container forest member).1⟩

end

theorem top_move_chain {members : List Object} {fuel : Nat} (ignore best : Object)
    (bestIsCreature : Bool) (chain : Chain NONE (getNextObject world) obj members)
    (enough : members.length < fuel) :
    ∃ top, topMoveWalk world ignore fuel obj best bestIsCreature = .ok top := by
  induction members generalizing obj fuel best bestIsCreature with
  | nil =>
    rcases fuel with _ | fuel
    · exact (Nat.not_lt_zero _ enough).elim
    have ended : obj = NONE := chain
    rw [topMoveWalk, if_pos ended]
    exact ⟨best, rfl⟩
  | cons node rest ih =>
    rcases fuel with _ | fuel
    · exact (Nat.not_lt_zero _ enough).elim
    rcases chain with ⟨here, inner, later⟩
    rw [← here] at inner later
    rw [topMoveWalk, if_neg inner]
    by_cases skipped : obj = ignore
    · rw [if_pos skipped]
      exact ih best bestIsCreature later (Nat.lt_of_succ_lt_succ enough)
    rw [if_neg skipped]
    simp only
    split_ifs
    all_goals first
      | exact ⟨_, rfl⟩
      | exact ih _ _ later (Nat.lt_of_succ_lt_succ enough)

theorem top_move_returns (forest : Forest (liveRecord world) kids)
    (isLive : objectExists world obj = true) (ignore : Object) :
    ∃ top, topMoveWalk world ignore walkLimit
      (getFirstContainerObject world (getContainer world obj)) NONE false = .ok top := by
  rcases container_cases forest isLive with loose | inside
  · rw [loose.1]
    exact ⟨NONE, rfl⟩
  exact top_move_chain ignore NONE false (row_chain forest inside.2)
    (kids_length forest _)

section Counting

/-- The lists that `count_objects` goes into. -/
def countedKids (world : World cfg) (kids : Object → List Object) : Object → List Object :=
  fun node => if (getObjectType world node).getFlag .container then kids node else []

theorem counted_subset (node : Object) : ∀ child ∈ countedKids world kids node,
    child ∈ kids node := by
  intro child edge
  unfold countedKids at edge
  split_ifs at edge
  · exact edge
  · cases edge

theorem counted_below (under : Below (countedKids world kids) obj con) : Below kids obj con :=
  below_mono counted_subset under

/-- How many objects `count_objects` finds. -/
noncomputable def counted (world : World cfg) (kids : Object → List Object) (obj : Object) : Nat :=
  (inside (countedKids world kids) obj).ncard

variable (forest : Forest (liveRecord world) kids)
include forest

theorem counted_eq (obj : Object) :
    counted world kids obj =
      1 + ((countedKids world kids obj).map (counted world kids)).sum := by
  apply below_count
  · intro parent other child edge edge'
    exact forest.single _ _ _ (counted_subset _ _ edge) (counted_subset _ _ edge')
  · exact forest.ranked.mono counted_subset
  · unfold countedKids
    split_ifs
    · exact forest.nodup obj
    · exact nodup_nil

theorem count_within_spec (fuel : Nat) :
    (∀ obj, objectExists world obj = true → 2 * counted world kids obj ≤ fuel →
      countWithin world fuel obj = .ok (counted world kids obj)) ∧
    ∀ members first, Chain NONE (getNextObject world) first members →
      (∀ node ∈ members, objectExists world node = true) →
      2 * (members.map (counted world kids)).sum + 1 ≤ fuel →
      countRow world fuel first = .ok (members.map (counted world kids)).sum := by
  induction fuel with
  | zero =>
    constructor
    · intro obj isLive enough
      have := counted_eq forest obj
      omega
    · intro members first chain alive enough
      omega
  | succ fuel ih =>
    constructor
    · intro obj isLive enough
      have total := counted_eq forest obj
      rw [countWithin, isLive]
      simp only [Bool.not_true, Bool.false_eq_true, if_false]
      unfold countedKids at total
      split_ifs at total ⊢ with isContainer
      · have row := ih.2 (kids obj) _ (row_chain forest isLive)
          (fun node member => (member_container forest member).1) (by omega)
        rw [row, total]
        rfl
      · rw [total]
        rfl
    intro members first chain alive enough
    rcases members with _ | ⟨node, rest⟩
    · have ended : first = NONE := chain
      rw [countRow, if_pos ended]
      rfl
    rcases chain with ⟨here, inner, later⟩
    rw [← here] at inner later alive enough ⊢
    rw [map_cons, sum_cons] at enough ⊢
    have positive := counted_eq forest first
    have one := ih.1 first (alive first (by simp)) (by omega)
    have others := ih.2 rest _ later
      (fun node member => alive node (mem_cons_of_mem first member)) (by omega)
    rw [countRow, if_neg inner, one, others]
    rfl

theorem count_objects_spec (isLive : objectExists world obj = true) :
    countObjects world obj = .ok (counted world kids obj) := by
  apply (count_within_spec forest walkLimit).1 obj isLive
  have bound := Set.ncard_le_card (inside (countedKids world kids) obj)
  have few := nat_card_object
  unfold counted walkLimit
  omega

end Counting

end TibiaGame.ContainerWalks
