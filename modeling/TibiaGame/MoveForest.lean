import TibiaGame.OperateEffects

/-!
# `move` keeps the content lists a forest

The three kinds of destination are kept apart: a field lies in no container, an
ordinary container is looked up from the inside out before the move, and for a body
container the caller has to know that the object is not the creature that wears it.
-/

namespace TibiaGame.MoveForest

open GameTypes ObjectStore ObjectOperations InfoModel OperateModel ContentForest
open ForestOperations ForestRuns ContainerWalks OperateSteps GroundedMap
open FurnishedWorlds OperateEffects Library.OrderedForest Library.ThrowingState

variable {cfg : GameConfig} {state after : GameState cfg} {kids : Object → List Object}
  {surroundings : Surroundings cfg} {creatureID : UInt32} {obj con dest ignore : Object}
  {count : Int32} {split noMerge : Bool}

/-- The body container lies in a creature, and the creature on a field. -/
def Worn (world : World cfg) (con : Object) : Prop :=
  objectExists world (getContainer world con) = true ∧
    IsField world (getContainer world (getContainer world con))

/-- The object lies in a container, and is not moved into its own body. -/
structure Movable (world : World cfg) (obj con : Object) : Prop where
  placed : objectExists world obj = true → getContainer world obj ≠ NONE
  worn : objectExists world con = true → (getObjectType world con).isBodyContainer = true →
    obj ≠ con ∧ obj ≠ getContainer world con ∧ Worn world con

theorem Movable.edge (movable : Movable state.world obj con) (sound : Sound state.world kids)
    (isLive : objectExists state.world obj = true) : obj ∈ kids (getContainer state.world obj) :=
  (placed_edge sound.described.forest).mp ⟨isLive, movable.placed isLive⟩

theorem field_outside (sound : Sound state.world kids) {old : Object} (edge : obj ∈ kids old)
    (isField : IsField state.world con) : ¬ Below kids obj con := by
  intro under
  have orphan := Grounded.orphan sound.grounded sound.described.forest isField
  rw [below_root orphan under] at edge
  exact orphan old edge

/-- Of a worn body container, the creature and the field only the first two could move. -/
theorem worn_outside (sound : Sound state.world kids) {old : Object} (edge : obj ∈ kids old)
    (conLive : objectExists state.world con = true) (notCon : obj ≠ con)
    (notWearer : obj ≠ getContainer state.world con) (worn : Worn state.world con) :
    ¬ Below kids obj con := by
  intro under
  have forest := sound.described.forest
  rcases worn with ⟨wearerLive, isField⟩
  have notRoot : ∀ node, objectExists state.world node = true →
      objectExists state.world (getContainer state.world node) = true →
      node ∈ kids (getContainer state.world node) := by
    intro node isLive parentLive
    rcases container_cases forest isLive with loose | inside
    · exact (live_ne_none forest parentLive loose.1).elim
    · exact inside.1
  rcases below_cases forest.single under (notRoot con conLive wearerLive) with same | aboveWearer
  · exact notCon same.symm
  rcases below_cases forest.single aboveWearer (notRoot _ wearerLive isField.1) with same | aboveField
  · exact notWearer same.symm
  · exact field_outside sound edge isField aboveField

/-- What the checks of `move` allow is never a move into the object itself. -/
theorem carriable_ready (sound : Sound state.world kids) (movable : Movable state.world obj con)
    (carriable : Carriable state creatureID obj con count) :
    Ready state.world kids obj con (getContainer state.world obj) := by
  have forest := sound.described.forest
  have edge := movable.edge sound carriable.live
  have conLive := carriable.conLive
  constructor
  · exact sound.described
  · exact edge
  · constructor
    · exact conLive
    · rw [ObjectType.holdsObjects, carriable.container, Bool.true_or]
  · cases isMap : (getObjectType state.world con).isMapContainer with
    | true => exact field_outside sound edge ⟨conLive, isMap⟩
    | false =>
      cases isBody : (getObjectType state.world con).isBodyContainer with
      | true =>
        rcases movable.worn conLive isBody with ⟨notCon, notWearer, worn⟩
        exact worn_outside sound edge conLive notCon notWearer worn
      | false =>
        intro under
        have outside := (carriable.allowed.container isMap isBody).outside
        rcases held_returns forest obj conLive with ⟨held, returned, _, complete⟩
        have item := Grounded.item sound.grounded forest edge
        rw [returned, complete sound.grounded item under] at outside
        cases outside

theorem merge_step_sound (sound : Sound state.world kids)
    (placed : objectExists state.world obj = true → getContainer state.world obj ≠ NONE)
    (step : MergeStep mergeObjects state creatureID obj dest count after) :
    ∃ newKids, Sound after.world newKids := by
  cases step with
  | itself same => exact ⟨kids, sound⟩
  | part mergeable less => exact ⟨kids, (parts_moved_kept sound).sound⟩
  | whole mergeable all joined =>
    have edge := (placed_edge sound.described.forest).mp
      ⟨mergeable.live, placed mergeable.live⟩
    exact ⟨_, (merge_gone sound edge mergeable joined).sound⟩

theorem carry_step_sound {old : Object} (sound : Sound state.world kids)
    (ready : Ready state.world kids obj con old)
    (step : CarryStep state creatureID obj con count split after) :
    ∃ newKids, Sound after.world newKids := by
  cases step with
  | @carried part parted moved cut placed =>
    rw [noted_objects_world]
    rcases carried_effect sound ready cut placed with
      ⟨_, _, _, newKids, comes⟩ | ⟨_, _, newKids, born⟩
    · exact ⟨newKids, comes.sound⟩
    · exact ⟨newKids, born.sound⟩

theorem move_step_sound (sound : Sound state.world kids) (movable : Movable state.world obj con)
    (step : MoveStep mergeObjects state creatureID obj con count noMerge after) :
    ∃ newKids, Sound after.world newKids := by
  cases step with
  | merged isLive conLive tried found step => exact merge_step_sound sound movable.placed step
  | carried carriable step =>
    exact carry_step_sound sound (carriable_ready sound movable carriable) step

theorem join_returns (sound : Sound state.world kids)
    (placed : objectExists state.world obj = true → getContainer state.world obj ≠ NONE) {halt : Halt}
    (halts : JoinHalts mergeObjects state.world obj halt) : False := by
  rcases halts with ⟨dest, _, failed⟩
  rcases isLive : objectExists state.world obj with _ | _
  · rw [mergeObjects, isLive] at failed
    cases failed
  have edge := (placed_edge sound.described.forest).mp ⟨isLive, placed isLive⟩
  rcases merge_objects_spec sound.described.agreement sound.described.forest edge dest with
    idle | ⟨after, returned, _⟩
  · rw [idle] at failed
    cases failed
  · rw [returned] at failed
    cases failed

def idle : Surroundings cfg where
  objectAccessible := fun _ _ _ _ => true
  unpushable := fun _ _ => false
  mapDestinationRefused := fun _ _ _ _ => none
  mapPlaceRefused := fun _ _ _ _ => none
  weightRefused := fun _ _ _ _ => none
  typeWeightRefused := fun _ _ _ _ _ => none
  weight := fun _ _ => 0
  depotChest := default

def onePerson (world : World smallTypes) : GameState smallTypes :=
  ⟨world, fun creatureID => if creatureID = 5 then some ⟨⟨3⟩, none⟩ else none⟩

def bagAndCoin : List (Furniture smallTypes) :=
  [⟨⟨1⟩, setTypeID smallTypes 101, 0, 0⟩, ⟨⟨1⟩, setTypeID smallTypes 102, 0, 7⟩]

end TibiaGame.MoveForest
