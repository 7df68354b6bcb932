import TibiaGame.OperateSteps

/-!
# The checks change nothing

This needs nothing of the state: a check may fail to come back in a broken store, but
whether it returns or throws, the state is the one it began with. So what a call of
`merge` or `move` has done can be said for every state in which it comes back.
-/

namespace TibiaGame.OperateFrames

open GameTypes ObjectStore ObjectOperations ObjectKinds InfoModel OperateModel OperateSteps
open Library.Outcome Library.ThrowingState

variable {cfg : GameConfig} {state : GameState cfg}
  {join otherJoin : World cfg → Object → Object → Except Halt (World cfg)}
  {surroundings : Surroundings cfg} {creatureID : UInt32} {obj con dest ignore : Object}
  {count : Int32} {split noMerge : Bool}

theorem answer_keeps (result : Option Result) : Keeps (answer result : Operate cfg Unit) state := by
  cases result with
  | none => exact keeps_pure
  | some result => exact keeps_throw

theorem check_map_destination_keeps :
    Keeps (checkMapDestination surroundings creatureID obj con) state := by
  apply keeps_get
  split_ifs
  · exact keeps_pure
  · exact answer_keeps _

theorem check_weight_keeps : Keeps (checkWeight surroundings creatureID obj count) state := by
  apply keeps_get
  apply keeps_attempt.bind
  intro owner
  split_ifs
  · exact keeps_pure
  · exact answer_keeps _

theorem check_top_move_keeps :
    Keeps (checkTopMoveObject creatureID obj ignore : Operate cfg Unit) state := by
  apply keeps_get
  apply keeps_refuse.bind
  intro _
  split_ifs
  · exact keeps_pure
  · exact keeps_pure
  · exact keeps_pure
  · apply keeps_attempt.bind
    intro best
    exact keeps_refuse

theorem check_move_object_keeps {take : Bool} :
    Keeps (checkMoveObject surroundings creatureID obj take) state := by
  apply keeps_get
  split_ifs
  · exact keeps_pure
  apply keeps_refuse.bind
  intro _
  apply keeps_refuse.bind
  intro _
  apply Keeps.bind
  · apply keeps_whenever
    apply keeps_refuse.bind
    intro _
    exact keeps_refuse
  · intro _
    exact keeps_refuse

theorem check_container_destination_keeps :
    Keeps (checkContainerDestination obj con : Operate cfg Unit) state := by
  apply keeps_get
  apply keeps_attempt.bind
  intro held
  apply keeps_refuse.bind
  intro _
  dsimp only
  split_ifs
  · exact keeps_pure
  · apply keeps_attempt.bind
    intro objects
    exact keeps_refuse

theorem check_depot_space_keeps {source : Object} :
    Keeps (checkDepotSpace creatureID source dest count : Operate cfg Unit) state := by
  apply keeps_get
  split_ifs
  · exact keeps_pure
  rcases state.creatures creatureID with _ | creature
  · exact keeps_throw
  apply keeps_refuse.bind
  intro _
  rcases creature.player with _ | player
  · exact keeps_pure
  dsimp only
  split_ifs
  · exact keeps_pure
  apply keeps_attempt.bind
  intro inside
  apply keeps_attempt.bind
  intro into
  exact keeps_refuse

theorem check_clothes_keeps {type : ObjectType cfg} {position : Nat} :
    Keeps (checkClothes type position : Operate cfg Unit) state := by
  apply keeps_refuse.bind
  intro _
  apply keeps_refuse.bind
  intro _
  exact keeps_refuse

theorem check_hands_free_keeps {seen : GameState cfg} :
    Keeps (checkHandsFree seen creatureID obj) state := by
  apply keeps_refuse.bind
  intro _
  exact keeps_refuse

theorem check_other_hand_keeps {seen : GameState cfg} {position : Nat} :
    Keeps (checkOtherHand seen creatureID obj split position) state := by
  unfold checkOtherHand
  dsimp only
  split_ifs
  · exact keeps_pure
  · apply keeps_refuse.bind
    intro _
    exact keeps_refuse

theorem check_inventory_destination_keeps :
    Keeps (checkInventoryDestination obj con split : Operate cfg Unit) state := by
  apply keeps_get
  apply keeps_attempt.bind
  intro position
  apply (keeps_whenever check_clothes_keeps).bind
  intro _
  apply keeps_attempt.bind
  intro owner
  split_ifs
  · exact check_hands_free_keeps
  apply keeps_refuse.bind
  intro _
  apply keeps_whenever
  apply check_other_hand_keeps.bind
  intro _
  exact check_other_hand_keeps

theorem check_depot_room_keeps :
    Keeps (checkDepotRoom creatureID obj con split : Operate cfg Unit) state := by
  apply keeps_get
  split_ifs
  · exact check_depot_space_keeps
  · apply keeps_attempt.bind
    intro objects
    exact check_depot_space_keeps

theorem check_merge_keeps :
    Keeps (checkMerge surroundings creatureID obj dest count ignore) state := by
  apply keeps_get
  apply keeps_attempt.bind
  intro owner
  apply check_top_move_keeps.bind
  intro _
  split_ifs
  · apply check_move_object_keeps.bind
    intro _
    exact check_map_destination_keeps
  apply check_move_object_keeps.bind
  intro _
  apply check_depot_space_keeps.bind
  intro _
  exact keeps_whenever check_weight_keeps

theorem check_destination_keeps {body : Bool} :
    Keeps (if body then checkInventoryDestination obj con split
      else checkContainerDestination obj con : Operate cfg Unit) state := by
  cases body with
  | true => exact check_inventory_destination_keeps
  | false => exact check_container_destination_keeps

theorem check_move_keeps :
    Keeps (checkMove surroundings creatureID obj con count split ignore) state := by
  apply keeps_get
  apply keeps_attempt.bind
  intro owner
  apply check_top_move_keeps.bind
  intro _
  cases (getObjectType state.world con).isMapContainer with
  | true =>
    apply check_move_object_keeps.bind
    intro _
    exact check_map_destination_keeps
  | false =>
    apply check_move_object_keeps.bind
    intro _
    apply check_destination_keeps.bind
    intro _
    apply check_depot_room_keeps.bind
    intro _
    exact keeps_whenever check_weight_keeps

theorem move_object_quiet {world moved : World cfg} (placed : moveObject world obj con = .ok moved) :
    Quiet world moved := by
  unfold moveObject at placed
  split_ifs at placed
  · cases placed
    exact .refl world
  · cases placed
    exact .refl world
  · rcases bind_ok.mp placed with ⟨middle, wasCut, ended⟩
    exact (cut_quiet wasCut).trans (place_quiet ended)

theorem notify_depot_outcome {throws : Result → GameState cfg → Prop}
    (isLive : objectExists state.world obj = true) :
    Meets (notifyDepot creatureID obj count : Operate cfg Unit) state
      (fun _ after => after = notedDepot state creatureID obj count) throws fun _ => True := by
  apply meets_get
  unfold notedDepot
  by_cases nobody : creatureID = 0
  · rw [if_pos nobody, if_pos nobody]
    exact meets_pure rfl
  rw [if_neg nobody, if_neg nobody]
  rcases state.creatures creatureID with _ | creature
  · exact meets_pure rfl
  simp only [isLive, Bool.not_true]
  apply meets_bind (meets_pure rfl :
    Meets (refuse false Result.error) state (fun _ after => after = state) _ _)
  intro _ after same
  rw [same]
  rcases creature.player with _ | player
  · exact meets_pure rfl
  simp only
  by_cases closed : player.depot = NONE
  · rw [if_pos closed, if_pos closed]
    exact meets_pure rfl
  rw [if_neg closed, if_neg closed]
  rcases returned : isHeldByContainer state.world obj player.depot with halt | held
  · exact trivial
  cases held with
  | true => exact meets_set rfl
  | false => exact meets_pure rfl

theorem notify_objects_outcome {throws : Result → GameState cfg → Prop}
    (isLive : objectExists state.world obj = true) (silent : Bool) (sign : Int32) :
    Meets (whenever (!silent) (notifyDepotOf creatureID obj sign) : Operate cfg Unit) state
      (fun _ after => after = notedObjects silent creatureID obj sign state) throws
      fun _ => True := by
  unfold notedObjects
  cases silent with
  | true => exact meets_pure rfl
  | false =>
    apply meets_get
    unfold objectCount
    cases countObjects state.world obj with
    | error halt => exact trivial
    | ok objects => exact notify_depot_outcome isLive

/-- A call of `merge` that comes back has changed nothing, or taken one of the steps. -/
theorem merge_outcome :
    Meets (mergeUsing join surroundings creatureID obj dest count ignore) state
      (fun _ after => MergeStep join state creatureID obj dest count after)
      (fun _ after => after = state) fun _ => True := by
  apply merge_course
  · intro _ _ parts
    exact check_merge_keeps
  · exact notify_depot_outcome
  · intro _ halt _
    exact trivial

theorem merge_on_top_outcome :
    Meets (mergeOnTop join surroundings creatureID obj con count noMerge ignore) state
      (fun merged after => merged = false ∧ after = state ∨
        merged = true ∧ triesMerge state.world obj con noMerge = true ∧
          ∃ top, topOn state.world con = .ok top ∧
            MergeStep join state creatureID obj top count after)
      (fun _ after => after = state) fun _ => True := by
  apply meets_get
  split_ifs with tries
  · apply attempt_then
    intro place located
    apply attempt_then
    intro top found
    have foundTop : topOn state.world con = .ok top := by
      rw [topOn, located]
      exact found
    split_ifs
    · exact meets_pure (.inl ⟨rfl, rfl⟩)
    apply meets_catch
    · apply meets_bind merge_outcome
      intro _ after step
      exact meets_pure (.inr ⟨rfl, tries, top, foundTop, step⟩)
    intro result after same
    rw [same]
    split_ifs
    · exact meets_throw rfl
    · exact meets_pure (.inl ⟨rfl, rfl⟩)
  · exact meets_pure (.inl ⟨rfl, rfl⟩)

/-- A call of `move` that comes back has changed nothing, has merged the object with the
top object of a field, or has moved it. -/
theorem move_outcome
    (cuts : splits state.world obj count = true → objectExists state.world obj = true →
      ∀ part parted, splitObject state.world obj (moveCount state.world obj count) =
        .ok (part, parted) → objectExists parted part = true) :
    Meets (moveUsing join surroundings creatureID obj con count noMerge ignore) state
      (fun _ after => (∃ top, triesMerge state.world obj con noMerge = true ∧
          topOn state.world con = .ok top ∧ MergeStep join state creatureID obj top count after) ∨
        objectExists state.world obj = true ∧ CarryStep state creatureID obj con
          (moveCount state.world obj count) (splits state.world obj count) after)
      (fun _ after => after = state) fun _ => True := by
  apply meets_get
  apply refused_then
  intro live
  apply refused_then
  intro _
  apply refused_then
  intro _
  apply refused_then
  intro _
  have isLive : objectExists state.world obj = true := by simpa using live
  apply meets_bind merge_on_top_outcome
  intro merged middle ended
  rcases ended with ⟨failed, same⟩ | ⟨succeeded, tried, top, found, step⟩
  · rw [failed, same]
    apply meets_get
    apply check_move_keeps.then
    intro _
    apply (carry_course _ _).imp
    · intro _ after step
      exact .inr ⟨isLive, step⟩
    · intro _ _ held
      exact held
    · intro _ held
      exact held
    · intro halt _
      exact trivial
    · intro part parted cut
      have partLive : objectExists parted part = true := by
        change if splits state.world obj count = true then _ else _ at cut
        cases separates : splits state.world obj count with
        | true =>
          rw [separates, if_pos rfl] at cut
          exact cuts separates isLive part parted cut
        | false =>
          rw [separates] at cut
          rw [cut.1, cut.2]
          exact isLive
      constructor
      · exact partLive
      constructor
      · intro halt _
        exact trivial
      intro seen silent sign world
      apply notify_objects_outcome
      rcases world with before | after
      · rw [before]
        exact partLive
      rw [exists_iff_type, (move_object_quiet after).table, ← exists_iff_type]
      exact partLive
  rw [succeeded]
  exact meets_pure (.inl ⟨top, tried, found, step⟩)

end TibiaGame.OperateFrames
