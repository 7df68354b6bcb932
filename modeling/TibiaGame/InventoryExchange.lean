import TibiaGame.AmountChanges
import TibiaGame.CreatureMove
import TibiaGame.CarryCapacity

/-!
# What a move that throws leaves behind

A call of `move` or `merge` that throws has changed nothing, but `TCreature::Move` makes
several of them. Parts that have filled up the stack in a slot stay there, and an object
that had to leave its slot does not come back.
-/

namespace TibiaGame.InventoryExchange

open GameTypes ObjectStore ObjectOperations ObjectKinds ContentForest ForestSteps ForestOperations
open ForestRuns ObjectPayload InfoModel ContainerWalks OperateModel OperateSteps OperateFrames
open OperateEffects StackAmounts AmountChanges FurnishedWorlds MoveForest Weights
open CreatureMove Library.LinkedList Library.OrderedForest Library.Outcome Library.ThrowingState

variable {cfg : GameConfig} {state after : GameState cfg} {world moved : World cfg}
  {kids : Object → List Object} {bearings : Bearings cfg} {surroundings : Surroundings cfg}
  {creatureID : UInt32} {obj con dest part : Object} {count : Int32} {noMerge : Bool}

def containerView (record : MapObject cfg) : Object := record.container

theorem container_of_live (isLive : objectExists world obj = true) :
    viewOf containerView world obj = some (getContainer world obj) := by
  rcases object_exists_iff.mp isLive with ⟨record, live⟩
  rw [viewOf, live, getContainer, access_live live]
  rfl

theorem set_attribute_containers (world : World cfg) (obj : Object) (attr : InstanceAttribute)
    (value : UInt32) : SameView containerView world (setAttribute world obj attr value) := by
  apply write_view
  · intro record
    exact record_set_attribute_number record attr value
  intro record
  unfold containerView MapObject.setAttribute
  split
  · rfl
  · split_ifs <;> rfl

theorem set_next_containers (world : World cfg) (obj next : Object) :
    SameView containerView world (setNextObject world obj next) :=
  write_view (fun _ => rfl) fun _ => rfl

theorem set_container_beside (world : World cfg) (obj con : Object) :
    Beside containerView obj world (setContainer world obj con) :=
  write_beside fun _ => rfl

theorem unlink_containers (unlinked : unlinkObject world obj = .ok moved) :
    SameView containerView world moved := by
  simp only [unlinkObject] at unlinked
  split_ifs at unlinked
  · cases unlinked
    exact set_attribute_containers _ _ _ _
  · rcases bind_ok.mp unlinked with ⟨prev, _, ended⟩
    cases ended
    exact set_next_containers _ _ _

theorem cut_containers (cut : cutObject world obj = .ok moved) :
    Beside containerView obj world moved := by
  unfold cutObject at cut
  split_ifs at cut
  · cases cut
    exact (same_view_of_table rfl).beside
  rcases bind_ok.mp cut with ⟨middle, unlinked, ended⟩
  cases ended
  exact (unlink_containers unlinked).beside.trans
    ((set_next_containers _ _ _).beside.trans (set_container_beside _ _ _))

theorem place_containers {append : Bool} (placed : placeObject world obj con append = .ok moved) :
    Beside containerView obj world moved := by
  unfold placeObject at placed
  split_ifs at placed
  · cases placed
    exact (same_view_of_table rfl).beside
  · cases placed
    exact (same_view_of_table rfl).beside
  · cases placed
    exact (same_view_of_table rfl).beside
  · rcases bind_ok.mp placed with ⟨⟨prev, cur⟩, _, ended⟩
    cases ended
    apply Beside.trans _ ((set_next_containers _ _ _).beside.trans (set_container_beside _ _ _))
    split_ifs
    · exact (set_next_containers _ _ _).beside
    · exact (set_attribute_containers _ _ _ _).beside

theorem move_containers (placed : moveObject world obj con = .ok moved) :
    Beside containerView obj world moved := by
  unfold moveObject at placed
  split_ifs at placed
  · cases placed
    exact (same_view_of_table rfl).beside
  · cases placed
    exact (same_view_of_table rfl).beside
  · rcases bind_ok.mp placed with ⟨middle, wasCut, ended⟩
    exact (cut_containers wasCut).trans (place_containers ended)

theorem set_container_here (isLive : objectExists world obj = true) :
    getContainer (setContainer world obj con) obj = con := by
  rcases object_exists_iff.mp isLive with ⟨record, live⟩
  have now : liveRecord (setContainer world obj con) obj = some { record with container := con } := by
    rw [live_set_container, updateRecord, if_pos rfl, live]
    rfl
  rw [getContainer, access_live now]

theorem quiet_live (quiet : Quiet world moved) (node : Object) :
    objectExists moved node = objectExists world node := by
  rw [Bool.eq_iff_iff, exists_iff_type, quiet.table, ← exists_iff_type]

theorem quiet_holder (quiet : Quiet world moved) (isHolder : IsHolder world con) :
    IsHolder moved con := by
  rw [holder_iff, quiet_holds quiet, ← holder_iff]
  exact isHolder

theorem place_here {append : Bool} (isLive : objectExists world obj = true)
    (isHolder : IsHolder world con) (placed : placeObject world obj con append = .ok moved) :
    getContainer moved obj = con := by
  unfold placeObject at placed
  simp only [isLive, isHolder.1, isHolder.2, Bool.not_true, Bool.false_eq_true, if_false] at placed
  rcases bind_ok.mp placed with ⟨⟨prev, cur⟩, _, ended⟩
  cases ended
  apply set_container_here
  rw [quiet_live (set_next_quiet _ _ _)]
  split_ifs
  · rw [quiet_live (set_next_quiet _ _ _), isLive]
  · rw [quiet_live (set_attribute_quiet _ _ _ _), isLive]

theorem move_here (isLive : objectExists world obj = true) (isHolder : IsHolder world con)
    (placed : moveObject world obj con = .ok moved) : getContainer moved obj = con := by
  unfold moveObject at placed
  simp only [isLive, isHolder.1, Bool.not_true, Bool.false_eq_true, if_false] at placed
  rcases bind_ok.mp placed with ⟨middle, wasCut, ended⟩
  have quiet := cut_quiet wasCut
  have stillLive : objectExists middle obj = true := by rw [quiet_live quiet, isLive]
  exact place_here stillLive (quiet_holder quiet isHolder) ended

def Lies (world : World cfg) (obj : Object) : Prop :=
  objectExists world obj = true → objectExists world (getContainer world obj) = true

theorem edge_lies (forest : Forest (liveRecord world) kids) (edge : obj ∈ kids con) :
    Lies world obj := by
  intro _
  rw [(member_container forest edge).2]
  exact holder_exists (forest.parent_holds edge)

theorem skip_member {row : List Object} {first : Object} (index : Nat)
    (chain : Chain NONE (getNextObject world) first row)
    (some : getContainerObject.skip world index first ≠ NONE) :
    getContainerObject.skip world index first ∈ row := by
  induction index generalizing first row with
  | zero =>
    cases row with
    | nil => exact (some chain).elim
    | cons node rest =>
      rw [chain.1]
      exact List.mem_cons_self
  | succ index ih =>
    rw [getContainerObject.skip] at some ⊢
    split_ifs at some ⊢ with empty
    · exact (some empty).elim
    rcases row with _ | ⟨node, rest⟩
    · exact (empty chain).elim
    have later := chain.2.2
    rw [← chain.1] at later
    exact List.mem_cons_of_mem _ (ih later some)

theorem container_object_edge {index : Int} (forest : Forest (liveRecord world) kids)
    (some : getContainerObject world con index ≠ NONE) :
    getContainerObject world con index ∈ kids con := by
  unfold getContainerObject at some ⊢
  split_ifs at some ⊢ with negative isLive
  · exact (some rfl).elim
  · exact skip_member _ (row_chain forest isLive) some
  · exact (some rfl).elim

theorem body_object_edge {position : Nat} (forest : Forest (liveRecord state.world) kids)
    (some : getBodyObject state creatureID position ≠ NONE) :
    getBodyObject state creatureID position ∈ kids (getBodyContainer state creatureID position) := by
  unfold getBodyObject at some ⊢
  have slotSome : getBodyContainer state creatureID position ≠ NONE := by
    intro missing
    rw [missing] at some
    exact some rfl
  have slotLive : objectExists state.world (getBodyContainer state creatureID position) = true := by
    unfold getBodyContainer at slotSome ⊢
    split_ifs at slotSome ⊢ with outside
    · exact (slotSome rfl).elim
    rcases found : state.creatures creatureID with _ | creature
    · rw [found] at slotSome
      exact (slotSome rfl).elim
    simp only [found] at slotSome ⊢
    split_ifs at slotSome ⊢
    · exact (member_container forest (container_object_edge forest slotSome)).1
    · exact (slotSome rfl).elim
  have chain := row_chain forest slotLive
  rcases inside : kids (getBodyContainer state creatureID position) with _ | ⟨node, rest⟩
  · rw [inside] at chain
    exact (some chain).elim
  rw [inside] at chain
  rw [chain.1]
  exact List.mem_cons_self

theorem part_live (permanent : kinds world 0 = .permanent) (lies : Lies world obj)
    (isLive : objectExists world obj = true) (cut : splitObject world obj count = .ok (part, moved)) :
    objectExists moved part = true := by
  by_cases separates : Parted world obj count
  · have shared := split_stacks permanent isLive (lies isLive) separates cut
    rw [live_of_stack, shared.new]
    rfl
  rw [split_whole separates isLive] at cut
  cases cut
  exact isLive

/-- What `move` needs to be able to cut a part off. -/
structure Cuttable (world : World cfg) (obj : Object) : Prop where
  permanent : kinds world 0 = .permanent
  lies : Lies world obj

theorem edge_cuttable (sound : Sound world kids) (edge : obj ∈ kids con) : Cuttable world obj where
  permanent := sound.described.agreement.permanent
  lies := edge_lies sound.described.forest edge

theorem move_or_nothing {ignore : Object} (cuttable : Cuttable state.world obj) :
    Meets (move surroundings creatureID obj con count noMerge ignore) state
      (fun _ after => (∃ top, triesMerge state.world obj con noMerge = true ∧
          topOn state.world con = .ok top ∧
          MergeStep mergeObjects state creatureID obj top count after) ∨
        objectExists state.world obj = true ∧ CarryStep state creatureID obj con
          (moveCount state.world obj count) (splits state.world obj count) after)
      (fun _ after => after = state) fun _ => True := by
  apply move_outcome
  intro _ isLive part parted cut
  exact part_live cuttable.permanent cuttable.lies isLive cut

theorem whole_unsplit : splits world obj (-1) = false := by
  exact decide_eq_false Int32.lt_irrefl

/-- One object has come to a container, and nothing else has changed. -/
structure Displaced (before after : World cfg) (dest con : Object) : Prop where
  table : kinds after = kinds before
  here : getContainer after dest = con
  others : ∀ node, node ≠ dest → objectExists before node = true →
    getContainer after node = getContainer before node
  amounts : ∀ node, stackOf after node = stackOf before node

theorem carry_step_displaced (isLive : objectExists state.world dest = true)
    (isHolder : IsHolder state.world con)
    (step : CarryStep state creatureID dest con count false after) :
    Displaced state.world after.world dest con := by
  cases step with
  | @carried part parted moved cut placed =>
    rw [noted_objects_world]
    rw [cut.1, cut.2] at placed
    have quiet := move_object_quiet placed
    constructor
    · exact quiet.table
    · exact move_here isLive isHolder placed
    · intro node different nodeLive
      have same := move_containers placed node different
      rw [container_of_live nodeLive, container_of_live (by rw [quiet_live quiet, nodeLive]),
        Option.some.injEq] at same
      exact same
    · exact move_view stack_unlinked placed

/-- An object lies where it lay after another one has come to its container. -/
theorem Displaced.cuttable (displaced : Displaced world moved dest con) (sound : Sound world kids)
    (edge : obj ∈ kids con) : Cuttable moved obj := by
  have same : ∀ node, objectExists moved node = objectExists world node := by
    intro node
    rw [Bool.eq_iff_iff, exists_iff_type, displaced.table, ← exists_iff_type]
  have member := member_container sound.described.forest edge
  have conLive : objectExists moved con = true := by
    rw [same]
    exact holder_exists (sound.described.forest.parent_holds edge)
  constructor
  · rw [displaced.table]
    exact sound.described.agreement.permanent
  intro _
  by_cases here : obj = dest
  · rw [here, displaced.here]
    exact conLive
  rw [displaced.others obj here member.1, member.2]
  exact conLive

theorem merge_step_cuttable {old top : Object} (sound : Sound state.world kids)
    (edge : obj ∈ kids con) (destEdge : dest ∈ kids old)
    (step : MergeStep mergeObjects state creatureID dest top count after) :
    Cuttable after.world obj := by
  cases step with
  | itself same => exact edge_cuttable sound edge
  | part mergeable less => exact edge_cuttable (parts_moved_kept sound).sound edge
  | whole mergeable all joined =>
    have gone := merge_gone sound destEdge mergeable joined
    apply Cuttable.mk gone.sound.described.agreement.permanent
    intro isLive
    have outside := ((gone.survivors obj).mp isLive).2
    have inside : obj ∈ prune kids dest con := by
      rw [prune_outside (fun under => outside (below_step under edge))]
      apply (List.mem_erase_of_ne _).mpr edge
      intro same
      rw [same] at outside
      exact outside (below_refl kids dest)
    exact edge_lies gone.sound.described.forest inside isLive

/-- One stack has been filled up from another, and nothing else has changed. -/
structure Filled (before after : GameState cfg) (obj dest : Object) : Prop where
  stack : (getObjectType before.world obj).getFlag .cumulative = true
  type : getObjectType before.world dest = getObjectType before.world obj
  creatures : after.creatures = before.creatures
  table : kinds after.world = kinds before.world
  containers : ∀ node, objectExists before.world node = true →
    getContainer after.world node = getContainer before.world node
  others : ∀ node, node ≠ obj → node ≠ dest → stackOf after.world node = stackOf before.world node
  full : getAttribute after.world dest .amount = 100
  total : getAttribute after.world obj .amount + getAttribute after.world dest .amount =
    getAttribute before.world obj .amount + getAttribute before.world dest .amount

theorem amount_of_stack {type : ObjectType cfg} {amount : UInt32}
    (found : stackOf world obj = some (type, amount)) : getAttribute world obj .amount = amount := by
  have isLive : objectExists world obj = true := by
    rw [live_of_stack, found]
    rfl
  rw [stack_of_live isLive, Option.some.injEq, Prod.mk.injEq] at found
  exact found.2

theorem moved_parts_le {number : UInt8} (stack : (getObjectType world obj).getFlag .cumulative = true) :
    movedParts world obj number ≤ (getAttribute world obj .amount).toInt32 ∧
      (movedParts world obj number = (getAttribute world obj .amount).toInt32 ∨
        0 ≤ movedParts world obj number) := by
  unfold movedParts
  dsimp only
  split_ifs with fewer
  · exact ⟨Int32.le_refl _, .inl rfl⟩
  constructor
  · exact Int32.not_lt.mp fewer
  right
  rw [Int32.le_iff_toInt_le, to_int_small]
  · exact Int.natCast_nonneg _
  · have small := number.toNat_lt
    rw [UInt8.toNat_toUInt32]
    omega

/-- When parts are left over, the stack was filled up, and the other one is not used up. -/
theorem fill_count_part {objAmount destAmount moveCount : Int32} (most : moveCount ≤ objAmount)
    (sign : moveCount = objAmount ∨ 0 ≤ moveCount) (some : 0 < fillCount destAmount moveCount)
    (within : ¬ objAmount < fillCount destAmount moveCount)
    (left : ¬ moveCount - fillCount destAmount moveCount ≤ 0) :
    fillCount destAmount moveCount = 100 - destAmount ∧
      fillCount destAmount moveCount < objAmount := by
  by_cases excess : 100 < destAmount + moveCount
  · have given : fillCount destAmount moveCount = 100 - destAmount := if_pos excess
    rw [given] at some within left ⊢
    generalize 100 - destAmount = room at some within left
    constructor
    · rfl
    have zero : (0 : Int32).toInt = 0 := rfl
    rw [Int32.lt_iff_toInt_lt] at some within ⊢
    rw [Int32.le_iff_toInt_le, Int32.toInt_sub] at left
    rw [Int32.le_iff_toInt_le] at most
    have nonneg : 0 ≤ moveCount.toInt := by
      rcases sign with all | nonneg
      · rw [all]
        omega
      rw [Int32.le_iff_toInt_le] at nonneg
      omega
    have upper := Int32.toInt_lt moveCount
    have roomUpper := Int32.toInt_lt room
    have difference : (moveCount.toInt - room.toInt).bmod (2 ^ 32) =
        moveCount.toInt - room.toInt := by
      apply Int.bmod_eq_of_le <;> omega
    omega
  have given : fillCount destAmount moveCount = moveCount := if_neg excess
  rw [given, Int32.sub_self] at left
  exact (left (Int32.le_refl 0)).elim

theorem merge_count_given (some : 0 < count) : mergeCount world obj count = count := by
  apply if_neg
  intro all
  rw [all] at some
  exact absurd some (by decide)

theorem part_filled (mergeable : Mergeable state.world obj dest count)
    (less : count < (getAttribute state.world obj .amount).toInt32) (some : 0 < count)
    (given : count = 100 - (getAttribute state.world dest .amount).toInt32) :
    Filled state { state with world := partsMoved state.world obj dest count } obj dest := by
  have parts : mergeCount state.world obj count = count := merge_count_given some
  have full : (getAttribute state.world dest .amount).toInt32 + count = 100 := by
    grind
  have found := stack_of_live mergeable.live
  have objSome : getAttribute state.world obj .amount ≠ 0 := by
    intro zero
    rw [zero] at less
    exact Int32.lt_irrefl (Int32.lt_trans some less)
  have leftSome : ((getAttribute state.world obj .amount).toInt32 - count).toUInt32 ≠ 0 := by
    intro zero
    have none : (getAttribute state.world obj .amount).toInt32 - count = 0 := by
      rw [← Int32.toInt32_toUInt32 ((getAttribute state.world obj .amount).toInt32 - count), zero]
      rfl
    have all : count = (getAttribute state.world obj .amount).toInt32 := by grind
    rw [← all] at less
    exact Int32.lt_irrefl less
  have two := two_stacks mergeable (amount_stored found objSome) leftSome
    (show (100 : Int32).toUInt32 ≠ 0 by decide)
  have world := parts_moved_eq mergeable
  rw [parts, full] at world
  have objStack := two obj
  have destStack := two dest
  rw [if_neg mergeable.apart, if_pos rfl] at objStack
  rw [if_pos rfl] at destStack
  rw [world]
  apply Filled.mk
  · exact mergeable.stack
  · exact mergeable.type.symm
  · rfl
  · exact ((set_attribute_quiet _ _ _ _).trans (set_attribute_quiet _ _ _ _)).table
  · intro node isLive
    have same := ((set_attribute_containers state.world obj .amount
      ((getAttribute state.world obj .amount).toInt32 - count).toUInt32).trans
        (set_attribute_containers _ dest .amount (100 : Int32).toUInt32)) node
    have quiet : Quiet state.world (setAttribute (setAttribute state.world obj .amount
        ((getAttribute state.world obj .amount).toInt32 - count).toUInt32) dest .amount
          (100 : Int32).toUInt32) := (set_attribute_quiet _ _ _ _).trans (set_attribute_quiet _ _ _ _)
    rw [container_of_live isLive, container_of_live (by rw [quiet_live quiet, isLive]),
      Option.some.injEq] at same
    exact same
  · intro node notObj notDest
    rw [two, if_neg notDest, if_neg notObj]
  · exact amount_of_stack destStack
  · rw [amount_of_stack objStack, amount_of_stack destStack, ← full, Int32.toUInt32_sub,
      Int32.toUInt32_add, UInt32.toUInt32_toInt32, UInt32.toUInt32_toInt32]
    grind

theorem fill_stack_outcome {number : UInt8}
    (stack : (getObjectType state.world obj).getFlag .cumulative = true) :
    Meets (fillStack surroundings creatureID obj dest (movedParts state.world obj number)) state
      (fun left after => left = none ∨ after = state ∨ Filled state after obj dest)
      (fun _ after => after = state) fun _ => True := by
  rcases @moved_parts_le cfg state.world obj number stack with ⟨most, sign⟩
  generalize movedParts state.world obj number = moveCount at most sign ⊢
  apply meets_get
  by_cases some : 0 < fillCount (getAttribute state.world dest .amount).toInt32 moveCount
  · rw [if_pos some]
    apply meets_catch
    · apply meets_bind merge_outcome
      intro _ middle step
      apply meets_pure
      split_ifs with used
      · exact .inl rfl
      right
      have within : Mergeable state.world obj dest
          (fillCount (getAttribute state.world dest .amount).toInt32 moveCount) →
          ¬ (getAttribute state.world obj .amount).toInt32 <
            fillCount (getAttribute state.world dest .amount).toInt32 moveCount := by
        intro mergeable
        have counted := mergeable.counted
        rw [countRefused, mergeable.stack, Bool.true_and, Bool.or_eq_false_iff] at counted
        exact of_decide_eq_false counted.2
      cases step with
      | itself same => exact .inl rfl
      | part mergeable _ =>
        rcases fill_count_part most sign some (within mergeable) used with ⟨given, less⟩
        exact .inr (part_filled mergeable less some given)
      | whole mergeable all joined =>
        rcases fill_count_part most sign some (within mergeable) used with ⟨_, less⟩
        rw [merge_count_given some] at all
        exact (all less).elim
    intro result after same
    rw [same]
    split_ifs
    · exact meets_throw rfl
    · exact meets_pure (.inr (.inl rfl))
  rw [if_neg some]
  exact meets_pure (.inr (.inl rfl))

theorem Filled.cuttable (filled : Filled state after obj dest) (cuttable : Cuttable state.world obj) :
    Cuttable after.world obj := by
  have same : ∀ node, objectExists after.world node = objectExists state.world node := by
    intro node
    rw [Bool.eq_iff_iff, exists_iff_type, filled.table, ← exists_iff_type]
  constructor
  · rw [filled.table]
    exact cuttable.permanent
  intro isLive
  rw [same] at isLive
  rw [filled.containers obj isLive, same]
  exact cuttable.lies isLive

theorem grant_keeps {Value : Type} (ended : Except Result Value) :
    Keeps (grant ended : Operate cfg Value) state := by
  cases ended with
  | error result => exact keeps_throw
  | ok value => exact keeps_pure

theorem accepts_keeps {check : Operate cfg Unit} (keeps : Keeps check state) :
    Keeps (accepts check) state := by
  apply keeps_catch
  · apply keeps.bind
    intro _
    exact keeps_pure
  · intro _
    exact keeps_pure

theorem search_slot_keeps (positions : List Nat) (found : Nat) :
    Keeps (searchSlot creatureID obj positions found : Operate cfg Nat) state := by
  induction positions generalizing found with
  | nil => exact keeps_pure
  | cons position rest ih =>
    apply keeps_get
    apply (accepts_keeps check_inventory_destination_keeps).bind
    intro accepted
    split_ifs
    · exact keeps_pure
    · exact ih position
    · exact ih found

theorem search_container_keeps (positions : List Nat) (found : Nat) :
    Keeps (searchContainer creatureID obj positions found : Operate cfg Nat) state := by
  induction positions generalizing found with
  | nil => exact keeps_pure
  | cons position rest ih =>
    apply keeps_get
    dsimp only
    split_ifs
    · apply (accepts_keeps check_container_destination_keeps).bind
      intro accepted
      split_ifs
      · exact ih position
      · exact ih found
    · exact ih found

/-- The search for a slot changes nothing, and a place that is given stays. -/
theorem choose_place_spec (y : Int) :
    Meets (choosePlace creatureID obj y : Operate cfg Int) state
      (fun place after => after = state ∧ (y ≠ inventoryAny → place = y))
      (fun _ after => after = state) fun _ => True := by
  unfold choosePlace
  split_ifs with any
  · apply (search_slot_keeps slots inventoryAny).then
    intro slot
    have further : Keeps (if slot = inventoryAny then searchContainer creatureID obj slots inventoryAny
        else pure slot : Operate cfg Nat) state := by
      split_ifs
      · exact search_container_keeps slots inventoryAny
      · exact keeps_pure
    apply further.then
    intro chosen
    apply keeps_refuse.then
    intro _
    exact meets_pure ⟨rfl, fun different => (different any).elim⟩
  · exact meets_pure ⟨rfl, fun _ => rfl⟩

/-- The object of a slot has come to the container, or on a field to the stack on top. -/
def MadeWay (state : GameState cfg) (creatureID : UInt32) (dest con : Object)
    (after : GameState cfg) : Prop :=
  Displaced state.world after.world dest con ∨ ∃ top, topOn state.world con = .ok top ∧
    MergeStep mergeObjects state creatureID dest top (-1) after

/-- What a move of an object to a place may leave behind when it throws. -/
inductive Aftermath (bearings : Bearings cfg) (surroundings : Surroundings cfg)
    (state : GameState cfg) (creatureID : UInt32) (obj : Object) (y z : Int) : GameState cfg → Prop
  | unchanged : Aftermath bearings surroundings state creatureID obj y z state
  | filled {place : Int} {con dest : Object} {after : GameState cfg}
      (chosen : y ≠ inventoryAny → place = y)
      (there : destinationAt bearings state creatureID place z = .ok (con, dest))
      (filled : Filled state after obj dest) :
      Aftermath bearings surroundings state creatureID obj y z after
  | displaced {place : Int} {con dest : Object} {after : GameState cfg}
      (chosen : y ≠ inventoryAny → place = y) (slot : inInventory place = true)
      (there : destinationAt bearings state creatureID place z = .ok (con, dest))
      (some : dest ≠ NONE)
      (moved : finish (move surroundings creatureID dest (getContainer state.world obj) (-1) false
        NONE) state = .ok (.ok (), after))
      (madeWay : MadeWay state creatureID dest (getContainer state.world obj) after) :
      Aftermath bearings surroundings state creatureID obj y z after

/-- The object that leaves the slot does not take the other one along. -/
theorem make_way_outcome {old : Object} (sound : Sound state.world kids) (edge : obj ∈ kids con)
    (destEdge : dest ∈ kids old) :
    Meets (move surroundings creatureID dest con (-1) false NONE) state
      (fun _ after => MadeWay state creatureID dest con after ∧ Cuttable after.world obj)
      (fun _ after => after = state) fun _ => True := by
  apply (move_or_nothing (edge_cuttable sound destEdge)).imp_returns
  intro _ after ended
  rcases ended with merged | carried
  · rcases merged with ⟨top, _, found, step⟩
    exact ⟨.inr ⟨top, found, step⟩, merge_step_cuttable sound edge destEdge step⟩
  rcases carried with ⟨isLive, step⟩
  rw [whole_unsplit] at step
  have isHolder := holder_iff.mpr (sound.described.forest.parent_holds edge)
  have displaced := carry_step_displaced isLive isHolder step
  exact ⟨.inl displaced, displaced.cuttable sound edge⟩

theorem move_or_exchange_outcome {y : Int} (cuttable : Cuttable state.world obj)
    (makesWay : inInventory y = true → dest ≠ NONE →
      Meets (move surroundings creatureID dest (getContainer state.world obj) (-1) false NONE) state
        (fun _ after => MadeWay state creatureID dest (getContainer state.world obj) after ∧
          Cuttable after.world obj) (fun _ after => after = state) fun _ => True) :
    Meets (moveOrExchange surroundings creatureID obj con count y dest) state (fun _ _ => True)
      (fun _ after => after = state ∨ (inInventory y = true ∧ dest ≠ NONE) ∧
        finish (move surroundings creatureID dest (getContainer state.world obj) (-1) false NONE)
          state = .ok (.ok (), after) ∧
        MadeWay state creatureID dest (getContainer state.world obj) after) fun _ => True := by
  apply meets_bind (keeps_refuse.imp_throws fun _ _ same => .inl same)
  intro _ middle same
  rw [same]
  apply meets_catch
  · exact (move_or_nothing cuttable).imp_returns fun _ _ _ => trivial
  intro result middle same
  rw [same]
  split_ifs with exchanged
  · simp only [Bool.and_eq_true, decide_eq_true_eq] at exchanged
    rcases exchanged with ⟨occupied, _⟩
    apply meets_get
    apply meets_bind ((makesWay occupied.1 occupied.2).traced.imp_throws fun _ _ same => .inl same)
    intro _ middle ended
    rcases ended with ⟨moved, madeWay, stillCuttable⟩
    apply ((move_or_nothing stillCuttable).imp_returns fun _ _ _ => trivial).imp_throws
    intro _ after same
    rw [same]
    exact .inr ⟨occupied, moved, madeWay⟩
  · exact meets_throw (.inl rfl)

theorem move_or_refuse_outcome {y : Int} (cuttable : Cuttable state.world obj) :
    Meets (moveOrExchange surroundings creatureID obj con count y NONE) state (fun _ _ => True)
      (fun _ after => after = state) fun _ => True := by
  apply (move_or_exchange_outcome cuttable fun _ some => (some rfl).elim).imp_throws
  intro _ after ended
  rcases ended with same | begun
  · exact same
  · exact (begun.1.2 rfl).elim

theorem slot_object {place z : Int} (slot : inInventory place = true)
    (there : destinationAt bearings state creatureID place z = .ok (con, dest)) :
    dest = getBodyObject state creatureID place.toNat := by
  unfold destinationAt at there
  rw [if_pos slot, Except.ok.injEq, Prod.mk.injEq] at there
  exact there.2.symm

theorem move_inside_outcome {y z : Int} {number : UInt8} (sound : Sound state.world kids)
    (edge : obj ∈ kids (getContainer state.world obj)) :
    Meets (moveInside bearings surroundings creatureID obj y z (movedParts state.world obj number))
      state (fun _ _ => True)
      (fun _ after => Aftermath bearings surroundings state creatureID obj y z after)
      fun _ => True := by
  have cuttable := edge_cuttable sound edge
  apply meets_bind ((choose_place_spec y).imp_throws _)
  · intro place middle found
    rw [found.1]
    apply meets_get
    rcases there : destinationAt bearings state creatureID place z with result | destination
    · exact meets_throw .unchanged
    rcases destination with ⟨con, dest⟩
    have simple : ∀ {con : Object} {count : Int32},
        Meets (moveOrExchange surroundings creatureID obj con count place NONE) state
          (fun _ _ => True)
          (fun _ after => Aftermath bearings surroundings state creatureID obj y z after)
          fun _ => True := by
      intro con count
      apply (move_or_refuse_outcome cuttable).imp_throws
      intro _ after same
      rw [same]
      exact .unchanged
    apply meets_bind (meets_pure ⟨rfl, rfl⟩ :
      Meets (grant (.ok (con, dest)) : Operate cfg (Object × Object)) state
        (fun result after => result = (con, dest) ∧ after = state) _ _)
    intro result middle both
    rw [both.1, both.2]
    dsimp only
    split_ifs with empty inside stacked
    · exact simple
    · exact simple
    · rw [stacked.2] at stacked
      apply meets_bind ((fill_stack_outcome stacked.1).imp_throws _)
      · intro left middle filled
        rcases left with _ | left
        · exact meets_pure trivial
        rcases filled with none | same | filled
        · cases none
        · rw [same]
          exact simple
        · apply (move_or_refuse_outcome (filled.cuttable cuttable)).imp_throws
          intro _ after same
          rw [same]
          exact .filled found.2 there filled
      · intro _ after same
        rw [same]
        exact .unchanged
    · apply (move_or_exchange_outcome cuttable _).imp_throws
      · intro _ after ended
        rcases ended with same | begun
        · rw [same]
          exact .unchanged
        rcases begun with ⟨⟨slot, some⟩, moved, madeWay⟩
        exact .displaced found.2 slot there some moved madeWay
      intro slot some
      have body := slot_object slot there
      rw [body] at some
      rw [body]
      exact make_way_outcome sound edge (body_object_edge sound.described.forest some)
  · intro _ after same
    rw [same]
    exact .unchanged

theorem move_outside_outcome {x y z : Int} (cuttable : Cuttable state.world obj) :
    Meets (moveOutside bearings surroundings creatureID obj x y z count) state (fun _ _ => True)
      (fun _ after => after = state) fun _ => True := by
  apply meets_get
  apply refused_then
  intro _
  split_ifs
  · exact (answer_keeps _).imp_returns fun _ _ _ => trivial
  · exact (move_or_nothing cuttable).imp_returns fun _ _ _ => trivial

theorem go_outcome {x y z : Int} (cuttable : Cuttable state.world obj) :
    Meets (go bearings surroundings creatureID obj x y z) state (fun _ _ => True)
      (fun _ after => after = state) fun _ => True := by
  apply meets_get
  apply (grant_keeps _).then
  intro place
  exact (move_or_nothing cuttable).imp_returns fun _ _ _ => trivial

/-- A creature without open windows, and with no hook in sight. -/
def resting : Bearings cfg where
  openContainer := fun _ _ _ => NONE
  step := fun _ _ x y z => .ok (x, y, z)
  hookAway := fun _ _ _ _ _ _ => false
  walkRefused := fun _ _ _ _ _ _ => none

/-- Every object that existed is where it was, and has as many parts as it had. -/
def Undone (before after : World cfg) : Prop :=
  ∀ node, objectExists before node = true → objectExists after node = true ∧
    getContainer after node = getContainer before node ∧
    getAttribute after node .amount = getAttribute before node .amount

/-- Something is moved from the first field to the right hand, which is not empty. -/
def handMove {types : GameConfig} (surroundings : Surroundings types) : Operate types Unit :=
  creatureMove resting surroundings 5 ⟨15⟩ 0xFFFF inventoryRightHand 0 60

def twoStacks : List (Furniture smallTypes) :=
  person 5 3 ++ [⟨⟨9⟩, setTypeID smallTypes 102, 0, 70⟩, ⟨⟨1⟩, setTypeID smallTypes 102, 0, 60⟩]

/-- A helmet in the right hand, and more coins on the field than can be carried. -/
def heavyStack : List (Furniture CarryCapacity.heavyTypes) :=
  CarryCapacity.coinBearer.take 11 ++ [⟨⟨9⟩, setTypeID CarryCapacity.heavyTypes 104, 0, 0⟩,
    ⟨⟨1⟩, setTypeID CarryCapacity.heavyTypes 102, 0, 60⟩]

structure FacesHand {types : GameConfig} (state : GameState types) : Prop where
  live : objectExists state.world ⟨15⟩ = true
  field : getContainer state.world ⟨15⟩ = ⟨1⟩
  handLive : objectExists state.world ⟨14⟩ = true
  hand : getBodyObject state 5 inventoryRightHand = ⟨14⟩

def facesHand {types : GameConfig} (state : GameState types) : Bool :=
  objectExists state.world ⟨15⟩ && getContainer state.world ⟨15⟩ == ⟨1⟩ &&
    objectExists state.world ⟨14⟩ && getBodyObject state 5 inventoryRightHand == ⟨14⟩

theorem faces_hand {types : GameConfig} {state : GameState types} (passes : facesHand state = true) :
    FacesHand state := by
  simp only [facesHand, Bool.and_eq_true, beq_iff_eq] at passes
  exact ⟨passes.1.1.1, passes.1.1.2, passes.1.2, passes.2⟩

/-- Thirty coins go to the hand, and then there is no room for the others. -/
theorem coins_stay_in_the_hand : ∃ (state after : GameState smallTypes)
    (kids : Object → List Object) (result : Result), Sound state.world kids ∧ FacesHand state ∧
      finish (handMove idle) state = .ok (.error result, after) ∧
      getAttribute state.world ⟨15⟩ .amount = 60 ∧ getAttribute after.world ⟨15⟩ .amount = 30 := by
  have passes : furnishedSuch twoStacks (fun world => facesHand (onePerson world) &&
      getAttribute world ⟨15⟩ .amount == 60 &&
      throwsSuch (handMove idle) (onePerson world) fun after =>
        getAttribute after.world ⟨15⟩ .amount == 30) = true := by
    decide +kernel
  rcases furnished_such passes with ⟨world, kids, sound, test⟩
  simp only [Bool.and_eq_true, beq_iff_eq] at test
  rcases test with ⟨⟨faces, sixty⟩, throws⟩
  rcases throws_such throws with ⟨result, after, ended, thirty⟩
  rw [beq_iff_eq] at thirty
  exact ⟨onePerson world, after, kids, result, sound, faces_hand faces, ended, sixty, thirty⟩

end TibiaGame.InventoryExchange
