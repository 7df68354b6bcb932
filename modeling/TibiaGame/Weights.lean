import TibiaGame.StackAmounts
import TibiaGame.MoveForest
import TibiaGame.Library.ForestSums

/-!
# What objects and inventories weigh

The weights of `info.cpp` and both forms of `check_weight`. The weights are 32-bit
sums along the content lists; in a forest they are the sums over all that lies inside
an object, taken modulo 2^32.
-/

namespace TibiaGame.Weights

open GameTypes ObjectStore ObjectOperations ContentForest ForestSteps ForestOperations
open ForestRuns InfoModel OperateModel ContainerWalks StackAmounts
open Library.LinkedList Library.OrderedForest Library.ForestSums

variable {cfg : GameConfig} {state : GameState cfg} {world : World cfg}
  {kids : Object → List Object} {obj con : Object} {type : ObjectType cfg} {amount : UInt32}

/-- The weights that `get_weight` has for four types that cannot be taken. -/
def fixedWeight (type : ObjectType cfg) : Nat :=
  if type.typeID = 2904 then 19500
  else if type.typeID = 3458 then 50000
  else if type.typeID = 3510 then 22800
  else if type.typeID = 4311 then 80000
  else 0

def getWeight (world : World cfg) (obj : Object) (count : Int32) : Int32 :=
  if !objectExists world obj then 0
  else
    let objType := getObjectType world obj
    if objType.getFlag .take then
      let count := if !objType.getFlag .cumulative then 1
        else if count = -1 then (getAttribute world obj .amount).toInt32
        else count
      (objType.getAttribute .weight).toInt32 * count
    else Int32.ofNat (fixedWeight objType)

def rowWeight (world : World cfg) : Nat → Object → Except Halt Int32
  | 0, _ => .error .hang
  | fuel + 1, obj =>
      if obj = NONE then .ok 0
      else do
        let inside ← (if (getObjectType world obj).holdsObjects then
            rowWeight world fuel (getFirstContainerObject world obj)
          else .ok 0)
        .ok (getWeight world obj (-1) + inside + (← rowWeight world fuel (getNextObject world obj)))

def getRowWeight (world : World cfg) (obj : Object) : Except Halt Int32 :=
  rowWeight world walkLimit obj

def getCompleteWeight (world : World cfg) (obj : Object) : Except Halt Int32 :=
  if (getObjectType world obj).holdsObjects then do
    .ok (getWeight world obj (-1) + (← getRowWeight world (getFirstContainerObject world obj)))
  else .ok (getWeight world obj (-1))

def getInventoryWeight (state : GameState cfg) (creatureID : UInt32) : Except Halt Int32 :=
  match state.creatures creatureID with
  | none => .ok 0
  | some creature =>
      getRowWeight state.world (getFirstContainerObject state.world creature.crObject)

/-- The skill `SKILL_CARRY_STRENGTH` and the rights that `check_weight` asks for. -/
structure Capacities where
  carryStrength : UInt32 → Option Int32
  unlimitedCapacity : UInt32 → Bool
  zeroCapacity : UInt32 → Bool

/-- The part that both forms of `check_weight` share: `MaxWeight`, unless nothing is
to be weighed. -/
def maxWeight (capacities : Capacities) (state : GameState cfg) (creatureID : UInt32)
    (type : ObjectType cfg) : Except Result (Option Int32) :=
  if (state.creatures creatureID).isNone then .error .error
  else if !type.getFlag .take then .error .tooHeavy
  else if isCreaturePlayer state creatureID && capacities.unlimitedCapacity creatureID then .ok none
  else if isCreaturePlayer state creatureID && capacities.zeroCapacity creatureID then
    .error .tooHeavy
  else match capacities.carryStrength creatureID with
    | none => .error .error
    | some strength => .ok (some (strength * 100))

/-- The inventory and what is added weigh more than the creature can carry. A walk
that has no end is refused here. -/
def tooHeavy (added inventory : Except Halt Int32) (limit : Int32) : Option Result :=
  match added, inventory with
  | .ok added, .ok inventory => if limit < inventory + added then some .tooHeavy else none
  | _, _ => some .error

/-- `check_weight` of an object, behind the look at its owner. -/
def weightRefused (capacities : Capacities) (state : GameState cfg) (creatureID : UInt32)
    (obj : Object) (count : Int32) : Option Result :=
  match maxWeight capacities state creatureID (getObjectType state.world obj) with
  | .error result => some result
  | .ok none => none
  | .ok (some limit) =>
      tooHeavy (if (getObjectType state.world obj).getFlag .cumulative then
          .ok (getWeight state.world obj count)
        else getCompleteWeight state.world obj) (getInventoryWeight state creatureID) limit

/-- `TypeWeight` of `check_weight` for a type. -/
def typeWeight (type : ObjectType cfg) (value : UInt32) : Int32 :=
  if type.getFlag .cumulative && decide (1 < value.toInt32) then
    (type.getAttribute .weight).toInt32 * value.toInt32
  else (type.getAttribute .weight).toInt32

/-- `check_weight` of a type. -/
def typeWeightRefused (capacities : Capacities) (state : GameState cfg) (creatureID : UInt32)
    (type : ObjectType cfg) (value : UInt32) (oldWeight : Int32) : Option Result :=
  match maxWeight capacities state creatureID type with
  | .error result => some result
  | .ok none => none
  | .ok (some limit) =>
      if oldWeight < typeWeight type value then
        tooHeavy (.ok (typeWeight type value)) (getInventoryWeight state creatureID) limit
      else none

def weighing (capacities : Capacities) (surroundings : Surroundings cfg) : Surroundings cfg :=
  { surroundings with
    weightRefused := weightRefused capacities
    typeWeightRefused := typeWeightRefused capacities
    weight := fun state obj => getWeight state.world obj (-1) }

def unitWeight : Option (ObjectType cfg × UInt32) → Nat
  | none => 0
  | some (type, amount) =>
      if type.getFlag .take then
        (type.getAttribute .weight).toNat * (if type.getFlag .cumulative then amount.toNat else 1)
      else fixedWeight type

def weightOf (world : World cfg) (obj : Object) : Nat := unitWeight (stackOf world obj)

/-- The sum of `get_row_weight` without a wrap. -/
def rowNumber (world : World cfg) : Nat → Object → Nat
  | 0, _ => 0
  | fuel + 1, obj =>
      if obj = NONE then 0
      else weightOf world obj + (if (getObjectType world obj).holdsObjects then
          rowNumber world fuel (getFirstContainerObject world obj)
        else 0) + rowNumber world fuel (getNextObject world obj)

def carriedWeight (world : World cfg) (obj : Object) : Nat :=
  rowNumber world walkLimit (getFirstContainerObject world obj)

theorem to_int_of_nat (value : UInt32) : value.toInt32 = Int32.ofNat value.toNat := by
  have number : Int32.ofNat value.toNat = (UInt32.ofNat value.toNat).toInt32 := rfl
  rw [number, UInt32.ofNat_toNat]

theorem get_weight_eq (isLive : objectExists world obj = true) :
    getWeight world obj (-1) = Int32.ofNat (weightOf world obj) := by
  rw [getWeight, weightOf, stack_of_live isLive, unitWeight, isLive]
  simp only [Bool.not_true, Bool.false_eq_true, if_false, if_true]
  cases (getObjectType world obj).getFlag .take with
  | true =>
    rw [if_pos rfl, if_pos rfl, Int32.ofNat_mul, to_int_of_nat]
    cases (getObjectType world obj).getFlag .cumulative with
    | true =>
      rw [to_int_of_nat]
      rfl
    | false => rfl
  | false => rfl

theorem get_weight_parts (isLive : objectExists world obj = true)
    (taken : (getObjectType world obj).getFlag .take = true)
    (stack : (getObjectType world obj).getFlag .cumulative = true) {count : Int32}
    (notAll : count ≠ -1) : getWeight world obj count =
      ((getObjectType world obj).getAttribute .weight).toInt32 * count := by
  simp [getWeight, isLive, taken, stack, notAll]

section Sums

noncomputable def rowSize (kids : Object → List Object) (members : List Object) : Nat :=
  (members.map fun node => {x | Below kids node x}.ncard).sum

theorem plain_row (forest : Forest (liveRecord world) kids)
    (plain : ¬ (getObjectType world obj).holdsObjects = true) : kids obj = [] := by
  apply forest.barren
  rw [ne_eq, ← holder_iff]
  intro isHolder
  exact plain isHolder.2

/-- With enough steps the walk returns, and its result is the sum of the loads. -/
theorem row_weight_walk (forest : Forest (liveRecord world) kids) (fuel : Nat) :
    ∀ members first, Chain NONE (getNextObject world) first members →
      (∀ node ∈ members, objectExists world node = true) → rowSize kids members + 1 ≤ fuel →
      rowNumber world fuel first = (members.map (load kids (weightOf world))).sum ∧
        rowWeight world fuel first = .ok (Int32.ofNat (rowNumber world fuel first)) := by
  induction fuel with
  | zero =>
    intro members first chain alive enough
    omega
  | succ fuel ih =>
    intro members first chain alive enough
    rcases members with _ | ⟨node, rest⟩
    · have ended : first = NONE := chain
      rw [rowNumber, rowWeight, if_pos ended, if_pos ended]
      exact ⟨rfl, rfl⟩
    rcases chain with ⟨here, inner, later⟩
    rw [← here] at inner later alive enough ⊢
    have isLive := alive first List.mem_cons_self
    have size := below_count forest.single forest.ranked (forest.nodup first)
    rw [rowSize, List.map_cons, List.sum_cons, size] at enough
    have walked := ih (kids first) _ (row_chain forest isLive)
      (fun child member => (member_container forest member).1)
      (by unfold rowSize; omega)
    have others := ih rest _ later
      (fun child member => alive child (List.mem_cons_of_mem first member))
      (by unfold rowSize; omega)
    have total : load kids (weightOf world) first =
        weightOf world first + ((kids first).map (load kids (weightOf world))).sum :=
      load_children forest.single forest.ranked (forest.nodup first)
    rw [rowNumber, rowWeight, if_neg inner, if_neg inner, List.map_cons, List.sum_cons, total,
      others.2, others.1, get_weight_eq isLive, Int32.ofNat_add, Int32.ofNat_add]
    split_ifs with holds
    · rw [walked.2, walked.1]
      exact ⟨rfl, rfl⟩
    · rw [plain_row forest holds]
      exact ⟨rfl, rfl⟩

variable (forest : Forest (liveRecord world) kids) (isLive : objectExists world obj = true)
include forest isLive

theorem content_walk :
    carriedWeight world obj = ((kids obj).map (load kids (weightOf world))).sum ∧
      getRowWeight world (getFirstContainerObject world obj) =
        .ok (Int32.ofNat (carriedWeight world obj)) := by
  apply row_weight_walk forest walkLimit (kids obj) _ (row_chain forest isLive)
  · intro node member
    exact (member_container forest member).1
  have size := below_count forest.single forest.ranked (forest.nodup obj)
  have bound := Set.ncard_le_card {x | Below kids obj x}
  have few := nat_card_object
  unfold rowSize walkLimit
  omega

/-- `get_row_weight` of a content list returns the sum of all weights in it. -/
theorem content_weight_spec :
    getRowWeight world (getFirstContainerObject world obj) =
      .ok (Int32.ofNat (carriedWeight world obj)) := (content_walk forest isLive).2

theorem load_eq : load kids (weightOf world) obj = weightOf world obj + carriedWeight world obj := by
  rw [(content_walk forest isLive).1]
  exact load_children forest.single forest.ranked (forest.nodup obj)

theorem complete_weight_spec :
    getCompleteWeight world obj = .ok (Int32.ofNat (load kids (weightOf world) obj)) := by
  rw [getCompleteWeight, load_eq forest isLive, Int32.ofNat_add, ← get_weight_eq isLive]
  split_ifs with holds
  · rw [content_weight_spec forest isLive]
    rfl
  have nothing := (content_walk forest isLive).1
  rw [plain_row forest holds] at nothing
  rw [nothing]
  exact congrArg Except.ok (Int32.add_zero _).symm

end Sums

end TibiaGame.Weights
