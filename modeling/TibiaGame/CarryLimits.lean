import TibiaGame.CarriedSteps

/-!
# What a creature may carry

The calls that can change what a creature carries, when the checks of the weight are
meant for them, and what a call that has passed its checks says about the weight.
-/

namespace TibiaGame.CarryLimits

open GameTypes ObjectStore ObjectOperations ForestOperations
open InfoModel ContainerWalks GroundedMap OperateModel OperateChanges
open OperateSteps FurnishedWorlds MoveForest
open WeightChecks Weights InventoryWeights CarriedSteps
open Library.OrderedForest Library.ForestSums

variable {cfg : GameConfig} {start state after : GameState cfg} {world : World cfg}
  {kids newKids : Object → List Object} {surroundings : Surroundings cfg} {capacities : Capacities}
  {creatureID mover : UInt32} {carrier obj con dest ignore : Object} {type newType : ObjectType cfg}
  {value : UInt32} {attr : InstanceAttribute} {count oldWeight inventory added : Int32} {noMerge : Bool}

inductive CarryCall (cfg : GameConfig) where
  | move (surroundings : Surroundings cfg) (mover : UInt32) (obj con : Object) (count : Int32)
      (noMerge : Bool) (ignore : Object)
  | merge (surroundings : Surroundings cfg) (mover : UInt32) (obj dest : Object) (count : Int32)
      (ignore : Object)
  | create (surroundings : Surroundings cfg) (con : Object) (type : ObjectType cfg) (value : UInt32)
  | changeValue (surroundings : Surroundings cfg) (obj : Object) (attr : InstanceAttribute)
      (value : UInt32)
  | change (surroundings : Surroundings cfg) (obj : Object) (newType : ObjectType cfg) (value : UInt32)

/-- The call, with the weights that `check_weight` looks at. -/
def callCarry (capacities : Capacities) : CarryCall cfg → Operate cfg Unit
  | .move surroundings mover obj con count noMerge ignore =>
      move (weighing capacities surroundings) mover obj con count noMerge ignore
  | .merge surroundings mover obj dest count ignore =>
      merge (weighing capacities surroundings) mover obj dest count ignore
  | .create surroundings con type value => do
      let _ ← create (weighing capacities surroundings) con type value
      pure ()
  | .changeValue surroundings obj attr value =>
      changeValue (weighing capacities surroundings) obj attr value
  | .change surroundings obj newType value => change (weighing capacities surroundings) obj newType value

structure Laden (capacities : Capacities) (state : GameState cfg) (creatureID : UInt32)
    (carrier : Object) : Prop where
  carrying : Carrier state creatureID carrier
  stands : IsField state.world (getContainer state.world carrier)
  limited : (isCreaturePlayer state creatureID && capacities.unlimitedCapacity creatureID) = false

/-- If the inventory has come to weigh more, it weighs no more than the creature can carry. -/
def WithinCapacity (capacities : Capacities) (creatureID : UInt32) (before after : GameState cfg) :
    Prop :=
  ∃ old new, getInventoryWeight before creatureID = .ok old ∧
    getInventoryWeight after creatureID = .ok new ∧
    (old < new → ∃ strength, capacities.carryStrength creatureID = some strength ∧
      new ≤ strength * 100)

/-- What the creature carries and what is added weigh less than 2^31. -/
def Light (world : World cfg) (carrier : Object) (more : Nat) : Prop :=
  carriedWeight world carrier + more < 2 ^ 31

def Plain (world : World cfg) (obj : Object) : Prop :=
  (getObjectType world obj).getFlag .cumulative = true →
    (getObjectType world obj).getFlag .take = true ∧ getFirstContainerObject world obj = NONE

def Stocked (world : World cfg) (obj : Object) : Prop :=
  (getObjectType world obj).getFlag .cumulative = true → getAttribute world obj .amount ≠ 0

/-- The counts are -1 or numbers of parts, and the objects are as they should be. -/
def Fair (carrier : Object) (creatureID : UInt32) (state : GameState cfg) : CarryCall cfg → Prop
  | .move _ _ obj con count _ _ =>
      (count = -1 ∨ 0 < count) ∧ Movable state.world obj con ∧ Plain state.world obj ∧
        Light state.world carrier (weightOf state.world obj + carriedWeight state.world obj)
  | .merge _ _ obj dest count _ =>
      (count = -1 ∨ 0 < count) ∧
        (objectExists state.world obj = true → getContainer state.world obj ≠ NONE) ∧
        Stocked state.world obj ∧ Stocked state.world dest ∧
        Light state.world carrier (weightOf state.world obj)
  | .create _ _ type value =>
      (type.isCreatureContainer = true →
        type.holdsObjects = true ∧ type.getFlag .take = false ∧ value ≠ creatureID) ∧
        Light state.world carrier (partWeight type * max 1 value.toNat)
  | .changeValue _ obj _ value =>
      Stocked state.world obj ∧
        Light state.world carrier (partWeight (getObjectType state.world obj) * max 1 value.toNat)
  | .change _ obj newType _ =>
      (objectExists state.world obj = true → getContainer state.world obj ≠ NONE) ∧
        (newType.holdsObjects = true → (getObjectType state.world obj).holdsObjects = true ∨
          (accessObject state.world obj).attributes 0 = 0) ∧
        (newType.getFlag .cumulative = true →
          (getObjectType state.world obj).getFlag .cumulative = true) ∧
        Stocked state.world obj ∧ Light state.world carrier (partWeight newType)

section Limits

def CanCarry (capacities : Capacities) (creatureID : UInt32) (weight : Int32) : Prop :=
  ∃ strength, capacities.carryStrength creatureID = some strength ∧ weight ≤ strength * 100

theorem max_weight_limit {limit : Option Int32}
    (limited : (isCreaturePlayer state creatureID && capacities.unlimitedCapacity creatureID) = false)
    (found : maxWeight capacities state creatureID type = .ok limit) :
    type.getFlag .take = true ∧ ∃ strength, capacities.carryStrength creatureID = some strength ∧
      limit = some (strength * 100) := by
  unfold maxWeight at found
  rw [limited] at found
  simp only [Bool.false_eq_true, if_false] at found
  split_ifs at found with missing fixed zero
  constructor
  · simpa using fixed
  rcases strong : capacities.carryStrength creatureID with _ | strength
  · rw [strong] at found
    cases found
  rw [strong] at found
  cases found
  exact ⟨strength, rfl, rfl⟩

theorem too_heavy_limit {limit : Int32} (passed : tooHeavy (.ok added) (.ok inventory) limit = none) :
    inventory + added ≤ limit := by
  unfold tooHeavy at passed
  dsimp only at passed
  split_ifs at passed with heavy
  exact Int32.not_lt.mp heavy

variable
    (limited : (isCreaturePlayer state creatureID && capacities.unlimitedCapacity creatureID) = false)
include limited

theorem weight_limit (passed : weightRefused capacities state creatureID obj count = none)
    (known : getInventoryWeight state creatureID = .ok inventory) :
    (getObjectType state.world obj).getFlag .take = true ∧ ∀ added,
      (if (getObjectType state.world obj).getFlag .cumulative then
        .ok (getWeight state.world obj count) else getCompleteWeight state.world obj) = .ok added →
      CanCarry capacities creatureID (inventory + added) := by
  unfold weightRefused at passed
  rcases found : maxWeight capacities state creatureID (getObjectType state.world obj) with result | limit
  · rw [found] at passed
    cases passed
  rcases max_weight_limit limited found with ⟨taken, strength, strong, same⟩
  rw [found, same, known] at passed
  refine ⟨taken, ?_⟩
  intro added weighs
  rw [weighs] at passed
  exact ⟨strength, strong, too_heavy_limit passed⟩

theorem type_weight_limit
    (passed : typeWeightRefused capacities state creatureID type value oldWeight = none)
    (known : getInventoryWeight state creatureID = .ok inventory) :
    type.getFlag .take = true ∧ (oldWeight < typeWeight type value →
      CanCarry capacities creatureID (inventory + typeWeight type value)) := by
  unfold typeWeightRefused at passed
  rcases found : maxWeight capacities state creatureID type with result | limit
  · rw [found] at passed
    cases passed
  rcases max_weight_limit limited found with ⟨taken, strength, strong, same⟩
  rw [found, same, known] at passed
  refine ⟨taken, ?_⟩
  intro heavier
  dsimp only at passed
  rw [if_pos heavier] at passed
  exact ⟨strength, strong, too_heavy_limit passed⟩

end Limits

def SameBodies (before after : GameState cfg) : Prop :=
  ∀ creatureID, (after.creatures creatureID).map Creature.crObject =
    (before.creatures creatureID).map Creature.crObject

theorem noted_depot_bodies : SameBodies state (notedDepot state mover obj count) := by
  intro creatureID
  have added : ∀ creature player, state.creatures mover = some creature →
      ((addDepotSpace state mover creature player count).creatures creatureID).map Creature.crObject =
        (state.creatures creatureID).map Creature.crObject := by
    intro creature player known
    by_cases same : creatureID = mover
    · rw [same, known, addDepotSpace]
      simp only [Function.update_self, Option.map_some]
    · exact congrArg (Option.map Creature.crObject) (Function.update_of_ne same _ _)
  unfold notedDepot
  split
  · rfl
  split
  · rfl
  rename_i creature known
  split
  · rfl
  rename_i player _
  split
  · rfl
  · split
    · exact added creature player known
    · rfl

theorem noted_objects_bodies {silent : Bool} {sign : Int32} :
    SameBodies state (notedObjects silent mover obj sign state) := by
  unfold notedObjects
  split_ifs
  · exact fun _ => rfl
  · exact noted_depot_bodies

theorem carry_step_bodies {split : Bool} (step : CarryStep state mover obj con count split after) :
    SameBodies state after := by
  cases step with
  | carried cut placed =>
    intro creatureID
    exact (noted_objects_bodies creatureID).trans (noted_objects_bodies creatureID)

theorem merge_step_bodies (step : MergeStep mergeObjects state mover obj dest count after) :
    SameBodies state after := by
  cases step with
  | itself same => exact fun _ => rfl
  | part mergeable less => exact fun _ => rfl
  | whole mergeable all joined => exact noted_depot_bodies

theorem known_body {player : Option Player} (bodies : SameBodies state after)
    (known : state.creatures creatureID = some ⟨carrier, player⟩) :
    ∃ player, after.creatures creatureID = some ⟨carrier, player⟩ := by
  have same := bodies creatureID
  rw [known, Option.map_some] at same
  rcases Option.map_eq_some_iff.mp same with ⟨creature, found, body⟩
  have here : creature.crObject = carrier := body
  rw [found, ← here]
  exact ⟨creature.player, rfl⟩

/-- What the creature carries is no more than it was, or no more than it can carry. -/
def Bears (capacities : Capacities) (creatureID : UInt32) (carrier : Object)
    (before after : World cfg) : Prop :=
  carriedWeight after carrier ≤ carriedWeight before carrier ∨
    CanCarry capacities creatureID (Int32.ofNat (carriedWeight after carrier))

/-- A call has come to an end and the creature bears what it has. -/
structure Borne (capacities : Capacities) (creatureID : UInt32) (carrier : Object)
    (before after : GameState cfg) : Prop where
  sound : ∃ kids, Sound after.world kids
  live : objectExists after.world carrier = true
  known : ∃ player, after.creatures creatureID = some ⟨carrier, player⟩
  bears : Bears capacities creatureID carrier before.world after.world

theorem of_nat_le {less more : Nat} (least : less ≤ more) (small : more < 2 ^ 31) :
    Int32.ofNat less ≤ Int32.ofNat more := by
  rw [Int32.le_iff_toInt_le, Int32.toInt_ofNat_of_lt (by omega), Int32.toInt_ofNat_of_lt small]
  omega

theorem can_carry_less {less more : Nat} (can : CanCarry capacities creatureID (Int32.ofNat more))
    (least : less ≤ more) (small : more < 2 ^ 31) :
    CanCarry capacities creatureID (Int32.ofNat less) := by
  rcases can with ⟨strength, strong, fits⟩
  exact ⟨strength, strong, Int32.le_trans (of_nat_le least small) fits⟩

theorem Borne.within (borne : Borne capacities creatureID carrier state after)
    (sound : Sound state.world kids) (laden : Laden capacities state creatureID carrier)
    (light : carriedWeight state.world carrier < 2 ^ 31) :
    WithinCapacity capacities creatureID state after := by
  rcases laden.carrying.known with ⟨player, known⟩
  rcases borne.sound with ⟨newKids, newSound⟩
  rcases borne.known with ⟨newPlayer, stillKnown⟩
  refine ⟨_, _, inventory_weight_spec known sound.described.forest laden.carrying.live,
    inventory_weight_spec stillKnown newSound.described.forest borne.live, ?_⟩
  intro more
  rcases borne.bears with less | can
  · exact (Int32.lt_irrefl (Int32.lt_of_lt_of_le more (of_nat_le less light))).elim
  · exact can

theorem unchanged_borne (sound : Sound state.world kids)
    (laden : Laden capacities state creatureID carrier) :
    Borne capacities creatureID carrier state state :=
  ⟨⟨kids, sound⟩, laden.carrying.live, laden.carrying.known, .inl (Nat.le_refl _)⟩

section

variable (laden : Laden capacities state creatureID carrier)
include laden

/-- The creature lies in no stack and in nothing else that moves or is merged. -/
theorem Laden.enclosed (sound : Sound state.world kids) (edge : obj ∈ kids con)
    (under : Below kids obj carrier) : obj = carrier := by
  have forest := sound.described.forest
  have onField : carrier ∈ kids (getContainer state.world carrier) := by
    rcases container_cases forest laden.carrying.live with loose | inside
    · have none := loose.1
      exact (live_ne_none forest laden.stands.1 none).elim
    · exact inside.1
  rcases below_cases forest.single under onField with same | above
  · exact same.symm
  have orphan := Grounded.orphan sound.grounded forest laden.stands
  rw [below_root orphan above] at edge
  exact (orphan con edge).elim

theorem Laden.no_stack (stack : (getObjectType state.world obj).getFlag .cumulative = true) :
    obj ≠ carrier := by
  intro same
  have body := laden.carrying.body
  rw [← same, stack_is_item stack] at body
  cases body

theorem Laden.item (sound : Sound state.world kids) (inside : Below kids carrier obj) :
    (getObjectType state.world obj).isMapContainer = false := by
  cases inside with
  | refl => exact creature_is_item laden.carrying.body
  | tail _ edge => exact Grounded.item sound.grounded sound.described.forest edge

theorem Laden.field_outside (sound : Sound state.world kids)
    (stack : (getObjectType state.world obj).getFlag .cumulative = true) {field : Object}
    (isField : IsField state.world field) (edge : obj ∈ kids field) : ¬ Below kids carrier obj := by
  intro into
  rcases below_cases sound.described.forest.single into edge with same | above
  · exact laden.no_stack stack same
  have item := laden.item sound above
  rw [isField.2] at item
  cases item

end

section

variable (sound : Sound state.world kids) (laden : Laden capacities state creatureID carrier)
include sound laden

theorem weighed_limit (objLive : objectExists state.world obj = true)
    (conLive : objectExists state.world con = true)
    (weighed : Weighed (weighing capacities surroundings) state obj con count)
    (into : Below kids carrier con) (outside : ¬ Below kids carrier obj) :
    (getObjectType state.world obj).getFlag .take = true ∧ ∀ more,
      (if (getObjectType state.world obj).getFlag .cumulative then
        .ok (getWeight state.world obj count) else getCompleteWeight state.world obj) =
          .ok (Int32.ofNat more) →
      CanCarry capacities creatureID (Int32.ofNat (carriedWeight state.world carrier + more)) := by
  have carrying := laden.carrying
  have owned := (owner_iff carrying sound conLive).mpr into
  have passed : weightRefused capacities state creatureID obj count = none := by
    rcases weighed creatureID carrying.somebody owned with own | passed
    · exact (outside ((owner_iff carrying sound objLive).mp own)).elim
    · exact passed
  rcases carrying.known with ⟨player, known⟩
  have limit := weight_limit laden.limited passed
    (inventory_weight_spec known sound.described.forest carrying.live)
  refine ⟨limit.1, ?_⟩
  intro more weighs
  rw [Int32.ofNat_add]
  exact limit.2 _ weighs

/-- The same for an object of a type, which comes to be in the body. -/
theorem type_weighed_limit (conLive : objectExists state.world con = true)
    (weighed : TypeWeighed (weighing capacities surroundings) state con type value oldWeight)
    (into : Below kids carrier con) :
    type.getFlag .take = true ∧ ∀ more, typeWeight type value = Int32.ofNat more →
      oldWeight < Int32.ofNat more →
      CanCarry capacities creatureID (Int32.ofNat (carriedWeight state.world carrier + more)) := by
  have carrying := laden.carrying
  have owned := (owner_iff carrying sound conLive).mpr into
  have passed : typeWeightRefused capacities state creatureID type value oldWeight = none :=
    weighed creatureID carrying.somebody owned
  rcases carrying.known with ⟨player, known⟩
  have limit := type_weight_limit laden.limited passed
    (inventory_weight_spec known sound.described.forest carrying.live)
  refine ⟨limit.1, ?_⟩
  intro more weighs heavier
  rw [Int32.ofNat_add, ← weighs]
  apply limit.2
  rw [weighs]
  exact heavier

end

theorem gains_bear {more : Nat} {newWorld : World cfg}
    (gains : Gains kids carrier obj con (carriedWeight state.world carrier)
      (carriedWeight newWorld carrier) more)
    (light : Below kids carrier con → Light state.world carrier more)
    (limit : Below kids carrier con → ¬ Below kids carrier obj →
      CanCarry capacities creatureID (Int32.ofNat (carriedWeight state.world carrier + more))) :
    Bears capacities creatureID carrier state.world newWorld := by
  rcases gains with less | comes
  · exact .inl less
  · exact .inr (can_carry_less (limit comes.1 comes.2.1) comes.2.2 (light comes.1))

theorem Light.less {more less : Nat} (light : Light world carrier more) (least : less ≤ more) :
    Light world carrier less := by
  unfold Light at light ⊢
  omega

end TibiaGame.CarryLimits
