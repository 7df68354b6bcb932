import TibiaGame.DepotSpace
import TibiaGame.Weights

/-!
# What a creature carries

The objects in the body of a creature are those that it owns. What an operation does to
the content lists and to single objects says by how much the weight of what the creature
carries changes.
-/

namespace TibiaGame.InventoryWeights

open GameTypes ObjectStore ContentForest ForestOperations
open ObjectPayload InfoModel ContainerWalks GroundedMap OperateModel FurnishedWorlds
open OperateEffects StackAmounts DepotSpace Weights Library.LinkedList Library.OrderedForest
open Library.ForestSums

variable {cfg : GameConfig} {state : GameState cfg} {world after : World cfg}
  {kids newKids : Object → List Object} {creatureID : UInt32} {carrier obj con : Object}
  {type : ObjectType cfg}

/-- The object of the creature is the only creature in its own body, and the only one
with its number. -/
structure Carrier (state : GameState cfg) (creatureID : UInt32) (carrier : Object) : Prop where
  somebody : creatureID ≠ 0
  known : ∃ player, state.creatures creatureID = some ⟨carrier, player⟩
  live : objectExists state.world carrier = true
  body : (getObjectType state.world carrier).isCreatureContainer = true
  number : getCreatureID state.world carrier = creatureID
  only : ∀ obj, objectExists state.world obj = true →
    (getObjectType state.world obj).isCreatureContainer = true →
    getCreatureID state.world obj = creatureID ∨ Holds state.world carrier obj → obj = carrier

theorem creature_is_item (isCreature : type.isCreatureContainer = true) :
    type.isMapContainer = false := by
  have number : type.typeID = 99 := by simpa [ObjectType.isCreatureContainer] using isCreature
  rw [ObjectType.isMapContainer, number]
  rfl

section

variable (carrying : Carrier state creatureID carrier) (sound : Sound state.world kids)
include carrying sound

theorem Carrier.holds_iff (isLive : objectExists state.world obj = true) :
    Holds state.world carrier obj ↔ Below kids carrier obj :=
  held_iff sound (creature_is_item carrying.body) isLive

/-- On the way up from an object in the body, the creature is the first to stop at. -/
theorem owner_on_path {path : List Object} (chain : Chain NONE (getContainer state.world) obj path)
    (isLive : objectExists state.world obj = true) (under : Below kids carrier obj) :
    path.findSome? (creatureStop state.world) = some creatureID := by
  have forest := sound.described.forest
  induction path generalizing obj with
  | nil =>
    have ended : obj = NONE := chain
    exact (live_ne_none forest isLive ended).elim
  | cons node rest ih =>
    rcases chain with ⟨here, inner, later⟩
    rw [← here] at inner later ⊢
    rw [List.findSome?_cons]
    by_cases found : obj = carrier
    · rw [creatureStop, found, carrying.body, carrying.number]
      rfl
    rcases container_cases forest isLive with loose | inside
    · exact (found (below_root loose.2 under).symm).elim
    have item : (getObjectType state.world obj).isMapContainer = false :=
      Grounded.item sound.grounded forest inside.1
    have noCreature : (getObjectType state.world obj).isCreatureContainer = false := by
      apply Bool.eq_false_iff.mpr
      intro isCreature
      exact found (carrying.only obj isLive isCreature
        (.inr ((carrying.holds_iff sound isLive).mpr under)))
    have goesOn : creatureStop state.world obj = none := by
      rw [creatureStop, item, noCreature]
      rfl
    rw [goesOn]
    rcases below_cases forest.single under inside.1 with same | above
    · exact (found same).elim
    · exact ih later inside.2 above

theorem owner_iff (isLive : objectExists state.world obj = true) :
    getObjectCreatureID state.world obj = .ok creatureID ↔ Below kids carrier obj := by
  rcases ancestry_exists sound.described.forest isLive with ⟨path, ancestry⟩
  rw [getObjectCreatureID, if_pos isLive, ancestry.climb (creatureStop state.world) 0,
    Except.ok.injEq]
  constructor
  · intro answer
    rcases first : path.findSome? (creatureStop state.world) with _ | owner
    · rw [first, Option.getD_none] at answer
      exact (carrying.somebody answer.symm).elim
    rw [first, Option.getD_some] at answer
    rw [answer] at first
    rcases List.exists_of_findSome?_eq_some first with ⟨node, member, stops⟩
    unfold creatureStop at stops
    split_ifs at stops with isCreature isField
    · have same := carrying.only node (ancestry.alive node member) isCreature
        (.inl (Option.some.inj stops))
      rw [← same]
      exact (ancestry.member node).mp member
    · exact (carrying.somebody (Option.some.inj stops).symm).elim
  · intro under
    rw [owner_on_path carrying sound ancestry.chain isLive under, Option.getD_some]

end

theorem inventory_weight_spec {player : Option Player}
    (known : state.creatures creatureID = some ⟨carrier, player⟩)
    (forest : Forest (liveRecord state.world) kids)
    (isLive : objectExists state.world carrier = true) :
    getInventoryWeight state creatureID = .ok (Int32.ofNat (carriedWeight state.world carrier)) := by
  rw [getInventoryWeight, known]
  exact content_weight_spec forest isLive

section Loads

theorem weight_of_stack (same : stackOf after obj = stackOf world obj) :
    weightOf after obj = weightOf world obj := by
  rw [weightOf, weightOf, same]

variable (sound : Sound world kids) (isLive : objectExists world carrier = true)
include sound isLive

theorem comes_carried (comes : Comes world after kids newKids obj con)
    (same : SameView stackView world after) (apart : ¬ Below kids obj con)
    (outside : ¬ Below kids obj carrier) :
    carriedWeight after carrier + part kids (weightOf world) carrier obj obj =
      carriedWeight world carrier + part kids (weightOf world) carrier con obj := by
  have forest := sound.described.forest
  have weights : weightOf after = weightOf world := by
    funext node
    exact weight_of_stack (same node)
  have stillLive : objectExists after carrier = true := by
    rw [kept_live comes.types]
    exact isLive
  have before := load_eq forest isLive
  have now := load_eq comes.sound.described.forest stillLive
  have moved := arrives_load (weightOf world) comes.arrives forest.single forest.ranked
    apart outside
  rw [weights] at now
  omega

theorem comes_carried_along (comes : Comes world after kids newKids obj con)
    (same : SameView stackView world after) (apart : ¬ Below kids obj con)
    (inside : Below kids obj carrier) :
    carriedWeight after carrier = carriedWeight world carrier := by
  have forest := sound.described.forest
  have weights : weightOf after = weightOf world := by
    funext node
    exact weight_of_stack (same node)
  have stillLive : objectExists after carrier = true := by
    rw [kept_live comes.types]
    exact isLive
  have before := load_eq forest isLive
  have now := load_eq comes.sound.described.forest stillLive
  have moved := arrives_load_inside (weightOf world) comes.arrives forest.ranked apart
    inside
  rw [weights] at now
  omega

theorem gone_carried (gone : Gone world after kids newKids obj)
    (views : FewerViews stackView world after) (outside : ¬ Below kids obj carrier) :
    carriedWeight after carrier + part kids (weightOf world) carrier obj obj =
      carriedWeight world carrier := by
  have forest := sound.described.forest
  have newForest := gone.sound.described.forest
  have stillLive := (gone.survivors carrier).mpr ⟨isLive, outside⟩
  have kept : ∀ node, objectExists after node = true → weightOf after node = weightOf world node := by
    intro node nodeLive
    apply weight_of_stack
    rcases views node with missing | same
    · have found := stack_of_live nodeLive
      rw [stackOf, missing] at found
      cases found
    · exact same
  have weights : load newKids (weightOf after) carrier = load newKids (weightOf world) carrier := by
    apply load_congr (fun _ => Iff.rfl)
    intro node under
    apply kept
    cases under with
    | refl => exact stillLive
    | tail _ edge => exact (member_container newForest edge).1
  have before := load_eq forest isLive
  have now := load_eq newForest stillLive
  have left := departs_load (weightOf world) gone.departs forest.single outside
  have own := kept carrier stillLive
  omega

theorem born_load (born : Born world after kids newKids obj con type) (weight : Object → Nat) :
    load newKids weight carrier =
      load kids weight carrier + part kids weight carrier con obj ∧ load kids weight obj = weight obj := by
  have forest := sound.described.forest
  have orphan := unborn_orphan forest born.dead
  have empty := unborn_empty forest born.dead
  have different := (born.other isLive).1
  have notAbove : ¬ Below kids obj carrier := by
    rw [below_leaf empty]
    exact different
  have notInside : ¬ Below kids carrier obj := fun under => different (below_root orphan under)
  have apart : ¬ Below kids obj con := by
    rw [below_leaf empty]
    exact born.apart
  have moved := arrives_load weight born.arrives forest.single forest.ranked apart notAbove
  rw [part_outside notInside, Nat.add_zero] at moved
  exact ⟨moved, load_leaf empty⟩

end Loads

end TibiaGame.InventoryWeights
