import TibiaGame.InventoryCounts
import TibiaGame.AmountChanges

/-!
# Deleting objects of an inventory

One round of `delete_at_creature` takes the object that was found with all it holds, or takes units
off it. What else the creature carries stays as it is, so the units that it holds go down by those
that were asked for.
-/

namespace TibiaGame.InventoryDeletion

open GameTypes ObjectStore ObjectOperations ObjectKinds ObjectPayload InfoModel OperateModel
open OperateChanges ForestSteps ForestOperations ForestRuns ContainerWalks
open OperateSteps OperateEffects ChangeEffects AmountChanges StackAmounts FurnishedWorlds
open DepotCounts InventoryCounts Library.ThrowingState Library.OrderedForest

variable {cfg : GameConfig} {state last : GameState cfg} {world after : World cfg}
  {kids newKids : Object → List Object} {body obj node slot : Object} {type : ObjectType cfg}
  {value creatureID : UInt32} {gone : Object → Prop}

theorem carried_live (sound : Sound world kids) (carried : Carried world kids body node) :
    objectExists world node = true := by
  rcases carried with ⟨slot, edge, different, under⟩
  cases under with
  | refl => exact (different rfl).elim
  | tail _ inner => exact (member_container sound.described.forest (counted_subset _ _ inner)).1

theorem slot_outside (sound : Sound world kids) (carried : Carried world kids body obj)
    (edge : slot ∈ kids body) : ¬ Below kids obj slot := by
  have forest := sound.described.forest
  rcases carried with ⟨other, otherEdge, different, under⟩
  intro inside
  have below := below_trans (counted_below under) inside
  rcases below_cases forest.single below edge with same | above
  · rw [same] at inside
    exact different (forest.ranked.below_antisymm inside (counted_below under))
  · exact forest.ranked.parent_not_below otherEdge above

theorem body_outside (sound : Sound world kids) (carried : Carried world kids body obj) :
    ¬ Below kids obj body := by
  have first := carried
  rcases first with ⟨slot, edge, _⟩
  intro inside
  exact slot_outside sound carried edge (below_step inside edge)

theorem payload_looks (isLive : objectExists after node = true)
    (same : viewOf payload after node = viewOf payload world node) :
    getObjectType after node = getObjectType world node ∧ ∀ attr, attr ≠ .content →
      getAttribute after node attr = getAttribute world node attr := by
  rcases object_exists_iff.mp isLive with ⟨record, live⟩
  rw [viewOf, live] at same
  rcases Option.map_eq_some_iff.mp same.symm with ⟨before, wasLive, looks⟩
  constructor
  · rw [getObjectType, getObjectType, access_live live, access_live wasLive]
    exact (congrArg Prod.fst looks).symm
  intro attr different
  have value := congrFun (congrArg Prod.snd looks) attr
  simp only [payload, if_neg different] at value
  rw [getAttribute, getAttribute, access_live live, access_live wasLive, value]

/-- What is `gone` lay in one of the objects that are carried; the rest has stayed, but for the
`AMOUNT` of that object. -/
structure Spared (before after : World cfg) (kids newKids : Object → List Object)
    (body obj : Object) (gone : Object → Prop) : Prop where
  slots : newKids body = kids body
  rows : ∀ slot ∈ kids body, (newKids slot).length ≤ (kids slot).length
  inside : ∀ node, gone node → Below kids obj node
  carried : ∀ node, Carried after newKids body node ↔
    Carried before kids body node ∧ ¬ gone node
  types : ∀ node, node ∈ kids body ∨ Carried after newKids body node →
    getObjectType after node = getObjectType before node
  attributes : ∀ node attr, node ∈ kids body ∨ Carried after newKids body node →
    attr ≠ .content → (node = obj → attr ≠ .amount) →
    getAttribute after node attr = getAttribute before node attr

theorem delete_spared (sound : Sound world kids) (carried : Carried world kids body obj)
    (left : Gone world after kids newKids obj) (fewer : FewerViews payload world after) :
    Spared world after kids newKids body obj (Below kids obj) := by
  have forest := sound.described.forest
  have outside := body_outside sound carried
  have sameSlots : newKids body = kids body := by
    apply left.departs.elsewhere outside
    intro isSlot
    exact slot_outside sound carried isSlot (below_refl kids obj)
  have looks : ∀ node, node ∈ kids body ∨ Carried after newKids body node →
      getObjectType after node = getObjectType world node ∧ ∀ attr, attr ≠ .content →
        getAttribute after node attr = getAttribute world node attr := by
    intro node either
    have isLive : objectExists after node = true := by
      rcases either with isSlot | within
      · rw [← sameSlots] at isSlot
        exact (member_container left.sound.described.forest isSlot).1
      · exact carried_live left.sound within
    apply payload_looks isLive
    rcases fewer node with vanished | same
    · rcases object_exists_iff.mp isLive with ⟨record, live⟩
      rw [viewOf, live] at vanished
      cases vanished
    · exact same
  apply Spared.mk sameSlots
  · intro slot edge
    rw [left.departs.outside slot (slot_outside sound carried edge)]
    exact List.length_filter_le _ _
  · exact fun _ under => under
  · intro node
    unfold InventoryCounts.Carried
    rw [sameSlots, gone_counted_kids left]
    constructor
    · intro within
      rcases within with ⟨slot, edge, different, under⟩
      have both := (left.departs.below_followed forest.single
        (slot_outside sound carried edge)).mp under
      exact ⟨⟨slot, edge, different, both.1⟩, both.2⟩
    intro both
    rcases both with ⟨⟨slot, edge, different, under⟩, remains⟩
    exact ⟨slot, edge, different, (left.departs.below_followed forest.single
      (slot_outside sound carried edge)).mpr ⟨under, remains⟩⟩
  · exact fun node either => (looks node either).1
  · exact fun node attr either notContent _ => (looks node either).2 attr notContent

theorem access_set_attribute {record : MapObject cfg} (live : liveRecord world obj = some record)
    (attr : InstanceAttribute) (value : UInt32) (node : Object) :
    accessObject (setAttribute world obj attr value) node =
      if node = obj then record.setAttribute attr value else accessObject world node := by
  have sameNone : (setAttribute world obj attr value).noneRecord = world.noneRecord := by
    unfold setAttribute writeObject
    rw [live]
  rw [accessObject, live_set_attribute, updateRecord, sameNone]
  split_ifs
  · rw [live]
    rfl
  · rfl

theorem amount_spared (isLive : objectExists world obj = true) (value : UInt32) :
    Spared world (changeAttribute world obj .amount value) kids kids body obj fun _ => False := by
  rcases object_exists_iff.mp isLive with ⟨record, live⟩
  have written : changeAttribute world obj .amount value = setAttribute world obj .amount value := by
    rw [changeAttribute, isLive]
    rfl
  have access := access_set_attribute live .amount value
  have types : ∀ node, getObjectType (changeAttribute world obj .amount value) node =
      getObjectType world node := by
    intro node
    rw [written, getObjectType, access]
    split_ifs with here
    · rw [record_set_attribute_type, here, getObjectType, access_live live]
    · rfl
  apply Spared.mk rfl
  · exact fun _ _ => le_refl _
  · exact fun _ impossible => impossible.elim
  · intro node
    rw [and_iff_left not_false]
    have sameOpen : countedKids (changeAttribute world obj .amount value) kids =
        countedKids world kids := by
      funext holder
      unfold countedKids
      rw [types]
    unfold InventoryCounts.Carried
    rw [sameOpen]
  · exact fun node _ => types node
  · intro node attr _ _ notAmount
    rw [written, getAttribute, access]
    split_ifs with here
    · rw [get_attribute_set, if_neg (fun both => notAmount here both.1), here, getAttribute,
        access_live live]
    · rfl

section Sparing

variable (spared : Spared world after kids newKids body obj gone)
include spared

theorem Spared.fits (either : node ∈ kids body ∨ Carried after newKids body node) :
    fits after type value node = fits world type value node := by
  have liquid := spared.attributes node .containerLiquidType either (by decide) fun _ => by decide
  have key := spared.attributes node .keyNumber either (by decide) fun _ => by decide
  rw [InventoryCounts.fits, InventoryCounts.fits, spared.types node either, liquid, key]

theorem Spared.units (either : node ∈ kids body ∨ Carried after newKids body node)
    (different : node ≠ obj) : unitsOf after node = unitsOf world node := by
  have amount := spared.attributes node .amount either (by decide) fun same => (different same).elim
  rw [unitsOf, unitsOf, spared.types node either, amount]

theorem Spared.found : Found after newKids body type value node ↔
    Found world kids body type value node ∧ ¬ gone node := by
  constructor
  · intro found
    have before := (spared.carried node).mp found.1
    have fit := found.2
    rw [spared.fits (.inr found.1)] at fit
    exact ⟨⟨before.1, fit⟩, before.2⟩
  intro both
  have carried := (spared.carried node).mpr ⟨both.1.1, both.2⟩
  have fit := both.1.2
  rw [← spared.fits (.inr carried)] at fit
  exact ⟨carried, fit⟩

theorem Spared.counted (sound : Sound world kids) (carried : Carried world kids body obj) :
    Counted after newKids body type value node ↔
      Counted world kids body type value node ∧ ¬ gone node := by
  have safe : ∀ slot ∈ kids body, ¬ gone slot := by
    intro slot edge lost
    exact slot_outside sound carried edge (spared.inside slot lost)
  unfold Counted
  rw [spared.found, spared.slots]
  constructor
  · intro either
    rcases either with isSlot | found
    · have fit := isSlot.2
      rw [spared.fits (.inl isSlot.1)] at fit
      exact ⟨.inl ⟨isSlot.1, fit⟩, safe node isSlot.1⟩
    · exact ⟨.inr found.1, found.2⟩
  intro both
  rcases both.1 with isSlot | found
  · have fit := isSlot.2
    rw [← spared.fits (.inl isSlot.1)] at fit
    exact .inl ⟨isSlot.1, fit⟩
  · exact .inr ⟨found, both.2⟩

/-- The creature still has an inventory if the units of the one object are in order. -/
theorem Spared.inventory {creatures : UInt32 → Option Creature}
    (inventory : Inventory ⟨world, creatures⟩ kids creatureID body) (holder : IsHolder after body)
    (amount : Carried after newKids body obj →
      (getObjectType after obj).getFlag .cumulative = true →
      1 ≤ (getAttribute after obj .amount).toNat ∧ (getAttribute after obj .amount).toNat < 2 ^ 31)
    (carried : Carried world kids body obj) (sound : Sound world kids) :
    Inventory ⟨after, creatures⟩ newKids creatureID body := by
  apply Inventory.mk
  · exact inventory.known
  · exact holder
  · intro slot edge
    rw [spared.slots] at edge
    rw [spared.types slot (.inl edge)]
    exact inventory.slots slot edge
  · intro slot edge
    rw [spared.slots] at edge
    exact (spared.rows slot edge).trans (inventory.single slot edge)
  · intro node either stack
    rw [spared.slots] at either
    by_cases here : node = obj
    · rw [here] at either stack ⊢
      rcases either with isSlot | within
      · exact (slot_outside sound carried isSlot (below_refl kids obj)).elim
      · exact amount within stack
    have same := spared.attributes node .amount either (by decide) fun same => (here same).elim
    have sameType : getObjectType after node = getObjectType world node := spared.types node either
    rw [same]
    apply inventory.amounts node
    · rcases either with isSlot | within
      · exact .inl isSlot
      · exact .inr ((spared.carried node).mp within).1
    · rw [← sameType]
      exact stack

/-- Units of the one object are gone, and all else that is held has stayed. -/
theorem Spared.held_less (units : Nat) (found : Found world kids body type value obj)
    (stays : ∀ node, ¬ gone node) (less : unitsOf after obj + units = unitsOf world obj) :
    held after newKids body type value + units = held world kids body type value := by
  have same : {node | Found after newKids body type value node} =
      {node | Found world kids body type value node} := by
    ext node
    exact spared.found.trans (and_iff_left (stays node))
  have member : obj ∈ {node | Found world kids body type value node} := found
  have split : {node | Found world kids body type value node} =
      insert obj ({node | Found world kids body type value node} \ {obj}) := by
    rw [Set.insert_sdiff_singleton, Set.insert_eq_of_mem member]
  have outside : obj ∉ {node | Found world kids body type value node} \ {obj} := fun both => both.2 rfl
  have rest : ∑ᶠ node ∈ {node | Found world kids body type value node} \ {obj}, unitsOf after node =
      ∑ᶠ node ∈ {node | Found world kids body type value node} \ {obj}, unitsOf world node := by
    apply finsum_mem_congr rfl
    intro node both
    apply spared.units _ both.2
    exact .inr (spared.found.mpr ⟨both.1, stays node⟩).1
  rw [held, held, same, split, finsum_mem_insert _ outside (Set.toFinite _),
    finsum_mem_insert _ outside (Set.toFinite _), rest]
  omega

/-- The object is gone, and it was the only one that fits in what is gone. -/
theorem Spared.held_gone (innermost : Innermost world kids body type value obj)
    (lost : gone obj) : held after newKids body type value + unitsOf world obj =
      held world kids body type value := by
  have split : {node | Found world kids body type value node} =
      insert obj {node | Found after newKids body type value node} := by
    ext node
    rw [Set.mem_insert_iff]
    constructor
    · intro found
      by_cases here : node = obj
      · exact .inl here
      right
      apply spared.found.mpr
      constructor
      · exact found
      · intro isLost
        exact here (innermost.alone node found (spared.inside node isLost))
    intro either
    rcases either with same | found
    · rw [same]
      exact innermost.here
    · exact (spared.found.mp found).1
  have outside : obj ∉ {node | Found after newKids body type value node} :=
    fun found => (spared.found.mp found).2 lost
  have rest : ∑ᶠ node ∈ {node | Found after newKids body type value node}, unitsOf after node =
      ∑ᶠ node ∈ {node | Found after newKids body type value node}, unitsOf world node := by
    apply finsum_mem_congr rfl
    intro node found
    apply spared.units (.inr found.1)
    intro same
    rw [same] at found
    exact outside found
  rw [held, held, split, finsum_mem_insert _ outside (Set.toFinite _), rest]
  omega

end Sparing

section Rounds

variable {throws : Result → GameState cfg → Prop} {halts : Halt → Prop}
  {surroundings : Surroundings cfg} {con : Object} {units : Nat}
  {fact : World cfg → (Object → List Object) → Prop}

theorem passed_then {refused : Bool} {result : Result} {rest : Unit → Operate cfg Unit}
    {returns : Unit → GameState cfg → Prop} (passes : refused = false)
    (meets : Meets (rest ()) state returns throws halts) :
    Meets (refuse refused result >>= rest) state returns throws halts := by
  rw [passes]
  exact meets

theorem skipped_then {needed : Bool} {program : Operate cfg Unit} {rest : Unit → Operate cfg Unit}
    {returns : Unit → GameState cfg → Prop} (skips : needed = false)
    (meets : Meets (rest ()) state returns throws halts) :
    Meets (whenever needed program >>= rest) state returns throws halts := by
  rw [skips]
  exact meets

theorem answered_then {Answer : Type} {answer : Answer} {rest : Answer → Operate cfg Unit}
    {returns : Unit → GameState cfg → Prop} (meets : Meets (rest answer) state returns throws halts) :
    Meets (attempt (.ok answer) >>= rest) state returns throws halts := meets

theorem delete_all_spec (sound : Sound state.world kids) (edge : obj ∈ kids con)
    (positive : (getObjectType state.world obj).getFlag .cumulative = true →
      ¬ (getAttribute state.world obj .amount).toInt32 < -1) :
    Meets (deleteOp obj (-1)) state
      (fun _ => Ends state fun world => Gone state.world world kids (prune kids obj) obj) throws
      halts := by
  have isLive := (member_container sound.described.forest edge).1
  have enough : ((getObjectType state.world obj).getFlag .cumulative &&
      decide ((getAttribute state.world obj .amount).toInt32 < -1)) = false := by
    cases stack : (getObjectType state.world obj).getFlag .cumulative with
    | true => exact decide_eq_false (positive stack)
    | false => rfl
  have whole : ((getObjectType state.world obj).getFlag .cumulative && (-1 : Int32) != -1 &&
      decide ((-1 : Int32) < (getAttribute state.world obj .amount).toInt32)) = false := by
    simp
  apply meets_get
  dsimp only
  rw [isLive, if_neg (by rw [whole]; decide)]
  apply passed_then rfl
  apply passed_then enough
  exact delete_rest_spec sound edge rfl

/-- An amount that does not grow is written without a look at the weight. -/
theorem change_less_spec (sound : Sound state.world kids)
    (isLive : objectExists state.world obj = true)
    (less : ¬ getAttribute state.world obj .amount < value) :
    Meets (changeValue surroundings obj .amount value) state
      (fun _ after => after = { state with world := changeAttribute state.world obj .amount value })
      throws halts := by
  rcases creature_id_returns sound.described.forest obj with ⟨owner, owned⟩
  have small : (owner != 0 && InstanceAttribute.amount == .amount &&
      decide (getAttribute state.world obj .amount < value)) = false := by
    rw [decide_eq_false less, Bool.and_false]
  apply meets_get
  rw [isLive]
  apply passed_then rfl
  apply passed_then rfl
  rw [owned]
  apply answered_then
  apply skipped_then small
  apply change_map_meets
  · nofun
  · intro world changed
    cases changed
    rfl

def Lasting (body : Object) (type : ObjectType cfg) (value : UInt32)
    (fact : World cfg → (Object → List Object) → Prop) : Prop :=
  ∀ before after kids newKids obj gone, Sound before kids →
    Found before kids body type value obj → Spared before after kids newKids body obj gone →
    fact before kids → fact after newKids

/-- What is left of an inventory when so many units have been taken. -/
def Thinned (fact : World cfg → (Object → List Object) → Prop) (state : GameState cfg)
    (kids : Object → List Object) (creatureID : UInt32) (body : Object) (type : ObjectType cfg)
    (value : UInt32) (units : Nat) (after : GameState cfg) : Prop :=
  ∃ newKids, Sound after.world newKids ∧ Inventory after newKids creatureID body ∧
    fact after.world newKids ∧
    held after.world newKids body type value + units = held state.world kids body type value

theorem fit_type (fit : fits world type value obj = true) : getObjectType world obj = type := by
  unfold fits at fit
  rw [Bool.and_eq_true, Bool.and_eq_true] at fit
  exact beq_iff_eq.mp fit.1.1

theorem carried_edge (carried : Carried world kids body obj) : ∃ con, obj ∈ kids con := by
  rcases carried with ⟨slot, edge, different, under⟩
  cases under with
  | refl => exact (different rfl).elim
  | tail _ inner => exact ⟨_, counted_subset _ _ inner⟩

theorem delete_round (sound : Sound state.world kids)
    (inventory : Inventory state kids creatureID body) (lasting : Lasting body type value fact)
    (holds : fact state.world kids) (innermost : Innermost state.world kids body type value obj) :
    Meets (deleteOp obj (-1)) state (fun _ => Thinned fact state kids creatureID body type value
      (unitsOf state.world obj)) (fun _ _ => False) fun _ => False := by
  have carried := innermost.here.1
  rcases carried_edge carried with ⟨con, edge⟩
  have positive : (getObjectType state.world obj).getFlag .cumulative = true →
      ¬ (getAttribute state.world obj .amount).toInt32 < -1 := by
    intro stack
    have amounts := inventory.amounts obj (.inr carried) stack
    rw [Int32.lt_iff_toInt_lt, to_int_small amounts.2]
    have minus : (-1 : Int32).toInt = -1 := rfl
    omega
  apply ((delete_all_spec sound edge positive).both (delete_op_views payload_unlinked)).imp
  · intro _ last both
    rcases both with ⟨⟨world, here, left⟩, fewer, _⟩
    rw [here] at fewer
    have spared := delete_spared sound carried left fewer
    have survives : IsHolder world body := by
      have isLive := (left.survivors body).mpr ⟨inventory.holder.1, body_outside sound carried⟩
      constructor
      · exact isLive
      have typed := left.types body isLive
      rw [type_of_exists inventory.holder.1] at typed
      rw [object_type_of typed]
      exact inventory.holder.2
    rw [here]
    refine ⟨_, left.sound, ?_, ?_, spared.held_gone innermost (below_refl kids obj)⟩
    · apply spared.inventory inventory survives _ carried sound
      intro within
      exact (((spared.carried obj).mp within).2 (below_refl kids obj)).elim
    · exact lasting _ _ _ _ _ _ sound innermost.here spared holds
  · exact fun _ _ both => both.1
  · exact fun _ stopped => stopped

theorem written_amount {left : UInt32} (isLive : objectExists world obj = true)
    (some : getAttribute world obj .amount ≠ 0) (leftSome : left ≠ 0) :
    getAttribute (changeAttribute world obj .amount left) obj .amount = left := by
  have stored := amount_stored (stack_of_live isLive) some
  have found : stackOf (changeAttribute world obj .amount left) obj = _ := change_amount_stack isLive
  rw [written, if_pos stored, if_neg leftSome] at found
  have stillLive : objectExists (changeAttribute world obj .amount left) obj = true := by
    rw [live_of_stack, found]
    rfl
  rw [stack_of_live stillLive] at found
  exact congrArg Prod.snd (Option.some.inj found)

theorem change_round {left : UInt32} {amount : Nat} (sound : Sound state.world kids)
    (inventory : Inventory state kids creatureID body) (lasting : Lasting body type value fact)
    (holds : fact state.world kids) (innermost : Innermost state.world kids body type value obj)
    (stack : type.getFlag .cumulative = true) (some : 0 < left.toNat)
    (number : left.toNat + amount = (getAttribute state.world obj .amount).toNat) :
    Meets (changeValue surroundings obj .amount left) state
      (fun _ => Thinned fact state kids creatureID body type value amount) (fun _ _ => False)
      fun _ => False := by
  have carried := innermost.here.1
  have isLive := carried_live sound carried
  have typed := fit_type innermost.here.2
  rw [← typed] at stack
  have amounts := inventory.amounts obj (.inr carried) stack
  have different : InstanceAttribute.amount ≠ .content := by decide
  have less : ¬ getAttribute state.world obj .amount < left := by
    rw [UInt32.lt_iff_toNat_lt]
    omega
  apply (change_less_spec sound isLive less).imp
  · intro _ last same
    rw [same]
    have spared : Spared state.world (changeAttribute state.world obj .amount left) kids kids body
        obj fun _ => False := amount_spared isLive left
    have kept : Kept state.world (changeAttribute state.world obj .amount left) kids :=
      change_attribute_kept sound different left
    have sameType : getObjectType (changeAttribute state.world obj .amount left) obj =
        getObjectType state.world obj :=
      spared.types obj (.inr ((spared.carried obj).mpr ⟨carried, not_false⟩))
    have value := written_amount isLive (ne_zero_of_pos amounts.1) (ne_zero_of_pos some)
    refine ⟨kids, kept.sound, ?_, lasting _ _ _ _ _ _ sound innermost.here spared holds, ?_⟩
    · apply spared.inventory inventory _ _ carried sound
      · constructor
        · rw [kept_live kept.types]
          exact inventory.holder.1
        have typed := kept.types body
        rw [type_of_exists inventory.holder.1] at typed
        rw [object_type_of typed]
        exact inventory.holder.2
      · intro _ _
        rw [value]
        omega
    · apply spared.held_less amount innermost.here (fun _ => not_false)
      rw [unitsOf, unitsOf, sameType, if_pos stack, if_pos stack, value]
      exact number
  · exact fun _ _ impossible => impossible
  · exact fun _ impossible => impossible

/-- The loop of `delete_at_creature` returns when there are enough units, and it throws otherwise. -/
theorem delete_at_creature_run (surroundings : Surroundings cfg)
    (lasting : Lasting body type value fact) (fuel : Nat) :
    ∀ state kids amount, Sound state.world kids → Inventory state kids creatureID body →
      fact state.world kids → amount.toNat < fuel →
      Meets (deleteAtCreature surroundings creatureID type value fuel amount) state
        (fun _ => Thinned fact state kids creatureID body type value amount.toNat)
        (fun result _ => result = .error ∧
          (held state.world kids body type value : Int) < amount) fun _ => False := by
  induction fuel with
  | zero =>
    intro state kids amount sound inventory holds enough
    omega
  | succ fuel ih =>
    intro state kids amount sound inventory holds enough
    rw [deleteAtCreature]
    by_cases positive : amount > 0
    · rw [if_pos positive]
      apply meets_get
      rcases get_inventory_spec type value sound inventory with ⟨obj, returned, result⟩
      rw [returned]
      rcases result with nothing | innermost
      · have empty : held state.world kids body type value = 0 := by
          have none : {obj | Found state.world kids body type value obj} = ∅ := by
            ext obj
            exact iff_of_false (nothing.2 obj) (Set.notMem_empty obj)
          rw [held, none, finsum_mem_empty]
        rw [nothing.1]
        exact ⟨rfl, by omega⟩
      have typed := fit_type innermost.here.2
      have rest : ∀ units : Nat, 0 < units → (units : Int) ≤ amount →
          units = unitsOf state.world obj → Meets (do
            deleteOp obj (-1)
            deleteAtCreature surroundings creatureID type value fuel (amount - units) :
            Operate cfg Unit) state
          (fun _ => Thinned fact state kids creatureID body type value amount.toNat)
          (fun result _ => result = .error ∧
            (held state.world kids body type value : Int) < amount) fun _ => False := by
        intro units some within same
        apply meets_bind ((delete_round sound inventory lasting holds innermost).imp
          (fun _ _ held => held) (fun _ _ impossible => impossible.elim)
          fun _ impossible => impossible)
        intro _ middle thinned
        rcases thinned with ⟨newKids, newSound, newInventory, newHolds, fewer⟩
        apply (ih middle newKids _ newSound newInventory newHolds (by omega)).imp
        · intro _ last thinned
          rcases thinned with ⟨lastKids, lastSound, lastInventory, lastHolds, less⟩
          exact ⟨lastKids, lastSound, lastInventory, lastHolds, by omega⟩
        · intro result _ thrown
          exact ⟨thrown.1, by omega⟩
        · exact fun _ impossible => impossible
      apply answered_then
      apply passed_then (decide_eq_false innermost.notNone)
      cases stack : type.getFlag .cumulative with
      | true =>
        have objStack : (getObjectType state.world obj).getFlag .cumulative = true := by
          rw [typed, stack]
        have amounts := inventory.amounts obj (.inr innermost.here.1) objStack
        have units : unitsOf state.world obj = (getAttribute state.world obj .amount).toNat :=
          if_pos objStack
        have number := to_int_small amounts.2
        by_cases enoughHere : (getAttribute state.world obj .amount).toInt32.toInt ≤ amount
        · rw [if_pos enoughHere, number]
          exact rest _ amounts.1 (by omega) units.symm
        rw [if_neg enoughHere, number]
        have written : (Int32.ofInt ((getAttribute state.world obj .amount).toNat -
            amount)).toInt = (getAttribute state.world obj .amount).toNat - amount :=
          Int32.toInt_ofInt_of_le (by omega) (by omega)
        have left := to_nat_count (by rw [written]; omega : 0 ≤ (Int32.ofInt
          ((getAttribute state.world obj .amount).toNat - amount)).toInt)
        have taken : (Int32.ofInt ((getAttribute state.world obj .amount).toNat -
            amount)).toUInt32.toNat + amount.toNat =
            (getAttribute state.world obj .amount).toNat := by omega
        apply (change_round sound inventory lasting holds innermost stack (by omega)
          taken).imp
        · exact fun _ _ thinned => thinned
        · exact fun _ _ impossible => impossible.elim
        · exact fun _ impossible => impossible
      | false =>
        have units : unitsOf state.world obj = 1 := if_neg (by rw [typed, stack]; decide)
        exact rest 1 Nat.one_pos (by omega) units.symm
    · rw [if_neg positive]
      apply meets_pure
      have none : amount.toNat = 0 := by omega
      rw [none]
      exact ⟨kids, sound, inventory, holds, rfl⟩

end Rounds

end TibiaGame.InventoryDeletion
