import TibiaGame.InventoryDeletion

/-!
# Whether counting agrees with deleting

`count_objects` does not pass `Value` on to what lies in a container, and counts body containers,
which a search never finds. The count is what `delete_at_creature` can take exactly where the two
walks mean the same objects.
-/

namespace TibiaGame.InventoryAgreement

open GameTypes ObjectStore ObjectOperations InfoModel OperateModel OperateChanges ForestOperations
open ForestRuns MoveForest ContainerWalks FurnishedWorlds DepotCounts
open InventoryCounts InventoryDeletion Library.ThrowingState Library.OrderedForest
open Library.LinkedList

variable {cfg : GameConfig} {state : GameState cfg} {world after : World cfg}
  {kids newKids : Object → List Object} {body obj node : Object} {type : ObjectType cfg}
  {value creatureID : UInt32} {surroundings : Surroundings cfg}

/-- The objects that are counted are those that a search finds. -/
def Agree (world : World cfg) (kids : Object → List Object) (body : Object)
    (type : ObjectType cfg) (value : UInt32) : Prop :=
  ∀ obj, Counted world kids body type value obj ↔ Found world kids body type value obj

/-- Any number of units up to the count is deleted, and the count goes down by it; for a larger one
`delete_at_creature` throws. -/
def CountsAgree (surroundings : Surroundings cfg) (state : GameState cfg)
    (kids : Object → List Object) (creatureID : UInt32) (body : Object) (type : ObjectType cfg)
    (value : UInt32) : Prop :=
  ∃ count : Int32, countInventoryObjects state creatureID type value = .ok count ∧
    (∀ amount : Int, 0 ≤ amount → amount ≤ count.toInt → ∀ fuel, amount.toNat < fuel →
      ∃ after newKids,
        finish (deleteAtCreature surroundings creatureID type value fuel amount) state =
          .ok (.ok (), after) ∧ Sound after.world newKids ∧
        held after.world newKids body type value + amount =
          held state.world kids body type value ∧
        countInventoryObjects after creatureID type value = .ok (count - Int32.ofInt amount)) ∧
    ∀ amount : Int, count.toInt < amount → ∀ fuel, amount.toNat < fuel → ∃ after,
      finish (deleteAtCreature surroundings creatureID type value fuel amount) state =
        .ok (.error .error, after)

theorem sum_zero_empty {objects : Set Object} {weight : Object → Nat}
    (positive : ∀ node ∈ objects, 1 ≤ weight node) (zero : ∑ᶠ node ∈ objects, weight node = 0) :
    objects = ∅ := by
  by_contra some
  rcases Set.nonempty_iff_ne_empty.mpr some with ⟨node, member⟩
  have split : objects = insert node (objects \ {node}) := by
    rw [Set.insert_sdiff_singleton, Set.insert_eq_of_mem member]
  have outside : node ∉ objects \ {node} := fun both => both.2 rfl
  rw [split, finsum_mem_insert _ outside (Set.toFinite _)] at zero
  have one := positive node member
  omega

theorem subset_of_sum {objects more : Set Object} {weight : Object → Nat} (fewer : objects ⊆ more)
    (positive : ∀ node ∈ more, 1 ≤ weight node)
    (same : ∑ᶠ node ∈ objects, weight node = ∑ᶠ node ∈ more, weight node) : objects = more := by
  have total : ∑ᶠ node ∈ objects, weight node + ∑ᶠ node ∈ more \ objects, weight node =
      ∑ᶠ node ∈ more, weight node := finsum_mem_add_sdiff fewer (Set.toFinite more)
  have none : more \ objects = ∅ := by
    apply sum_zero_empty
    · intro node both
      exact positive node both.1
    · omega
  exact fewer.antisymm (Set.sdiff_eq_empty.mp none)

theorem counted_slot_or_carried (counted : Counted world kids body type value node) :
    node ∈ kids body ∨ Carried world kids body node := by
  rcases counted with isSlot | found
  · exact .inl isSlot.1
  · exact .inr found.1

theorem counted_type (counted : Counted world kids body type value node) :
    getObjectType world node = type := by
  rcases counted with isSlot | found
  · exact fit_type isSlot.2
  · exact fit_type found.2

theorem units_positive (inventory : Inventory state kids creatureID body)
    (either : node ∈ kids body ∨ Carried state.world kids body node) :
    1 ≤ unitsOf state.world node := by
  unfold unitsOf
  split_ifs with stack
  · exact (inventory.amounts node either stack).1
  · exact le_refl 1

/-- What is no stack is counted as one each, and there are not that many objects. -/
theorem counted_units_few (sound : Sound state.world kids)
    (few : type.getFlag .cumulative = true →
      countedUnits state.world kids body type value < 2 ^ 31) :
    countedUnits state.world kids body type value < 2 ^ 31 := by
  cases stack : type.getFlag .cumulative with
  | true => exact few stack
  | false =>
    have ones : countedUnits state.world kids body type value =
        {node | Counted state.world kids body type value node}.ncard := by
      have each : ∀ node ∈ {node | Counted state.world kids body type value node},
          unitsOf state.world node = 1 := by
        intro node counted
        rw [unitsOf, counted_type counted, stack]
        rfl
      rw [countedUnits, finsum_mem_congr rfl each,
        finsum_mem_eq_finite_toFinset_sum _ (Set.toFinite _), Finset.sum_const, smul_eq_mul,
        mul_one, ← Set.ncard_eq_toFinset_card]
    rw [ones]
    apply live_objects_few sound.described.agreement
    intro node counted
    rcases counted_slot_or_carried counted with isSlot | carried
    · exact (member_container sound.described.forest isSlot).1
    · exact carried_live sound carried

theorem nothing_lasting (body : Object) (type : ObjectType cfg) (value : UInt32) :
    Lasting body type value fun _ _ => True :=
  fun _ _ _ _ _ _ _ _ _ _ => trivial

theorem agree_lasting : Lasting body type value fun world kids => Agree world kids body type value := by
  intro before after kids newKids obj gone sound found spared agree node
  rw [spared.counted sound found.1, spared.found, agree node]

theorem agree_units (agree : Agree world kids body type value) :
    countedUnits world kids body type value = held world kids body type value := by
  have same : {node | Counted world kids body type value node} =
      {node | Found world kids body type value node} := Set.ext agree
  rw [countedUnits, held, same]

theorem of_nat_sub {left whole : Nat} {amount : Int} (nonneg : 0 ≤ amount)
    (total : left + amount.toNat = whole) :
    Int32.ofNat left = Int32.ofNat whole - Int32.ofInt amount := by
  have number : Int32.ofInt amount = Int32.ofNat amount.toNat := by
    rw [← Int32.ofInt_eq_ofNat, Int.toNat_of_nonneg nonneg]
  rw [number, ← total, Int32.ofNat_add, Int32.add_sub_cancel]

theorem to_int_of_nat_small {number : Nat} (small : number < 2 ^ 31) :
    (Int32.ofNat number).toInt = number := by
  rw [← Int32.ofInt_eq_ofNat]
  exact Int32.toInt_ofInt_of_le (by omega) (by omega)

theorem deletes_held (surroundings : Surroundings cfg)
    {fact : World cfg → (Object → List Object) → Prop} {amount : Int} {fuel : Nat}
    (sound : Sound state.world kids) (inventory : Inventory state kids creatureID body)
    (lasting : Lasting body type value fact) (holds : fact state.world kids)
    (enough : amount.toNat < fuel) (within : amount ≤ held state.world kids body type value) :
    ∃ after, finish (deleteAtCreature surroundings creatureID type value fuel amount) state =
        .ok (.ok (), after) ∧
      Thinned fact state kids creatureID body type value amount.toNat after := by
  have run := delete_at_creature_run surroundings lasting fuel state kids amount
    sound inventory holds enough
  rcases run.returned (fun _ _ thrown => by omega) (fun _ impossible => impossible) with
    ⟨result, after, ended, thinned⟩
  exact ⟨after, ended, thinned⟩

theorem refuses_more (surroundings : Surroundings cfg) {amount : Int} {fuel : Nat}
    (sound : Sound state.world kids) (inventory : Inventory state kids creatureID body)
    (enough : amount.toNat < fuel)
    (beyond : (held state.world kids body type value : Int) < amount) :
    ∃ after, finish (deleteAtCreature surroundings creatureID type value fuel amount) state =
      .ok (.error .error, after) := by
  have run := delete_at_creature_run surroundings (nothing_lasting body type value) fuel state kids
    amount sound inventory trivial enough
  have unreturned : ∀ (_ : Unit) after, ¬ Thinned (fun _ _ => True) state kids creatureID body type
      value amount.toNat after := by
    intro _ after thinned
    rcases thinned with ⟨newKids, _, _, _, less⟩
    omega
  rcases run.thrown unreturned (fun _ impossible => impossible) with ⟨result, after, ended, thrown⟩
  rw [thrown.1] at ended
  exact ⟨after, ended⟩

/-- Where the two walks mean the same objects, the count is what can be deleted. -/
theorem counts_agree_of_agree (sound : Sound state.world kids)
    (inventory : Inventory state kids creatureID body)
    (small : countedUnits state.world kids body type value < 2 ^ 31)
    (agree : Agree state.world kids body type value) :
    CountsAgree surroundings state kids creatureID body type value := by
  have units := agree_units agree
  have number := to_int_of_nat_small small
  refine ⟨_, count_inventory_spec sound inventory, ?_, ?_⟩
  · intro amount nonneg within fuel enough
    rw [number, units] at within
    rcases deletes_held surroundings sound inventory agree_lasting agree enough within with
      ⟨after, ended, newKids, newSound, newInventory, stillAgree, less⟩
    refine ⟨after, newKids, ended, newSound, by omega, ?_⟩
    rw [count_inventory_spec newSound newInventory, agree_units stillAgree, units,
      of_nat_sub nonneg less]
  · intro amount beyond fuel enough
    rw [number, units] at beyond
    exact refuses_more surroundings sound inventory enough beyond

theorem held_of_counts_agree (sound : Sound state.world kids)
    (inventory : Inventory state kids creatureID body)
    (small : countedUnits state.world kids body type value < 2 ^ 31)
    (agrees : CountsAgree surroundings state kids creatureID body type value) :
    countedUnits state.world kids body type value = held state.world kids body type value := by
  have number := to_int_of_nat_small small
  rcases agrees with ⟨count, returned, deletes, refuses⟩
  rw [count_inventory_spec sound inventory, Except.ok.injEq] at returned
  rw [← returned, number] at deletes refuses
  by_contra different
  rcases Nat.lt_or_gt_of_ne different with less | more
  · rcases refuses (held state.world kids body type value) (by omega) _ (Nat.lt_succ_self _) with
      ⟨after, thrown⟩
    rcases deletes_held surroundings sound inventory (nothing_lasting body type value)
      trivial (Nat.lt_succ_self _) (le_refl _) with
      ⟨last, ended, _⟩
    rw [thrown] at ended
    cases ended
  rcases deletes (countedUnits state.world kids body type value) (by omega) (le_refl _) _
    (Nat.lt_succ_self _) with ⟨after, newKids, ended, _⟩
  rcases refuses_more surroundings sound inventory (Nat.lt_succ_self _) (by omega) with ⟨last, thrown⟩
  rw [thrown] at ended
  cases ended

theorem fits_alike (unvalued : ¬ (type.getFlag .key = true ∨ type.getFlag .liquidContainer = true))
    (other : UInt32) : fits world type other obj = fits world type value obj := by
  rw [not_or, Bool.not_eq_true, Bool.not_eq_true] at unvalued
  unfold fits
  by_cases typed : getObjectType world obj = type
  · rw [typed, unvalued.1, unvalued.2]
    rfl
  rw [beq_false_of_ne typed]
  rfl

theorem fits_apart (valued : type.getFlag .key = true ∨ type.getFlag .liquidContainer = true)
    {other : UInt32} (different : other ≠ value) (fit : fits world type other obj = true) :
    fits world type value obj = false := by
  have typed := fit_type fit
  unfold fits at fit ⊢
  rw [typed] at fit ⊢
  rcases valued with key | liquid
  · rw [key, Bool.and_eq_true] at fit
    have number : getAttribute world obj .keyNumber = other := by simpa using fit.2
    rw [key, number, beq_false_of_ne different]
    simp
  rw [liquid, Bool.and_eq_true, Bool.and_eq_true] at fit
  have number : getAttribute world obj .containerLiquidType = other := by simpa using fit.1.2
  rw [liquid, number, beq_false_of_ne different]
  simp

/-- Where no container has a key number or a liquid, what is not counted goes without the count. -/
theorem counted_lasting (plain : ¬ (type.getFlag .container = true ∧
      (type.getFlag .key = true ∨ type.getFlag .liquidContainer = true)))
    (apart : ∀ world obj, fits world type 0 obj = true → fits world type value obj = false)
    (valued : type.getFlag .key = true ∨ type.getFlag .liquidContainer = true) (units : Nat) :
    Lasting body type value fun world kids => countedUnits world kids body type value = units := by
  intro before after kids newKids obj gone sound found spared counts
  have noContainer : type.getFlag .container = false := by
    cases container : type.getFlag .container with
    | true => exact (plain ⟨container, valued⟩).elim
    | false => rfl
  have elsewhere : ∀ node, Counted before kids body type value node → ¬ Below kids obj node := by
    intro node counted inside
    rcases counted with isSlot | other
    · exact slot_outside sound found.1 isSlot.1 inside
    by_cases same : node = obj
    · have unfit := apart before node other.2
      rw [same, found.2] at unfit
      cases unfit
    rcases below_of_child (carried_inside sound other.1 found.1 inside) same with
      ⟨child, edge, _⟩
    rw [countedKids, fit_type found.2, noContainer] at edge
    cases edge
  have sameObjects : {node | Counted after newKids body type value node} =
      {node | Counted before kids body type value node} := by
    ext node
    rw [Set.mem_ofPred_eq, spared.counted sound found.1]
    apply and_iff_left_of_imp
    intro counted lost
    exact elsewhere node counted (spared.inside node lost)
  rw [← counts, countedUnits, countedUnits, sameObjects]
  apply finsum_mem_congr rfl
  intro node counted
  apply spared.units
  · rcases counted_slot_or_carried counted with isSlot | carried
    · exact .inl isSlot
    right
    apply (spared.carried node).mpr
    exact ⟨carried, fun lost => elsewhere node counted (spared.inside node lost)⟩
  intro same
  apply elsewhere node counted
  rw [same]
  exact below_refl kids obj

theorem agree_of_counts_agree (sound : Sound state.world kids)
    (inventory : Inventory state kids creatureID body)
    (small : countedUnits state.world kids body type value < 2 ^ 31)
    (plain : ¬ (type.getFlag .container = true ∧
      (type.getFlag .key = true ∨ type.getFlag .liquidContainer = true)))
    (agrees : CountsAgree surroundings state kids creatureID body type value) :
    Agree state.world kids body type value := by
  have same := held_of_counts_agree sound inventory small agrees
  have countedPositive : ∀ node ∈ {node | Counted state.world kids body type value node},
      1 ≤ unitsOf state.world node :=
    fun node counted => units_positive inventory (counted_slot_or_carried counted)
  have foundPositive : ∀ node ∈ {node | Found state.world kids body type value node},
      1 ≤ unitsOf state.world node := fun node found => units_positive inventory (.inr found.1)
  by_cases alike : ∀ obj, fits state.world type 0 obj = fits state.world type value obj
  · have fewer : {node | Found state.world kids body type value node} ⊆
        {node | Counted state.world kids body type value node} := by
      intro node found
      right
      constructor
      · exact found.1
      · rw [alike]
        exact found.2
    have sets := subset_of_sum fewer countedPositive same.symm
    intro node
    exact (Set.ext_iff.mp sets node).symm
  have valued : type.getFlag .key = true ∨ type.getFlag .liquidContainer = true := by
    by_contra unvalued
    exact alike fun _ => fits_alike unvalued 0
  have different : 0 ≠ value := by
    intro zero
    rw [← zero] at alike
    exact alike fun _ => rfl
  have lasting : Lasting body type value fun other otherKids =>
      countedUnits other otherKids body type value = countedUnits state.world kids body type value :=
    counted_lasting plain (fun _ _ => fits_apart valued different) valued _
  have number := to_int_of_nat_small small
  rcases agrees with ⟨count, returned, deletes, _⟩
  rw [count_inventory_spec sound inventory, Except.ok.injEq] at returned
  rw [← returned, number] at deletes
  have enough := Nat.lt_succ_self (countedUnits state.world kids body type value : Int).toNat
  rcases deletes _ (by omega) (le_refl _) _ enough with ⟨after, _, ended, _, _, counts⟩
  rcases deletes_held surroundings sound inventory lasting rfl enough (by omega) with
    ⟨last, sameEnd, newKids, newSound, newInventory, stays, _⟩
  rw [ended] at sameEnd
  have sameState : after = last := congrArg Prod.snd (Except.ok.inj sameEnd)
  rw [sameState, count_inventory_spec newSound newInventory, stays, Except.ok.injEq] at counts
  have zero : countedUnits state.world kids body type value = 0 := by
    have none := of_nat_sub (Int.natCast_nonneg (countedUnits state.world kids body type value))
      (Nat.zero_add _)
    rw [Int.toNat_natCast, ← counts] at none
    have equal := congrArg Int32.toInt none
    rw [to_int_of_nat_small small, to_int_of_nat_small (by decide)] at equal
    omega
  have noneCounted := sum_zero_empty countedPositive zero
  have noneFound := sum_zero_empty foundPositive (same.symm.trans zero)
  intro node
  apply iff_of_false
  · exact fun counted => Set.eq_empty_iff_forall_notMem.mp noneCounted node counted
  · exact fun found => Set.eq_empty_iff_forall_notMem.mp noneFound node found

/-- Counting agrees with deleting where the counted objects are those that a search finds. Where no
container has a key number or a liquid, it agrees nowhere else. -/
theorem counting_agrees (surroundings : Surroundings cfg) (sound : Sound state.world kids)
    (inventory : Inventory state kids creatureID body)
    (few : type.getFlag .cumulative = true →
      countedUnits state.world kids body type value < 2 ^ 31) :
    (Agree state.world kids body type value →
      CountsAgree surroundings state kids creatureID body type value) ∧
    (¬ (type.getFlag .container = true ∧
        (type.getFlag .key = true ∨ type.getFlag .liquidContainer = true)) →
      CountsAgree surroundings state kids creatureID body type value →
      Agree state.world kids body type value) := by
  have small := counted_units_few sound few
  constructor
  · exact counts_agree_of_agree sound inventory small
  · exact agree_of_counts_agree sound inventory small

section Keys

def keyTypes : GameConfig where
  maxTypeID := 105
  typeFlags := fun type flag => match flag with
    | .container => decide (type ≤ 10) || type == 99 || type == 101
    | .take => type == 101 || type == 105
    | .key => type == 105
    | _ => false
  typeAttributes := fun _ attr => match attr with
    | .capacity => 20
    | _ => 0
  hashTableLog := 5
  maxTypeID_lt := by decide
  mapContainer_holds := rfl
  mapContainer_lasts := rfl
  creature_single := rfl
  hashTableLog_lt := by decide

def key : ObjectType keyTypes := setTypeID keyTypes 105

/-- A creature with a bag on its back and a key with the number 0 in it. -/
def keyBearer : List (Furniture keyTypes) :=
  [⟨⟨1⟩, setTypeID keyTypes 99, 5, 0⟩, ⟨⟨3⟩, setTypeID keyTypes 3, 0, 0⟩,
    ⟨⟨4⟩, setTypeID keyTypes 101, 0, 0⟩, ⟨⟨5⟩, key, 0, 0⟩]

def bearing (world : World keyTypes) : GameState keyTypes :=
  ⟨world, fun creatureID => if creatureID = 5 then some ⟨⟨3⟩, none⟩ else none⟩

/-- The slot is in the creature, the bag in the slot and the key in the bag. -/
def bearsSuch (world : World keyTypes) : Bool :=
  objectExists world ⟨3⟩ && (getObjectType world ⟨3⟩).holdsObjects &&
    getFirstContainerObject world ⟨3⟩ == ⟨4⟩ && getNextObject world ⟨4⟩ == NONE &&
    getFirstContainerObject world ⟨4⟩ == ⟨5⟩ && getNextObject world ⟨5⟩ == NONE &&
    getFirstContainerObject world ⟨5⟩ == ⟨6⟩ && getNextObject world ⟨6⟩ == NONE &&
    getObjectType world ⟨4⟩ == setTypeID keyTypes 3 &&
    getObjectType world ⟨5⟩ == setTypeID keyTypes 101 && getObjectType world ⟨6⟩ == key

variable {world : World keyTypes} {kids : Object → List Object}

theorem single_row {con child : Object} (sound : Sound world kids)
    (isLive : objectExists world con = true) (first : getFirstContainerObject world con = child)
    (some : child ≠ NONE) (last : getNextObject world child = NONE) : kids con = [child] := by
  apply chain_unique (row_chain sound.described.forest isLive)
  rw [first]
  exact ⟨rfl, some, last⟩

structure Bears (world : World keyTypes) (kids : Object → List Object) : Prop where
  body : kids ⟨3⟩ = [⟨4⟩]
  slot : kids ⟨4⟩ = [⟨5⟩]
  bag : kids ⟨5⟩ = [⟨6⟩]
  leaf : kids ⟨6⟩ = []
  slotType : getObjectType world ⟨4⟩ = setTypeID keyTypes 3
  bagType : getObjectType world ⟨5⟩ = setTypeID keyTypes 101
  keyType : getObjectType world ⟨6⟩ = key

theorem bears_such (sound : Sound world kids) (passes : bearsSuch world = true) :
    Bears world kids ∧ IsHolder world ⟨3⟩ := by
  simp only [bearsSuch, Bool.and_eq_true, beq_iff_eq] at passes
  rcases passes with ⟨⟨⟨⟨⟨⟨⟨⟨⟨⟨isLive, holds⟩, first⟩, firstLast⟩, second⟩, secondLast⟩, third⟩,
    thirdLast⟩, slotType⟩, bagType⟩, keyType⟩
  have forest := sound.described.forest
  have body := single_row sound isLive first (by decide) firstLast
  have slotLive := (member_container forest (by rw [body]; exact List.mem_singleton_self _ :
    (⟨4⟩ : Object) ∈ kids ⟨3⟩)).1
  have slot := single_row sound slotLive second (by decide) secondLast
  have bagLive := (member_container forest (by rw [slot]; exact List.mem_singleton_self _ :
    (⟨5⟩ : Object) ∈ kids ⟨4⟩)).1
  have bag := single_row sound bagLive third (by decide) thirdLast
  have leaf : kids ⟨6⟩ = [] := by
    apply forest.barren
    rw [ne_eq, ← holder_iff]
    intro isHolder
    have plain := isHolder.2
    rw [keyType] at plain
    exact absurd plain (by decide)
  exact ⟨⟨body, slot, bag, leaf, slotType, bagType, keyType⟩, isLive, holds⟩

theorem Bears.carried (bears : Bears world kids) {obj : Object}
    (carried : Carried world kids ⟨3⟩ obj) : obj = ⟨5⟩ ∨ obj = ⟨6⟩ := by
  rcases carried with ⟨slot, edge, different, under⟩
  rw [bears.body, List.mem_singleton] at edge
  rw [edge] at different under
  rcases below_of_child (counted_below under) different with ⟨bag, inSlot, further⟩
  rw [bears.slot, List.mem_singleton] at inSlot
  rw [inSlot] at further
  by_cases isBag : obj = ⟨5⟩
  · exact .inl isBag
  rcases below_of_child further isBag with ⟨inner, inBag, last⟩
  rw [bears.bag, List.mem_singleton] at inBag
  rw [inBag] at last
  exact .inr ((below_leaf bears.leaf).mp last)

theorem Bears.inventory (bears : Bears world kids) (holder : IsHolder world ⟨3⟩) :
    Inventory (bearing world) kids 5 ⟨3⟩ := by
  apply Inventory.mk
  · exact ⟨none, rfl⟩
  · exact holder
  · intro slot edge
    rw [bears.body, List.mem_singleton] at edge
    rw [edge]
    change (getObjectType world ⟨4⟩).getFlag .container = true
    rw [bears.slotType]
    decide
  · intro slot edge
    rw [bears.body, List.mem_singleton] at edge
    rw [edge, bears.slot]
    exact le_refl 1
  · intro obj either stack
    have plain : (getObjectType world obj).getFlag .cumulative = false := by
      rcases either with isSlot | within
      · rw [bears.body, List.mem_singleton] at isSlot
        rw [isSlot, bears.slotType]
        decide
      rcases bears.carried within with isBag | isKey
      · rw [isBag, bears.bagType]
        decide
      rw [isKey, bears.keyType]
      decide
    cases stack

/-- The key without a number is counted, and it can be deleted. -/
theorem counting_agrees_of_a_key : ∃ (state : GameState keyTypes) (kids : Object → List Object),
    Sound state.world kids ∧ Inventory state kids 5 ⟨3⟩ ∧ CountsAgree idle state kids 5 ⟨3⟩ key 0 := by
  have passes : furnishedSuch keyBearer bearsSuch = true := by decide +kernel
  rcases furnished_such passes with ⟨world, kids, sound, test⟩
  rcases bears_such sound test with ⟨bears, holder⟩
  have inventory := bears.inventory holder
  have agree : Agree world kids ⟨3⟩ key 0 := by
    intro obj
    constructor
    · intro counted
      rcases counted with isSlot | found
      · rw [bears.body, List.mem_singleton] at isSlot
        have typed := fit_type isSlot.2
        rw [isSlot.1, bears.slotType] at typed
        exact absurd typed (by decide)
      · exact found
    · exact .inr
  exact ⟨bearing world, kids, sound, inventory,
    (counting_agrees idle sound inventory fun stack => absurd stack (by decide)).1 agree⟩

/-- Asked for the number 5 the count is one, but nothing is there to be deleted. -/
theorem key_of_another_number : ∃ (state : GameState keyTypes) (kids : Object → List Object),
    Sound state.world kids ∧ Inventory state kids 5 ⟨3⟩ ∧
      countInventoryObjects state 5 key 5 = .ok 1 ∧
      ¬ CountsAgree idle state kids 5 ⟨3⟩ key 5 := by
  have passes : furnishedSuch keyBearer (fun world => bearsSuch world &&
      decide (countInventoryObjects (bearing world) 5 key 5 = .ok 1) &&
      !returnsSuch (deleteAtCreature idle 5 key 5 2 1) (bearing world) fun _ => true) = true := by
    decide +kernel
  rcases furnished_such passes with ⟨world, kids, sound, test⟩
  simp only [Bool.and_eq_true, decide_eq_true_eq, Bool.not_eq_true'] at test
  rcases test with ⟨⟨such, counts⟩, refuses⟩
  rcases bears_such sound such with ⟨bears, holder⟩
  refine ⟨bearing world, kids, sound, bears.inventory holder, counts, ?_⟩
  intro agrees
  rcases agrees with ⟨count, returned, deletes, _⟩
  rw [counts, Except.ok.injEq] at returned
  rcases deletes 1 (by decide) (by rw [← returned]; decide) 2 (by decide) with ⟨after, _, ended, _⟩
  rw [returnsSuch, ended] at refuses
  cases refuses

end Keys

end TibiaGame.InventoryAgreement
