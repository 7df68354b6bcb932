import TibiaGame.DepotCounts
import TibiaGame.Weights

/-!
# Counting and finding objects in an inventory

`count_inventory_objects` and `get_inventory_object` of `info.cpp`, and `delete_at_creature` of
`operate.cpp` that deletes what the second one finds. Both walks are compared with what the
creature carries.
-/

namespace TibiaGame.InventoryCounts

open GameTypes ObjectStore ObjectOperations InfoModel OperateModel OperateChanges List
open ForestSteps ForestOperations ForestRuns ContainerWalks Weights FurnishedWorlds
open DepotCounts Library.ThrowingState Library.LinkedList Library.OrderedForest
open Library.ForestChanges Library.ForestSums

variable {cfg : GameConfig}

/-- The test of `get_row_object` and of `count_objects` on an object. -/
def fits (world : World cfg) (type : ObjectType cfg) (value : UInt32) (obj : Object) : Bool :=
  getObjectType world obj == type &&
    (!(getObjectType world obj).getFlag .liquidContainer ||
      getAttribute world obj .containerLiquidType == value) &&
    (!(getObjectType world obj).getFlag .key || getAttribute world obj .keyNumber == value)

/-- What `count_objects` adds for an object that fits. -/
def countOf (world : World cfg) (obj : Object) : Int32 :=
  if (getObjectType world obj).getFlag .cumulative then (getAttribute world obj .amount).toInt32
  else 1

/-- The loop of `count_objects`. What lies in a container is counted with the value 0. -/
def countObjectRow (world : World cfg) (type : ObjectType cfg) :
    Nat → UInt32 → Object → Except Halt Int32
  | 0, _, _ => .error .hang
  | fuel + 1, value, obj =>
      if obj = NONE then .ok 0
      else do
        let help := getFirstContainerObject world obj
        let inner ← (if (getObjectType world obj).getFlag .container && objectExists world help then
            countObjectRow world type fuel 0 help
          else .ok 0)
        let own := if fits world type value obj then countOf world obj else 0
        .ok (inner + own + (← countObjectRow world type fuel value (getNextObject world obj)))

/-- `count_objects` of a type. -/
def countObjectsOf (world : World cfg) (obj : Object) (type : ObjectType cfg) (value : UInt32) :
    Except Halt Int32 :=
  if objectExists world obj then countObjectRow world type walkLimit value obj else .ok 0

def countInventoryObjects (state : GameState cfg) (creatureID : UInt32) (type : ObjectType cfg)
    (value : UInt32) : Except Halt Int32 :=
  match state.creatures creatureID with
  | none => .ok 0
  | some creature =>
      if creature.crObject = NONE then .ok 0
      else countObjectsOf state.world (getFirstContainerObject state.world creature.crObject) type
        value

def getRowObject (world : World cfg) (type : ObjectType cfg) (value : UInt32) (recurse : Bool) :
    Nat → Object → Except Halt Object
  | 0, _ => .error .hang
  | fuel + 1, obj =>
      if obj = NONE then .ok NONE
      else do
        let inner ← (if recurse && (getObjectType world obj).getFlag .container then
            getRowObject world type value recurse fuel (getFirstContainerObject world obj)
          else .ok NONE)
        if inner ≠ NONE then .ok inner
        else if fits world type value obj then .ok obj
        else getRowObject world type value recurse fuel (getNextObject world obj)

/-- The two loops of `get_inventory_object`, with what they look for in a body container. -/
def searchBody (world : World cfg) (look : Object → Except Halt Object) :
    Nat → Object → Except Halt Object
  | 0, _ => .error .hang
  | fuel + 1, bodyCon =>
      if bodyCon = NONE then .ok NONE
      else do
        let found ← look (getFirstContainerObject world bodyCon)
        if found ≠ NONE then .ok found
        else searchBody world look fuel (getNextObject world bodyCon)

/-- In the first loop: something in the container that is worn. -/
def lookInside (world : World cfg) (type : ObjectType cfg) (value : UInt32) (bodyObj : Object) :
    Except Halt Object :=
  if bodyObj ≠ NONE ∧ (getObjectType world bodyObj).getFlag .container = true then
    getRowObject world type value true walkLimit (getFirstContainerObject world bodyObj)
  else .ok NONE

def lookAtRow (world : World cfg) (type : ObjectType cfg) (value : UInt32) (bodyObj : Object) :
    Except Halt Object :=
  getRowObject world type value false walkLimit bodyObj

def getInventoryObject (state : GameState cfg) (creatureID : UInt32) (type : ObjectType cfg)
    (value : UInt32) : Except Halt Object :=
  match state.creatures creatureID with
  | none => .ok NONE
  | some creature => do
      let world := state.world
      let first := getFirstContainerObject world creature.crObject
      let found ← searchBody world (lookInside world type value) walkLimit first
      if found = NONE then searchBody world (lookAtRow world type value) walkLimit first
      else .ok found

/-- The amounts stay in the range of an `int`: what is subtracted is never more than what is left. -/
def deleteAtCreature (surroundings : Surroundings cfg) (creatureID : UInt32)
    (type : ObjectType cfg) (value : UInt32) : Nat → Int → Operate cfg Unit
  | 0, _ => attempt (.error .hang)
  | fuel + 1, amount =>
      if amount > 0 then do
        let state ← get
        let obj ← attempt (getInventoryObject state creatureID type value)
        refuse (decide (obj = NONE)) .error
        if type.getFlag .cumulative then
          let objAmount := (getAttribute state.world obj .amount).toInt32.toInt
          if objAmount ≤ amount then do
            deleteOp obj (-1)
            deleteAtCreature surroundings creatureID type value fuel (amount - objAmount)
          else changeValue surroundings obj .amount (Int32.ofInt (objAmount - amount)).toUInt32
        else do
          deleteOp obj (-1)
          deleteAtCreature surroundings creatureID type value fuel (amount - 1)
      else pure ()

/-- The object lies in a body container, or in a container that the creature carries. -/
def Carried (world : World cfg) (kids : Object → List Object) (body obj : Object) : Prop :=
  ∃ slot ∈ kids body, obj ≠ slot ∧ Below (countedKids world kids) slot obj

/-- The body containers of a creature are containers that hold one object at most, and no stack
that it carries is empty or too large for an `int`. -/
structure Inventory (state : GameState cfg) (kids : Object → List Object) (creatureID : UInt32)
    (body : Object) : Prop where
  known : ∃ player, state.creatures creatureID = some ⟨body, player⟩
  holder : IsHolder state.world body
  slots : ∀ slot ∈ kids body, (getObjectType state.world slot).getFlag .container = true
  single : ∀ slot ∈ kids body, (kids slot).length ≤ 1
  amounts : ∀ obj, obj ∈ kids body ∨ Carried state.world kids body obj →
    (getObjectType state.world obj).getFlag .cumulative = true →
    1 ≤ (getAttribute state.world obj .amount).toNat ∧
      (getAttribute state.world obj .amount).toNat < 2 ^ 31

def unitsOf (world : World cfg) (obj : Object) : Nat :=
  if (getObjectType world obj).getFlag .cumulative then (getAttribute world obj .amount).toNat
  else 1

def Found (world : World cfg) (kids : Object → List Object) (body : Object) (type : ObjectType cfg)
    (value : UInt32) (obj : Object) : Prop :=
  Carried world kids body obj ∧ fits world type value obj = true

/-- The objects that are counted: the body containers with the value, all others with 0. -/
def Counted (world : World cfg) (kids : Object → List Object) (body : Object)
    (type : ObjectType cfg) (value : UInt32) (obj : Object) : Prop :=
  obj ∈ kids body ∧ fits world type value obj = true ∨ Found world kids body type 0 obj

noncomputable def held (world : World cfg) (kids : Object → List Object) (body : Object)
    (type : ObjectType cfg) (value : UInt32) : Nat :=
  ∑ᶠ obj ∈ {obj | Found world kids body type value obj}, unitsOf world obj

noncomputable def countedUnits (world : World cfg) (kids : Object → List Object) (body : Object)
    (type : ObjectType cfg) (value : UInt32) : Nat :=
  ∑ᶠ obj ∈ {obj | Counted world kids body type value obj}, unitsOf world obj

section Rows

variable {world : World cfg} {kids : Object → List Object} {obj body slot : Object}
  {type : ObjectType cfg} {value : UInt32}

theorem count_of_eq (world : World cfg) (obj : Object) :
    countOf world obj = Int32.ofNat (unitsOf world obj) := by
  unfold countOf unitsOf
  split_ifs
  · exact to_int_of_nat _
  · rfl

def fitting (world : World cfg) (type : ObjectType cfg) (value : UInt32) (obj : Object) : Nat :=
  if fits world type value obj then unitsOf world obj else 0

/-- What lies in the objects of a row is counted with the value 0. -/
noncomputable def rowUnits (world : World cfg) (kids : Object → List Object)
    (type : ObjectType cfg) (value : UInt32) (members : List Object) : Nat :=
  (members.map fun node => fitting world type value node +
    ((countedKids world kids node).map
      (load (countedKids world kids) (fitting world type 0))).sum).sum

section

variable (sound : Sound world kids)
include sound

theorem counted_nodup (node : Object) : (countedKids world kids node).Nodup := by
  unfold countedKids
  split_ifs
  · exact sound.described.forest.nodup node
  · exact nodup_nil

theorem row_units_zero (members : List Object) :
    rowUnits world kids type 0 members =
      (members.map (load (countedKids world kids) (fitting world type 0))).sum := by
  unfold rowUnits
  congr 1
  apply map_congr_left
  intro node _
  exact (load_children (counted_single sound) (counted_ranked sound)
    (counted_nodup sound node)).symm

theorem row_units_cons (node : Object) (rest : List Object) :
    rowUnits world kids type value (node :: rest) =
      fitting world type value node + rowUnits world kids type 0 (countedKids world kids node) +
        rowUnits world kids type value rest := by
  rw [row_units_zero sound, rowUnits, map_cons, sum_cons]
  rfl

theorem row_size_cons (node : Object) (rest : List Object) :
    rowSize (countedKids world kids) (node :: rest) =
      1 + rowSize (countedKids world kids) (countedKids world kids node) +
        rowSize (countedKids world kids) rest := by
  have size := below_count (counted_single sound) (counted_ranked sound)
    (counted_nodup sound node)
  rw [rowSize, map_cons, sum_cons, size]
  rfl

theorem row_limit (node : Object) :
    rowSize (countedKids world kids) (kids node) + 1 ≤ walkLimit := by
  have forest := sound.described.forest
  have size := below_count forest.single forest.ranked (forest.nodup node)
  have bound := Set.ncard_le_card {x | Below kids node x}
  have few := nat_card_object
  have fewer : rowSize (countedKids world kids) (kids node) ≤ rowSize kids (kids node) := by
    apply sum_le_sum
    intro child _
    apply Set.ncard_le_ncard _ (Set.toFinite _)
    intro x under
    exact counted_below under
  unfold rowSize at fewer ⊢
  unfold walkLimit
  omega

/-- With enough steps the loop of `count_objects` returns the units of the row. -/
theorem count_row_walk (fuel : Nat) :
    ∀ value members first, Chain NONE (getNextObject world) first members →
      (∀ node ∈ members, objectExists world node = true) →
      rowSize (countedKids world kids) members + 1 ≤ fuel →
      countObjectRow world type fuel value first =
        .ok (Int32.ofNat (rowUnits world kids type value members)) := by
  have forest := sound.described.forest
  induction fuel with
  | zero =>
    intro value members first chain alive enough
    omega
  | succ fuel ih =>
    intro value members first chain alive enough
    rcases members with _ | ⟨node, rest⟩
    · have ended : first = NONE := chain
      rw [countObjectRow, if_pos ended]
      rfl
    rcases chain with ⟨here, inner, later⟩
    rw [← here] at inner later alive enough ⊢
    have isLive := alive first mem_cons_self
    rw [row_size_cons sound] at enough
    have others := ih value rest _ later
      (fun child member => alive child (mem_cons_of_mem first member)) (by omega)
    have inside : (if (getObjectType world first).getFlag .container &&
        objectExists world (getFirstContainerObject world first) then
          countObjectRow world type fuel 0 (getFirstContainerObject world first)
        else .ok 0) =
        .ok (Int32.ofNat (rowUnits world kids type 0 (countedKids world kids first))) := by
      have row := row_chain forest isLive
      rcases isContainer : (getObjectType world first).getFlag .container with _ | _
      · have nothing : countedKids world kids first = [] := by
          rw [countedKids, if_neg (by rw [isContainer]; decide)]
        rw [nothing]
        rfl
      have all : countedKids world kids first = kids first := if_pos isContainer
      rw [all] at enough ⊢
      rcases content : kids first with _ | ⟨child, more⟩
      · rw [content] at row
        have ended : getFirstContainerObject world first = NONE := row
        rw [ended, objectExists, forest.none_dead]
        rfl
      have edge : child ∈ kids first := by
        rw [content]
        exact mem_cons_self
      have childLive := (member_container forest edge).1
      rw [content] at row enough
      have head : getFirstContainerObject world first = child := row.1
      rw [head, childLive]
      rw [head] at row
      apply ih 0 (child :: more) child row
      · intro member inRow
        rw [← content] at inRow
        exact (member_container forest inRow).1
      · omega
    rw [countObjectRow, if_neg inner]
    simp only [inside, others]
    have own : (if fits world type value first = true then countOf world first else 0) =
        Int32.ofNat (fitting world type value first) := by
      unfold fitting
      split_ifs
      · exact count_of_eq world first
      · rfl
    rw [own, row_units_cons sound, Int32.ofNat_add, Int32.ofNat_add,
      Int32.add_comm (Int32.ofNat (fitting world type value first))]
    rfl

theorem row_units_body (body : Object) :
    rowUnits world kids type value (kids body) = countedUnits world kids body type value := by
  have forest := sound.described.forest
  classical
  let weight : Object → Nat := fun obj =>
    if obj ∈ kids body then fitting world type value obj else fitting world type 0 obj
  have strict : ∀ slot ∈ kids body, ∀ x, Below (countedKids world kids) slot x → x ≠ slot →
      x ∉ kids body := by
    intro slot edge x under different other
    rcases below_cases forest.single (counted_below under) other with same | above
    · exact different same
    · exact forest.ranked.parent_not_below edge above
  have loads : rowUnits world kids type value (kids body) =
      ((kids body).map (load (countedKids world kids) weight)).sum := by
    unfold rowUnits
    congr 1
    apply map_congr_left
    intro slot edge
    rw [load_children (counted_single sound) (counted_ranked sound) (counted_nodup sound slot)]
    congr 1
    · exact (if_pos edge).symm
    · congr 1
      apply map_congr_left
      intro child inner
      apply load_congr
      · exact fun _ => Iff.rfl
      intro x under
      symm
      apply if_neg
      apply strict slot edge x (below_trans (below_child inner) under)
      intro same
      rw [same] at under
      exact (counted_ranked sound).parent_not_below inner under
  have apart : ∀ left ∈ kids body, ∀ right ∈ kids body, left ≠ right → ∀ x,
      Below (countedKids world kids) left x → ¬ Below (countedKids world kids) right x := by
    intro left leftIn right rightIn different x under other
    exact siblings_disjoint forest.single forest.ranked leftIn rightIn different
      (counted_below under) (counted_below other)
  rw [loads, ← disjoint_load (kids body) (forest.nodup body) apart, countedUnits, finsum_mem_def,
    finsum_mem_def]
  apply finsum_congr
  intro x
  by_cases isCounted : Counted world kids body type value x
  · have both : (∃ slot ∈ kids body, Below (countedKids world kids) slot x) ∧
        weight x = unitsOf world x := by
      rcases isCounted with isSlot | found
      · exact ⟨⟨x, isSlot.1, below_refl _ x⟩, (if_pos isSlot.1).trans (if_pos isSlot.2)⟩
      rcases found.1 with ⟨slot, edge, different, under⟩
      have noSlot := strict slot edge x under different
      exact ⟨⟨slot, edge, under⟩, (if_neg noSlot).trans (if_pos found.2)⟩
    have inRegion : x ∈ {x | ∃ slot ∈ kids body, Below (countedKids world kids) slot x} := both.1
    have inCounted : x ∈ {x | Counted world kids body type value x} := isCounted
    rw [Set.indicator_of_mem inRegion, Set.indicator_of_mem inCounted, both.2]
  have outside : x ∉ {x | Counted world kids body type value x} := isCounted
  rw [Set.indicator_of_notMem outside]
  apply Set.indicator_apply_eq_zero.mpr
  intro inRegion
  rcases inRegion with ⟨slot, edge, under⟩
  by_cases isSlot : x ∈ kids body
  · have unfit : ¬ fits world type value x = true := fun fit => isCounted (.inl ⟨isSlot, fit⟩)
    exact (if_pos isSlot).trans (if_neg unfit)
  have different : x ≠ slot := by
    intro same
    rw [same] at isSlot
    exact isSlot edge
  have unfit : ¬ fits world type 0 x = true := fun fit =>
    isCounted (.inr ⟨⟨slot, edge, different, under⟩, fit⟩)
  exact (if_neg isSlot).trans (if_neg unfit)

end

variable {state : GameState cfg} {creatureID : UInt32}

/-- `count_inventory_objects` returns the units of the counted objects, in an `int`. -/
theorem count_inventory_spec (sound : Sound state.world kids)
    (inventory : Inventory state kids creatureID body) :
    countInventoryObjects state creatureID type value =
      .ok (Int32.ofNat (countedUnits state.world kids body type value)) := by
  have forest := sound.described.forest
  have bodyLive := inventory.holder.1
  have row := row_chain forest bodyLive
  have notNone : body ≠ NONE := ContainerWalks.live_ne_none forest bodyLive
  rcases inventory.known with ⟨player, known⟩
  rw [← row_units_body sound, countInventoryObjects, known]
  dsimp only
  rw [if_neg notNone, countObjectsOf]
  rcases content : kids body with _ | ⟨slot, rest⟩
  · rw [content] at row
    have ended : getFirstContainerObject state.world body = NONE := row
    rw [ended, objectExists, forest.none_dead]
    rfl
  have alive : ∀ node ∈ slot :: rest, objectExists state.world node = true := by
    intro node inRow
    rw [← content] at inRow
    exact (member_container forest inRow).1
  rw [content] at row
  have head : getFirstContainerObject state.world body = slot := row.1
  rw [head] at row
  rw [head, if_pos (alive slot mem_cons_self)]
  apply count_row_walk sound walkLimit value (slot :: rest) slot row alive
  rw [← content]
  exact row_limit sound body

end Rows

section Searches

variable {world : World cfg} {kids : Object → List Object} {obj other body slot : Object}
  {type : ObjectType cfg} {value : UInt32}

/-- What a search through a row comes back with: nothing, or an object that fits and has no other
one that fits inside it. -/
def Sought (world : World cfg) (kids : Object → List Object) (type : ObjectType cfg)
    (value : UInt32) (members : List Object) (found : Object) : Prop :=
  found = NONE ∧ (∀ node ∈ members, ∀ x, Below (countedKids world kids) node x →
    fits world type value x = false) ∨
  found ≠ NONE ∧ (∃ node ∈ members, Below (countedKids world kids) node found) ∧
    fits world type value found = true ∧
    ∀ x, Below (countedKids world kids) found x → fits world type value x = true → x = found

theorem sought_nothing : Sought world kids type value [] NONE := by
  left
  constructor
  · rfl
  · nofun

/-- The row behind an object is searched when there is nothing in the object. -/
theorem sought_later {node : Object} {rest : List Object} {found : Object}
    (empty : Sought world kids type value (countedKids world kids node) NONE)
    (unfit : fits world type value node = false) (sought : Sought world kids type value rest found) :
    Sought world kids type value (node :: rest) found := by
  rcases sought with nothing | something
  · left
    constructor
    · exact nothing.1
    intro member inRow x under
    rcases mem_cons.mp inRow with same | later
    · rw [same] at under
      by_cases here : x = node
      · rw [here]
        exact unfit
      rcases below_of_child under here with ⟨child, edge, inside⟩
      rcases empty with none | some
      · exact none.2 child edge x inside
      · exact (some.1 rfl).elim
    · exact nothing.2 member later x under
  right
  rcases something with ⟨notNone, ⟨member, inRow, under⟩, fit, alone⟩
  exact ⟨notNone, ⟨member, mem_cons_of_mem node inRow, under⟩, fit, alone⟩

theorem sought_here {node : Object} {rest : List Object} (notNone : node ≠ NONE)
    (empty : Sought world kids type value (countedKids world kids node) NONE)
    (fit : fits world type value node = true) :
    Sought world kids type value (node :: rest) node := by
  right
  refine ⟨notNone, ⟨node, mem_cons_self, below_refl _ node⟩, fit, ?_⟩
  intro x under fitToo
  by_contra different
  rcases below_of_child under different with ⟨child, edge, inside⟩
  rcases empty with none | some
  · rw [none.2 child edge x inside] at fitToo
    cases fitToo
  · exact some.1 rfl

theorem sought_inside {node found : Object} {rest : List Object} (notNone : found ≠ NONE)
    (sought : Sought world kids type value (countedKids world kids node) found) :
    Sought world kids type value (node :: rest) found := by
  right
  rcases sought with nothing | something
  · exact (notNone nothing.1).elim
  rcases something with ⟨_, ⟨child, edge, under⟩, fit, alone⟩
  exact ⟨notNone, ⟨node, mem_cons_self, below_trans (below_child edge) under⟩, fit, alone⟩

theorem get_row_walk (sound : Sound world kids) (fuel : Nat) :
    ∀ members first, Chain NONE (getNextObject world) first members →
      (∀ node ∈ members, objectExists world node = true) →
      rowSize (countedKids world kids) members + 1 ≤ fuel →
      ∃ found, getRowObject world type value true fuel first = .ok found ∧
        Sought world kids type value members found := by
  have forest := sound.described.forest
  induction fuel with
  | zero =>
    intro members first chain alive enough
    omega
  | succ fuel ih =>
    intro members first chain alive enough
    rcases members with _ | ⟨node, rest⟩
    · have ended : first = NONE := chain
      rw [getRowObject, if_pos ended]
      exact ⟨NONE, rfl, sought_nothing⟩
    rcases chain with ⟨here, inner, later⟩
    rw [← here] at inner later alive enough ⊢
    have isLive := alive first mem_cons_self
    rw [row_size_cons sound] at enough
    have inside : ∃ found, (if true && (getObjectType world first).getFlag .container then
        getRowObject world type value true fuel (getFirstContainerObject world first)
        else .ok NONE) = .ok found ∧
        Sought world kids type value (countedKids world kids first) found := by
      rcases isContainer : (getObjectType world first).getFlag .container with _ | _
      · have nothing : countedKids world kids first = [] := by
          rw [countedKids, if_neg (by rw [isContainer]; decide)]
        rw [nothing]
        exact ⟨NONE, rfl, sought_nothing⟩
      have all : countedKids world kids first = kids first := if_pos isContainer
      rw [all] at enough ⊢
      apply ih (kids first) _ (row_chain forest isLive)
      · intro child edge
        exact (member_container forest edge).1
      · omega
    rcases inside with ⟨found, returned, sought⟩
    rw [getRowObject, if_neg inner, returned]
    change ∃ last, (if found ≠ NONE then .ok found
      else if fits world type value first then .ok first
      else getRowObject world type value true fuel (getNextObject world first)) =
        Except.ok last ∧ _
    by_cases empty : found = NONE
    · rw [if_neg (not_not.mpr empty)]
      rw [empty] at sought
      cases fit : fits world type value first with
      | true => exact ⟨first, rfl, sought_here inner sought fit⟩
      | false =>
        have others := ih rest _ later
          (fun child member => alive child (mem_cons_of_mem first member)) (by omega)
        rcases others with ⟨last, ended, soughtLater⟩
        exact ⟨last, ended, sought_later sought fit soughtLater⟩
    rw [if_pos empty]
    exact ⟨found, rfl, sought_inside empty sought⟩

/-- The loop over the body containers stops at the first in which something is found. -/
theorem search_body_walk {look : Object → Except Halt Object} (fuel : Nat) :
    ∀ members first, Chain NONE (getNextObject world) first members → members.length < fuel →
      (∀ slot ∈ members, ∃ found, look (getFirstContainerObject world slot) = .ok found) →
      ∃ found, searchBody world look fuel first = .ok found ∧
        (found = NONE ∧
            (∀ slot ∈ members, look (getFirstContainerObject world slot) = .ok NONE) ∨
          found ≠ NONE ∧
            ∃ slot ∈ members, look (getFirstContainerObject world slot) = .ok found) := by
  induction fuel with
  | zero =>
    intro members first chain enough
    omega
  | succ fuel ih =>
    intro members first chain enough looks
    rcases members with _ | ⟨node, rest⟩
    · have ended : first = NONE := chain
      rw [searchBody, if_pos ended]
      refine ⟨NONE, rfl, .inl ⟨rfl, ?_⟩⟩
      nofun
    rcases chain with ⟨here, inner, later⟩
    rw [← here] at inner later looks ⊢
    rcases looks first mem_cons_self with ⟨found, returned⟩
    rw [searchBody, if_neg inner, returned]
    change ∃ last, (if found ≠ NONE then .ok found
      else searchBody world look fuel (getNextObject world first)) = Except.ok last ∧ _
    by_cases empty : found = NONE
    · rw [if_neg (not_not.mpr empty)]
      rw [empty] at returned
      have others := ih rest _ later (Nat.lt_of_succ_lt_succ enough)
        fun slot member => looks slot (mem_cons_of_mem first member)
      rcases others with ⟨last, ended, result⟩
      refine ⟨last, ended, ?_⟩
      rcases result with nothing | something
      · left
        constructor
        · exact nothing.1
        intro slot member
        rcases mem_cons.mp member with same | inRest
        · rw [same]
          exact returned
        · exact nothing.2 slot inRest
      rcases something with ⟨notNone, slot, member, lookedUp⟩
      exact .inr ⟨notNone, slot, mem_cons_of_mem first member, lookedUp⟩
    rw [if_pos empty]
    exact ⟨found, rfl, .inr ⟨empty, first, mem_cons_self, returned⟩⟩

theorem slot_cases (sound : Sound world kids) (isLive : objectExists world slot = true)
    (single : (kids slot).length ≤ 1) :
    kids slot = [] ∧ getFirstContainerObject world slot = NONE ∨
      ∃ top, kids slot = [top] ∧ getFirstContainerObject world slot = top ∧
        objectExists world top = true ∧ getNextObject world top = NONE := by
  have row := row_chain sound.described.forest isLive
  rcases content : kids slot with _ | ⟨top, rest⟩
  · rw [content] at row
    exact .inl ⟨rfl, row⟩
  rw [content, length_cons] at single
  have nothing : rest = [] := length_eq_zero_iff.mp (by omega)
  rw [content, nothing] at row
  have edge : top ∈ kids slot := by
    rw [content]
    exact mem_cons_self
  have head : getFirstContainerObject world slot = top := row.1
  have last : getNextObject world top = NONE := row.2.2
  rw [nothing]
  exact .inr ⟨top, rfl, head, (member_container sound.described.forest edge).1, last⟩

theorem look_inside_spec (type : ObjectType cfg) (value : UInt32) (sound : Sound world kids)
    (isLive : objectExists world slot = true) (single : (kids slot).length ≤ 1) :
    ∃ found, lookInside world type value (getFirstContainerObject world slot) = .ok found ∧
      Sought world kids type value ((kids slot).flatMap (countedKids world kids)) found := by
  have forest := sound.described.forest
  rcases slot_cases sound isLive single with ⟨empty, none⟩ | ⟨top, content, first, topLive, _⟩
  · rw [none, lookInside, if_neg (fun both => both.1 rfl), empty]
    exact ⟨NONE, rfl, sought_nothing⟩
  rw [first, content, flatMap_singleton, lookInside]
  by_cases isContainer : (getObjectType world top).getFlag .container = true
  · have all : countedKids world kids top = kids top := if_pos isContainer
    rw [if_pos ⟨ContainerWalks.live_ne_none forest topLive, isContainer⟩, all]
    apply get_row_walk sound walkLimit (kids top) _ (row_chain forest topLive)
    · intro child edge
      exact (member_container forest edge).1
    · exact row_limit sound top
  have nothing : countedKids world kids top = [] := if_neg isContainer
  rw [if_neg (fun both => isContainer both.2), nothing]
  exact ⟨NONE, rfl, sought_nothing⟩

theorem look_at_spec (type : ObjectType cfg) (value : UInt32) (sound : Sound world kids)
    (isLive : objectExists world slot = true) (single : (kids slot).length ≤ 1) :
    ∃ found, lookAtRow world type value (getFirstContainerObject world slot) = .ok found ∧
      (found = NONE ∧ (∀ top ∈ kids slot, fits world type value top = false) ∨
        found ∈ kids slot ∧ fits world type value found = true) := by
  have forest := sound.described.forest
  rcases slot_cases sound isLive single with ⟨empty, none⟩ | ⟨top, content, first, topLive, last⟩
  · rw [none, empty]
    refine ⟨NONE, rfl, .inl ⟨rfl, ?_⟩⟩
    nofun
  rw [first, content]
  have notNone := ContainerWalks.live_ne_none forest topLive
  have looked : lookAtRow world type value top =
      if fits world type value top then .ok top else .ok NONE := by
    have limit : ∃ fuel, walkLimit = fuel + 1 + 1 := ⟨walkLimit - 2, by unfold walkLimit; omega⟩
    rcases limit with ⟨fuel, limit⟩
    rw [lookAtRow, limit, getRowObject, if_neg notNone]
    rw [last]
    rfl
  rw [looked]
  cases fit : fits world type value top with
  | true => exact ⟨top, rfl, .inr ⟨mem_cons_self, fit⟩⟩
  | false =>
    refine ⟨NONE, rfl, .inl ⟨rfl, ?_⟩⟩
    intro member inRow
    rw [mem_singleton.mp inRow]
    exact fit

/-- A walk from what is carried finds all that is carried inside it. -/
theorem carried_inside (sound : Sound world kids) (carried : Carried world kids body obj)
    (otherCarried : Carried world kids body other) (inside : Below kids other obj) :
    Below (countedKids world kids) other obj := by
  have forest := sound.described.forest
  rcases carried with ⟨slot, edge, _, under⟩
  rcases otherCarried with ⟨otherSlot, otherEdge, _, above⟩
  have same : slot = otherSlot := by
    by_contra different
    exact siblings_disjoint forest.single forest.ranked edge otherEdge different
      (counted_below under) (below_trans (counted_below above) inside)
  rw [← same] at above
  exact followed_below forest.single forest.ranked (counted_below above) under inside

variable {state : GameState cfg} {creatureID : UInt32}

/-- What a creature carries is worn, or lies in a container that is worn. -/
theorem carried_cases (sound : Sound state.world kids)
    (inventory : Inventory state kids creatureID body) :
    Carried state.world kids body obj ↔ ∃ slot ∈ kids body, obj ∈ kids slot ∨
      ∃ node ∈ (kids slot).flatMap (countedKids state.world kids),
        Below (countedKids state.world kids) node obj := by
  have opened : ∀ slot ∈ kids body, countedKids state.world kids slot = kids slot := by
    intro slot edge
    exact if_pos (inventory.slots slot edge)
  constructor
  · intro carried
    rcases carried with ⟨slot, edge, different, under⟩
    rcases below_of_child under different with ⟨top, worn, inside⟩
    rw [opened slot edge] at worn
    refine ⟨slot, edge, ?_⟩
    by_cases here : obj = top
    · rw [here]
      exact .inl worn
    rcases below_of_child inside here with ⟨node, inTop, further⟩
    exact .inr ⟨node, mem_flatMap.mpr ⟨top, worn, inTop⟩, further⟩
  intro placed
  rcases placed with ⟨slot, edge, either⟩
  have inside : ∃ top ∈ countedKids state.world kids slot,
      Below (countedKids state.world kids) top obj := by
    rw [opened slot edge]
    rcases either with worn | deeper
    · exact ⟨obj, worn, below_refl _ obj⟩
    rcases deeper with ⟨node, member, under⟩
    rcases mem_flatMap.mp member with ⟨top, worn, inTop⟩
    exact ⟨top, worn, below_trans (below_child inTop) under⟩
  rcases inside with ⟨top, worn, under⟩
  refine ⟨slot, edge, ?_, below_trans (below_child worn) under⟩
  intro same
  rw [same] at under
  exact (counted_ranked sound).parent_not_below worn under

def NothingInside (world : World cfg) (kids : Object → List Object) (body : Object)
    (type : ObjectType cfg) (value : UInt32) : Prop :=
  ∀ slot ∈ kids body, ∀ node ∈ (kids slot).flatMap (countedKids world kids),
    ∀ x, Below (countedKids world kids) node x → fits world type value x = false

structure Innermost (world : World cfg) (kids : Object → List Object) (body : Object)
    (type : ObjectType cfg) (value : UInt32) (found : Object) : Prop where
  notNone : found ≠ NONE
  here : Found world kids body type value found
  alone : ∀ obj, Found world kids body type value obj → Below kids found obj → obj = found

theorem slot_live (sound : Sound state.world kids) (slot : Object) (edge : slot ∈ kids body) :
    objectExists state.world slot = true := (member_container sound.described.forest edge).1

theorem search_inside_spec (type : ObjectType cfg) (value : UInt32)
    (sound : Sound state.world kids) (inventory : Inventory state kids creatureID body) :
    ∃ found, searchBody state.world (lookInside state.world type value) walkLimit
        (getFirstContainerObject state.world body) = .ok found ∧
      (found = NONE ∧ NothingInside state.world kids body type value ∨
        Innermost state.world kids body type value found) := by
  have forest := sound.described.forest
  have looks : ∀ slot ∈ kids body, ∃ found, lookInside state.world type value
      (getFirstContainerObject state.world slot) = .ok found := by
    intro slot edge
    rcases look_inside_spec type value sound (slot_live sound slot edge)
      (inventory.single slot edge) with ⟨found, returned, _⟩
    exact ⟨found, returned⟩
  rcases search_body_walk walkLimit (kids body) _ (row_chain forest inventory.holder.1)
    (kids_length forest body) looks with ⟨found, searched, result⟩
  refine ⟨found, searched, ?_⟩
  rcases result with ⟨none, nothing⟩ | ⟨some, slot, edge, looked⟩
  · left
    constructor
    · exact none
    intro slot edge
    rcases look_inside_spec type value sound (slot_live sound slot edge)
      (inventory.single slot edge) with ⟨seen, returned, sought⟩
    rw [nothing slot edge, Except.ok.injEq] at returned
    rw [← returned] at sought
    rcases sought with unfit | something
    · exact unfit.2
    · exact (something.1 rfl).elim
  right
  rcases look_inside_spec type value sound (slot_live sound slot edge)
    (inventory.single slot edge) with ⟨seen, returned, sought⟩
  rw [looked, Except.ok.injEq] at returned
  rw [← returned] at sought
  rcases sought with nothing | ⟨_, ⟨node, member, under⟩, fit, alone⟩
  · exact (some nothing.1).elim
  have carried : Carried state.world kids body found :=
    (carried_cases sound inventory).mpr ⟨slot, edge, .inr ⟨node, member, under⟩⟩
  apply Innermost.mk some ⟨carried, fit⟩
  intro obj other inside
  exact alone obj (carried_inside sound other.1 carried inside) other.2

/-- The second loop, which is reached when the first one has found nothing. -/
theorem search_worn_spec (type : ObjectType cfg) (value : UInt32)
    (sound : Sound state.world kids) (inventory : Inventory state kids creatureID body)
    (deeper : NothingInside state.world kids body type value) :
    ∃ found, searchBody state.world (lookAtRow state.world type value) walkLimit
        (getFirstContainerObject state.world body) = .ok found ∧
      (found = NONE ∧ (∀ obj, ¬ Found state.world kids body type value obj) ∨
        Innermost state.world kids body type value found) := by
  have forest := sound.described.forest
  have looks : ∀ slot ∈ kids body, ∃ found, lookAtRow state.world type value
      (getFirstContainerObject state.world slot) = .ok found := by
    intro slot edge
    rcases look_at_spec type value sound (slot_live sound slot edge)
      (inventory.single slot edge) with ⟨found, returned, _⟩
    exact ⟨found, returned⟩
  rcases search_body_walk walkLimit (kids body) _ (row_chain forest inventory.holder.1)
    (kids_length forest body) looks with ⟨found, searched, result⟩
  refine ⟨found, searched, ?_⟩
  rcases result with ⟨none, nothing⟩ | ⟨some, slot, edge, looked⟩
  · left
    refine ⟨none, ?_⟩
    intro obj found
    have fit := found.2
    rcases (carried_cases sound inventory).mp found.1 with ⟨slot, edge, worn | further⟩
    · rcases look_at_spec type value sound (slot_live sound slot edge)
        (inventory.single slot edge) with ⟨seen, returned, sought⟩
      rw [nothing slot edge, Except.ok.injEq] at returned
      rcases sought with unfit | something
      · rw [unfit.2 obj worn] at fit
        cases fit
      rw [← returned] at something
      exact forest.kid_ne_none something.1 rfl
    rcases further with ⟨node, member, under⟩
    rw [deeper slot edge node member obj under] at fit
    cases fit
  right
  rcases look_at_spec type value sound (slot_live sound slot edge)
    (inventory.single slot edge) with ⟨seen, returned, sought⟩
  rw [looked, Except.ok.injEq] at returned
  rw [← returned] at sought
  have worn := sought.resolve_left fun nothing => some nothing.1
  have carried : Carried state.world kids body found :=
    (carried_cases sound inventory).mpr ⟨slot, edge, .inl worn.1⟩
  apply Innermost.mk some ⟨carried, worn.2⟩
  intro obj other under
  by_contra different
  rcases below_of_child (carried_inside sound other.1 carried under) different with
    ⟨node, inTop, further⟩
  have fit := other.2
  rw [deeper slot edge node (mem_flatMap.mpr ⟨found, worn.1, inTop⟩) obj further] at fit
  cases fit

/-- `get_inventory_object` finds nothing where nothing fits, and otherwise an object that fits and
has no other one that fits inside it. -/
theorem get_inventory_spec (type : ObjectType cfg) (value : UInt32)
    (sound : Sound state.world kids) (inventory : Inventory state kids creatureID body) :
    ∃ found, getInventoryObject state creatureID type value = .ok found ∧
      (found = NONE ∧ (∀ obj, ¬ Found state.world kids body type value obj) ∨
        Innermost state.world kids body type value found) := by
  rcases search_inside_spec type value sound inventory with ⟨found, searched, result⟩
  rcases inventory.known with ⟨player, known⟩
  unfold getInventoryObject
  rw [known]
  dsimp only
  rw [searched]
  change ∃ last, (if found = NONE then searchBody state.world (lookAtRow state.world type value)
      walkLimit (getFirstContainerObject state.world body) else .ok found) = .ok last ∧ _
  rcases result with nothing | innermost
  · rw [if_pos nothing.1]
    exact search_worn_spec type value sound inventory nothing.2
  rw [if_neg innermost.notNone]
  exact ⟨found, rfl, .inr innermost⟩

end Searches

end TibiaGame.InventoryCounts
