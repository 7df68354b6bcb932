import TibiaGame.OperateModel

/-!
# Moving an object as a creature

`TCreature::Move` of `actions.cpp`: onto a field, into an open window, or into a slot of
the creature's own inventory. There it fills up a stack of the same kind first, and
exchanges the object of an occupied slot for the one that is moved. The delay of the
next attack and the entries of the to-do list are left out.
-/

namespace TibiaGame.CreatureMove

open GameTypes ObjectStore ObjectOperations InfoModel OperateModel Library.ThrowingState

variable {cfg : GameConfig}

/-- What a creature knows beside the objects: its windows, the step it takes when it is
told to go, and whether it walks to a hook first and is refused the walk. -/
structure Bearings (cfg : GameConfig) where
  openContainer : GameState cfg → UInt32 → Int → Object
  step : GameState cfg → UInt32 → Int → Int → Int → Except Result (Int × Int × Int)
  hookAway : GameState cfg → UInt32 → Object → Int → Int → Int → Bool
  walkRefused : GameState cfg → UInt32 → Object → Int → Int → Int → Option Result

def inventoryAny : Nat := 0
def containerFirst : Int := 64
def containerLast : Int := 79

/-- The value that was computed, or the `RESULT` that was thrown. -/
def grant {Value : Type} : Except Result Value → Operate cfg Value
  | .error result => throw result
  | .ok value => pure value

def accepts (check : Operate cfg Unit) : Operate cfg Bool :=
  tryCatch (do check; pure true) fun _ => pure false

def crObjectOf (state : GameState cfg) (creatureID : UInt32) : Object :=
  match state.creatures creatureID with
  | none => NONE
  | some creature => creature.crObject

/-- `MoveCount`: no more than there are parts. -/
def movedParts (world : World cfg) (obj : Object) (count : UInt8) : Int32 :=
  let moveCount := count.toUInt32.toInt32
  if (getObjectType world obj).getFlag .cumulative then
    let objAmount := (getAttribute world obj .amount).toInt32
    if objAmount < moveCount then objAmount else moveCount
  else moveCount

/-- The first loop for `INVENTORY_ANY`. A hand or the arrows are only taken when no
later slot is better. -/
def searchSlot (creatureID : UInt32) (obj : Object) : List Nat → Nat → Operate cfg Nat
  | [], found => pure found
  | position :: rest, found => do
      let state ← get
      let con := getBodyContainer state creatureID position
      if ← accepts (checkInventoryDestination obj con false) then
        if !isHand position && position != inventoryAmmo then pure position
        else searchSlot creatureID obj rest position
      else searchSlot creatureID obj rest found

/-- The second loop: the last container in a slot that takes the object. -/
def searchContainer (creatureID : UInt32) (obj : Object) : List Nat → Nat → Operate cfg Nat
  | [], found => pure found
  | position :: rest, found => do
      let state ← get
      let con := getBodyObject state creatureID position
      if con ≠ NONE ∧ (getObjectType state.world con).getFlag .container then
        if ← accepts (checkContainerDestination obj con) then
          searchContainer creatureID obj rest position
        else searchContainer creatureID obj rest found
      else searchContainer creatureID obj rest found

def slots : List Nat := [1, 2, 3, 4, 5, 6, 7, 8, 9, 10]

/-- `DestY` once `INVENTORY_ANY` has been replaced by a slot. -/
def choosePlace (creatureID : UInt32) (obj : Object) (y : Int) : Operate cfg Int := do
  if y = inventoryAny then
    let slot ← searchSlot creatureID obj slots inventoryAny
    let slot ← (if slot = inventoryAny then searchContainer creatureID obj slots inventoryAny
      else pure slot)
    refuse (slot == inventoryAny) .noRoom
    pure slot
  else pure y

def inInventory (y : Int) : Bool := decide (inventoryFirst ≤ y ∧ y ≤ inventoryLast)

/-- `DestCon` and `DestObj` at a place. -/
def destinationAt (bearings : Bearings cfg) (state : GameState cfg) (creatureID : UInt32)
    (y z : Int) : Except Result (Object × Object) :=
  if inInventory y then
    .ok (getBodyContainer state creatureID y.toNat, getBodyObject state creatureID y.toNat)
  else if containerFirst ≤ y ∧ y ≤ containerLast then
    let con := bearings.openContainer state creatureID (y - containerFirst)
    if z < 254 then .ok (con, if con ≠ NONE then getContainerObject state.world con z else NONE)
    else if z = 254 then
      if con = NONE then .error .notAccessible else .ok (getContainer state.world con, NONE)
    else .ok (con, NONE)
  else .error .error

/-- `MergeCount`: no more than the stack has room for. -/
def fillCount (destAmount moveCount : Int32) : Int32 :=
  if 100 < destAmount + moveCount then 100 - destAmount else moveCount

/-- The merge with the stack at the destination, and the parts that are left, unless none
is. A `RESULT` other than `TOOHEAVY` is ignored. -/
def fillStack (surroundings : Surroundings cfg) (creatureID : UInt32) (obj dest : Object)
    (moveCount : Int32) : Operate cfg (Option Int32) := do
  let state ← get
  let mergeCount := fillCount (getAttribute state.world dest .amount).toInt32 moveCount
  if 0 < mergeCount then
    tryCatch (do
      merge surroundings creatureID obj dest mergeCount NONE
      pure (if moveCount - mergeCount ≤ 0 then none else some (moveCount - mergeCount)))
      fun result => if result = .tooHeavy then throw result else pure (some moveCount)
  else pure (some moveCount)

def exchanges (result : Result) : Bool :=
  result == .noRoom || result == .handsNotFree || result == .handBlocked || result == .oneWeaponOnly

/-- The move into `DestCon`, and the exchange when it fails. -/
def moveOrExchange (surroundings : Surroundings cfg) (creatureID : UInt32) (obj con : Object)
    (count : Int32) (y : Int) (destObj : Object) : Operate cfg Unit := do
  refuse (decide (con = NONE)) .outOfRange
  tryCatch (move surroundings creatureID obj con count false destObj) fun result => do
    if inInventory y && decide (destObj ≠ NONE) && exchanges result then
      let state ← get
      move surroundings creatureID destObj (getContainer state.world obj) (-1) false NONE
      move surroundings creatureID obj con count false destObj
    else throw result

def moveInside (bearings : Bearings cfg) (surroundings : Surroundings cfg) (creatureID : UInt32)
    (obj : Object) (y z : Int) (count : Int32) : Operate cfg Unit := do
  let y ← choosePlace creatureID obj y
  let state ← get
  let (con, destObj) ← grant (destinationAt bearings state creatureID y z)
  let destType := getObjectType state.world destObj
  if destObj = NONE then moveOrExchange surroundings creatureID obj con count y NONE
  else if destType.getFlag .container then
    moveOrExchange surroundings creatureID obj destObj count y NONE
  else if destType.getFlag .cumulative ∧ destType = getObjectType state.world obj then
    match ← fillStack surroundings creatureID obj destObj count with
    | none => pure ()
    | some left => moveOrExchange surroundings creatureID obj con left y NONE
  else moveOrExchange surroundings creatureID obj con count y destObj

/-- The branch of the fields. An object for a hook out of reach is only noted down. -/
def moveOutside (bearings : Bearings cfg) (surroundings : Surroundings cfg) (creatureID : UInt32)
    (obj : Object) (x y z : Int) (count : Int32) : Operate cfg Unit := do
  let state ← get
  let dest := getMapContainer state.world x y z
  refuse (!objectExists state.world dest) .error
  if (getObjectType state.world obj).getFlag .hang && bearings.hookAway state creatureID obj x y z then
    answer (bearings.walkRefused state creatureID obj x y z)
  else move surroundings creatureID obj dest count false NONE

/-- `TCreature::Go`. -/
def go (bearings : Bearings cfg) (surroundings : Surroundings cfg) (creatureID : UInt32)
    (obj : Object) (x y z : Int) : Operate cfg Unit := do
  let state ← get
  let place ← grant (bearings.step state creatureID x y z)
  let dest := getMapContainer state.world place.1 place.2.1 place.2.2
  move surroundings creatureID obj dest (-1) false NONE

/-- `TCreature::Move`. -/
def creatureMove (bearings : Bearings cfg) (surroundings : Surroundings cfg) (creatureID : UInt32)
    (obj : Object) (x y z : Int) (count : UInt8) : Operate cfg Unit := do
  let state ← get
  refuse (!objectExists state.world obj) .notAccessible
  if obj = crObjectOf state creatureID then go bearings surroundings creatureID obj x y z
  else
    let moveCount := movedParts state.world obj count
    if x = 0xFFFF then moveInside bearings surroundings creatureID obj y z moveCount
    else moveOutside bearings surroundings creatureID obj x y z moveCount

end TibiaGame.CreatureMove
