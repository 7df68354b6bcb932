import TibiaGame.OperateModel

/-!
# Creating, changing and deleting

`create`, both forms of `change`, and `delete_op` of `operate.cpp` with their checks.
As for `move`, event handlers do nothing and what only tells others of a change is
left out.
-/

namespace TibiaGame.OperateChanges

open GameTypes ObjectStore ObjectOperations InfoModel OperateModel Library.ThrowingState

variable {cfg : GameConfig}

def checkMapPlace (surroundings : Surroundings cfg) (creatureID : UInt32) (type : ObjectType cfg)
    (mapCon : Object) : Operate cfg Unit := do
  let state ← get
  answer (surroundings.mapPlaceRefused state creatureID type mapCon)

def checkTypeWeight (surroundings : Surroundings cfg) (creatureID : UInt32)
    (type : ObjectType cfg) (value : UInt32) (oldWeight : Int32) : Operate cfg Unit := do
  let state ← get
  answer (surroundings.typeWeightRefused state creatureID type value oldWeight)

def checkContainerPlace (surroundings : Surroundings cfg) (type : ObjectType cfg)
    (con oldObj : Object) : Operate cfg Unit := do
  let state ← get
  let conType := getObjectType state.world con
  if type = surroundings.depotChest then pure ()
  else if conType.getFlag .chest then pure ()
  else
    refuse (type.getFlag .unmove) .notMovable
    refuse (!type.getFlag .take) .notTakable
    if oldObj = NONE then
      let conObjects ← attempt (countObjectsInContainer state.world con)
      refuse (decide ((conType.getAttribute .capacity).toInt32 ≤ Int32.ofNat conObjects))
        .containerFull
    else pure ()

/-- One hand in the loop at the end of `check_inventory_place`. -/
def checkOtherPlace (state : GameState cfg) (creatureID : UInt32) (type : ObjectType cfg)
    (oldObj : Object) (position : Nat) : Operate cfg Unit := do
  let other := getBodyObject state creatureID position
  if other = NONE ∨ other = oldObj then pure ()
  else
    let otherType := getObjectType state.world other
    refuse otherType.isTwoHanded .handBlocked
    refuse (otherType.isWeapon && type.isWeapon) .oneWeaponOnly

def checkInventoryPlace (type : ObjectType cfg) (con oldObj : Object) : Operate cfg Unit := do
  let state ← get
  let conPosition ← attempt (getObjectBodyPosition state.world con)
  whenever (!isHand conPosition && conPosition != inventoryAmmo) (checkClothes type conPosition)
  let creatureID ← attempt (getObjectCreatureID state.world con)
  if isHand conPosition && type.isTwoHanded then checkHandsFree state creatureID oldObj
  else
    let occupant := getBodyObject state creatureID conPosition
    refuse (decide (occupant ≠ NONE ∧ occupant ≠ oldObj)) .noRoom
    whenever (isHand conPosition) do
      checkOtherPlace state creatureID type oldObj inventoryRightHand
      checkOtherPlace state creatureID type oldObj inventoryLeftHand

/-- The attributes that `change` refuses to touch. -/
def isFixed : InstanceAttribute → Bool
  | .content | .chestQuestNumber | .doorLevel | .doorQuestNumber | .doorQuestValue
  | .absTeleportDestination | .remainingExpireTime => true
  | _ => false

/-- `change` with an attribute and its new value. -/
def changeValue (surroundings : Surroundings cfg) (obj : Object) (attr : InstanceAttribute)
    (value : UInt32) : Operate cfg Unit := do
  let state ← get
  refuse (!objectExists state.world obj) .error
  refuse (isFixed attr) .error
  let ownerID ← attempt (getObjectCreatureID state.world obj)
  whenever (ownerID != 0 && attr == .amount &&
      decide (getAttribute state.world obj .amount < value)) do
    checkTypeWeight surroundings ownerID (getObjectType state.world obj) value
      (surroundings.weight state obj)
  changeMap fun world => .ok (changeAttribute world obj attr value)

/-- The loop of `delete_op` over what the object holds. -/
def deleteRow : Nat → World cfg → Object → Except Halt (World cfg)
  | 0, _, _ => .error .hang
  | fuel + 1, world, help =>
      if help = NONE then .ok world
      else do
        let next := getNextObject world help
        let world ← deleteObject world help
        deleteRow fuel world next

def deleteOp (obj : Object) (count : Int32) : Operate cfg Unit := do
  let state ← get
  refuse (!objectExists state.world obj) .error
  let objType := getObjectType state.world obj
  let amount := (getAttribute state.world obj .amount).toInt32
  refuse (objType.getFlag .cumulative && decide (amount < count)) .error
  let obj ← (if objType.getFlag .cumulative && count != -1 && decide (count < amount) then
      onMap fun world => splitObject world obj count
    else pure obj)
  whenever objType.holdsObjects
    (changeMap fun world => deleteRow walkLimit world (getFirstContainerObject world obj))
  let state ← get
  whenever (objectExists state.world obj) (changeMap fun world => deleteObject world obj)

/-- The attribute that `Value` goes to, for each flag that has one. -/
def valueAttributes : List (Flag × InstanceAttribute) :=
  [(.cumulative, .amount), (.magicField, .responsible), (.liquidPool, .poolLiquidType),
    (.liquidContainer, .containerLiquidType), (.key, .keyNumber), (.rune, .charges)]

/-- `Value` is assigned for each flag that the type has and `oldFlags` does not. -/
def assignValue (oldFlags : Flag → Bool) (type : ObjectType cfg) (obj : Object) (value : UInt32)
    (world : World cfg) : World cfg :=
  valueAttributes.foldl (fun world entry => if type.getFlag entry.1 && !oldFlags entry.1
    then changeAttribute world obj entry.2 value else world) world

/-- The body containers of a new creature, from the last to the first. -/
def createBody (obj : Object) : List Nat → World cfg → Except Halt (World cfg)
  | [], world => .ok world
  | position :: rest, world => do
      let (_, world) ← setObject world obj (setTypeID cfg position) 0
      createBody obj rest world

def inventoryPositions : List Nat := [10, 9, 8, 7, 6, 5, 4, 3, 2, 1]

def enterCreature (obj : Object) (creatureID : UInt32) : Operate cfg Unit := do
  let state ← get
  match state.creatures creatureID with
  | none => do
      deleteOp obj (-1)
      throw .error
  | some creature => do
      changeMap (createBody obj inventoryPositions)
      modify fun state => { state with
        creatures := Function.update state.creatures creatureID
          (some { creature with crObject := obj }) }

/-- The object that `create` makes where no stack takes the value. -/
def createNew (con : Object) (type : ObjectType cfg) (value : UInt32) : Operate cfg Object := do
  let obj ← onMap fun world => setObject world con type
    (if type.isCreatureContainer then value else 0)
  changeMap fun world => .ok (assignValue (fun _ => false) type obj value world)
  whenever type.isCreatureContainer (enterCreature obj value)
  pure obj

/-- The attempt of `create` to add to the top object of a field: that object, where it
succeeds. -/
def createOnTop (surroundings : Surroundings cfg) (con : Object) (type : ObjectType cfg)
    (value : UInt32) : Operate cfg (Option Object) := do
  let state ← get
  if (getObjectType state.world con).isMapContainer && type.getFlag .cumulative then
    let place ← attempt (getObjectCoordinates state.world con)
    let top ← attempt (getTopObject state.world place.1 place.2.1 place.2.2 true)
    let count := getAttribute state.world top .amount + (if value ≠ 0 then value else 1)
    if top ≠ NONE ∧ getObjectType state.world top = type ∧ count ≤ 100 then
      changeValue surroundings top .amount count
      pure (some top)
    else pure none
  else pure none

/-- The checks of `create`. -/
def checkCreate (surroundings : Surroundings cfg) (con : Object) (type : ObjectType cfg)
    (value : UInt32) : Operate cfg Unit := do
  let state ← get
  let conType := getObjectType state.world con
  (if conType.isMapContainer then checkMapPlace surroundings 0 type con
    else if conType.isBodyContainer then checkInventoryPlace type con NONE
    else checkContainerPlace surroundings type con NONE)
  let conOwnerID ← attempt (getObjectCreatureID state.world con)
  whenever (conOwnerID != 0) (checkTypeWeight surroundings conOwnerID type value 0)

def create (surroundings : Surroundings cfg) (con : Object) (type : ObjectType cfg)
    (value : UInt32) : Operate cfg Object := do
  let state ← get
  refuse (!objectExists state.world con) .error
  refuse (!(getObjectType state.world con).holdsObjects) .error
  refuse type.isMapContainer .error
  checkCreate surroundings con type value
  match ← createOnTop surroundings con type value with
  | some top => pure top
  | none => createNew con type value

/-- The checks of `change` that look at what the object is now. -/
def checkRetype (obj : Object) (newType : ObjectType cfg) : Operate cfg Unit := do
  let state ← get
  let oldType := getObjectType state.world obj
  whenever (oldType.getFlag .container) do
    refuse (!newType.getFlag .container &&
      decide (getFirstContainerObject state.world obj ≠ NONE)) .emptyContainer
    whenever (newType.getFlag .container) do
      let objectCount ← attempt (countObjectsInContainer state.world obj)
      refuse (decide ((newType.getAttribute .capacity).toInt32 < Int32.ofNat objectCount))
        .emptyContainer
  refuse (oldType.getFlag .chest && !newType.getFlag .chest) .error
  refuse (oldType.getFlag .cumulative && decide (oldType ≠ newType) &&
    decide (1 < getAttribute state.world obj .amount)) .splitObject

/-- The checks of `change` that look at where the object is. -/
def checkReplace (surroundings : Surroundings cfg) (obj : Object) (newType : ObjectType cfg) :
    Operate cfg Unit := do
  let state ← get
  let oldType := getObjectType state.world obj
  let con := getContainer state.world obj
  let ownerID ← attempt (getObjectCreatureID state.world obj)
  whenever (ownerID != 0 && decide (oldType ≠ newType)) do
    (if (getObjectType state.world con).isBodyContainer then checkInventoryPlace newType con obj
      else checkContainerPlace surroundings newType con obj)
    checkTypeWeight surroundings ownerID newType
      (if oldType.getFlag .cumulative then getAttribute state.world obj .amount else 1)
      (surroundings.weight state obj)

/-- `change` with a new type. -/
def change (surroundings : Surroundings cfg) (obj : Object) (newType : ObjectType cfg)
    (value : UInt32) : Operate cfg Unit := do
  let state ← get
  refuse (!objectExists state.world obj) .error
  let oldType := getObjectType state.world obj
  refuse (oldType.isCreatureContainer || newType.isCreatureContainer) .error
  if newType.isMapContainer then deleteOp obj (-1)
  else
    checkRetype obj newType
    checkReplace surroundings obj newType
    changeMap fun world => changeObject world obj newType
    changeMap fun world => .ok (assignValue oldType.getFlag newType obj value world)

end TibiaGame.OperateChanges
