import TibiaGame.InfoModel

/-!
# Moving and merging

`move` and `merge` of `operate.cpp` with their checks, as callers see them: they
return or throw a `RESULT`. Event handlers do nothing, and what only tells clients
or creatures of a change is left out. The checks that look at the place on the map,
at rights and at strength may answer in any way.
-/

namespace TibiaGame.OperateModel

open GameTypes ObjectStore ObjectOperations InfoModel Library.ThrowingState

/-- `RESULT` of `enums.h`, in the numbering of the source, without `NOERROR`. -/
inductive Result where
  | error | notAccessible | notMovable | notTakable | noRoom | outOfRange | outOfHome
  | cannotThrow | tooHeavy | crossReference | containerFull | wrongPosition | wrongPosition2
  | wrongClothes | handsNotFree | handBlocked | oneWeaponOnly | noMatch | notCumulable
  | tooManyParts | emptyContainer | splitObject | noKeyMatch | upstairs | downstairs
  | creatureNotExisting | playerNotExisting | playerNotOnline | nameAmbiguous | notUsable
  | fedUp | destroyed | spellUnknown | lowMagicLevel | magicItem | notEnoughMana | noSkill
  | targetLost | outOfAmmo | noCreature | tooLong | targetOutOfRange | targetHidden
  | attackNotAllowed | noWay | loginError | loginAbort | protectionZone | enterProtectionZone
  | exhausted | notInvited | noPremiumAccount | moveNotPossible | alreadyTrading
  | partnerTrading | tooManyObjects | tooManySlaves | notTurnable | secureMode
  | notEnoughSoulPoints | lowLevel
  deriving DecidableEq, Repr

variable {cfg : GameConfig}

abbrev Operate (cfg : GameConfig) (Value : Type) : Type := Program Halt Result (GameState cfg) Value

/-- The answers that depend on the geometry of the map, on rights, races and skills,
and the special objects of the configuration. -/
structure Surroundings (cfg : GameConfig) where
  objectAccessible : GameState cfg → UInt32 → Object → Int32 → Bool
  unpushable : GameState cfg → UInt32 → Bool
  mapDestinationRefused : GameState cfg → UInt32 → Object → Object → Option Result
  mapPlaceRefused : GameState cfg → UInt32 → ObjectType cfg → Object → Option Result
  weightRefused : GameState cfg → UInt32 → Object → Int32 → Option Result
  typeWeightRefused : GameState cfg → UInt32 → ObjectType cfg → UInt32 → Int32 → Option Result
  weight : GameState cfg → Object → Int32
  depotChest : ObjectType cfg

def answer : Option Result → Operate cfg Unit
  | none => pure ()
  | some result => throw result

def checkMapDestination (surroundings : Surroundings cfg) (creatureID : UInt32)
    (obj mapCon : Object) : Operate cfg Unit := do
  let state ← get
  if creatureID = 0 then pure ()
  else answer (surroundings.mapDestinationRefused state creatureID obj mapCon)

def checkWeight (surroundings : Surroundings cfg) (creatureID : UInt32) (obj : Object)
    (count : Int32) : Operate cfg Unit := do
  let state ← get
  if (← attempt (getObjectCreatureID state.world obj)) = creatureID then pure ()
  else answer (surroundings.weightRefused state creatureID obj count)

def isCreaturePlayer (state : GameState cfg) (creatureID : UInt32) : Bool :=
  match state.creatures creatureID with
  | none => false
  | some creature => creature.player.isSome

/-- The loop of `check_top_move_object`: the object on top of the others. -/
def topMoveWalk (world : World cfg) (ignore : Object) :
    Nat → Object → Object → Bool → Except Halt Object
  | 0, _, _, _ => .error .hang
  | fuel + 1, help, best, bestIsCreature =>
      if help = NONE then .ok best
      else if help = ignore then
        topMoveWalk world ignore fuel (getNextObject world help) best bestIsCreature
      else
        let helpType := getObjectType world help
        let better := best = NONE ∨ (!helpType.getFlag .unmove &&
          (!bestIsCreature || !helpType.isCreatureContainer))
        let nextBest := if better then help else best
        let nextIsCreature := if better then helpType.isCreatureContainer else bestIsCreature
        if getObjectPriority world help = priorityLow then .ok nextBest
        else topMoveWalk world ignore fuel (getNextObject world help) nextBest nextIsCreature

def checkTopMoveObject (creatureID : UInt32) (obj ignore : Object) : Operate cfg Unit := do
  let state ← get
  refuse (!objectExists state.world obj) .error
  if creatureID = 0 || !isCreaturePlayer state creatureID then pure ()
  else if !(getObjectType state.world (getContainer state.world obj)).isMapContainer then pure ()
  else if (getObjectType state.world obj).isCreatureContainer &&
      getCreatureID state.world obj == creatureID then pure ()
  else
    let first := getFirstContainerObject state.world (getContainer state.world obj)
    let best ← attempt (topMoveWalk state.world ignore walkLimit first NONE false)
    refuse (decide (obj ≠ best)) .notAccessible

def checkMoveObject (surroundings : Surroundings cfg) (creatureID : UInt32) (obj : Object)
    (take : Bool) : Operate cfg Unit := do
  let state ← get
  if creatureID = 0 then pure ()
  else
    refuse (!surroundings.objectAccessible state creatureID obj 1) .notAccessible
    let objType := getObjectType state.world obj
    refuse (objType.getFlag .unmove) .notMovable
    whenever (objType.isCreatureContainer && getCreatureID state.world obj != creatureID) do
      refuse (state.creatures (getCreatureID state.world obj)).isNone .error
      refuse (surroundings.unpushable state (getCreatureID state.world obj)) .notMovable
    refuse (take && !objType.getFlag .take) .notTakable

def checkContainerDestination (obj con : Object) : Operate cfg Unit := do
  let state ← get
  refuse (← attempt (isHeldByContainer state.world con obj)) .crossReference
  let conType := getObjectType state.world con
  if conType.getFlag .chest then pure ()
  else
    let conObjects ← attempt (countObjectsInContainer state.world con)
    refuse (decide ((conType.getAttribute .capacity).toInt32 ≤ Int32.ofNat conObjects))
      .containerFull

def checkDepotSpace (creatureID : UInt32) (source destination : Object) (count : Int32) :
    Operate cfg Unit := do
  let state ← get
  if creatureID = 0 then pure ()
  else match state.creatures creatureID with
    | none => throw .error
    | some creature => do
        refuse (decide (destination = NONE)) .error
        match creature.player with
        | none => pure ()
        | some player =>
            if player.depot = NONE || decide (count ≤ player.depotSpace) then pure ()
            else
              let inside ← attempt (isHeldByContainer state.world source player.depot)
              let into ← attempt (isHeldByContainer state.world destination player.depot)
              refuse (!inside && into) .containerFull

/-- What both inventory checks demand of a slot that is not a hand and holds no arrows. -/
def checkClothes (type : ObjectType cfg) (position : Nat) : Operate cfg Unit := do
  refuse (!type.getFlag .clothes) .wrongPosition
  refuse (type.getAttribute .bodyPosition == 0) .wrongPosition2
  refuse (type.getAttribute .bodyPosition != UInt32.ofNat position) .wrongClothes

/-- What both demand of the hands for an object that needs two. -/
def checkHandsFree (state : GameState cfg) (creatureID : UInt32) (except : Object) :
    Operate cfg Unit := do
  let rightHand := getBodyObject state creatureID inventoryRightHand
  refuse (decide (rightHand ≠ NONE ∧ rightHand ≠ except)) .handsNotFree
  let leftHand := getBodyObject state creatureID inventoryLeftHand
  refuse (decide (leftHand ≠ NONE ∧ leftHand ≠ except)) .handsNotFree

def isHand (position : Nat) : Bool := position == inventoryRightHand || position == inventoryLeftHand

/-- One hand in the loop at the end of `check_inventory_destination`. -/
def checkOtherHand (state : GameState cfg) (creatureID : UInt32) (obj : Object) (split : Bool)
    (position : Nat) : Operate cfg Unit := do
  let other := getBodyObject state creatureID position
  if other = NONE then pure ()
  else
    let otherType := getObjectType state.world other
    refuse otherType.isTwoHanded .handBlocked
    refuse ((split || decide (other ≠ obj)) &&
      (otherType.isWeapon && (getObjectType state.world obj).isWeapon)) .oneWeaponOnly

def checkInventoryDestination (obj con : Object) (split : Bool) : Operate cfg Unit := do
  let state ← get
  let objType := getObjectType state.world obj
  let conPosition ← attempt (getObjectBodyPosition state.world con)
  whenever (!isHand conPosition && conPosition != inventoryAmmo)
    (checkClothes objType conPosition)
  let creatureID ← attempt (getObjectCreatureID state.world con)
  if isHand conPosition && objType.isTwoHanded then checkHandsFree state creatureID obj
  else
    refuse (decide (getBodyObject state creatureID conPosition ≠ NONE)) .noRoom
    whenever (isHand conPosition) do
      checkOtherHand state creatureID obj split inventoryRightHand
      checkOtherHand state creatureID obj split inventoryLeftHand

def addDepotSpace (state : GameState cfg) (creatureID : UInt32) (creature : Creature)
    (player : Player) (count : Int32) : GameState cfg :=
  let player := { player with depotSpace := player.depotSpace + count }
  { state with
    creatures := Function.update state.creatures creatureID
      (some { creature with player := some player }) }

def notifyDepot (creatureID : UInt32) (obj : Object) (count : Int32) : Operate cfg Unit := do
  let state ← get
  if creatureID = 0 then pure ()
  else match state.creatures creatureID with
    | none => pure ()
    | some creature => do
        refuse (!objectExists state.world obj) .error
        match creature.player with
        | none => pure ()
        | some player =>
            if player.depot = NONE then pure ()
            else
              let inside ← attempt (isHeldByContainer state.world obj player.depot)
              whenever inside (set (addDepotSpace state creatureID creature player count))

def onMap {Value : Type} (call : World cfg → Except Halt (Value × World cfg)) :
    Operate cfg Value :=
  perform fun state => (call state.world).map fun ended =>
    (ended.1, { state with world := ended.2 })

def changeMap (call : World cfg → Except Halt (World cfg)) : Operate cfg Unit :=
  onMap fun world => (call world).map fun after => ((), after)

/-- The count check that `move` and `merge` begin with. -/
def countRefused (world : World cfg) (obj : Object) (count : Int32) : Bool :=
  (getObjectType world obj).getFlag .cumulative &&
    (count == 0 || decide ((getAttribute world obj .amount).toInt32 < count))

/-- The checks of `merge` that look beyond the two stacks. -/
def checkMerge (surroundings : Surroundings cfg) (creatureID : UInt32) (obj dest : Object)
    (count : Int32) (ignore : Object) : Operate cfg Unit := do
  let state ← get
  let destCon := getContainer state.world dest
  let destOwnerID ← attempt (getObjectCreatureID state.world dest)
  checkTopMoveObject creatureID obj ignore
  if (getObjectType state.world destCon).isMapContainer then
    checkMoveObject surroundings creatureID obj false
    checkMapDestination surroundings creatureID obj destCon
  else
    checkMoveObject surroundings creatureID obj true
    checkDepotSpace creatureID obj destCon 0
    whenever (destOwnerID != 0) (checkWeight surroundings destOwnerID obj count)

/-- `merge`, with the function that joins two whole stacks. -/
def mergeUsing (join : World cfg → Object → Object → Except Halt (World cfg))
    (surroundings : Surroundings cfg) (creatureID : UInt32) (obj dest : Object) (count : Int32)
    (ignore : Object) : Operate cfg Unit := do
  let state ← get
  let world := state.world
  refuse (!objectExists world obj) .error
  refuse (!objectExists world dest) .error
  refuse (countRefused world obj count) .error
  if obj = dest then pure ()
  else
    refuse (decide (getObjectType world obj ≠ getObjectType world dest)) .noMatch
    refuse (!(getObjectType world obj).getFlag .cumulative) .notCumulable
    let objCount := (getAttribute world obj .amount).toInt32
    let destCount := (getAttribute world dest .amount).toInt32
    let count := if count = -1 then objCount else count
    refuse (decide (100 < count + destCount)) .tooManyParts
    checkMerge surroundings creatureID obj dest count ignore
    if count < objCount then
      changeMap fun world => .ok (changeAttribute world obj .amount (objCount - count).toUInt32)
      changeMap fun world => .ok (changeAttribute world dest .amount (destCount + count).toUInt32)
    else
      notifyDepot creatureID obj 1
      changeMap fun world => join world obj dest

/-- The attempt of `move` to merge with the top object of a field; whether it succeeded. -/
def mergeOnTop (join : World cfg → Object → Object → Except Halt (World cfg))
    (surroundings : Surroundings cfg) (creatureID : UInt32) (obj con : Object) (count : Int32)
    (noMerge : Bool) (ignore : Object) : Operate cfg Bool := do
  let state ← get
  if !noMerge && (getObjectType state.world con).isMapContainer &&
      (getObjectType state.world obj).getFlag .cumulative &&
      decide (getContainer state.world obj ≠ con) then
    let place ← attempt (getObjectCoordinates state.world con)
    let top ← attempt (getTopObject state.world place.1 place.2.1 place.2.2 true)
    if top = NONE then pure false
    else
      tryCatch (do mergeUsing join surroundings creatureID obj top count ignore; pure true)
        fun result => if result = .destroyed then throw result else pure false
  else pure false

/-- The depot check of `move`; a part of a stack counts as one object from nowhere. -/
def checkDepotRoom (creatureID : UInt32) (obj con : Object) (split : Bool) :
    Operate cfg Unit := do
  let state ← get
  if split then checkDepotSpace creatureID NONE con 1
  else
    let objects ← attempt (countObjects state.world obj)
    checkDepotSpace creatureID obj con (Int32.ofNat objects)

/-- The checks of `move` on the way to its destination. -/
def checkMove (surroundings : Surroundings cfg) (creatureID : UInt32) (obj con : Object)
    (count : Int32) (split : Bool) (ignore : Object) : Operate cfg Unit := do
  let state ← get
  let conType := getObjectType state.world con
  let conOwnerID ← attempt (getObjectCreatureID state.world con)
  checkTopMoveObject creatureID obj ignore
  if conType.isMapContainer then
    checkMoveObject surroundings creatureID obj false
    checkMapDestination surroundings creatureID obj con
  else
    checkMoveObject surroundings creatureID obj true
    (if conType.isBodyContainer then checkInventoryDestination obj con split
      else checkContainerDestination obj con)
    checkDepotRoom creatureID obj con split
    whenever (conOwnerID != 0) (checkWeight surroundings conOwnerID obj count)

/-- `notify_depot` with the objects of `obj`, as many of them as `sign` says. -/
def notifyDepotOf (creatureID : UInt32) (obj : Object) (sign : Int32) : Operate cfg Unit := do
  let state ← get
  let objects ← attempt (countObjects state.world obj)
  notifyDepot creatureID obj (sign * Int32.ofNat objects)

/-- What `move` does after its checks: `part` is the object that moves, or the part
that `split_object` gives. -/
def carryOver (creatureID : UInt32) (obj con : Object) (count : Int32) (split : Bool) :
    Operate cfg Unit := do
  let state ← get
  let creature := (getObjectType state.world obj).isCreatureContainer
  let part ← (if split then onMap fun world => splitObject world obj count else pure obj)
  whenever (!creature && !split) (notifyDepotOf creatureID part 1)
  changeMap fun world => moveObject world part con
  whenever (!creature) (notifyDepotOf creatureID part (-1))

/-- `ObjCount` of `move`. -/
def partsOf (world : World cfg) (obj : Object) : Int32 :=
  if (getObjectType world obj).getFlag .cumulative then (getAttribute world obj .amount).toInt32
  else 1

/-- `move`, with the function that joins two whole stacks. -/
def moveUsing (join : World cfg → Object → Object → Except Halt (World cfg))
    (surroundings : Surroundings cfg) (creatureID : UInt32) (obj con : Object) (count : Int32)
    (noMerge : Bool) (ignore : Object) : Operate cfg Unit := do
  let state ← get
  refuse (!objectExists state.world obj) .error
  refuse (!objectExists state.world con) .error
  refuse (!(getObjectType state.world con).getFlag .container) .error
  refuse (countRefused state.world obj count) .error
  let merged ← mergeOnTop join surroundings creatureID obj con count noMerge ignore
  if merged then pure ()
  else
    let state ← get
    let objCount := partsOf state.world obj
    let count := if count = -1 then objCount else count
    checkMove surroundings creatureID obj con count (decide (count < objCount)) ignore
    carryOver creatureID obj con count (decide (count < objCount))

def merge (surroundings : Surroundings cfg) (creatureID : UInt32) (obj dest : Object)
    (count : Int32) (ignore : Object) : Operate cfg Unit :=
  mergeUsing mergeObjects surroundings creatureID obj dest count ignore

def move (surroundings : Surroundings cfg) (creatureID : UInt32) (obj con : Object)
    (count : Int32) (noMerge : Bool) (ignore : Object) : Operate cfg Unit :=
  moveUsing mergeObjects surroundings creatureID obj con count noMerge ignore

end TibiaGame.OperateModel
