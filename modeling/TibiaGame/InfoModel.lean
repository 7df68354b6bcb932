import TibiaGame.ForestRuns
import TibiaGame.Library.ThrowingState

/-!
# What the operations ask about objects

The lookups of `info.cpp` that `operate.cpp` uses, over the object store and the
creatures. A walk up the containers or along a content list has as many steps as
there can be objects; one that uses them all has no end in the source. The time
stamps that a lookup leaves at a sector are left out.
-/

namespace TibiaGame.InfoModel

open GameTypes ObjectStore ObjectOperations

/-- What the modelled functions read of a `TPlayer`. -/
structure Player where
  depot : Object
  depotSpace : Int32
  deriving DecidableEq

/-- What they read of a `TCreature`; only one of type `PLAYER` has the rest. -/
structure Creature where
  crObject : Object
  player : Option Player
  deriving DecidableEq

structure GameState (cfg : GameConfig) where
  world : World cfg
  creatures : UInt32 → Option Creature

variable {cfg : GameConfig}

def inventoryFirst : Nat := 1
def inventoryRightHand : Nat := 5
def inventoryLeftHand : Nat := 6
def inventoryAmmo : Nat := 10
def inventoryLast : Nat := 10

def getCreatureID (world : World cfg) (obj : Object) : UInt32 :=
  if (getObjectType world obj).isCreatureContainer then (accessObject world obj).attributes 1
  else 0

/-- The walk from an object up its containers, to the first where `stop` has an answer. -/
def climb {Value : Type} (world : World cfg) (stop : Object → Option Value) (missing : Value) :
    Nat → Object → Except Halt Value
  | 0, _ => .error .hang
  | fuel + 1, obj =>
      if obj = NONE then .ok missing
      else match stop obj with
        | some value => .ok value
        | none => climb world stop missing fuel (getContainer world obj)

def heldStop (world : World cfg) (con obj : Object) : Option Bool :=
  if (getObjectType world obj).isMapContainer then some false
  else if obj = con then some true
  else none

def isHeldByContainer (world : World cfg) (obj con : Object) : Except Halt Bool :=
  climb world (heldStop world con) false walkLimit obj

def creatureStop (world : World cfg) (obj : Object) : Option UInt32 :=
  if (getObjectType world obj).isCreatureContainer then some (getCreatureID world obj)
  else if (getObjectType world obj).isMapContainer then some 0
  else none

def getObjectCreatureID (world : World cfg) (obj : Object) : Except Halt UInt32 :=
  if objectExists world obj then climb world (creatureStop world) 0 walkLimit obj else .ok 0

def positionStop (world : World cfg) (obj : Object) : Option Nat :=
  if (getObjectType world obj).isBodyContainer then some (getObjectType world obj).typeID
  else if (getObjectType world obj).isMapContainer then some 0
  else none

def getObjectBodyPosition (world : World cfg) (obj : Object) : Except Halt Nat :=
  if objectExists world obj then climb world (positionStop world) 0 walkLimit obj else .ok 0

def rowCount (world : World cfg) : Nat → Object → Except Halt Nat
  | 0, _ => .error .hang
  | fuel + 1, obj =>
      if obj = NONE then .ok 0
      else do .ok (1 + (← rowCount world fuel (getNextObject world obj)))

def countObjectsInContainer (world : World cfg) (con : Object) : Except Halt Nat :=
  if objectExists world con then rowCount world walkLimit (getFirstContainerObject world con)
  else .ok 0

mutual

def countWithin (world : World cfg) : Nat → Object → Except Halt Nat
  | 0, _ => .error .hang
  | fuel + 1, obj =>
      if !objectExists world obj then .ok 0
      else if (getObjectType world obj).getFlag .container then do
        .ok (1 + (← countRow world fuel (getFirstContainerObject world obj)))
      else .ok 1

/-- The loop of `count_objects`. -/
def countRow (world : World cfg) : Nat → Object → Except Halt Nat
  | 0, _ => .error .hang
  | fuel + 1, help =>
      if help = NONE then .ok 0
      else do
        .ok ((← countWithin world fuel help) +
          (← countRow world fuel (getNextObject world help)))

end

def countObjects (world : World cfg) (obj : Object) : Except Halt Nat :=
  countWithin world walkLimit obj

/-- `get_body_container` at a position of the inventory. -/
def getBodyContainer (state : GameState cfg) (creatureID : UInt32) (position : Nat) : Object :=
  if position < inventoryFirst ∨ inventoryLast < position then NONE
  else match state.creatures creatureID with
  | none => NONE
  | some creature =>
      if objectExists state.world creature.crObject then
        getContainerObject state.world creature.crObject (position - inventoryFirst : Nat)
      else NONE

def getBodyObject (state : GameState cfg) (creatureID : UInt32) (position : Nat) : Object :=
  getFirstContainerObject state.world (getBodyContainer state creatureID position)

def fieldWalk (world : World cfg) : Nat → Object → Except Halt Object
  | 0, _ => .error .hang
  | fuel + 1, obj =>
      if (getObjectType world obj).isMapContainer then .ok obj
      else fieldWalk world fuel (getContainer world obj)

def getObjectCoordinates (world : World cfg) (obj : Object) : Except Halt (Int × Int × Int) :=
  if objectExists world obj then do
    let attributes := (accessObject world (← fieldWalk world walkLimit obj)).attributes
    .ok ((attributes 1).toInt32.toInt, (attributes 2).toInt32.toInt,
      ((attributes 3 &&& 0xFF).toInt32).toInt)
  else .ok (0, 0, 0)

def getMapContainer (world : World cfg) (x y z : Int) : Object :=
  match world.sectors (x.tdiv 32) (y.tdiv 32) z with
  | none => NONE
  | some sector => sector.mapCon (Fin.ofNat 32 (x.tmod 32).toNat) (Fin.ofNat 32 (y.tmod 32).toNat)

def getFirstObject (world : World cfg) (x y z : Int) : Object :=
  if getMapContainer world x y z ≠ NONE then
    ⟨getAttribute world (getMapContainer world x y z) .content⟩
  else NONE

def topWalk (world : World cfg) (move : Bool) : Nat → Object → Except Halt Object
  | 0, _ => .error .hang
  | fuel + 1, obj =>
      let objType := getObjectType world obj
      if getNextObject world obj = NONE then .ok obj
      else if !objType.getFlag .bank && !objType.getFlag .clip && !objType.getFlag .bottom &&
          !objType.getFlag .top && (!move || !objType.isCreatureContainer) then .ok obj
      else topWalk world move fuel (getNextObject world obj)

def getTopObject (world : World cfg) (x y z : Int) (move : Bool) : Except Halt Object :=
  if getFirstObject world x y z = NONE then .ok NONE
  else topWalk world move walkLimit (getFirstObject world x y z)

end TibiaGame.InfoModel
