import TibiaGame.CronRuns

/-!
# Operations on the object store

The functions of `map.cpp` that create, place, change and delete objects, with
every object in memory. A walk along a content list is given more steps than
there are object numbers; one that uses them all has no end in the source.
-/

namespace TibiaGame.ObjectOperations

open GameTypes DynamicStrings ObjectStore

variable {cfg : GameConfig}

def walkLimit : Nat := 2 ^ 34

def priorityBank : Int := 0
def priorityClip : Int := 1
def priorityBottom : Int := 2
def priorityTop : Int := 3
def priorityCreature : Int := 4
def priorityLow : Int := 5

def typePriority (type : ObjectType cfg) : Int :=
  if type.getFlag .bank then priorityBank
  else if type.getFlag .clip then priorityClip
  else if type.getFlag .bottom then priorityBottom
  else if type.getFlag .top then priorityTop
  else if type.isCreatureContainer then priorityCreature
  else priorityLow

def getObjectPriority (world : World cfg) (obj : Object) : Int :=
  if objectExists world obj then typePriority (getObjectType world obj) else -1

def getFirstContainerObject (world : World cfg) (con : Object) : Object :=
  if con = NONE then NONE
  else if (getObjectType world con).holdsObjects then ⟨getAttribute world con .content⟩
  else NONE

def getContainerObject (world : World cfg) (con : Object) (index : Int) : Object :=
  let rec skip : Nat → Object → Object
    | 0, obj => obj
    | index + 1, obj => if obj = NONE then obj else skip index (getNextObject world obj)
  if index < 0 then NONE
  else if objectExists world con then skip index.toNat (getFirstContainerObject world con)
  else NONE

/-- The search of `place_object`: `Prev` and `Cur` where it stops. -/
def placeWalk (world : World cfg) (stop : Object → Bool) :
    Nat → Object → Object → Except Halt (Object × Object)
  | 0, _, _ => .error .hang
  | fuel + 1, prev, cur =>
      if cur = NONE then .ok (prev, cur)
      else if stop cur then .ok (prev, cur)
      else placeWalk world stop fuel cur (getNextObject world cur)

/-- Where a map container is left for an object of priority `objPriority`. -/
def stopsBefore (world : World cfg) (objPriority : Int) (append : Bool) (cur : Object) : Bool :=
  if append then decide (objPriority < getObjectPriority world cur)
  else decide (objPriority ≤ getObjectPriority world cur)

def placeSearch (world : World cfg) (obj con : Object) (append : Bool) :
    Except Halt (Object × Object) :=
  let first : Object := ⟨getAttribute world con .content⟩
  if (getObjectType world con).isMapContainer then
    let objPriority := getObjectPriority world obj
    let append := append ||
      (objPriority != priorityCreature && objPriority != priorityLow)
    placeWalk world (stopsBefore world objPriority append) walkLimit NONE first
  else if append then placeWalk world (fun _ => false) walkLimit NONE first
  else .ok (NONE, first)

/-- The assignments at the end of `place_object`. -/
def placeBetween (world : World cfg) (obj con prev cur : Object) : World cfg :=
  let world := if prev ≠ NONE then setNextObject world prev obj
    else setAttribute world con .content obj.objectID
  setContainer (setNextObject world obj cur) obj con

def placeObject (world : World cfg) (obj con : Object) (append : Bool) :
    Except Halt (World cfg) :=
  if !objectExists world obj then .ok world
  else if !objectExists world con then .ok world
  else if !(getObjectType world con).holdsObjects then .ok world
  else do
    let (prev, cur) ← placeSearch world obj con append
    .ok (placeBetween world obj con prev cur)

/-- The loop of `cut_object` from `cur`, with the object before `obj`. -/
def cutWalk (world : World cfg) (obj : Object) : Nat → Object → Except Halt Object
  | 0, _ => .error .hang
  | fuel + 1, cur =>
      if getNextObject world cur = obj then .ok cur
      else cutWalk world obj fuel (getNextObject world cur)

/-- The part of `cut_object` that joins the neighbours of `obj`. -/
def unlinkObject (world : World cfg) (obj : Object) : Except Halt (World cfg) :=
  let con := getContainer world obj
  let cur := getFirstContainerObject world con
  if cur = obj then
    .ok (setAttribute world con .content (getNextObject world obj).objectID)
  else do
    let prev ← cutWalk world obj walkLimit cur
    .ok (setNextObject world prev (getNextObject world obj))

def cutObject (world : World cfg) (obj : Object) : Except Halt (World cfg) :=
  if !objectExists world obj then .ok world
  else do
    let world ← unlinkObject world obj
    .ok (setContainer (setNextObject world obj NONE) obj NONE)

def deleteStrings (world : World cfg) (obj : Object) : World cfg :=
  { world with
    strings := deleteDynamicString
      (deleteDynamicString world.strings (getAttribute world obj .textString))
      (getAttribute world obj .editor) }

mutual

def destroyObject : Nat → World cfg → Object → Except Halt (World cfg)
  | 0, _, _ => .error .hang
  | fuel + 1, world, obj =>
      if !objectExists world obj then .ok world
      else do
        let objType := getObjectType world obj
        let world := if objType.getFlag .text then deleteStrings world obj else world
        let world ← (if objType.holdsObjects then emptyContent fuel world obj else .ok world)
        let (_, world) ← (if objType.getFlag .expire then cronStop world obj else .ok (0, world))
        .ok (releaseObject world obj)

/-- The loop of `DestroyObject` over what the object still holds. -/
def emptyContent : Nat → World cfg → Object → Except Halt (World cfg)
  | 0, _, _ => .error .hang
  | fuel + 1, world, obj =>
      if Object.mk (getAttribute world obj .content) = NONE then .ok world
      else do
        let world ← deleteWithin fuel world ⟨getAttribute world obj .content⟩
        emptyContent fuel world obj

def deleteWithin : Nat → World cfg → Object → Except Halt (World cfg)
  | 0, _, _ => .error .hang
  | fuel + 1, world, obj =>
      if !objectExists world obj then .ok world
      else do
        let world ← cutObject world obj
        destroyObject fuel world obj

end

def deleteObject (world : World cfg) (obj : Object) : Except Halt (World cfg) :=
  deleteWithin walkLimit world obj

/-- What `change_object` takes along from the old type of the object. -/
structure Carried where
  amount : UInt32
  savedExpireTime : UInt32
  delay : Int32

def dropStrings (world : World cfg) (obj : Object) : World cfg :=
  let world := { world with
    strings := deleteDynamicString world.strings (getAttribute world obj .textString) }
  let world := setAttribute world obj .textString 0
  let world := { world with
    strings := deleteDynamicString world.strings (getAttribute world obj .editor) }
  setAttribute world obj .editor 0

/-- The first half of `change_object`: what the old type leaves behind. -/
def leaveType (world : World cfg) (obj : Object) (oldType newType : ObjectType cfg) :
    Except Halt (Carried × World cfg) :=
  if oldType.isMapContainer then .ok (⟨0, 0, -1⟩, world)
  else do
    let amount := if oldType.getFlag .cumulative then getAttribute world obj .amount else 0
    let (saved, world) ← (if oldType.getFlag .expire then cronStop world obj else .ok (0, world))
    let amount := if oldType.getFlag .expire && newType.getFlag .cumulative then 1 else amount
    let world := if oldType.getFlag .text && !newType.getFlag .text then dropStrings world obj
      else world
    let delay := if oldType.getFlag .expireStop && getAttribute world obj .savedExpireTime != 0
      then (getAttribute world obj .savedExpireTime).toInt32 else -1
    let world := if oldType.getFlag .magicField then setAttribute world obj .responsible 0
      else world
    .ok (⟨amount, saved, delay⟩, world)

/-- `LIQUID_WATER` of `enums.h`. -/
def liquidWater : UInt32 := 1

def provide (attr : InstanceAttribute) (value : UInt32) (record : MapObject cfg) : MapObject cfg :=
  if record.getAttribute attr = 0 then record.setAttribute attr value else record

def applyIf (flag : Bool) (change : MapObject cfg → MapObject cfg) (record : MapObject cfg) :
    MapObject cfg :=
  if flag then change record else record

/-- The second half of `change_object`, up to the registration of the timer. All
its reads and writes go to the record of the one object. -/
def enterRecord (newType : ObjectType cfg) (carried : Carried) (record : MapObject cfg) :
    MapObject cfg :=
  let record := { record with type := newType }
  let record := applyIf (newType.getFlag .cumulative)
    (fun record => record.setAttribute .amount
      (if carried.amount ≤ 0 then 1 else carried.amount)) record
  let record := applyIf (newType.getFlag .rune) (provide .charges 1) record
  let record := applyIf (newType.getFlag .liquidPool) (provide .poolLiquidType liquidWater) record
  let record := applyIf (newType.getFlag .wearOut)
    (provide .remainingUses (newType.getAttribute .totalUses)) record
  applyIf (newType.getFlag .expireStop)
    (fun record => record.setAttribute .savedExpireTime carried.savedExpireTime) record

def enterType (world : World cfg) (obj : Object) (newType : ObjectType cfg) (carried : Carried) :
    World cfg :=
  writeObject world obj (enterRecord newType carried)

/-- `change_object` with a new type. -/
def changeObject (world : World cfg) (obj : Object) (newType : ObjectType cfg) :
    Except Halt (World cfg) :=
  if !objectExists world obj then .ok world
  else do
    let (carried, world) ← leaveType world obj (getObjectType world obj) newType
    .ok (cronExpire (enterType world obj newType carried) obj carried.delay)

/-- `change_object` with an attribute and its new value. -/
def changeAttribute (world : World cfg) (obj : Object) (attr : InstanceAttribute)
    (value : UInt32) : World cfg :=
  if !objectExists world obj then world else setAttribute world obj attr value

def moveObject (world : World cfg) (obj con : Object) : Except Halt (World cfg) :=
  if !objectExists world obj then .ok world
  else if !objectExists world con then .ok world
  else do
    let world ← cutObject world obj
    placeObject world obj con false

/-- What `append_object` and `set_object` share. -/
def createPlaced (world : World cfg) (con : Object) (type : ObjectType cfg) (append : Bool) :
    Except Halt (Object × World cfg) := do
  let (obj, world) ← createObject world
  let world ← changeObject world obj type
  let world ← placeObject world obj con append
  .ok (obj, world)

def appendObject (world : World cfg) (con : Object) (type : ObjectType cfg) :
    Except Halt (Object × World cfg) :=
  if !objectExists world con then .ok (NONE, world)
  else createPlaced world con type true

def setObject (world : World cfg) (con : Object) (type : ObjectType cfg) (creatureID : UInt32) :
    Except Halt (Object × World cfg) :=
  if !objectExists world con then .ok (NONE, world)
  else do
    let (obj, world) ← createPlaced world con type false
    if type.isCreatureContainer then .ok (obj, setSlot world obj 1 creatureID)
    else .ok (obj, world)

/-- The loop of `copy_object` over the four attribute slots. -/
def copySlots (world : World cfg) (source target : Object) : World cfg :=
  (List.finRange 4).foldl
    (fun world slot => setSlot world target slot ((accessObject world source).attributes slot)) world

/-- A text of its own for an attribute that still shares the string of the source. -/
def duplicateString (world : World cfg) (obj : Object) (attr : InstanceAttribute) : World cfg :=
  if getAttribute world obj attr ≠ 0 then
    let (number, strings) := addDynamicString world.strings
      (getDynamicString world.strings (getAttribute world obj attr))
    setAttribute { world with strings := strings } obj attr number
  else world

def clearContent (world : World cfg) (obj : Object) (type : ObjectType cfg) : World cfg :=
  if type.holdsObjects then setAttribute world obj .content NONE.objectID else world

def duplicateStrings (world : World cfg) (obj : Object) (type : ObjectType cfg) : World cfg :=
  if type.getFlag .text then
    duplicateString (duplicateString world obj .textString) obj .editor
  else world

def copyObject (world : World cfg) (con source : Object) : Except Halt (Object × World cfg) :=
  if !objectExists world source then .ok (NONE, world)
  else if !objectExists world con then .ok (NONE, world)
  else
    let sourceType := getObjectType world source
    if sourceType.isCreatureContainer then .ok (NONE, world)
    else do
      let (newObj, world) ← setObject world con sourceType 0
      let world := copySlots world source newObj
      let world := clearContent world newObj sourceType
      .ok (newObj, duplicateStrings world newObj sourceType)

def splitObject (world : World cfg) (obj : Object) (count : Int32) :
    Except Halt (Object × World cfg) :=
  if !objectExists world obj then .ok (NONE, world)
  else if !(getObjectType world obj).getFlag .cumulative then .ok (obj, world)
  else
    let amount := getAttribute world obj .amount
    if count ≤ 0 ∨ amount < count.toUInt32 then .ok (obj, world)
    else if count.toUInt32 = amount then .ok (obj, world)
    else do
      let (res, world) ← copyObject world (getContainer world obj) obj
      let world := setAttribute world res .amount count.toUInt32
      .ok (res, setAttribute world obj .amount (amount - count.toUInt32))

/-- The parts `merge_objects` counts for an object: at least one. -/
def mergedParts (world : World cfg) (obj : Object) : UInt32 :=
  if getAttribute world obj .amount = 0 then 1 else getAttribute world obj .amount

def mergeObjects (world : World cfg) (obj dest : Object) : Except Halt (World cfg) :=
  if !objectExists world obj then .ok world
  else if !objectExists world dest then .ok world
  else if getObjectType world obj ≠ getObjectType world dest then .ok world
  else if !(getObjectType world obj).getFlag .cumulative then .ok world
  else
    let amount := mergedParts world dest + mergedParts world obj
    let amount := if 100 < amount then 100 else amount
    deleteObject (setAttribute world dest .amount amount) obj

def createMapCon (world : World cfg) (x y z : Int) : Except Halt (Object × World cfg) := do
  let (mapCon, world) ← createObject world
  let world := setSlot world mapCon 1 (UInt32.ofInt x)
  let world := setSlot world mapCon 2 (UInt32.ofInt y)
  .ok (mapCon, setSlot world mapCon 3 (UInt32.ofInt z))

def createMapCons (sectorX sectorY sectorZ : Int) :
    List (Fin 32 × Fin 32) → World cfg → (Fin 32 → Fin 32 → Object) →
      Except Halt (World cfg × (Fin 32 → Fin 32 → Object))
  | [], world, mapCon => .ok (world, mapCon)
  | (x, y) :: rest, world, mapCon => do
      let (field, world) ← createMapCon world (sectorX * 32 + x) (sectorY * 32 + y) sectorZ
      createMapCons sectorX sectorY sectorZ rest world
        (fun x' y' => if x' = x ∧ y' = y then field else mapCon x' y')

def sectorFields : List (Fin 32 × Fin 32) :=
  (List.finRange 32).flatMap fun x => (List.finRange 32).map fun y => (x, y)

def initSector (world : World cfg) (sectorX sectorY sectorZ : Int) : Except Halt (World cfg) :=
  if (world.sectors sectorX sectorY sectorZ).isSome then .ok world
  else do
    let (world, mapCon) ← createMapCons sectorX sectorY sectorZ sectorFields world fun _ _ => NONE
    let sector : Sector := ⟨mapCon, world.roundNr, 0⟩
    .ok { world with
      sectors := fun x y z =>
        if x = sectorX ∧ y = sectorY ∧ z = sectorZ then some sector else world.sectors x y z }

inductive MapCall (cfg : GameConfig) where
  | initSector (sectorX sectorY sectorZ : Int)
  | appendObject (con : Object) (type : ObjectType cfg)
  | setObject (con : Object) (type : ObjectType cfg) (creatureID : UInt32)
  | copyObject (con source : Object)
  | splitObject (obj : Object) (count : Int32)
  | mergeObjects (obj dest : Object)
  | moveObject (obj con : Object)
  | deleteObject (obj : Object)
  | changeObject (obj : Object) (newType : ObjectType cfg)
  | changeAttribute (obj : Object) (attr : InstanceAttribute) (value : UInt32)
  | nextRound (roundNr : UInt32)

def callMap (world : World cfg) : MapCall cfg → Except Halt (World cfg)
  | .initSector sectorX sectorY sectorZ => initSector world sectorX sectorY sectorZ
  | .appendObject con type => (appendObject world con type).map Prod.snd
  | .setObject con type creatureID => (setObject world con type creatureID).map Prod.snd
  | .copyObject con source => (copyObject world con source).map Prod.snd
  | .splitObject obj count => (splitObject world obj count).map Prod.snd
  | .mergeObjects obj dest => mergeObjects world obj dest
  | .moveObject obj con => moveObject world obj con
  | .deleteObject obj => deleteObject world obj
  | .changeObject obj newType => changeObject world obj newType
  | .changeAttribute obj attr value => .ok (changeAttribute world obj attr value)
  | .nextRound roundNr => .ok { world with roundNr := roundNr }

def runMap (world : World cfg) : List (MapCall cfg) → Except Halt (World cfg)
  | [] => .ok world
  | call :: rest => do runMap (← callMap world call) rest

end TibiaGame.ObjectOperations
