import TibiaGame.CronOperations
import TibiaGame.DynamicStrings

/-!
# The object store without swapping

The hash table of `map.cpp` with every object in memory. A handle reaches an
object through the low bits of its number; a handle that names no object reads
and writes the record of entry 0, as the pointer `HashTableData[0]` does.
-/

namespace TibiaGame.ObjectStore

open GameTypes CronModel DynamicStrings

instance fourAttributes : NeZero 4 := ⟨by decide⟩

structure MapObject (cfg : GameConfig) where
  objectID : UInt32
  nextObject : Object
  container : Object
  type : ObjectType cfg
  attributes : Fin 4 → UInt32

/-- `HashTableType` and `HashTableData` of one index. -/
inductive Cell (cfg : GameConfig) where
  | free
  | permanent
  | loaded (record : MapObject cfg)

structure Sector where
  mapCon : Fin 32 → Fin 32 → Object
  timeStamp : UInt32
  mapFlags : UInt8

structure World (cfg : GameConfig) where
  hashTable : Nat → Cell cfg
  noneRecord : MapObject cfg
  hashTableFree : UInt32
  nextObjectID : UInt32
  cron : CronStore
  strings : StringTable
  sectors : Int → Int → Int → Option Sector
  roundNr : UInt32

variable {cfg : GameConfig}

def blankObject (objectID : UInt32) : MapObject cfg where
  objectID := objectID
  nextObject := NONE
  container := NONE
  type := default
  attributes := fun _ => 0

namespace MapObject

def getAttribute (record : MapObject cfg) (attr : InstanceAttribute) : UInt32 :=
  match record.type.getAttributeOffset attr with
  | none => 0
  | some offset => if bound : offset < 4 then record.attributes ⟨offset, bound⟩ else 0

/-- Zero is not a value of these attributes; `set_attribute` replaces it. -/
def normalize (type : ObjectType cfg) (attr : InstanceAttribute) (value : UInt32) : UInt32 :=
  if value = 0 then
    if attr = .amount ∨ attr = .poolLiquidType ∨ attr = .charges then 1
    else if attr = .remainingUses then type.getAttribute .totalUses
    else value
  else value

def setAttribute (record : MapObject cfg) (attr : InstanceAttribute) (value : UInt32) :
    MapObject cfg :=
  match record.type.getAttributeOffset attr with
  | none => record
  | some offset =>
      if bound : offset < 4 then
        { record with
          attributes := Function.update record.attributes ⟨offset, bound⟩
            (normalize record.type attr value) }
      else record

def content (record : MapObject cfg) : Object := ⟨record.getAttribute .content⟩

end MapObject

def entryIndex (cfg : GameConfig) (objectID : UInt32) : Nat := objectID.toNat % cfg.hashTableSize

def liveRecord (world : World cfg) (obj : Object) : Option (MapObject cfg) :=
  if obj = NONE then none
  else
    match world.hashTable (entryIndex cfg obj.objectID) with
    | .loaded record => if record.objectID = obj.objectID then some record else none
    | _ => none

def objectExists (world : World cfg) (obj : Object) : Bool := (liveRecord world obj).isSome

def accessObject (world : World cfg) (obj : Object) : MapObject cfg :=
  (liveRecord world obj).getD world.noneRecord

/-- A write through the pointer that `access_object` returns. -/
def writeObject (world : World cfg) (obj : Object) (change : MapObject cfg → MapObject cfg) :
    World cfg :=
  match liveRecord world obj with
  | some record =>
      { world with
        hashTable := Function.update world.hashTable (entryIndex cfg obj.objectID)
          (.loaded (change record)) }
  | none => { world with noneRecord := change world.noneRecord }

def getObjectType (world : World cfg) (obj : Object) : ObjectType cfg := (accessObject world obj).type

def setObjectType (world : World cfg) (obj : Object) (type : ObjectType cfg) : World cfg :=
  writeObject world obj fun record => { record with type := type }

def getNextObject (world : World cfg) (obj : Object) : Object := (accessObject world obj).nextObject

def setNextObject (world : World cfg) (obj next : Object) : World cfg :=
  writeObject world obj fun record => { record with nextObject := next }

def getContainer (world : World cfg) (obj : Object) : Object := (accessObject world obj).container

def setContainer (world : World cfg) (obj con : Object) : World cfg :=
  writeObject world obj fun record => { record with container := con }

def getAttribute (world : World cfg) (obj : Object) (attr : InstanceAttribute) : UInt32 :=
  (accessObject world obj).getAttribute attr

def setAttribute (world : World cfg) (obj : Object) (attr : InstanceAttribute) (value : UInt32) :
    World cfg :=
  writeObject world obj fun record => record.setAttribute attr value

/-- The assignment `access_object(Obj)->Attributes[slot] = value`. -/
def setSlot (world : World cfg) (obj : Object) (slot : Fin 4) (value : UInt32) : World cfg :=
  writeObject world obj fun record =>
    { record with attributes := Function.update record.attributes slot value }

/-- The probing loop of `create_object`, at most `fuel` steps of it. -/
def probe (world : World cfg) : Nat → UInt32 → UInt32
  | 0, objectID => objectID
  | fuel + 1, objectID =>
      match world.hashTable (entryIndex cfg objectID) with
      | .free => objectID
      | _ => probe world fuel (objectID + 1)

/-- `create_object`. `ResizeHashTable` aborts, and the number handed out stays
the next one to be tried. -/
def createObject (world : World cfg) : Except Halt (Object × World cfg) :=
  if world.hashTableFree.toNat < cfg.hashTableSize / 16 then .error .abort
  else
    let objectID := probe world cfg.hashTableSize world.nextObjectID
    match world.hashTable (entryIndex cfg objectID) with
    | .free =>
        .ok (⟨objectID⟩,
          { world with
            hashTable := Function.update world.hashTable (entryIndex cfg objectID)
              (.loaded (blankObject objectID))
            hashTableFree := world.hashTableFree - 1
            nextObjectID := objectID })
    | _ => .error .assertion

/-- The last statements of `DestroyObject`: the entry is given back. -/
def releaseObject (world : World cfg) (obj : Object) : World cfg :=
  match world.hashTable (entryIndex cfg obj.objectID) with
  | .loaded _ =>
      { world with
        hashTable := Function.update world.hashTable (entryIndex cfg obj.objectID) .free
        hashTableFree := world.hashTableFree + 1 }
  | _ => world

def setTimer (world : World cfg) (obj : Object) (delay : UInt32) : World cfg :=
  if objectExists world obj then
    { world with cron := cronSet world.cron obj (world.roundNr + delay) }
  else world

def cronCheck (world : World cfg) : Object :=
  if world.cron.cronEntries ≠ 0 then
    if (world.cron.cronEntryArray 1).roundNr ≤ world.roundNr then
      (world.cron.cronEntryArray 1).obj
    else NONE
  else NONE

def cronExpire (world : World cfg) (obj : Object) (delay : Int32) : World cfg :=
  if objectExists world obj then
    if (getObjectType world obj).getFlag .expire then
      if delay = -1 then
        setTimer world obj ((getObjectType world obj).getAttribute .totalExpireTime)
      else setTimer world obj delay.toUInt32
    else world
  else world

def cronChange (world : World cfg) (obj : Object) (newDelay : Int32) : Except Halt (World cfg) :=
  if objectExists world obj then do
    match ← cronFind world.cron obj with
    | none => .ok world
    | some position =>
        .ok { world with
          cron := cronReschedule world.cron position (world.roundNr + newDelay.toUInt32) }
  else .ok world

def cronInfo (world : World cfg) (obj : Object) (deleteOp : Bool) :
    Except Halt (UInt32 × World cfg) :=
  if objectExists world obj then do
    match ← cronFind world.cron obj with
    | none => .ok (0, world)
    | some position =>
        let remaining := cronRemaining (world.cron.cronEntryArray position) world.roundNr
        if deleteOp then .ok (remaining, { world with cron := cronDelete world.cron position })
        else .ok (remaining, world)
  else .ok (0, world)

def cronStop (world : World cfg) (obj : Object) : Except Halt (UInt32 × World cfg) :=
  if objectExists world obj then cronInfo world obj true else .ok (0, world)

def permanentTable : Nat → Cell cfg := Function.update (fun _ => Cell.free) 0 .permanent

/-- The store as `init_map` leaves it before the map is loaded. -/
def initialWorld (cfg : GameConfig) : World cfg where
  hashTable := permanentTable
  noneRecord := blankObject 0
  hashTableFree := UInt32.ofNat (cfg.hashTableSize - 1)
  nextObjectID := 1
  cron := emptyCronStore
  strings := []
  sectors := fun _ _ _ => none
  roundNr := 0

section Records

variable {world : World cfg} {obj : Object}

theorem live_ne_none {record : MapObject cfg} (live : liveRecord world obj = some record) :
    obj ≠ NONE := by
  rintro rfl
  simp [liveRecord] at live

@[simp] theorem live_none (world : World cfg) : liveRecord world NONE = none := by
  simp [liveRecord]

theorem live_cell {world : World cfg} {obj : Object} {record : MapObject cfg} :
    liveRecord world obj = some record ↔ obj ≠ NONE ∧
      world.hashTable (entryIndex cfg obj.objectID) = .loaded record ∧
      record.objectID = obj.objectID := by
  unfold liveRecord
  by_cases missing : obj = NONE
  · simp [missing]
  rw [if_neg missing]
  cases world.hashTable (entryIndex cfg obj.objectID) with
  | free => simp
  | permanent => simp
  | loaded found =>
    simp only [Option.ite_none_right_eq_some, Option.some.injEq, Cell.loaded.injEq, ne_eq,
      missing, not_false_eq_true, true_and]
    constructor
    · rintro ⟨same, rfl⟩
      exact ⟨rfl, same⟩
    · rintro ⟨rfl, same⟩
      exact ⟨same, rfl⟩

theorem live_index_injective {left right : Object} {leftRecord rightRecord : MapObject cfg}
    (leftLive : liveRecord world left = some leftRecord)
    (rightLive : liveRecord world right = some rightRecord)
    (same : entryIndex cfg left.objectID = entryIndex cfg right.objectID) : left = right := by
  rcases live_cell.mp leftLive with ⟨_, leftCell, leftNumber⟩
  rcases live_cell.mp rightLive with ⟨_, rightCell, rightNumber⟩
  rw [same, rightCell] at leftCell
  have numbers : left.objectID = right.objectID := by
    rw [← leftNumber, ← rightNumber, Cell.loaded.inj leftCell]
  exact congrArg Object.mk numbers

theorem object_exists_iff :
    objectExists world obj = true ↔ ∃ record, liveRecord world obj = some record :=
  Option.isSome_iff_exists

theorem access_live {record : MapObject cfg} (live : liveRecord world obj = some record) :
    accessObject world obj = record := by
  simp [accessObject, live]

/-- Whatever does not touch the hash table leaves every record as it is. -/
theorem live_congr {left right : World cfg} (same : left.hashTable = right.hashTable)
    (obj : Object) : liveRecord left obj = liveRecord right obj := by
  simp only [liveRecord, same]

theorem live_write (world : World cfg) (obj other : Object) {change : MapObject cfg → MapObject cfg}
    (keepsID : ∀ record, (change record).objectID = record.objectID) :
    liveRecord (writeObject world obj change) other =
      if other = obj then (liveRecord world obj).map change else liveRecord world other := by
  unfold writeObject
  rcases live : liveRecord world obj with _ | record
  · split_ifs with same
    · rw [same]
      exact live
    · rfl
  obtain ⟨notNone, cell, number⟩ := live_cell.mp live
  simp only [Option.map_some]
  split_ifs with same
  · subst same
    apply live_cell.mpr
    refine ⟨notNone, ?_, ?_⟩
    · simp
    · rw [keepsID, number]
  by_cases collide : entryIndex cfg other.objectID = entryIndex cfg obj.objectID
  · -- The one entry holds the number of `obj`, so `other` is dead before and after.
    have different : obj.objectID ≠ other.objectID := by
      intro equal
      apply same
      cases other
      exact congrArg Object.mk equal.symm
    simp [liveRecord, collide, cell, keepsID, number, different]
  · simp [liveRecord, Function.update_of_ne collide]

end Records

end TibiaGame.ObjectStore
