import TibiaGame.ObjectOperations

/-!
# The object store with swapping

The object blocks, the hash table and the swap files of `map.cpp`. An entry of
`HashTableData` is a slot, or the number of a swap file when the entry is swapped
out. A free slot holds the link to the next free one. Slots are numbered from 1,
and 0 stands for `NULL`.
-/

namespace TibiaGame.SectorSwapping

open GameTypes CronModel DynamicStrings ObjectStore ObjectOperations

inductive Status where
  | free
  | loaded
  | swapped
  | permanent
  deriving DecidableEq, Repr

inductive SlotCell (cfg : GameConfig) where
  | record (object : MapObject cfg)
  | link (next : Nat)

/-- `Sector`, whose status is loaded or swapped. -/
structure PagedSector where
  mapCon : Fin 32 → Fin 32 → Object
  timeStamp : UInt32
  loaded : Bool
  mapFlags : UInt8

/-- A swap file. Until it has been closed, nothing is read back from it. -/
structure SwapFile (cfg : GameConfig) where
  closed : Bool
  sectorX : Int
  sectorY : Int
  sectorZ : Int
  records : List (MapObject cfg)

/-- What the map configuration says about the object blocks and the sectors. -/
structure MapLayout where
  slotCount : Nat
  slotCount_pos : 0 < slotCount
  sectorXMin : Int
  sectorXMax : Int
  sectorYMin : Int
  sectorYMax : Int
  sectorZMin : Int
  sectorZMax : Int

structure PagedStore (cfg : GameConfig) where
  layout : MapLayout
  slots : Nat → SlotCell cfg
  firstFreeObject : Nat
  hashTableType : Nat → Status
  hashTableData : Nat → Nat
  hashTableFree : UInt32
  nextObjectID : UInt32
  cron : CronStore
  strings : StringTable
  sectors : Int → Int → Int → Option PagedSector
  files : Nat → Option (SwapFile cfg)
  fileNumber : Nat
  roundNr : UInt32

variable {cfg : GameConfig}

/-- The record in a slot; what a free slot would show is never asked for. -/
def readSlot (store : PagedStore cfg) (slot : Nat) : MapObject cfg :=
  match store.slots slot with
  | .record object => object
  | .link _ => blankObject 0

def writeSlot (store : PagedStore cfg) (slot : Nat) (object : MapObject cfg) : PagedStore cfg :=
  { store with slots := Function.update store.slots slot (.record object) }

/-- The end of `GetFreeObjectSlot`, once there is a free slot. -/
def popFreeSlot (store : PagedStore cfg) : Nat × PagedStore cfg :=
  if store.firstFreeObject = 0 then (0, store)
  else
    let next := match store.slots store.firstFreeObject with
      | .link next => next
      | .record _ => 0
    (store.firstFreeObject,
      writeSlot { store with firstFreeObject := next } store.firstFreeObject (blankObject 0))

def putFreeObjectSlot (store : PagedStore cfg) (slot : Nat) : PagedStore cfg :=
  if slot = 0 then store
  else
    { store with
      slots := Function.update store.slots slot (.link store.firstFreeObject)
      firstFreeObject := slot }

def rangeOf (low high : Int) : List Int :=
  (List.range (high - low + 1).toNat).map fun step => low + step

/-- The sectors in the order in which `swap_sector` looks at them. -/
def sectorPlaces (layout : MapLayout) : List (Int × Int × Int) :=
  (rangeOf layout.sectorZMin layout.sectorZMax).flatMap fun z =>
    (rangeOf layout.sectorYMin layout.sectorYMax).flatMap fun y =>
      (rangeOf layout.sectorXMin layout.sectorXMax).map fun x => (x, y, z)

def oldestSector (store : PagedStore cfg) : Option (Int × Int × Int) :=
  ((sectorPlaces store.layout).foldl (fun (best : Option (Int × Int × Int) × UInt32) place =>
    match store.sectors place.1 place.2.1 place.2.2 with
    | some sector =>
        if sector.loaded && decide (sector.timeStamp < best.2) then (some place, sector.timeStamp)
        else best
    | none => best) (none, store.roundNr + 1)).1

/-- The loop of `swap_sector` that looks for a file name. -/
def nextFileNumber (store : PagedStore cfg) : Nat → Nat → Except Halt Nat
  | 0, _ => .error .hang
  | fuel + 1, fileNumber =>
      let fileNumber := if 99999999 < fileNumber + 1 then 1 else fileNumber + 1
      if (store.files fileNumber).isSome then nextFileNumber store fuel fileNumber
      else .ok fileNumber

def setStatus (store : PagedStore cfg) (index : Nat) (status : Status) (data : Nat) :
    PagedStore cfg :=
  { store with
    hashTableType := Function.update store.hashTableType index status
    hashTableData := Function.update store.hashTableData index data }

def setFile (store : PagedStore cfg) (number : Nat) (file : Option (SwapFile cfg)) :
    PagedStore cfg :=
  { store with files := Function.update store.files number file }

/-- `File->writeBytes` with one object. -/
def appendRecord (store : PagedStore cfg) (number : Nat) (object : MapObject cfg) :
    PagedStore cfg :=
  match store.files number with
  | some file => setFile store number (some { file with records := file.records ++ [object] })
  | none => store

def closeFile (store : PagedStore cfg) (number : Nat) : PagedStore cfg :=
  match store.files number with
  | some file => setFile store number (some { file with closed := true })
  | none => store

def setSectorLoaded (store : PagedStore cfg) (x y z : Int) (loaded : Bool) : PagedStore cfg :=
  { store with
    sectors := fun x' y' z' =>
      if x' = x ∧ y' = y ∧ z' = z then
        (store.sectors x y z).map fun sector => { sector with loaded := loaded }
      else store.sectors x' y' z' }

/-- The entry is loaded and holds the object of this very number. -/
def isResident (store : PagedStore cfg) (obj : Object) : Bool :=
  decide (store.hashTableType (entryIndex cfg obj.objectID) = .loaded) &&
    (readSlot store (store.hashTableData (entryIndex cfg obj.objectID))).objectID == obj.objectID

/-- The slot that `access_object` returns once the entry is not swapped out. -/
def slotOf (store : PagedStore cfg) (obj : Object) : Nat :=
  if obj ≠ NONE ∧ isResident store obj = true then
    store.hashTableData (entryIndex cfg obj.objectID)
  else store.hashTableData 0

mutual

/-- What `exists` and `access_object` begin with. -/
def ensureLoaded : Nat → PagedStore cfg → Object → Except Halt (PagedStore cfg)
  | 0, _, _ => .error .hang
  | fuel + 1, store, obj =>
      if store.hashTableType (entryIndex cfg obj.objectID) = .swapped then
        unswapSector fuel store (store.hashTableData (entryIndex cfg obj.objectID))
      else .ok store

/-- `unswap_sector`. A file that is missing or still open ends the server, as do a
write through `NULL` and a sector that cannot be swapped out. -/
def unswapSector : Nat → PagedStore cfg → Nat → Except Halt (PagedStore cfg)
  | 0, _, _ => .error .hang
  | fuel + 1, store, fileNumber =>
      match store.files fileNumber with
      | none => .error .abort
      | some file =>
          if !file.closed then .error .abort
          else
            match store.sectors file.sectorX file.sectorY file.sectorZ with
            | none => .ok store
            | some sector =>
                if sector.loaded then .ok store
                else do
                  let store ← loadRecords fuel store file.records
                  .ok (setFile
                    (setSectorLoaded store file.sectorX file.sectorY file.sectorZ true)
                    fileNumber none)

def loadRecords : Nat → PagedStore cfg → List (MapObject cfg) → Except Halt (PagedStore cfg)
  | 0, _, _ => .error .hang
  | _ + 1, store, [] => .ok store
  | fuel + 1, store, entry :: rest =>
      if store.hashTableType (entryIndex cfg entry.objectID) = .swapped then do
        let (slot, store) ← getFreeObjectSlot fuel store
        if slot = 0 then .error .abort
        else
          loadRecords fuel
            (setStatus (writeSlot store slot entry) (entryIndex cfg entry.objectID) .loaded slot)
            rest
      else loadRecords fuel store rest

def getFreeObjectSlot : Nat → PagedStore cfg → Except Halt (Nat × PagedStore cfg)
  | 0, _ => .error .hang
  | fuel + 1, store => do
      let store ← (if store.firstFreeObject = 0 then swapSector fuel store else .ok store)
      .ok (popFreeSlot store)

def swapSector : Nat → PagedStore cfg → Except Halt (PagedStore cfg)
  | 0, _ => .error .hang
  | fuel + 1, store =>
      match oldestSector store with
      | none => .error .noSector
      | some (x, y, z) =>
          match store.sectors x y z with
          | none => .error .abort
          | some sector => do
              let number ← nextFileNumber store 100000000 store.fileNumber
              let store := setFile { store with fileNumber := number } number
                (some ⟨false, x, y, z, []⟩)
              let store ← swapFields fuel store
                (sectorFields.map fun place => sector.mapCon place.1 place.2) number
              .ok (closeFile (setSectorLoaded store x y z false) number)

/-- The loop of `swap_sector` over the fields of the sector. -/
def swapFields : Nat → PagedStore cfg → List Object → Nat → Except Halt (PagedStore cfg)
  | 0, _, _, _ => .error .hang
  | _ + 1, store, [], _ => .ok store
  | fuel + 1, store, obj :: rest, number => do
      let store ← swapObject fuel store obj number
      swapFields fuel store rest number

def swapObject : Nat → PagedStore cfg → Object → Nat → Except Halt (PagedStore cfg)
  | 0, _, _, _ => .error .hang
  | fuel + 1, store, obj, number =>
      if obj = NONE then .error .assertion
      else if isResident store obj then do
        let slot := store.hashTableData (entryIndex cfg obj.objectID)
        let entry := readSlot store slot
        let store := appendRecord store number entry
        let store ← (if entry.type.holdsObjects then swapContent fuel store entry.content number
          else .ok store)
        .ok (setStatus (putFreeObjectSlot store slot) (entryIndex cfg obj.objectID) .swapped number)
      else .ok store

/-- The loop of `swap_object` over the content. -/
def swapContent : Nat → PagedStore cfg → Object → Nat → Except Halt (PagedStore cfg)
  | 0, _, _, _ => .error .hang
  | fuel + 1, store, current, number =>
      if current = NONE then .ok store
      else do
        let store ← ensureLoaded fuel store current
        let next := (readSlot store (slotOf store current)).nextObject
        let store ← swapObject fuel store current number
        swapContent fuel store next number

end

def pagingLimit : Nat := 2 ^ 40

/-- `Object::exists`. -/
def pagedExists (store : PagedStore cfg) (obj : Object) : Except Halt (Bool × PagedStore cfg) :=
  if obj = NONE then .ok (false, store)
  else do
    let store ← ensureLoaded pagingLimit store obj
    .ok (isResident store obj, store)

/-- `access_object`, read through. -/
def pagedAccess (store : PagedStore cfg) (obj : Object) :
    Except Halt (MapObject cfg × PagedStore cfg) :=
  if obj = NONE then .ok (readSlot store (store.hashTableData 0), store)
  else do
    let store ← ensureLoaded pagingLimit store obj
    .ok (readSlot store (slotOf store obj), store)

/-- `access_object`, written through. -/
def pagedWrite (store : PagedStore cfg) (obj : Object) (change : MapObject cfg → MapObject cfg) :
    Except Halt (PagedStore cfg) :=
  do
    let (object, store) ← pagedAccess store obj
    .ok (writeSlot store (slotOf store obj) (change object))

def pagedGetAttribute (store : PagedStore cfg) (obj : Object) (attr : InstanceAttribute) :
    Except Halt (UInt32 × PagedStore cfg) := do
  let (_, store) ← pagedAccess store obj
  let (object, store) ← pagedAccess store obj
  .ok (object.getAttribute attr, store)

def pagedSetAttribute (store : PagedStore cfg) (obj : Object) (attr : InstanceAttribute)
    (value : UInt32) : Except Halt (PagedStore cfg) := do
  let (_, store) ← pagedAccess store obj
  pagedWrite store obj fun object => object.setAttribute attr value

def probeTypes (store : PagedStore cfg) : Nat → UInt32 → UInt32
  | 0, objectID => objectID
  | fuel + 1, objectID =>
      if store.hashTableType (entryIndex cfg objectID) = .free then objectID
      else probeTypes store fuel (objectID + 1)

/-- `create_object`. -/
def pagedCreate (store : PagedStore cfg) : Except Halt (Object × PagedStore cfg) :=
  if store.hashTableFree.toNat < cfg.hashTableSize / 16 then .error .abort
  else
    let objectID := probeTypes store cfg.hashTableSize store.nextObjectID
    if store.hashTableType (entryIndex cfg objectID) = .free then do
      let (slot, store) ← getFreeObjectSlot pagingLimit { store with nextObjectID := objectID }
      if slot = 0 then .ok (NONE, store)
      else
        let store := setStatus (writeSlot store slot (blankObject objectID))
          (entryIndex cfg objectID) .loaded slot
        .ok (⟨objectID⟩, { store with hashTableFree := store.hashTableFree - 1 })
    else .error .assertion

def pagedFirstContent (store : PagedStore cfg) (con : Object) :
    Except Halt (Object × PagedStore cfg) :=
  if con = NONE then .ok (NONE, store)
  else do
    let (object, store) ← pagedAccess store con
    if object.type.holdsObjects then do
      let (content, store) ← pagedGetAttribute store con .content
      .ok (⟨content⟩, store)
    else .ok (NONE, store)

def pagedCutWalk (obj : Object) : Nat → PagedStore cfg → Object →
    Except Halt (Object × PagedStore cfg)
  | 0, _, _ => .error .hang
  | fuel + 1, store, cur => do
      let (object, store) ← pagedAccess store cur
      if object.nextObject = obj then .ok (cur, store)
      else pagedCutWalk obj fuel store object.nextObject

def pagedUnlink (store : PagedStore cfg) (obj : Object) : Except Halt (PagedStore cfg) := do
  let (object, store) ← pagedAccess store obj
  let (cur, store) ← pagedFirstContent store object.container
  if cur = obj then do
    let (found, store) ← pagedAccess store obj
    pagedSetAttribute store object.container .content found.nextObject.objectID
  else do
    let (prev, store) ← pagedCutWalk obj walkLimit store cur
    let (found, store) ← pagedAccess store obj
    pagedWrite store prev fun record => { record with nextObject := found.nextObject }

/-- `cut_object`. -/
def pagedCut (store : PagedStore cfg) (obj : Object) : Except Halt (PagedStore cfg) := do
  let (isLive, store) ← pagedExists store obj
  if !isLive then .ok store
  else do
    let store ← pagedUnlink store obj
    let store ← pagedWrite store obj fun record => { record with nextObject := NONE }
    pagedWrite store obj fun record => { record with container := NONE }

def pagedDeleteStrings (store : PagedStore cfg) (obj : Object) : Except Halt (PagedStore cfg) := do
  let (text, store) ← pagedGetAttribute store obj .textString
  let store := { store with strings := deleteDynamicString store.strings text }
  let (editor, store) ← pagedGetAttribute store obj .editor
  .ok { store with strings := deleteDynamicString store.strings editor }

/-- `cron_stop`, which asks `exists` before `cron_info` asks again. -/
def pagedCronStop (store : PagedStore cfg) (obj : Object) :
    Except Halt (UInt32 × PagedStore cfg) := do
  let (isLive, store) ← pagedExists store obj
  if !isLive then .ok (0, store)
  else do
    let (isLive, store) ← pagedExists store obj
    if !isLive then .ok (0, store)
    else do
      match ← cronFind store.cron obj with
      | none => .ok (0, store)
      | some position =>
          .ok (cronRemaining (store.cron.cronEntryArray position) store.roundNr,
            { store with cron := cronDelete store.cron position })

/-- The last statements of `DestroyObject`. -/
def pagedRelease (store : PagedStore cfg) (obj : Object) : PagedStore cfg :=
  if store.hashTableType (entryIndex cfg obj.objectID) = .loaded then
    let slot := store.hashTableData (entryIndex cfg obj.objectID)
    let store := putFreeObjectSlot store slot
    { store with
      hashTableType := Function.update store.hashTableType (entryIndex cfg obj.objectID) .free
      hashTableFree := store.hashTableFree + 1 }
  else store

mutual

/-- `DestroyObject`. -/
def pagedDestroy : Nat → PagedStore cfg → Object → Except Halt (PagedStore cfg)
  | 0, _, _ => .error .hang
  | fuel + 1, store, obj => do
      let (isLive, store) ← pagedExists store obj
      if !isLive then .ok store
      else do
        let (object, store) ← pagedAccess store obj
        let store ← (if object.type.getFlag .text then pagedDeleteStrings store obj else .ok store)
        let store ← (if object.type.holdsObjects then pagedEmpty fuel store obj else .ok store)
        let (_, store) ← (if object.type.getFlag .expire then pagedCronStop store obj
          else .ok (0, store))
        .ok (pagedRelease store obj)

def pagedEmpty : Nat → PagedStore cfg → Object → Except Halt (PagedStore cfg)
  | 0, _, _ => .error .hang
  | fuel + 1, store, obj => do
      let (content, store) ← pagedGetAttribute store obj .content
      if Object.mk content = NONE then .ok store
      else do
        let store ← pagedDeleteWithin fuel store ⟨content⟩
        pagedEmpty fuel store obj

def pagedDeleteWithin : Nat → PagedStore cfg → Object → Except Halt (PagedStore cfg)
  | 0, _, _ => .error .hang
  | fuel + 1, store, obj => do
      let (isLive, store) ← pagedExists store obj
      if !isLive then .ok store
      else do
        let store ← pagedCut store obj
        pagedDestroy fuel store obj

end

/-- `delete_object`. -/
def pagedDelete (store : PagedStore cfg) (obj : Object) : Except Halt (PagedStore cfg) :=
  pagedDeleteWithin walkLimit store obj

def pagedSetSlot (store : PagedStore cfg) (obj : Object) (slot : Fin 4) (value : UInt32) :
    Except Halt (PagedStore cfg) :=
  pagedWrite store obj fun record =>
    { record with attributes := Function.update record.attributes slot value }

def pagedCreateMapCon (store : PagedStore cfg) (x y z : Int) :
    Except Halt (Object × PagedStore cfg) := do
  let (mapCon, store) ← pagedCreate store
  let store ← pagedSetSlot store mapCon 1 (UInt32.ofInt x)
  let store ← pagedSetSlot store mapCon 2 (UInt32.ofInt y)
  let store ← pagedSetSlot store mapCon 3 (UInt32.ofInt z)
  .ok (mapCon, store)

def pagedCreateMapCons (sectorX sectorY sectorZ : Int) :
    List (Fin 32 × Fin 32) → PagedStore cfg → (Fin 32 → Fin 32 → Object) →
      Except Halt (PagedStore cfg × (Fin 32 → Fin 32 → Object))
  | [], store, mapCon => .ok (store, mapCon)
  | (x, y) :: rest, store, mapCon => do
      let (field, store) ← pagedCreateMapCon store (sectorX * 32 + x) (sectorY * 32 + y) sectorZ
      pagedCreateMapCons sectorX sectorY sectorZ rest store
        (fun x' y' => if x' = x ∧ y' = y then field else mapCon x' y')

/-- `init_sector`. -/
def pagedInitSector (store : PagedStore cfg) (sectorX sectorY sectorZ : Int) :
    Except Halt (PagedStore cfg) :=
  if (store.sectors sectorX sectorY sectorZ).isSome then .ok store
  else do
    let (store, mapCon) ← pagedCreateMapCons sectorX sectorY sectorZ sectorFields store
      fun _ _ => NONE
    .ok { store with
      sectors := fun x y z =>
        if x = sectorX ∧ y = sectorY ∧ z = sectorZ then some ⟨mapCon, store.roundNr, true, 0⟩
        else store.sectors x y z }

/-- The object blocks of `init_map`: every slot links to the next one. -/
def emptyBlocks (cfg : GameConfig) (layout : MapLayout) : PagedStore cfg where
  layout := layout
  slots := fun slot => .link (if slot < layout.slotCount then slot + 1 else 0)
  firstFreeObject := 1
  hashTableType := fun _ => .free
  hashTableData := fun _ => 0
  hashTableFree := UInt32.ofNat (cfg.hashTableSize - 1)
  nextObjectID := 1
  cron := emptyCronStore
  strings := []
  sectors := fun _ _ _ => none
  files := fun _ => none
  fileNumber := 0
  roundNr := 0

/-- The store as `init_map` leaves it before the map is loaded. -/
def initMap (cfg : GameConfig) (layout : MapLayout) : PagedStore cfg :=
  setStatus (popFreeSlot (emptyBlocks cfg layout)).2 0 .permanent
    (popFreeSlot (emptyBlocks cfg layout)).1

end TibiaGame.SectorSwapping
