import TibiaGame.GameTypes

/-!
# The cron store

`CronEntryArray` is a binary heap on `RoundNr` over the positions 1 to
`CronEntries`; position 0 is scratch space for exchanging two entries. The same
entries are threaded into 2047 doubly linked hash chains, so every move of an
entry has to mend the links of its neighbours. The array is the growing `vector`
of `containers.h`, of which only the entries up to `CronEntries` have a meaning.
-/

namespace TibiaGame.CronModel

open GameTypes Function

@[ext]
structure CronEntry where
  obj : Object
  roundNr : UInt32
  previous : Int
  next : Int
  deriving DecidableEq, Repr

structure CronStore where
  cronEntryArray : Int → CronEntry
  cronHashTable : Fin 2047 → Int
  cronEntries : Int

def cronBucket (obj : Object) : Fin 2047 := ⟨obj.objectID.toNat % 2047, Nat.mod_lt _ (by decide)⟩

def emptyCronStore : CronStore where
  cronEntryArray := fun _ => ⟨NONE, 0, -1, -1⟩
  cronHashTable := fun _ => -1
  cronEntries := 0

def setPrevious (cron : CronStore) (position previous : Int) : CronStore :=
  { cron with
    cronEntryArray := Function.update cron.cronEntryArray position
      { cron.cronEntryArray position with previous := previous } }

def setNext (cron : CronStore) (position next : Int) : CronStore :=
  { cron with
    cronEntryArray := Function.update cron.cronEntryArray position
      { cron.cronEntryArray position with next := next } }

def setHead (cron : CronStore) (bucket : Fin 2047) (position : Int) : CronStore :=
  { cron with cronHashTable := Function.update cron.cronHashTable bucket position }

def setEntry (cron : CronStore) (position : Int) (entry : CronEntry) : CronStore :=
  { cron with cronEntryArray := Function.update cron.cronEntryArray position entry }

section Setters

variable (cron : CronStore) (position value q : Int) (bucket b : Fin 2047) (entry : CronEntry)

@[simp] theorem set_previous_obj :
    ((setPrevious cron position value).cronEntryArray q).obj = (cron.cronEntryArray q).obj := by
  simp only [setPrevious, update_apply]
  split_ifs with same <;> simp [same]

@[simp] theorem set_previous_round :
    ((setPrevious cron position value).cronEntryArray q).roundNr =
      (cron.cronEntryArray q).roundNr := by
  simp only [setPrevious, update_apply]
  split_ifs with same <;> simp [same]

@[simp] theorem set_previous_previous :
    ((setPrevious cron position value).cronEntryArray q).previous =
      if q = position then value else (cron.cronEntryArray q).previous := by
  simp only [setPrevious, update_apply]
  split_ifs <;> rfl

@[simp] theorem set_previous_next :
    ((setPrevious cron position value).cronEntryArray q).next = (cron.cronEntryArray q).next := by
  simp only [setPrevious, update_apply]
  split_ifs with same <;> simp [same]

@[simp] theorem set_next_obj :
    ((setNext cron position value).cronEntryArray q).obj = (cron.cronEntryArray q).obj := by
  simp only [setNext, update_apply]
  split_ifs with same <;> simp [same]

@[simp] theorem set_next_round :
    ((setNext cron position value).cronEntryArray q).roundNr =
      (cron.cronEntryArray q).roundNr := by
  simp only [setNext, update_apply]
  split_ifs with same <;> simp [same]

@[simp] theorem set_next_previous :
    ((setNext cron position value).cronEntryArray q).previous =
      (cron.cronEntryArray q).previous := by
  simp only [setNext, update_apply]
  split_ifs with same <;> simp [same]

@[simp] theorem set_next_next :
    ((setNext cron position value).cronEntryArray q).next =
      if q = position then value else (cron.cronEntryArray q).next := by
  simp only [setNext, update_apply]
  split_ifs <;> rfl

@[simp] theorem set_previous_heads :
    (setPrevious cron position value).cronHashTable = cron.cronHashTable := rfl

@[simp] theorem set_next_heads :
    (setNext cron position value).cronHashTable = cron.cronHashTable := rfl

@[simp] theorem set_entry_heads :
    (setEntry cron position entry).cronHashTable = cron.cronHashTable := rfl

@[simp] theorem set_previous_size :
    (setPrevious cron position value).cronEntries = cron.cronEntries := rfl

@[simp] theorem set_next_size : (setNext cron position value).cronEntries = cron.cronEntries := rfl

@[simp] theorem set_head_size : (setHead cron bucket value).cronEntries = cron.cronEntries := rfl

@[simp] theorem set_entry_size : (setEntry cron position entry).cronEntries = cron.cronEntries := rfl

@[simp] theorem set_head_entries :
    (setHead cron bucket value).cronEntryArray = cron.cronEntryArray := rfl

@[simp] theorem set_head_heads :
    (setHead cron bucket value).cronHashTable b =
      if b = bucket then value else cron.cronHashTable b := by
  simp [setHead, update_apply]

@[simp] theorem set_entry_entries :
    (setEntry cron position entry).cronEntryArray q =
      if q = position then entry else cron.cronEntryArray q := by
  simp [setEntry, update_apply]

end Setters

def cronMove (cron : CronStore) (destination source : Int) : CronStore :=
  let copied := setEntry cron destination (cron.cronEntryArray source)
  let entry := copied.cronEntryArray destination
  let mended := if entry.next ≠ -1 then setPrevious copied entry.next destination else copied
  let entry := mended.cronEntryArray destination
  if entry.previous ≠ -1 then setNext mended entry.previous destination
  else setHead mended (cronBucket entry.obj) destination

def cronExchange (cron : CronStore) (first second : Int) : CronStore :=
  cronMove (cronMove (cronMove cron 0 first) first second) second 0

/-- The first loop of `CronHeapify`, with the position it stops at. -/
def siftUp (cron : CronStore) (position : Int) : CronStore × Int :=
  if _inner : 1 < position then
    if (cron.cronEntryArray (position / 2)).roundNr ≤ (cron.cronEntryArray position).roundNr then
      (cron, position)
    else siftUp (cronExchange cron position (position / 2)) (position / 2)
  else (cron, position)
termination_by position.toNat
decreasing_by omega

/-- The child of `position` that the second loop of `CronHeapify` compares with. -/
def smallestChild (cron : CronStore) (last position : Int) : Int :=
  if position * 2 + 1 ≤ last ∧ (cron.cronEntryArray (position * 2 + 1)).roundNr <
      (cron.cronEntryArray (position * 2)).roundNr then
    position * 2 + 1
  else position * 2

theorem smallest_child_gt (cron : CronStore) (last position : Int) (inner : 1 ≤ position) :
    position < smallestChild cron last position := by
  unfold smallestChild
  split_ifs <;> omega

theorem smallest_child_le (cron : CronStore) (last position : Int)
    (some_child : position * 2 ≤ last) : smallestChild cron last position ≤ last := by
  unfold smallestChild
  split_ifs with right
  · exact right.1
  · exact some_child

/-- The second loop of `CronHeapify`; the heap has no position below 1. -/
def siftDown (cron : CronStore) (last position : Int) : CronStore :=
  if _inner : 1 ≤ position ∧ position * 2 ≤ last then
    if (cron.cronEntryArray position).roundNr ≤
        (cron.cronEntryArray (smallestChild cron last position)).roundNr then cron
    else
      siftDown (cronExchange cron position (smallestChild cron last position)) last
        (smallestChild cron last position)
  else cron
termination_by (last - position).toNat
decreasing_by
  have below := smallest_child_gt cron last position _inner.1
  have bounded := smallest_child_le cron last position _inner.2
  omega

def cronHeapify (cron : CronStore) (position : Int) : CronStore :=
  let (cron, position) := siftUp cron position
  siftDown cron cron.cronEntries position

/-- `CronSet` for an object that exists, due at `roundNr`. -/
def cronSet (cron : CronStore) (obj : Object) (roundNr : UInt32) : CronStore :=
  let position := cron.cronEntries + 1
  let next := cron.cronHashTable (cronBucket obj)
  let cron := setEntry { cron with cronEntries := position } position ⟨obj, roundNr, -1, next⟩
  let cron := setHead cron (cronBucket obj) position
  let cron := if next ≠ -1 then setPrevious cron next position else cron
  cronHeapify cron position

def cronUnlink (cron : CronStore) (position : Int) : CronStore :=
  let entry := cron.cronEntryArray position
  let cron := if entry.next ≠ -1 then setPrevious cron entry.next entry.previous else cron
  let entry := cron.cronEntryArray position
  if entry.previous ≠ -1 then setNext cron entry.previous entry.next
  else setHead cron (cronBucket entry.obj) entry.next

def cronDelete (cron : CronStore) (position : Int) : CronStore :=
  if position < 1 ∨ cron.cronEntries < position then cron
  else
    let last := cron.cronEntries
    let cron := { cronUnlink cron position with cronEntries := last - 1 }
    if position ≠ last then cronHeapify (cronMove cron position last) position
    else cron

/-- The search loop that `cron_change` and `cron_info` share. A chain without
repetition has at most `CronEntries` members; a longer walk does not end. -/
def cronSearch (cron : CronStore) (obj : Object) : Nat → Int → Except Halt (Option Int)
  | 0, _ => .error .hang
  | fuel + 1, position =>
      if position = -1 then .ok none
      else if (cron.cronEntryArray position).obj = obj then .ok (some position)
      else cronSearch cron obj fuel (cron.cronEntryArray position).next

def cronFind (cron : CronStore) (obj : Object) : Except Halt (Option Int) :=
  cronSearch cron obj (cron.cronEntries.toNat + 1) (cron.cronHashTable (cronBucket obj))

def cronReschedule (cron : CronStore) (position : Int) (roundNr : UInt32) : CronStore :=
  cronHeapify (setEntry cron position { cron.cronEntryArray position with roundNr := roundNr })
    position

def cronRemaining (entry : CronEntry) (roundNr : UInt32) : UInt32 :=
  if roundNr < entry.roundNr then entry.roundNr - roundNr else 1

end TibiaGame.CronModel
