import TibiaGame.SlotAccounting

/-!
# One table for what is in memory and what is in swap files

The view of a paged store is the store without swapping that it stands for: the
record of an entry is read from its slot, or from its swap file. Writing a record to
a file, giving the slot back and loading the record again leave the view as it is.
-/

namespace TibiaGame.SwapView

open GameTypes ObjectStore SectorSwapping SlotAccounting Function

variable {cfg : GameConfig} {store after : PagedStore cfg} {index number : Nat}
  {record : MapObject cfg}

def storedRecord (store : PagedStore cfg) (number index : Nat) : Option (MapObject cfg) :=
  (store.files number).bind fun file =>
    file.records.find? fun record => entryIndex cfg record.objectID == index

def Stored (store : PagedStore cfg) (number index : Nat) : Prop :=
  ∃ record, storedRecord store number index = some record

def viewCell (store : PagedStore cfg) (index : Nat) : Cell cfg :=
  match store.hashTableType index with
  | .free => .free
  | .permanent => .permanent
  | .loaded => .loaded (readSlot store (store.hashTableData index))
  | .swapped =>
      match storedRecord store (store.hashTableData index) index with
      | some record => .loaded record
      | none => .free

def viewSectors (store : PagedStore cfg) : Int → Int → Int → Option Sector := fun x y z =>
  (store.sectors x y z).map fun sector => ⟨sector.mapCon, sector.timeStamp, sector.mapFlags⟩

def view (store : PagedStore cfg) : World cfg where
  hashTable := viewCell store
  noneRecord := readSlot store (store.hashTableData 0)
  hashTableFree := store.hashTableFree
  nextObjectID := store.nextObjectID
  cron := store.cron
  strings := store.strings
  sectors := viewSectors store
  roundNr := store.roundNr

/-- Every entry that is swapped out has one record, in the file it names; a record
in a file belongs to such an entry, or to one that is being written or loaded. -/
structure Backed (store : PagedStore cfg) : Prop where
  accounting : Accounting store
  backed : ∀ index, store.hashTableType index = .swapped →
    Stored store (store.hashTableData index) index
  single : ∀ number file, store.files number = some file →
    (file.records.map fun record => entryIndex cfg record.objectID).Nodup
  states : ∀ number index record, storedRecord store number index = some record →
    (store.hashTableType index = .swapped ∧ store.hashTableData index = number) ∨
    (store.hashTableType index = .loaded ∧ readSlot store (store.hashTableData index) = record)

theorem stored_index (found : storedRecord store number index = some record) :
    entryIndex cfg record.objectID = index := by
  rcases Option.bind_eq_some_iff.mp found with ⟨file, _, here⟩
  have matched := List.find?_some here
  simpa using matched

theorem Backed.stored_of_member (backed : Backed store) {file : SwapFile cfg}
    (opened : store.files number = some file) (member : record ∈ file.records) :
    storedRecord store number (entryIndex cfg record.objectID) = some record := by
  have single := backed.single number file opened
  have found : ∀ records : List (MapObject cfg), record ∈ records →
      (records.map fun record => entryIndex cfg record.objectID).Nodup →
      records.find? (fun other => entryIndex cfg other.objectID ==
        entryIndex cfg record.objectID) = some record := by
    intro records
    induction records with
    | nil =>
      intro inner _
      cases inner
    | cons head rest ih =>
      intro inner nodup
      rw [List.map_cons, List.nodup_cons] at nodup
      cases inner with
      | head => simp
      | tail _ later =>
        have apart : entryIndex cfg head.objectID ≠ entryIndex cfg record.objectID := by
          intro same
          apply nodup.1
          rw [same]
          exact List.mem_map_of_mem later
        rw [List.find?_cons_of_neg (by simpa using apart)]
        exact ih later nodup.2
  rw [storedRecord, opened]
  exact found file.records member single

theorem stored_congr (same : after.files number = store.files number) (index : Nat) :
    storedRecord after number index = storedRecord store number index := by
  rw [storedRecord, storedRecord, same]

theorem stored_set_file {file : SwapFile cfg} (other : Nat) :
    storedRecord (setFile store number (some file)) other index =
      if other = number then
        file.records.find? fun record => entryIndex cfg record.objectID == index
      else storedRecord store other index := by
  unfold storedRecord setFile
  by_cases here : other = number
  · simp [here]
  · simp [here]

theorem set_file_files (store : PagedStore cfg) (file : Option (SwapFile cfg)) (other : Nat) :
    (setFile store number file).files other = if other = number then file else store.files other :=
  update_apply _ _ _ _

theorem append_files {file : SwapFile cfg} (opened : store.files number = some file)
    (record : MapObject cfg) :
    appendRecord store number record =
      setFile store number (some { file with records := file.records ++ [record] }) := by
  rw [appendRecord, opened]

theorem stored_append {file : SwapFile cfg} (opened : store.files number = some file)
    (fresh : ¬ Stored store number (entryIndex cfg record.objectID)) (other : Nat) :
    storedRecord (appendRecord store number record) other index =
      if other = number ∧ index = entryIndex cfg record.objectID then some record
      else storedRecord store other index := by
  rw [append_files opened record, stored_set_file]
  by_cases here : other = number
  · have before : storedRecord store number index =
        file.records.find? fun record => entryIndex cfg record.objectID == index := by
      rw [storedRecord, opened]
      rfl
    rw [if_pos here, here, List.find?_append, ← before]
    by_cases own : index = entryIndex cfg record.objectID
    · have absent : storedRecord store number index = none := by
        rcases found : storedRecord store number index with _ | old
        · rfl
        rw [own] at found
        exact (fresh ⟨old, found⟩).elim
      rw [absent, if_pos ⟨rfl, own⟩, own]
      simp
    rw [if_neg fun both => own both.2, List.find?_cons_of_neg (by simpa using Ne.symm own)]
    simp
  · rw [if_neg here, if_neg fun both => here both.1]

theorem view_cell_congr (types : after.hashTableType index = store.hashTableType index)
    (data : after.hashTableData index = store.hashTableData index)
    (read : HasSlot store index → readSlot after (store.hashTableData index) =
      readSlot store (store.hashTableData index))
    (stored : store.hashTableType index = .swapped →
      storedRecord after (store.hashTableData index) index =
        storedRecord store (store.hashTableData index) index) :
    viewCell after index = viewCell store index := by
  unfold viewCell
  rw [types, data]
  cases type : store.hashTableType index with
  | free => rfl
  | permanent => rfl
  | loaded => simp only [read (.inl type)]
  | swapped => simp only [stored type]

theorem view_eq (cells : ∀ index, viewCell after index = viewCell store index)
    (noneRecord : readSlot after (after.hashTableData 0) = readSlot store (store.hashTableData 0))
    (counter : after.hashTableFree = store.hashTableFree)
    (next : after.nextObjectID = store.nextObjectID) (cron : after.cron = store.cron)
    (strings : after.strings = store.strings) (sectors : viewSectors after = viewSectors store)
    (round : after.roundNr = store.roundNr) : view after = view store := by
  have table : viewCell after = viewCell store := funext cells
  simp only [view, table, noneRecord, counter, next, cron, strings, sectors, round]

theorem view_loaded (loaded : store.hashTableType index = .loaded) :
    viewCell store index = .loaded (readSlot store (store.hashTableData index)) := by
  rw [viewCell, loaded]

theorem view_swapped (swapped : store.hashTableType index = .swapped)
    (found : storedRecord store (store.hashTableData index) index = some record) :
    viewCell store index = .loaded record := by
  simp only [viewCell, swapped, found]

theorem view_sector_loaded (store : PagedStore cfg) (x y z : Int) (loaded : Bool) :
    viewSectors (setSectorLoaded store x y z loaded) = viewSectors store := by
  funext x' y' z'
  unfold viewSectors setSectorLoaded
  by_cases here : x' = x ∧ y' = y ∧ z' = z
  · simp only [if_pos here, Option.map_map]
    rw [here.1, here.2.1, here.2.2]
    rfl
  · simp only [if_neg here]

/-- One entry takes another state; the records in the slots of the others stay. -/
structure Reseats (store after : PagedStore cfg) (index : Nat) : Prop where
  files : after.files = store.files
  types : ∀ other, other ≠ index → after.hashTableType other = store.hashTableType other
  data : ∀ other, other ≠ index → after.hashTableData other = store.hashTableData other
  read : ∀ other, other ≠ index → HasSlot store other →
    readSlot after (store.hashTableData other) = readSlot store (store.hashTableData other)

theorem reseats_put {status : Status} (accounting : Accounting store)
    (loaded : store.hashTableType index = .loaded) (files : after.files = store.files)
    (slots : after.slots =
      update store.slots (store.hashTableData index) (.link store.firstFreeObject))
    (types : after.hashTableType = update store.hashTableType index status)
    (data : ∀ other, other ≠ index → after.hashTableData other = store.hashTableData other) :
    Reseats store after index := by
  constructor
  · exact files
  · intro other different
    rw [types, update_of_ne different]
  · exact data
  · intro other different has
    have apart : store.hashTableData other ≠ store.hashTableData index := fun same =>
      different (accounting.distinct other index has (.inl loaded) same)
    rw [readSlot, readSlot, slots, update_of_ne apart]

theorem reseats_take (accounting : Accounting store) (inner : store.firstFreeObject ≠ 0)
    (files : after.files = store.files)
    (slots : after.slots = update store.slots store.firstFreeObject (.record record))
    (types : after.hashTableType = update store.hashTableType index .loaded)
    (data : after.hashTableData = update store.hashTableData index store.firstFreeObject) :
    Reseats store after index ∧ viewCell after index = .loaded record := by
  constructor
  · constructor
    · exact files
    · intro other different
      rw [types, update_of_ne different]
    · intro other different
      rw [data, update_of_ne different]
    · intro other _ has
      have unused := (accounting.free_not_used inner).2.2
      have apart : store.hashTableData other ≠ store.firstFreeObject := fun same =>
        unused ⟨other, has, same⟩
      rw [readSlot, readSlot, slots, update_of_ne apart]
  · rw [viewCell, types, data, update_self, update_self, readSlot, slots,
      update_self]

section

variable (reseats : Reseats store after index)
include reseats

theorem Reseats.stored (number place : Nat) :
    storedRecord after number place = storedRecord store number place :=
  stored_congr (congrFun reseats.files number) place

theorem Reseats.backed (backed : Backed store) (accounting : Accounting after)
    (swapped : after.hashTableType index = .swapped →
      Stored store (after.hashTableData index) index)
    (states : ∀ number record, storedRecord store number index = some record →
      (after.hashTableType index = .swapped ∧ after.hashTableData index = number) ∨
      (after.hashTableType index = .loaded ∧
        readSlot after (after.hashTableData index) = record)) : Backed after := by
  constructor
  · exact accounting
  · intro other isSwapped
    simp only [Stored, reseats.stored]
    by_cases here : other = index
    · rw [here] at isSwapped ⊢
      exact swapped isSwapped
    rw [reseats.types other here] at isSwapped
    rw [reseats.data other here]
    exact backed.backed other isSwapped
  · intro other file opened
    rw [reseats.files] at opened
    exact backed.single other file opened
  · intro other place record found
    rw [reseats.stored] at found
    by_cases here : place = index
    · rw [here] at found ⊢
      exact states other record found
    rw [reseats.types place here, reseats.data place here]
    rcases backed.states other place record found with isSwapped | loaded
    · exact .inl isSwapped
    right
    constructor
    · exact loaded.1
    · rw [reseats.read place here (.inl loaded.1)]
      exact loaded.2

theorem Reseats.cells : viewCell after = update (viewCell store) index (viewCell after index) := by
  funext place
  by_cases here : place = index
  · rw [here, update_self]
  rw [update_of_ne here]
  apply view_cell_congr
  · exact reseats.types place here
  · exact reseats.data place here
  · exact reseats.read place here
  · intro _
    exact reseats.stored _ _

theorem Reseats.cell (same : viewCell after index = viewCell store index) (place : Nat) :
    viewCell after place = viewCell store place := by
  rw [reseats.cells, same, update_eq_self]

theorem Reseats.none_record (accounting : Accounting store) (notZero : index ≠ 0) :
    readSlot after (after.hashTableData 0) = readSlot store (store.hashTableData 0) := by
  rw [reseats.data 0 notZero.symm]
  exact reseats.read 0 notZero.symm accounting.none_slot

end

theorem pop_taken (inner : store.firstFreeObject ≠ 0) :
    popFreeSlot store = (store.firstFreeObject, writeSlot
      { store with firstFreeObject := linkOf store store.firstFreeObject } store.firstFreeObject
        (blankObject 0)) := by
  rw [popFreeSlot, if_neg inner]
  rfl

/-- The permanent entry has a slot and is neither free nor swapped out. -/
theorem vacant_entry {status : Status} (accounting : Accounting store)
    (isStatus : store.hashTableType index = status) (vacant : status = .free ∨ status = .swapped) :
    index ≠ 0 ∧ ¬ HasSlot store index := by
  have notPermanent : store.hashTableType index ≠ .permanent := by
    rw [isStatus]
    rcases vacant with rfl | rfl <;> decide
  constructor
  · intro zero
    exact notPermanent ((accounting.permanent index).mpr zero)
  rintro (loaded | permanent)
  · rw [isStatus] at loaded
    rcases vacant with rfl | rfl <;> cases loaded
  · exact notPermanent permanent

theorem Backed.append (backed : Backed store) {file : SwapFile cfg}
    (opened : store.files number = some file) (loaded : store.hashTableType index = .loaded)
    (fresh : ¬ Stored store number index) :
    Backed (appendRecord store number (readSlot store (store.hashTableData index))) ∧
      view (appendRecord store number (readSlot store (store.hashTableData index))) =
        view store := by
  have own := backed.accounting.ownIndex index loaded
  have stored : ∀ other place, storedRecord
      (appendRecord store number (readSlot store (store.hashTableData index))) other place =
        if other = number ∧ place = index then some (readSlot store (store.hashTableData index))
        else storedRecord store other place := by
    intro other place
    rw [stored_append opened (by rwa [own]), own]
  have grown := append_files opened (readSlot store (store.hashTableData index))
  constructor
  · constructor
    · apply Accounting.congr backed.accounting
      all_goals rw [grown]; rfl
    · intro other swapped
      have wasSwapped : store.hashTableType other = .swapped := by
        rw [grown] at swapped
        exact swapped
      rcases backed.backed other wasSwapped with ⟨record, found⟩
      have different : other ≠ index := by
        rintro rfl
        rw [loaded] at wasSwapped
        cases wasSwapped
      refine ⟨record, ?_⟩
      rw [stored, if_neg fun both => different both.2, grown]
      exact found
    · intro other otherFile otherOpened
      rw [grown, set_file_files] at otherOpened
      by_cases here : other = number
      · rw [if_pos here] at otherOpened
        rw [← Option.some.inj otherOpened, List.map_append, List.nodup_append]
        refine ⟨backed.single number file opened, List.nodup_singleton _, ?_⟩
        intro place inFile last isLast same
        rcases List.mem_map.mp inFile with ⟨old, member, rfl⟩
        rw [List.map_singleton, List.mem_singleton, own] at isLast
        rw [isLast] at same
        apply fresh
        rw [← same]
        exact ⟨old, backed.stored_of_member opened member⟩
      rw [if_neg here] at otherOpened
      exact backed.single other otherFile otherOpened
    · intro other place record found
      rw [stored] at found
      rw [grown]
      by_cases both : other = number ∧ place = index
      · rw [if_pos both] at found
        rw [both.2]
        exact .inr ⟨loaded, Option.some.inj found⟩
      rw [if_neg both] at found
      exact backed.states other place record found
  · apply view_eq
    · intro other
      apply view_cell_congr
      · rw [grown]
        rfl
      · rw [grown]
        rfl
      · intro _
        rw [grown]
        rfl
      · intro swapped
        rw [stored, if_neg]
        rintro ⟨_, rfl⟩
        rw [loaded] at swapped
        cases swapped
    all_goals rw [grown]; rfl

/-- `swap_object` gives the slot back and leaves the number of the file. -/
theorem Backed.swapOut (backed : Backed store) (loaded : store.hashTableType index = .loaded)
    (stored : Stored store number index) (only : ∀ other, Stored store other index → other = number) :
    Backed (setStatus (putFreeObjectSlot store (store.hashTableData index)) index .swapped number) ∧
      view (setStatus (putFreeObjectSlot store (store.hashTableData index)) index .swapped number) =
        view store := by
  rcases backed.accounting.inBlocks index (.inl loaded) with ⟨positive, _⟩
  have notNull : store.hashTableData index ≠ 0 := by omega
  have put : putFreeObjectSlot store (store.hashTableData index) = { store with
      slots := update store.slots (store.hashTableData index) (.link store.firstFreeObject)
      firstFreeObject := store.hashTableData index } := by
    rw [putFreeObjectSlot, if_neg notNull]
  rw [put]
  set after := setStatus { store with
    slots := update store.slots (store.hashTableData index) (.link store.firstFreeObject)
    firstFreeObject := store.hashTableData index } index .swapped number with afterIs
  have types : after.hashTableType = update store.hashTableType index .swapped := rfl
  have data : after.hashTableData = update store.hashTableData index number := rfl
  have otherData : ∀ other, other ≠ index →
      after.hashTableData other = store.hashTableData other := by
    intro other different
    rw [data, update_of_ne different]
  have reseats : Reseats store after index :=
    reseats_put backed.accounting loaded rfl rfl types otherData
  have nowSwapped : after.hashTableType index = .swapped := by
    rw [types, update_self]
  have named : after.hashTableData index = number := by
    rw [data, update_self]
  constructor
  · apply reseats.backed backed
    · apply backed.accounting.giveBack loaded (.inr rfl)
      · rfl
      · rfl
      · rfl
      · exact types
      · exact otherData
      · rw [types, free_entries_kept (by rw [loaded]; decide) (by decide)]
        exact backed.accounting.counter
    · intro _
      rw [named]
      exact stored
    · intro other record found
      exact .inl ⟨nowSwapped, named.trans (only other ⟨record, found⟩).symm⟩
  apply view_eq
  · apply reseats.cell
    rcases stored with ⟨record, found⟩
    rcases backed.states number index record found with ⟨swapped, _⟩ | ⟨_, same⟩
    · rw [loaded] at swapped
      cases swapped
    rw [view_loaded loaded, same]
    apply view_swapped nowSwapped
    rw [named, reseats.stored]
    exact found
  · exact reseats.none_record backed.accounting (backed.accounting.loaded_pos loaded)
  all_goals rfl

/-- `unswap_sector` takes a slot for the record of an entry that is swapped out. -/
theorem Backed.load (backed : Backed store) (inner : store.firstFreeObject ≠ 0)
    (swapped : store.hashTableType index = .swapped)
    (found : storedRecord store (store.hashTableData index) index = some record)
    (popped : after = setStatus (writeSlot (popFreeSlot store).2 (popFreeSlot store).1 record) index
      .loaded (popFreeSlot store).1) : Backed after ∧ view after = view store := by
  rcases vacant_entry backed.accounting swapped (.inr rfl) with ⟨notZero, vacant⟩
  rw [pop_taken inner] at popped
  have types : after.hashTableType = update store.hashTableType index .loaded := by
    rw [popped]
    rfl
  have data : after.hashTableData =
      update store.hashTableData index store.firstFreeObject := by
    rw [popped]
    rfl
  have slots : after.slots = update store.slots store.firstFreeObject (.record record) := by
    rw [popped]
    simp only [setStatus, writeSlot, update_idem]
  have files : after.files = store.files := by
    rw [popped]
    rfl
  rcases reseats_take backed.accounting inner files slots types data with ⟨reseats, cell⟩
  have nowLoaded : after.hashTableType index = .loaded := by
    rw [types, update_self]
  constructor
  · apply reseats.backed backed
    · apply backed.accounting.take inner (stored_index found) notZero vacant
      · rw [popped]
        rfl
      · exact slots
      · rw [popped]
        rfl
      · exact types
      · exact data
      · rw [types, free_entries_kept (by rw [swapped]; decide) (by decide), popped]
        exact backed.accounting.counter
    · intro isSwapped
      rw [nowLoaded] at isSwapped
      cases isSwapped
    · intro other kept keptFound
      rcases backed.states other index kept keptFound with ⟨_, from_file⟩ | ⟨loaded, _⟩
      · rw [← from_file, found] at keptFound
        rw [view_loaded nowLoaded, Cell.loaded.injEq] at cell
        exact .inr ⟨nowLoaded, cell.trans (Option.some.inj keptFound)⟩
      rw [swapped] at loaded
      cases loaded
  apply view_eq
  · apply reseats.cell
    rw [cell, view_swapped swapped found]
  · exact reseats.none_record backed.accounting notZero
  all_goals
    rw [popped]
    rfl

theorem free_entries_le (types : Nat → Status) : (freeEntries cfg types).card ≤ cfg.hashTableSize :=
  (Finset.card_filter_le _ _).trans (Finset.card_range _).le

theorem Backed.release (backed : Backed store) (loaded : store.hashTableType index = .loaded)
    (unfiled : ∀ number, ¬ Stored store number index)
    (released : after = { putFreeObjectSlot store (store.hashTableData index) with
      hashTableType := update store.hashTableType index .free
      hashTableFree := store.hashTableFree + 1 }) :
    Backed after ∧ view after = { view store with
      hashTable := update (viewCell store) index .free
      hashTableFree := store.hashTableFree + 1 } := by
  rcases backed.accounting.inBlocks index (.inl loaded) with ⟨positive, _⟩
  have notNull : store.hashTableData index ≠ 0 := by omega
  rw [putFreeObjectSlot, if_neg notNull] at released
  subst released
  set after : PagedStore cfg := { store with
    slots := update store.slots (store.hashTableData index) (.link store.firstFreeObject)
    firstFreeObject := store.hashTableData index
    hashTableType := update store.hashTableType index .free
    hashTableFree := store.hashTableFree + 1 }
  have types : after.hashTableType = update store.hashTableType index .free := rfl
  have reseats : Reseats store after index :=
    reseats_put backed.accounting loaded rfl rfl types fun _ _ => rfl
  have nowFree : after.hashTableType index = .free := by
    rw [types, update_self]
  constructor
  · apply reseats.backed backed
    · apply backed.accounting.giveBack loaded (.inl rfl)
      · rfl
      · rfl
      · rfl
      · exact types
      · intro _ _
        rfl
      · have wasTaken : store.hashTableType index ≠ .free := by
          rw [loaded]
          decide
        have given := free_entries_given (backed.accounting.loaded_lt loaded) wasTaken
        have bound : (freeEntries cfg after.hashTableType).card ≤ cfg.hashTableSize :=
          free_entries_le _
        have small := hash_table_size_le cfg
        have counter := backed.accounting.counter
        have sum : after.hashTableFree = store.hashTableFree + 1 := rfl
        rw [types] at bound ⊢
        rw [sum, UInt32.toNat_add, counter, given]
        exact Nat.mod_eq_of_lt (by simp only [UInt32.toNat_one]; omega)
    · intro swapped
      rw [nowFree] at swapped
      cases swapped
    · intro other record found
      exact absurd ⟨record, found⟩ (unfiled other)
  have cell : viewCell after index = .free := by
    rw [viewCell, nowFree]
  have noneRecord := reseats.none_record backed.accounting
    (backed.accounting.loaded_pos loaded)
  unfold view
  rw [reseats.cells, cell, noneRecord]
  rfl

/-- `create_object` takes a slot for the blank record of a free entry. -/
theorem Backed.create (backed : Backed store) (inner : store.firstFreeObject ≠ 0)
    (free : store.hashTableType index = .free) (own : entryIndex cfg record.objectID = index)
    (created : after = { setStatus (writeSlot (popFreeSlot store).2 (popFreeSlot store).1 record)
      index .loaded (popFreeSlot store).1 with hashTableFree := store.hashTableFree - 1 }) :
    Backed after ∧ view after = { view store with
      hashTable := update (viewCell store) index (.loaded record)
      hashTableFree := store.hashTableFree - 1 } := by
  rcases vacant_entry backed.accounting free (.inl rfl) with ⟨notZero, vacant⟩
  have small : index < cfg.hashTableSize := by
    rw [← own]
    exact entry_index_lt _
  rw [pop_taken inner] at created
  have types : after.hashTableType = update store.hashTableType index .loaded := by
    rw [created]
    rfl
  have data : after.hashTableData =
      update store.hashTableData index store.firstFreeObject := by
    rw [created]
    rfl
  have slots : after.slots = update store.slots store.firstFreeObject (.record record) := by
    rw [created]
    simp only [setStatus, writeSlot, update_idem]
  have files : after.files = store.files := by
    rw [created]
    rfl
  rcases reseats_take backed.accounting inner files slots types data with ⟨reseats, cell⟩
  have nowLoaded : after.hashTableType index = .loaded := by
    rw [types, update_self]
  constructor
  · apply reseats.backed backed
    · apply backed.accounting.take inner own notZero vacant
      · rw [created]
        rfl
      · exact slots
      · rw [created]
        rfl
      · exact types
      · exact data
      · have count : (freeEntries cfg (update store.hashTableType index .loaded)).card + 1 =
            (freeEntries cfg store.hashTableType).card := free_entries_taken small free (by decide)
        have counter := backed.accounting.counter
        have less : after.hashTableFree = store.hashTableFree - 1 := by
          rw [created]
        have positive : (1 : UInt32) ≤ store.hashTableFree := by
          rw [UInt32.le_iff_toNat_le, UInt32.toNat_one]
          omega
        rw [less, types, UInt32.toNat_sub_of_le _ _ positive, UInt32.toNat_one]
        omega
    · intro swapped
      rw [nowLoaded] at swapped
      cases swapped
    · intro other kept found
      rcases backed.states other index kept found with ⟨swapped, _⟩ | ⟨loaded, _⟩
      · rw [free] at swapped
        cases swapped
      rw [free] at loaded
      cases loaded
  · unfold view
    rw [reseats.cells, cell, reseats.none_record backed.accounting notZero, created]
    rfl

/-- A swap file comes, changes its header or goes, with no entry that needs it. -/
theorem Backed.refile (backed : Backed store) (number : Nat) (file : Option (SwapFile cfg))
    (kept : ∀ index record, store.hashTableType index = .swapped →
      storedRecord store number index = some record →
      storedRecord (setFile store number file) number index = some record)
    (older : ∀ newer ∈ file, newer.records = [] ∨
      ∃ old, store.files number = some old ∧ newer.records = old.records) :
    Backed (setFile store number file) ∧ view (setFile store number file) = view store := by
  have others : ∀ other place, other ≠ number →
      storedRecord (setFile store number file) other place = storedRecord store other place := by
    intro other place different
    apply stored_congr
    rw [set_file_files, if_neg different]
  have fewer : ∀ place record, storedRecord (setFile store number file) number place = some record →
      storedRecord store number place = some record := by
    intro place record found
    rcases file with _ | newer
    · simp [storedRecord, setFile] at found
    rw [stored_set_file, if_pos rfl] at found
    rcases older newer rfl with empty | ⟨old, opened, same⟩
    · rw [empty] at found
      cases found
    rw [storedRecord, opened, ← found, same]
    rfl
  have stillStored : ∀ place, store.hashTableType place = .swapped → ∃ record,
      storedRecord store (store.hashTableData place) place = some record ∧
      storedRecord (setFile store number file) (store.hashTableData place) place = some record := by
    intro place swapped
    rcases backed.backed place swapped with ⟨record, found⟩
    refine ⟨record, found, ?_⟩
    by_cases here : store.hashTableData place = number
    · rw [here] at found ⊢
      exact kept place record swapped found
    rw [others _ _ here]
    exact found
  constructor
  · constructor
    · exact Accounting.congr backed.accounting rfl rfl rfl rfl rfl rfl
    · intro place swapped
      rcases stillStored place swapped with ⟨record, _, found⟩
      exact ⟨record, found⟩
    · intro other otherFile opened
      by_cases here : other = number
      · rw [here, set_file_files, if_pos rfl] at opened
        rcases older otherFile opened with empty | ⟨old, wasOpened, same⟩
        · rw [empty]
          exact List.nodup_nil
        rw [same]
        exact backed.single number old wasOpened
      rw [set_file_files, if_neg here] at opened
      exact backed.single other otherFile opened
    · intro other place record found
      by_cases here : other = number
      · rw [here] at found ⊢
        exact backed.states number place record (fewer place record found)
      rw [others _ _ here] at found
      exact backed.states other place record found
  apply view_eq
  · intro place
    apply view_cell_congr
    · rfl
    · rfl
    · intro _
      rfl
    · intro swapped
      rcases stillStored place swapped with ⟨record, before, now⟩
      exact now.trans before.symm
  all_goals rfl

theorem Backed.sector (backed : Backed store) (x y z : Int) (loaded : Bool) :
    Backed (setSectorLoaded store x y z loaded) ∧
      view (setSectorLoaded store x y z loaded) = view store := by
  constructor
  · exact ⟨Accounting.congr backed.accounting rfl rfl rfl rfl rfl rfl, backed.backed,
      backed.single, backed.states⟩
  apply view_eq
  · intro place
    rfl
  · rfl
  · rfl
  · rfl
  · rfl
  · rfl
  · exact view_sector_loaded store x y z loaded
  · rfl

end TibiaGame.SwapView
