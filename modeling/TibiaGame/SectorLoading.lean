import TibiaGame.SectorPaging

/-!
# `unswap_sector` loads a file

The records of the file are loaded one after the other. A sector that must be swapped
out for a slot is another one, so what has been loaded stays loaded.
-/

namespace TibiaGame.SectorLoading

open GameTypes ObjectStore SectorSwapping Function
open SlotAccounting SwapView SectorPaging Library.Outcome

variable {cfg : GameConfig} {store middle after : PagedStore cfg} {number index : Nat}
  {kids : Object → List Object} {obj : Object} {record : MapObject cfg} {busy : Option Nat}
  {file : SwapFile cfg} {fuel : Nat}

/-- What paging may do: it ends the server because no sector is left to swap out, or the
store after it stands for the same world. -/
def Pages (store : PagedStore cfg) (result : Except Halt (PagedStore cfg))
    (holds : PagedStore cfg → Prop) : Prop :=
  result = .error .noSector ∨ ∃ after, result = .ok after ∧ view after = view store ∧ holds after

theorem Pages.imp {result : Except Halt (PagedStore cfg)} {first second : PagedStore cfg → Prop}
    (pages : Pages store result first) (weaker : ∀ after, first after → second after) :
    Pages store result second := by
  rcases pages with failed | ⟨after, returned, same, holds⟩
  · exact .inl failed
  · exact .inr ⟨after, returned, same, weaker after holds⟩

theorem Pages.then {result : Except Halt (PagedStore cfg)} {first second : PagedStore cfg → Prop}
    {next : PagedStore cfg → Except Halt (PagedStore cfg)} (pages : Pages store result first)
    (continues : ∀ middle, view middle = view store → first middle →
      Pages middle (next middle) second) : Pages store (result >>= next) second := by
  rcases pages with failed | ⟨middle, returned, same, holds⟩
  · left
    rw [failed]
    rfl
  rw [returned, ok_bind]
  rcases continues middle same holds with failed | ⟨after, ended, afterSame, afterHolds⟩
  · exact .inl failed
  · exact .inr ⟨after, ended, afterSame.trans same, afterHolds⟩

theorem free_slot_spec (sound : Sound store kids busy) (enough : 2 ^ 34 ≤ fuel) :
    Pages store (if store.firstFreeObject = 0 then swapSector fuel store else .ok store)
      fun middle => Sound middle kids busy ∧ middle.firstFreeObject ≠ 0 ∧ Kept store middle := by
  by_cases empty : store.firstFreeObject = 0
  · rw [if_pos empty]
    exact swap_sector_spec sound enough
  rw [if_neg empty]
  exact .inr ⟨store, rfl, rfl, sound, empty, Kept.refl store⟩

/-- Whether an entry of the file being loaded is already in memory. -/
def Loaded (store : PagedStore cfg) (record : MapObject cfg) : Prop :=
  store.hashTableType (entryIndex cfg record.objectID) = .loaded

theorem Sound.load (sound : Sound store kids (some number)) (inner : store.firstFreeObject ≠ 0)
    (opened : store.files number = some file) (member : record ∈ file.records)
    (swapped : store.hashTableType (entryIndex cfg record.objectID) = .swapped)
    (popped : after = setStatus (writeSlot (popFreeSlot store).2 (popFreeSlot store).1 record)
      (entryIndex cfg record.objectID) .loaded (popFreeSlot store).1) :
    view after = view store ∧ Sound after kids (some number) ∧ after.files = store.files ∧
      Loaded after record ∧ ∀ other, Loaded store other → Loaded after other := by
  have stored := sound.backed.stored_of_member opened member
  have atNumber : store.hashTableData (entryIndex cfg record.objectID) = number := by
    rcases sound.backed.states number _ record stored with ⟨_, data⟩ | ⟨loaded, _⟩
    · exact data
    rw [swapped] at loaded
    cases loaded
  have found : storedRecord store (store.hashTableData (entryIndex cfg record.objectID))
      (entryIndex cfg record.objectID) = some record := by
    rw [atNumber]
    exact stored
  rcases sound.backed.load inner swapped found popped with ⟨backed, same⟩
  rw [popFreeSlot, if_neg inner] at popped
  have types : after.hashTableType = update store.hashTableType
      (entryIndex cfg record.objectID) .loaded := by
    rw [popped]
    rfl
  have files : after.files = store.files := by
    rw [popped]
    rfl
  have sameStored : ∀ other place,
      storedRecord after other place = storedRecord store other place :=
    fun other place => stored_congr (congrFun files other) place
  refine ⟨same, ⟨backed, ?_, ?_, ?_, ?_⟩, files, ?_, ?_⟩
  · rw [same]
    exact sound.described
  · apply sound.mapped.carried _ files
    · rw [popped]
      rfl
    · rw [same]
      exact sound.mapped.field
    · intros
      rfl
    · rw [popped]
      rfl
  · intro other notBusy place isStored
    rw [Stored, sameStored] at isStored
    have wasSwapped := sound.settled other notBusy place isStored
    have apart : place ≠ entryIndex cfg record.objectID := by
      intro here
      rcases isStored with ⟨otherRecord, fromFile⟩
      rw [here] at fromFile wasSwapped
      rcases sound.backed.states other _ otherRecord fromFile with ⟨_, data⟩ | ⟨loaded, _⟩
      · rw [atNumber] at data
        exact notBusy (congrArg some data)
      rw [wasSwapped] at loaded
      cases loaded
    rw [types, update_of_ne apart]
    exact wasSwapped
  · rw [same]
    exact sound.noneRecord
  · rw [Loaded, types, update_self]
  · intro other loaded
    rw [Loaded, types]
    by_cases here : entryIndex cfg other.objectID = entryIndex cfg record.objectID
    · rw [here, update_self]
    rw [update_of_ne here]
    exact loaded

/-- The loop of `unswap_sector`, by induction on the records that are left. -/
theorem load_records_spec {records : List (MapObject cfg)}
    (sound : Sound store kids (some number)) (opened : store.files number = some file)
    (fromFile : ∀ record ∈ records, record ∈ file.records)
    (enough : 2 ^ 35 + records.length ≤ fuel) :
    Pages store (loadRecords fuel store records) fun after => Sound after kids (some number) ∧
      after.files number = some file ∧ (∀ record ∈ records, Loaded after record) ∧
      ∀ record ∈ file.records, Loaded store record → Loaded after record := by
  induction records generalizing store fuel with
  | nil =>
    rcases Nat.exists_eq_add_of_le' (show 1 ≤ fuel by omega) with ⟨less, rfl⟩
    rw [loadRecords]
    exact .inr ⟨store, rfl, rfl, sound, opened,
      fun _ member => (List.not_mem_nil member).elim, fun _ _ loaded => loaded⟩
  | cons entry rest ih =>
    rcases Nat.exists_eq_add_of_le' (show 1 ≤ fuel by omega) with ⟨less, rfl⟩
    rw [List.length_cons] at enough
    have member := fromFile entry List.mem_cons_self
    have restFromFile : ∀ record ∈ rest, record ∈ file.records :=
      fun record later => fromFile record (List.mem_cons_of_mem entry later)
    have stored := sound.backed.stored_of_member opened member
    rw [loadRecords]
    by_cases swapped : store.hashTableType (entryIndex cfg entry.objectID) = .swapped
    · rw [if_pos swapped]
      rcases Nat.exists_eq_add_of_le' (show 1 ≤ less by omega) with ⟨fewer, rfl⟩
      rcases free_slot_spec sound (show 2 ^ 34 ≤ fewer by omega) with
        failed | ⟨middle, returned, same, middleSound, inner, kept⟩
      · left
        rw [getFreeObjectSlot, failed]
        rfl
      · have slot : (popFreeSlot middle).1 ≠ 0 := by
          rw [popFreeSlot, if_neg inner]
          exact inner
        have stillSwapped : middle.hashTableType (entryIndex cfg entry.objectID) = .swapped := by
          rw [(kept.entries number _ ⟨entry, stored⟩).1]
          exact swapped
        rw [getFreeObjectSlot, returned, ok_bind, ok_bind]
        simp only [if_neg slot]
        rcases Sound.load middleSound inner (kept.files number file opened) member stillSwapped rfl
          with ⟨loadedSame, loadedSound, files, nowLoaded, stayLoaded⟩
        have later := ih loadedSound (by rw [files]; exact kept.files number file opened)
          restFromFile (show 2 ^ 35 + rest.length ≤ fewer + 1 by omega)
        rcases later with failed | ⟨after, ended, afterSame, afterSound, afterOpened, all, stay⟩
        · exact .inl failed
        refine .inr ⟨after, ended, afterSame.trans (loadedSame.trans same), afterSound,
          afterOpened, ?_, ?_⟩
        · intro record isMember
          cases isMember with
          | head => exact stay entry member nowLoaded
          | tail _ later => exact all record later
        intro record inFile loaded
        apply stay record inFile
        apply stayLoaded
        have recordStored := sound.backed.stored_of_member opened inFile
        rw [Loaded, (kept.entries number _ ⟨record, recordStored⟩).1]
        exact loaded
    rw [if_neg swapped]
    have loaded : Loaded store entry := by
      rcases sound.backed.states number _ entry stored with ⟨isSwapped, _⟩ | ⟨isLoaded, _⟩
      · exact (swapped isSwapped).elim
      · exact isLoaded
    apply (ih sound opened restFromFile (by omega)).imp
    intro after holds
    rcases holds with ⟨afterSound, afterOpened, all, stay⟩
    refine ⟨afterSound, afterOpened, ?_, stay⟩
    intro record isMember
    cases isMember with
    | head => exact stay entry member loaded
    | tail _ later => exact all record later

theorem file_length (backed : Backed store) (opened : store.files number = some file) :
    file.records.length ≤ 2 ^ 31 := by
  have single := backed.single number file opened
  have few : (file.records.map fun record => entryIndex cfg record.objectID).toFinset ⊆
      Finset.range cfg.hashTableSize := by
    intro index member
    rw [List.mem_toFinset] at member
    rcases List.mem_map.mp member with ⟨record, _, rfl⟩
    exact Finset.mem_range.mpr (entry_index_lt _)
  have bound := Finset.card_le_card few
  rw [List.toFinset_card_of_nodup single, List.length_map, Finset.card_range] at bound
  exact bound.trans (hash_table_size_le cfg)

/-- The last statements of `unswap_sector`, when every record has been loaded. -/
theorem unswap_sector_end (sound : Sound store kids (some number))
    (opened : store.files number = some file) (all : ∀ record ∈ file.records, Loaded store record)
    (ended : after = setFile
      (setSectorLoaded store file.sectorX file.sectorY file.sectorZ true) number none) :
    view after = view store ∧ Sound after kids none ∧
      ∀ index, Stored store number index → after.hashTableType index = .loaded := by
  have loaded : ∀ index record, storedRecord store number index = some record →
      store.hashTableType index = .loaded := by
    intro index record found
    have own := stored_index found
    rcases Option.bind_eq_some_iff.mp found with ⟨same, isFile, inFile⟩
    rw [opened] at isFile
    cases isFile
    have here := all record (List.mem_of_find?_eq_some inFile)
    rw [Loaded, own] at here
    exact here
  have relabeled := sound.backed.sector file.sectorX file.sectorY file.sectorZ true
  have refiled := relabeled.1.refile number none
    (by
      intro index record swapped found
      have here : store.hashTableType index = .loaded := loaded index record found
      rw [show store.hashTableType index = .swapped from swapped] at here
      cases here)
    nofun
  rw [← ended] at refiled
  have same : view after = view store := refiled.2.trans relabeled.2
  have files : ∀ other, after.files other = if other = number then none else store.files other := by
    intro other
    rw [ended, set_file_files]
    rfl
  have types : after.hashTableType = store.hashTableType := by
    rw [ended]
    rfl
  have oldFile : ∀ other otherFile, after.files other = some otherFile →
      other ≠ number ∧ store.files other = some otherFile := by
    intro other otherFile isFile
    rw [files] at isFile
    by_cases here : other = number
    · rw [if_pos here] at isFile
      cases isFile
    rw [if_neg here] at isFile
    exact ⟨here, isFile⟩
  have sameStored : ∀ other, other ≠ number → ∀ index,
      storedRecord after other index = storedRecord store other index := by
    intro other different index
    apply stored_congr
    rw [files, if_neg different]
  refine ⟨same, ⟨refiled.1, ?_, ?_, ?_, ?_⟩, ?_⟩
  · rw [same]
    exact sound.described
  · apply sound.mapped.relabel same
    · intro x y z sector found
      rw [ended] at found
      exact relabeled_sector found
    · intro other otherFile isFile
      rcases oldFile other otherFile isFile with ⟨different, wasFile⟩
      rcases sound.mapped.filed other otherFile wasFile with
        ⟨closed, sector, found, unloaded, exact_entries⟩
      have apart : ¬ (otherFile.sectorX = file.sectorX ∧ otherFile.sectorY = file.sectorY ∧
          otherFile.sectorZ = file.sectorZ) := by
        intro equal
        exact different (sound.mapped.oneFile other number otherFile file wasFile opened equal.1
          equal.2.1 equal.2.2)
      refine ⟨closed, sector, ?_, unloaded, ?_⟩
      · rw [ended, setFile, setSectorLoaded]
        simp only [if_neg apart]
        exact found
      · intro index
        rw [← exact_entries, Stored, Stored, sameStored other different]
    · intro left right leftFile rightFile isLeft isRight
      exact sound.mapped.oneFile left right leftFile rightFile (oldFile left leftFile isLeft).2
        (oldFile right rightFile isRight).2
    · rw [ended]
      exact sound.mapped.fileNumber
  · intro other _ index stored
    have different : other ≠ number := by
      intro here
      rcases stored with ⟨record, found⟩
      rw [storedRecord, files, if_pos here] at found
      cases found
    rw [Stored, sameStored other different] at stored
    rw [types]
    apply sound.settled other _ index stored
    intro isBusy
    exact different (Option.some.inj isBusy).symm
  · rw [same]
    exact sound.noneRecord
  · intro index stored
    rcases stored with ⟨record, found⟩
    rw [types]
    exact loaded index record found

theorem unswap_sector_spec (sound : Sound store kids none) (opened : store.files number = some file)
    (enough : 2 ^ 36 ≤ fuel) :
    Pages store (unswapSector fuel store number) fun after => Sound after kids none ∧
      ∀ index, Stored store number index → after.hashTableType index = .loaded := by
  rcases Nat.exists_eq_add_of_le' (show 1 ≤ fuel by omega) with ⟨less, rfl⟩
  rcases sound.mapped.filed number file opened with ⟨closed, sector, found, unloaded, _⟩
  have few := file_length sound.backed opened
  have busy : Sound store kids (some number) :=
    ⟨sound.backed, sound.described, sound.mapped, fun other _ => sound.settled other nofun,
      sound.noneRecord⟩
  have unfolded : unswapSector (less + 1) store number =
      loadRecords less store file.records >>= fun loaded => .ok (setFile
        (setSectorLoaded loaded file.sectorX file.sectorY file.sectorZ true) number none) := by
    simp only [unswapSector, opened, closed, found, unloaded, Bool.not_true, Bool.false_eq_true,
      if_false]
  rw [unfolded]
  apply Pages.then (load_records_spec busy opened (fun _ member => member)
    (show 2 ^ 35 + file.records.length ≤ less by omega))
  intro middle same holds
  rcases holds with ⟨middleSound, middleOpened, all, _⟩
  rcases unswap_sector_end middleSound middleOpened all rfl with ⟨afterSame, afterSound, awake⟩
  refine .inr ⟨_, rfl, afterSame, afterSound, ?_⟩
  intro index stored
  apply awake
  rcases stored with ⟨record, fromFile⟩
  refine ⟨record, ?_⟩
  rw [stored_congr (middleOpened.trans opened.symm)]
  exact fromFile

theorem ensure_loaded_spec (sound : Sound store kids none) (obj : Object) (enough : 2 ^ 37 ≤ fuel) :
    Pages store (ensureLoaded fuel store obj) fun after => Sound after kids none ∧
      after.hashTableType (entryIndex cfg obj.objectID) ≠ .swapped := by
  rcases Nat.exists_eq_add_of_le' (show 1 ≤ fuel by omega) with ⟨less, rfl⟩
  rw [ensureLoaded]
  by_cases swapped : store.hashTableType (entryIndex cfg obj.objectID) = .swapped
  · rw [if_pos swapped]
    have stored := sound.backed.backed _ swapped
    have isFile : ∃ file, store.files (store.hashTableData (entryIndex cfg obj.objectID)) =
        some file := by
      rcases stored with ⟨record, fromFile⟩
      rcases Option.bind_eq_some_iff.mp fromFile with ⟨file, opened, _⟩
      exact ⟨file, opened⟩
    rcases isFile with ⟨file, opened⟩
    apply (unswap_sector_spec sound opened (show 2 ^ 36 ≤ less by omega)).imp
    intro after holds
    refine ⟨holds.1, ?_⟩
    rw [holds.2 _ stored]
    decide
  rw [if_neg swapped]
  exact .inr ⟨store, rfl, rfl, sound, swapped⟩

end TibiaGame.SectorLoading
