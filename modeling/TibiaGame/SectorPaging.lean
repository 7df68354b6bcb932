import TibiaGame.SwapOut
import TibiaGame.ForestRuns

/-!
# `swap_sector` and `unswap_sector` keep the view

Between two calls a closed swap file has exactly the objects below the fields of one
sector that is swapped out. Loading a file takes slots, for which other sectors may be
swapped out; the file that is being loaded stays as it is until its last record.
-/

namespace TibiaGame.SectorPaging

open GameTypes ObjectStore ObjectOperations ContentForest ForestDeletion ForestRuns List
open SectorSwapping SlotAccounting SwapView SwapOut Library.OrderedForest
open Library.Outcome

variable {cfg : GameConfig} {store middle after : PagedStore cfg} {number index : Nat}
  {kids : Object → List Object} {obj node : Object} {record : MapObject cfg}
  {busy : Option Nat} {sector : PagedSector} {x y z : Int} {file : SwapFile cfg}

def fieldsOf (sector : PagedSector) : List Object :=
  sectorFields.map fun place => sector.mapCon place.1 place.2

def sectorEntries (cfg : GameConfig) (kids : Object → List Object) (sector : PagedSector) :
    Set Nat :=
  entries cfg (insideAll kids (fieldsOf sector))

structure Mapped (store : PagedStore cfg) (kids : Object → List Object) : Prop where
  /-- A field exists and lies in no container. -/
  field : ∀ x y z sector, store.sectors x y z = some sector → ∀ fieldX fieldY,
    containerOf (liveRecord (view store)) (sector.mapCon fieldX fieldY) = some NONE
  distinct : ∀ x y z sector x' y' z' sector', store.sectors x y z = some sector →
    store.sectors x' y' z' = some sector' → ∀ place place' : Fin 32 × Fin 32,
    sector.mapCon place.1 place.2 = sector'.mapCon place'.1 place'.2 →
    (x, y, z, place) = (x', y', z', place')
  filed : ∀ number file, store.files number = some file → file.closed = true ∧
    ∃ sector, store.sectors file.sectorX file.sectorY file.sectorZ = some sector ∧
      sector.loaded = false ∧
      ∀ index, Stored store number index ↔ index ∈ sectorEntries cfg kids sector
  oneFile : ∀ number other file otherFile, store.files number = some file →
    store.files other = some otherFile → file.sectorX = otherFile.sectorX →
    file.sectorY = otherFile.sectorY → file.sectorZ = otherFile.sectorZ → number = other
  fileNumber : store.fileNumber ≤ 99999999

structure Unlinked (record : MapObject cfg) : Prop where
  next : record.nextObject = NONE
  container : record.container = NONE
  content : record.content = NONE

/-- A store whose view is well formed and whose files are in order; the file `busy` is
being loaded, all others belong to entries that are swapped out. -/
structure Sound (store : PagedStore cfg) (kids : Object → List Object) (busy : Option Nat) :
    Prop where
  backed : Backed store
  described : Described (view store) kids
  mapped : Mapped store kids
  settled : ∀ number, busy ≠ some number → ∀ index, Stored store number index →
    store.hashTableType index = .swapped
  noneRecord : Unlinked (view store).noneRecord

theorem sector_fields_nodup : sectorFields.Nodup := by
  apply nodup_flatMap.mpr
  constructor
  · intro fieldX _
    apply (nodup_finRange 32).map
    intro left right same
    exact (Prod.mk.inj same).2
  apply List.Pairwise.imp _ (nodup_finRange 32)
  intro left right different place leftMember rightMember
  rcases mem_map.mp leftMember with ⟨_, _, rfl⟩
  rcases mem_map.mp rightMember with ⟨_, _, same⟩
  exact different (Prod.mk.inj same).1.symm

section

variable (mapped : Mapped store kids) (forest : Forest (liveRecord (view store)) kids)
    (found : store.sectors x y z = some sector)
include mapped forest found

theorem Mapped.root (place : Fin 32 × Fin 32) (con : Object) :
    sector.mapCon place.1 place.2 ∉ kids con :=
  forest.orphan (mapped.field x y z sector found place.1 place.2) con

theorem Mapped.apart : Apart kids (fieldsOf sector) := by
  apply pairwise_map.mpr
  apply List.Pairwise.imp _ sector_fields_nodup
  intro left right different node under
  apply roots_disjoint forest.single (mapped.root forest found left) (mapped.root forest found right)
    _ under
  intro same
  apply different
  have places := mapped.distinct x y z sector x y z sector found found left right same
  simpa using places

end

theorem mem_fields (place : Fin 32 × Fin 32) : sector.mapCon place.1 place.2 ∈ fieldsOf sector := by
  apply mem_map.mpr
  refine ⟨place, ?_, rfl⟩
  apply mem_flatMap.mpr
  exact ⟨place.1, mem_finRange _, mem_map.mpr ⟨place.2, mem_finRange _, rfl⟩⟩

section

variable (mapped : Mapped store kids) (forest : Forest (liveRecord (view store)) kids)
    (found : store.sectors x y z = some sector)
include mapped forest found

theorem Mapped.inside_live (inner : node ∈ insideAll kids (fieldsOf sector)) :
    ∃ record, liveRecord (view store) node = some record := by
  rcases inner with ⟨field, member, under⟩
  rcases mem_map.mp member with ⟨place, _, rfl⟩
  cases under with
  | refl =>
    rcases Option.map_eq_some_iff.mp (mapped.field x y z sector found place.1 place.2) with
      ⟨record, live, _⟩
    exact ⟨record, live⟩
  | tail _ edge =>
    rcases forest.kid_live edge with ⟨record, live, _⟩
    exact ⟨record, live⟩

theorem Mapped.one_sector {other : PagedSector} {x' y' z' : Int}
    (otherFound : store.sectors x' y' z' = some other)
    (inside : index ∈ sectorEntries cfg kids sector)
    (otherInside : index ∈ sectorEntries cfg kids other) : (x, y, z) = (x', y', z') := by
  rcases inside with ⟨node, inner, rfl⟩
  rcases otherInside with ⟨otherNode, otherInner, same⟩
  rcases mapped.inside_live forest found inner with ⟨_, live⟩
  rcases mapped.inside_live forest otherFound otherInner with ⟨_, otherLive⟩
  rw [live_index_injective otherLive live same] at otherInner
  rcases inner with ⟨field, member, under⟩
  rcases otherInner with ⟨otherField, otherMember, otherUnder⟩
  rcases mem_map.mp member with ⟨place, _, rfl⟩
  rcases mem_map.mp otherMember with ⟨otherPlace, _, rfl⟩
  have sameField : sector.mapCon place.1 place.2 = other.mapCon otherPlace.1 otherPlace.2 := by
    by_contra different
    exact roots_disjoint forest.single (mapped.root forest found place)
      (mapped.root forest otherFound otherPlace) different under otherUnder
  have places := mapped.distinct x y z sector x' y' z' other found otherFound place otherPlace
    sameField
  simp only [Prod.mk.injEq] at places
  rw [places.1, places.2.1, places.2.2.1]

end

theorem Sound.fields_ready (sound : Sound store kids busy) (found : store.sectors x y z = some sector)
    (loaded : sector.loaded = true) :
    ∀ node ∈ insideAll kids (fieldsOf sector), Ready store node := by
  intro node inner
  have isLive := sound.mapped.inside_live sound.described.forest found inner
  have unfiled : ∀ number, ¬ Stored store number (entryIndex cfg node.objectID) := by
    intro number stored
    have isFile : ∃ file, store.files number = some file := by
      rcases stored with ⟨record, fromFile⟩
      rcases Option.bind_eq_some_iff.mp fromFile with ⟨file, opened, _⟩
      exact ⟨file, opened⟩
    rcases isFile with ⟨file, opened⟩
    rcases sound.mapped.filed number file opened with ⟨_, other, otherFound, unloaded, exact_entries⟩
    have places := sound.mapped.one_sector sound.described.forest found otherFound
      ⟨node, inner, rfl⟩ ((exact_entries _).mp stored)
    simp only [Prod.mk.injEq] at places
    rw [places.1, places.2.1, places.2.2, otherFound] at found
    rw [← Option.some.inj found, unloaded] at loaded
    cases loaded
  rcases isLive with ⟨record, live⟩
  rcases live_has_record live with isLoaded | swapped
  · exact ⟨isLoaded, ⟨record, live⟩, unfiled⟩
  · exact (unfiled _ (sound.backed.backed _ swapped)).elim

theorem oldest_sector_spec (oldest : oldestSector store = some (x, y, z)) :
    ∃ sector, store.sectors x y z = some sector ∧ sector.loaded = true := by
  apply List.foldlRecOn (motive := fun best : Option (Int × Int × Int) × UInt32 =>
    ∀ place, best.1 = some place → ∃ sector,
      store.sectors place.1 place.2.1 place.2.2 = some sector ∧ sector.loaded = true)
    _ _ _ _ (x, y, z) oldest
  · nofun
  intro best holds head _ place isBest
  rcases here : store.sectors head.1 head.2.1 head.2.2 with _ | sector
  · rw [here] at isBest
    exact holds place isBest
  simp only [here] at isBest
  split_ifs at isBest with better
  · cases isBest
    rw [Bool.and_eq_true] at better
    exact ⟨sector, here, better.1⟩
  · exact holds place isBest

/-- The number that is tried after `step` others. -/
def triedNumber (fileNumber step : Nat) : Nat := (fileNumber + step) % 99999999 + 1

theorem file_number_search (fuel : Nat) {fileNumber : Nat} (small : fileNumber ≤ 99999999) :
    (∃ number, nextFileNumber store fuel fileNumber = .ok number ∧ store.files number = none ∧
      number ≤ 99999999) ∨
    ∀ step, step < fuel → (store.files (triedNumber fileNumber step)).isSome = true := by
  induction fuel generalizing fileNumber with
  | zero =>
    right
    intro step inner
    omega
  | succ fuel ih =>
    have next : (if 99999999 < fileNumber + 1 then 1 else fileNumber + 1) =
        triedNumber fileNumber 0 := by
      unfold triedNumber
      split_ifs
      · have same : fileNumber = 99999999 := by omega
        rw [same]
      · omega
    have bound : triedNumber fileNumber 0 ≤ 99999999 := by
      unfold triedNumber
      omega
    rw [nextFileNumber]
    simp only [next]
    split_ifs with taken
    · rcases ih bound with found | tried
      · exact .inl found
      right
      intro step inner
      rcases step with _ | step
      · exact taken
      have later := tried step (by omega)
      have same : triedNumber (triedNumber fileNumber 0) step =
          triedNumber fileNumber (step + 1) := by
        unfold triedNumber
        omega
      rwa [same] at later
    · left
      exact ⟨_, rfl, by simpa using taken, bound⟩

/-- Every file has the 1024 fields of a sector of its own, so there are free numbers. -/
theorem Sound.file_number (sound : Sound store kids busy) :
    ∃ number, nextFileNumber store 100000000 store.fileNumber = .ok number ∧
      store.files number = none ∧ number ≤ 99999999 := by
  rcases file_number_search 100000000 sound.mapped.fileNumber with found | tried
  · exact found
  have everyFile : ∀ number : Fin 99999999, ∃ file, store.files (number + 1) = some file := by
    intro number
    have step : ∃ step, step < 100000000 ∧ triedNumber store.fileNumber step = number + 1 := by
      refine ⟨(99999999 + number.val - store.fileNumber % 99999999) % 99999999, by omega, ?_⟩
      unfold triedNumber
      omega
    rcases step with ⟨step, inner, same⟩
    have here := tried step inner
    rw [same] at here
    exact Option.isSome_iff_exists.mp here
  choose fileOf opened using everyFile
  have everySector := fun number => (sound.mapped.filed _ _ (opened number)).2
  choose sectorOf found _ using everySector
  have small := hash_table_size_le cfg
  let entryOf : Fin 99999999 × Fin 32 × Fin 32 → Fin (2 ^ 31) := fun field =>
    ⟨entryIndex cfg ((sectorOf field.1).mapCon field.2.1 field.2.2).objectID,
      (entry_index_lt _).trans_le small⟩
  have injective : Function.Injective entryOf := by
    intro left right same
    have index := congrArg Fin.val same
    have live : ∀ field : Fin 99999999 × Fin 32 × Fin 32, ∃ record, liveRecord (view store)
        ((sectorOf field.1).mapCon field.2.1 field.2.2) = some record := fun field =>
      sound.mapped.inside_live sound.described.forest (found field.1)
        ⟨_, mem_fields field.2, below_refl kids _⟩
    rcases live left with ⟨_, leftLive⟩
    rcases live right with ⟨_, rightLive⟩
    have sameField := live_index_injective leftLive rightLive index
    have places := sound.mapped.distinct _ _ _ _ _ _ _ _ (found left.1) (found right.1) left.2
      right.2 sameField
    simp only [Prod.mk.injEq] at places
    have numbers := sound.mapped.oneFile _ _ _ _ (opened left.1) (opened right.1) places.1
      places.2.1 places.2.2.1
    exact Prod.ext (Fin.ext (Nat.succ.inj numbers)) places.2.2.2
  have few := Fintype.card_le_of_injective entryOf injective
  simp only [Fintype.card_prod, Fintype.card_fin] at few
  omega

/-- What swapping a sector out leaves as it is: the files that are there, their
entries, and the other sectors that are swapped out. -/
structure Kept (store after : PagedStore cfg) : Prop where
  layout : after.layout = store.layout
  files : ∀ number file, store.files number = some file → after.files number = some file
  entries : ∀ number index, Stored store number index →
    after.hashTableType index = store.hashTableType index ∧
      after.hashTableData index = store.hashTableData index
  sectors : ∀ x y z sector, store.sectors x y z = some sector → sector.loaded = false →
    after.sectors x y z = some sector

theorem Kept.refl (store : PagedStore cfg) : Kept store store :=
  ⟨rfl, fun _ _ => id, fun _ _ _ => ⟨rfl, rfl⟩, fun _ _ _ _ found _ => found⟩

/-- The new swap file of `swap_sector`, before anything has been written. -/
theorem open_file (sound : Sound store kids busy) (unused : store.files number = none)
    (found : store.sectors x y z = some sector) (loaded : sector.loaded = true)
    (opened : after = setFile { store with fileNumber := number } number
      (some ⟨false, x, y, z, []⟩)) :
    view after = view store ∧ Swappable after kids number (insideAll kids (fieldsOf sector)) ∧
      ∀ other index, storedRecord after other index = storedRecord store other index := by
  have numbered : Backed { store with fileNumber := number } :=
    ⟨Accounting.congr sound.backed.accounting rfl rfl rfl rfl rfl rfl, sound.backed.backed,
      sound.backed.single, sound.backed.states⟩
  have wasEmpty : ∀ index, storedRecord store number index = none := by
    intro index
    rw [storedRecord, unused]
    rfl
  have refiled := numbered.refile number (some ⟨false, x, y, z, []⟩)
    (by
      intro index record _ stored
      have absent := wasEmpty index
      rw [show storedRecord store number index = some record from stored] at absent
      cases absent)
    (by
      intro newer member
      cases member
      exact .inl rfl)
  rw [← opened] at refiled
  have sameStored : ∀ other index,
      storedRecord after other index = storedRecord store other index := by
    intro other index
    rw [opened, stored_set_file]
    split_ifs with here
    · rw [here, wasEmpty]
      rfl
    · rfl
  have same : view after = view store := refiled.2
  refine ⟨same, ⟨refiled.1, ?_, ?_, ?_⟩, sameStored⟩
  · rw [same]
    exact sound.described.forest
  · rw [opened]
    exact ⟨_, Function.update_self _ _ _⟩
  · intro node inner
    have ready := sound.fields_ready found loaded node inner
    constructor
    · rw [opened]
      exact ready.loaded
    · rw [same]
      exact ready.live
    · intro other stored
      rcases stored with ⟨record, fromFile⟩
      rw [sameStored] at fromFile
      exact ready.unfiled other ⟨record, fromFile⟩

theorem close_files (opened : store.files number = some file) :
    closeFile store number = setFile store number (some { file with closed := true }) := by
  rw [closeFile, opened]

/-- The sectors keep their fields when one of them is loaded or swapped out. -/
theorem relabeled_sector {loaded : Bool} {x' y' z' : Int}
    (found : (setSectorLoaded store x y z loaded).sectors x' y' z' = some sector) :
    ∃ old, store.sectors x' y' z' = some old ∧ sector.mapCon = old.mapCon := by
  unfold setSectorLoaded at found
  by_cases here : x' = x ∧ y' = y ∧ z' = z
  · simp only [if_pos here] at found
    rcases Option.map_eq_some_iff.mp found with ⟨old, oldFound, rfl⟩
    rw [here.1, here.2.1, here.2.2]
    exact ⟨old, oldFound, rfl⟩
  simp only [if_neg here] at found
  exact ⟨sector, found, rfl⟩

theorem Mapped.relabel (mapped : Mapped store kids) (same : view after = view store)
    (sectors : ∀ x y z sector, after.sectors x y z = some sector →
      ∃ old, store.sectors x y z = some old ∧ sector.mapCon = old.mapCon)
    (filed : ∀ number file, after.files number = some file → file.closed = true ∧
      ∃ sector, after.sectors file.sectorX file.sectorY file.sectorZ = some sector ∧
        sector.loaded = false ∧
        ∀ index, Stored after number index ↔ index ∈ sectorEntries cfg kids sector)
    (oneFile : ∀ number other file otherFile, after.files number = some file →
      after.files other = some otherFile → file.sectorX = otherFile.sectorX →
      file.sectorY = otherFile.sectorY → file.sectorZ = otherFile.sectorZ → number = other)
    (fileNumber : after.fileNumber ≤ 99999999) : Mapped after kids where
  field := by
    intro x y z sector found fieldX fieldY
    rcases sectors x y z sector found with ⟨old, oldFound, fields⟩
    rw [same, fields]
    exact mapped.field x y z old oldFound fieldX fieldY
  distinct := by
    intro x y z sector x' y' z' sector' found found' place place' sameField
    rcases sectors x y z sector found with ⟨old, oldFound, fields⟩
    rcases sectors x' y' z' sector' found' with ⟨old', oldFound', fields'⟩
    rw [fields, fields'] at sameField
    exact mapped.distinct x y z old x' y' z' old' oldFound oldFound' place place' sameField
  filed := filed
  oneFile := oneFile
  fileNumber := fileNumber

/-- A step that keeps the sectors and the files. -/
theorem Mapped.carried {kids' : Object → List Object} (mapped : Mapped store kids)
    (sectors : after.sectors = store.sectors) (files : after.files = store.files)
    (fileNumber : after.fileNumber = store.fileNumber)
    (field : ∀ x y z sector, store.sectors x y z = some sector → ∀ fieldX fieldY,
      containerOf (liveRecord (view after)) (sector.mapCon fieldX fieldY) = some NONE)
    (inside : ∀ number file sector, store.files number = some file →
      store.sectors file.sectorX file.sectorY file.sectorZ = some sector →
      (∀ index, Stored store number index ↔ index ∈ sectorEntries cfg kids sector) →
      sectorEntries cfg kids' sector = sectorEntries cfg kids sector) : Mapped after kids' where
  field := by
    rw [sectors]
    exact field
  distinct := by
    rw [sectors]
    exact mapped.distinct
  filed := by
    intro number file opened
    rw [files] at opened
    rcases mapped.filed number file opened with ⟨closed, sector, found, unloaded, exact_entries⟩
    rw [sectors]
    refine ⟨closed, sector, found, unloaded, ?_⟩
    intro index
    rw [Stored, stored_congr (congrFun files number),
      inside number file sector opened found exact_entries]
    exact exact_entries index
  oneFile := by
    rw [files]
    exact mapped.oneFile
  fileNumber := fileNumber.trans_le mapped.fileNumber

theorem swap_sector_end (sound : Sound store kids busy) (unused : store.files number = none)
    (small : number ≤ 99999999) (found : store.sectors x y z = some sector)
    (loaded : sector.loaded = true) (middleBacked : Backed middle) (same : view middle = view store)
    (moved : Moved (setFile { store with fileNumber := number } number
      (some ⟨false, x, y, z, []⟩)) middle number (sectorEntries cfg kids sector))
    (ended : after = closeFile (setSectorLoaded middle x y z false) number) :
    view after = view store ∧ Sound after kids busy ∧ after.firstFreeObject ≠ 0 ∧
      Kept store after := by
  rcases moved.file _ (Function.update_self _ _ _) with ⟨records, middleOpened⟩
  have relabeled := middleBacked.sector x y z false
  have stillOpen : (setSectorLoaded middle x y z false).files number =
      some ⟨false, x, y, z, records⟩ := middleOpened
  have closed : after = setFile (setSectorLoaded middle x y z false) number
      (some ⟨true, x, y, z, records⟩) := by
    rw [ended, close_files stillOpen]
  have refiled := relabeled.1.refile number (some ⟨true, x, y, z, records⟩)
    (by
      intro index record _ stored
      rw [stored_set_file, if_pos rfl, ← stored, storedRecord, stillOpen]
      rfl)
    (by
      intro newer member
      cases member
      exact .inr ⟨_, stillOpen, rfl⟩)
  rw [← closed] at refiled
  have sameView : view after = view store := refiled.2.trans (relabeled.2.trans same)
  have files : ∀ other, after.files other =
      if other = number then some ⟨true, x, y, z, records⟩ else store.files other := by
    intro other
    rw [closed, set_file_files]
    split_ifs with here
    · rfl
    · exact (moved.otherFiles other here).trans (Function.update_of_ne here _ _)
  have types : after.hashTableType = middle.hashTableType := by
    rw [closed]
    rfl
  have data : after.hashTableData = middle.hashTableData := by
    rw [closed]
    rfl
  have ready := sound.fields_ready found loaded
  -- The entries that have moved were loaded and in no file.
  have wasReady : ∀ index, index ∈ sectorEntries cfg kids sector →
      store.hashTableType index = .loaded ∧ ∀ other, ¬ Stored store other index := by
    intro index member
    rcases member with ⟨node, inner, rfl⟩
    exact ⟨(ready node inner).loaded, (ready node inner).unfiled⟩
  have keptEntry : ∀ index, index ∉ sectorEntries cfg kids sector →
      after.hashTableType index = store.hashTableType index ∧
        after.hashTableData index = store.hashTableData index := by
    intro index outside
    rw [types, data]
    exact moved.kept index outside
  have ownStored : ∀ index, Stored after number index ↔ index ∈ sectorEntries cfg kids sector := by
    intro index
    have inMiddle : Stored after number index ↔ Stored middle number index := by
      unfold Stored storedRecord
      rw [files, if_pos rfl, middleOpened]
      rfl
    rw [inMiddle, moved.stored]
    constructor
    · intro either
      rcases either with ⟨record, early⟩ | member
      · rw [stored_set_file, if_pos rfl] at early
        cases early
      · exact member
    · intro member
      exact .inr member
  have otherStored : ∀ other, other ≠ number → ∀ index,
      Stored after other index ↔ Stored store other index := by
    intro other different index
    unfold Stored storedRecord
    rw [files, if_neg different]
  have sectors : after.sectors = (setSectorLoaded middle x y z false).sectors := by
    rw [closed]
    rfl
  have otherSectors : ∀ x' y' z' other, store.sectors x' y' z' = some other →
      other.loaded = false → after.sectors x' y' z' = some other := by
    intro x' y' z' other otherFound unloaded
    have apart : ¬ (x' = x ∧ y' = y ∧ z' = z) := by
      intro same
      rw [same.1, same.2.1, same.2.2, found] at otherFound
      rw [← Option.some.inj otherFound, loaded] at unloaded
      cases unloaded
    rw [sectors, setSectorLoaded]
    simp only [if_neg apart, moved.sectors]
    exact otherFound
  have ownSector : after.sectors x y z = some { sector with loaded := false } := by
    have middleFound : middle.sectors x y z = some sector := by
      rw [moved.sectors]
      exact found
    rw [sectors, setSectorLoaded]
    simp [middleFound]
  have oldFile : ∀ other otherFile, other ≠ number → after.files other = some otherFile →
      store.files other = some otherFile := by
    intro other otherFile different isFile
    rwa [files, if_neg different] at isFile
  have mapped : Mapped after kids := by
    apply sound.mapped.relabel sameView
    · intro x' y' z' other otherFound
      rw [sectors] at otherFound
      rcases relabeled_sector otherFound with ⟨old, oldFound, fields⟩
      rw [moved.sectors] at oldFound
      exact ⟨old, oldFound, fields⟩
    · intro other otherFile isFile
      by_cases here : other = number
      · rw [here, files, if_pos rfl] at isFile
        rw [here, ← Option.some.inj isFile]
        refine ⟨rfl, _, ownSector, rfl, ?_⟩
        intro index
        rw [ownStored]
        rfl
      rcases sound.mapped.filed other otherFile (oldFile other otherFile here isFile) with
        ⟨isClosed, otherSector, otherFound, unloaded, exact_entries⟩
      refine ⟨isClosed, otherSector, otherSectors _ _ _ _ otherFound unloaded, unloaded, ?_⟩
      intro index
      rw [otherStored other here]
      exact exact_entries index
    · -- No other file is about the sector, which was loaded.
      have onlyOne : ∀ other otherFile, other ≠ number → after.files other = some otherFile →
          ¬ (x = otherFile.sectorX ∧ y = otherFile.sectorY ∧ z = otherFile.sectorZ) := by
        intro other otherFile different isFile same
        rcases sound.mapped.filed other otherFile (oldFile other otherFile different isFile) with
          ⟨_, otherSector, otherFound, unloaded, _⟩
        rw [← same.1, ← same.2.1, ← same.2.2, found] at otherFound
        rw [← Option.some.inj otherFound, loaded] at unloaded
        cases unloaded
      intro left right leftFile rightFile isLeft isRight sameX sameY sameZ
      by_cases leftHere : left = number
      · by_cases rightHere : right = number
        · rw [leftHere, rightHere]
        rw [leftHere, files, if_pos rfl] at isLeft
        rw [← Option.some.inj isLeft] at sameX sameY sameZ
        exact (onlyOne right rightFile rightHere isRight ⟨sameX, sameY, sameZ⟩).elim
      by_cases rightHere : right = number
      · rw [rightHere, files, if_pos rfl] at isRight
        rw [← Option.some.inj isRight] at sameX sameY sameZ
        exact (onlyOne left leftFile leftHere isLeft ⟨sameX.symm, sameY.symm, sameZ.symm⟩).elim
      exact sound.mapped.oneFile left right leftFile rightFile
        (oldFile left leftFile leftHere isLeft) (oldFile right rightFile rightHere isRight) sameX
        sameY sameZ
    · have numbered : after.fileNumber = number := by
        rw [closed]
        exact moved.fileNumber
      rw [numbered]
      exact small
  refine ⟨sameView, ⟨refiled.1, ?_, mapped, ?_, ?_⟩, ?_, ?_⟩
  · rw [sameView]
    exact sound.described
  · intro other notBusy index stored
    by_cases here : other = number
    · rw [here] at stored
      rw [types]
      exact (moved.moved index ((ownStored index).mp stored)).1
    have before := (otherStored other here index).mp stored
    have outside : index ∉ sectorEntries cfg kids sector := by
      intro member
      exact (wasReady index member).2 other before
    rw [(keptEntry index outside).1]
    exact sound.settled other notBusy index before
  · rw [sameView]
    exact sound.noneRecord
  · have first : after.firstFreeObject = middle.firstFreeObject := by
      rw [closed]
      rfl
    rw [first]
    apply moved.slot
    right
    exact ⟨_, _, ⟨_, mem_fields (0, 0), below_refl kids _⟩, rfl⟩
  · constructor
    · have layout : after.layout = middle.layout := by
        rw [closed]
        rfl
      exact layout.trans moved.layout
    · intro other otherFile isFile
      have different : other ≠ number := by
        intro same
        rw [same, unused] at isFile
        cases isFile
      rw [files, if_neg different]
      exact isFile
    · intro other index stored
      apply keptEntry
      intro member
      exact (wasReady index member).2 other stored
    · exact otherSectors

theorem swap_sector_spec {fuel : Nat} (sound : Sound store kids busy) (enough : 2 ^ 34 ≤ fuel) :
    swapSector fuel store = .error .noSector ∨
      ∃ after, swapSector fuel store = .ok after ∧ view after = view store ∧
        Sound after kids busy ∧ after.firstFreeObject ≠ 0 ∧ Kept store after := by
  rcases Nat.exists_eq_add_of_le' (show 1 ≤ fuel by omega) with ⟨less, rfl⟩
  rcases oldest : oldestSector store with _ | place
  · left
    rw [swapSector, oldest]
  right
  rcases place with ⟨x, y, z⟩
  rcases oldest_sector_spec oldest with ⟨sector, found, loaded⟩
  rcases sound.file_number with ⟨number, chosen, unused, small⟩
  rcases open_file sound unused found loaded rfl with ⟨openedSame, swappable, _⟩
  have forest := sound.described.forest
  have length : (fieldsOf sector).length = 1024 := by
    simp [fieldsOf, sectorFields]
  rcases swap_fields_spec swappable (sound.mapped.apart forest found)
    (show 2 ^ 33 + (fieldsOf sector).length < less by omega) with
    ⟨middle, returned, backed, same, moved⟩
  rcases swap_sector_end sound unused small found loaded backed (same.trans openedSame) moved rfl
    with ⟨sameView, finalSound, slot, kept⟩
  refine ⟨_, ?_, sameView, finalSound, slot, kept⟩
  unfold fieldsOf at returned
  simp only [swapSector, oldest, found, chosen, ok_bind, returned]

end TibiaGame.SectorPaging
