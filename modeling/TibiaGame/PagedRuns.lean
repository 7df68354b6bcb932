import TibiaGame.PagedDeletion

/-!
# Runs of the paged store

Every call keeps a sound state sound and does to the view what the same call does
without swapping. It can end the server in one more way: a slot is needed and no sector
can be swapped out.
-/

namespace TibiaGame.PagedRuns

open GameTypes ObjectStore ObjectOperations ObjectKinds CronAgreement List
open ContentForest ForestSteps ForestDeletion ForestOperations ForestRuns SectorSwapping
open SwapView SwapOut SectorPaging SectorLoading AwakeObjects PagedDeletion
open Library.OrderedForest Library.Outcome

variable {cfg : GameConfig} {store middle after : PagedStore cfg} {kids : Object → List Object}
  {obj con : Object} {number index : Nat}

/-- The call ends for want of a sector to swap out, or it does what the call on the view
does and leaves a sound state. -/
def Matches (result : Except Halt (PagedStore cfg)) (plain : Except Halt (World cfg)) : Prop :=
  result = .error .noSector ∨ (∃ halt, result = .error halt ∧ plain = .error halt) ∨
    ∃ after kids, result = .ok after ∧ plain = .ok (view after) ∧ Sound after kids none

def MatchesWith {Value : Type} (result : Except Halt (Value × PagedStore cfg))
    (plain : Except Halt (Value × World cfg)) : Prop :=
  result = .error .noSector ∨ (∃ halt, result = .error halt ∧ plain = .error halt) ∨
    ∃ value after kids, result = .ok (value, after) ∧ plain = .ok (value, view after) ∧
      Sound after kids none

theorem Matches.then {result : Except Halt (PagedStore cfg)} {plain : Except Halt (World cfg)}
    {next : PagedStore cfg → Except Halt (PagedStore cfg)}
    {plainNext : World cfg → Except Halt (World cfg)} (first : Matches result plain)
    (later : ∀ middle kids, Sound middle kids none →
      Matches (next middle) (plainNext (view middle))) :
    Matches (result >>= next) (plain >>= plainNext) := by
  rcases first with full | ⟨halt, failed, plainFailed⟩ | ⟨middle, kids, returned, same, sound⟩
  · left
    rw [full]
    rfl
  · right
    left
    rw [failed, plainFailed]
    exact ⟨halt, rfl, rfl⟩
  · rw [returned, same]
    exact later middle kids sound

section Writes

variable (sound : Sound store kids none)
include sound

theorem Sound.written {change : MapObject cfg → MapObject cfg}
    (same : view after = writeObject (view store) obj change) (calm : Calm after)
    (steady : Steady store after) (keepsID : ∀ record, (change record).objectID = record.objectID)
    (next : ∀ record, (change record).nextObject = record.nextObject)
    (container : ∀ record, (change record).container = record.container)
    (type : ∀ record, (change record).type = record.type)
    (content : ∀ record, (change record).content = record.content) : Sound after kids none := by
  have containers : ∀ node, containerOf (liveRecord (view after)) node =
      containerOf (liveRecord (view store)) node := by
    intro node
    rw [same, live_write_update (view store) obj keepsID]
    exact view_update_keep container
  refine ⟨calm.backed, ⟨?_, ?_⟩, ?_, fun number _ => calm.settled number, ?_⟩
  · rw [same]
    exact sound.described.agreement.quiet (write_quiet (view store) obj keepsID type)
  · rw [same]
    exact write_forest sound.described.forest keepsID next container type content
  · apply sound.mapped.carried steady.sectors steady.files steady.fileNumber
    · intro x y z sector found fieldX fieldY
      rw [containers]
      exact sound.mapped.field x y z sector found fieldX fieldY
    · intros
      rfl
  · rw [same, writeObject]
    have unlinked := sound.noneRecord
    cases liveRecord (view store) obj with
    | some record => exact unlinked
    | none =>
      constructor
      · exact (next _).trans unlinked.next
      · exact (container _).trans unlinked.container
      · exact (content _).trans unlinked.content

theorem access_pages (obj : Object) :
    Pages store ((pagedAccess store obj).map Prod.snd) fun middle =>
      Sound middle kids none ∧ Awake middle obj ∧
        pagedAccess store obj = .ok (accessObject (view middle) obj, middle) := by
  unfold pagedAccess
  by_cases missing : obj = NONE
  · have awake : Awake store obj := by
      rw [missing]
      exact Backed.none_awake sound.backed
    rw [if_pos missing]
    refine .inr ⟨store, rfl, rfl, sound, awake, ?_⟩
    rw [missing, accessObject, live_none]
    rfl
  rw [if_neg missing]
  rcases ensure_loaded_spec sound obj (show 2 ^ 37 ≤ pagingLimit by decide) with
    full | ⟨middle, returned, same, middleSound, awake⟩
  · left
    rw [full]
    rfl
  · right
    refine ⟨middle, ?_, same, middleSound, awake, ?_⟩
    · rw [returned]
      rfl
    · rw [returned, ok_bind, read_awake awake]

theorem access_then {next : MapObject cfg × PagedStore cfg → Except Halt (PagedStore cfg)}
    {plain : Except Halt (World cfg)} (obj : Object)
    (later : ∀ middle, view middle = view store → Sound middle kids none → Awake middle obj →
      Matches (next (accessObject (view middle) obj, middle)) plain) :
    Matches (pagedAccess store obj >>= next) plain := by
  rcases access_pages sound obj with full | ⟨middle, _, same, middleSound, awake, returned⟩
  · left
    rcases result : pagedAccess store obj with halt | pair
    · rw [result] at full
      cases full
      rfl
    rw [result] at full
    cases full
  rw [returned]
  exact later middle same middleSound awake

theorem write_matches (obj : Object) {change : MapObject cfg → MapObject cfg}
    (keepsID : ∀ record, (change record).objectID = record.objectID)
    (next : ∀ record, (change record).nextObject = record.nextObject)
    (container : ∀ record, (change record).container = record.container)
    (type : ∀ record, (change record).type = record.type)
    (content : ∀ record, (change record).content = record.content) :
    Matches (pagedWrite store obj change) (.ok (writeObject (view store) obj change)) := by
  apply access_then sound obj
  intro middle same middleSound awake
  have links : ∀ record, LinksAwake middle record → LinksAwake middle (change record) := by
    intro record links
    constructor
    · rw [next]
      exact links.next
    · rw [container]
      exact links.container
    · rw [content]
      exact links.content
  rcases (Sound.calm middleSound).write awake keepsID links with
    ⟨after, returned, written, calm, steady⟩
  rw [pagedWrite, access_awake awake, ok_bind] at returned
  right
  right
  refine ⟨after, kids, returned, ?_, ?_⟩
  · rw [written, same]
  · exact Sound.written middleSound written calm steady keepsID next container type content

theorem set_attribute_matches (obj : Object) {attr : InstanceAttribute}
    (different : attr ≠ .content) (value : UInt32) :
    Matches (pagedSetAttribute store obj attr value)
      (.ok (setAttribute (view store) obj attr value)) := by
  apply access_then sound obj
  intro middle same middleSound _
  rw [← same]
  exact write_matches middleSound obj (fun record => record_set_attribute_number record attr value)
    (fun record => set_attribute_next record attr value)
    (fun record => set_attribute_container record attr value)
    (fun record => record_set_attribute_type record attr value)
    (fun record => set_attribute_content record different value)

theorem set_slot_matches (obj : Object) {slot : Fin 4} (different : slot ≠ 0) (value : UInt32) :
    Matches (pagedSetSlot store obj slot value) (.ok (setSlot (view store) obj slot value)) :=
  write_matches sound obj (fun _ => rfl) (fun _ => rfl) (fun _ => rfl) (fun _ => rfl)
    fun record => set_slot_content record different value

end Writes

theorem view_free (backed : Backed store) (index : Nat) :
    (view store).hashTable index = .free ↔ store.hashTableType index = .free := by
  show viewCell store index = .free ↔ _
  cases type : store.hashTableType index with
  | free => simp [viewCell, type]
  | permanent => simp [viewCell, type]
  | loaded => simp [viewCell, type]
  | swapped =>
    rcases backed.backed index type with ⟨record, found⟩
    simp [view_swapped type found]

theorem probe_view (backed : Backed store) (fuel : Nat) (objectID : UInt32) :
    probe (view store) fuel objectID = probeTypes store fuel objectID := by
  induction fuel generalizing objectID with
  | zero => rfl
  | succ fuel ih =>
    rw [probe, probeTypes]
    have here := view_free backed (entryIndex cfg objectID)
    by_cases free : store.hashTableType (entryIndex cfg objectID) = .free
    · rw [if_pos free, here.mpr free]
    rw [if_neg free, ← ih]
    cases cell : (view store).hashTable (entryIndex cfg objectID) with
    | free => exact (free (here.mp cell)).elim
    | permanent => rfl
    | loaded record => rfl

theorem create_view_full (full : store.hashTableFree.toNat < cfg.hashTableSize / 16) :
    pagedCreate store = .error .abort ∧ createObject (view store) = .error .abort := by
  constructor
  · rw [pagedCreate, if_pos full]
  · rw [createObject, if_pos (show (view store).hashTableFree.toNat < _ from full)]

/-- Numbering the next object changes nothing that the invariants are about. -/
theorem Sound.numbered (sound : Sound store kids none) (objectID : UInt32) :
    Sound { store with nextObjectID := objectID } kids none := by
  have described : Described (view { store with nextObjectID := objectID }) kids :=
    ⟨⟨sound.described.agreement.wellFormed, sound.described.agreement.permanent,
      sound.described.agreement.agree⟩, sound.described.forest⟩
  have calm : Calm { store with nextObjectID := objectID } :=
    Calm.congr (Sound.calm sound) rfl rfl rfl rfl rfl rfl rfl
  refine ⟨calm.backed, described, ?_, sound.settled, sound.noneRecord⟩
  exact ⟨sound.mapped.field, sound.mapped.distinct, sound.mapped.filed, sound.mapped.oneFile,
    sound.mapped.fileNumber⟩

/-- The last statements of `create_object`, with a free slot at hand. -/
theorem Sound.created (sound : Sound store kids none) (inner : store.firstFreeObject ≠ 0)
    {objectID : UInt32} {world : World cfg}
    (free : store.hashTableType (entryIndex cfg objectID) = .free)
    (created : after = { setStatus (writeSlot (popFreeSlot store).2 (popFreeSlot store).1
        (blankObject objectID)) (entryIndex cfg objectID) .loaded (popFreeSlot store).1 with
      hashTableFree := store.hashTableFree - 1 })
    (plain : createObject world = .ok (⟨objectID⟩, { view store with
      hashTable := Function.update (viewCell store) (entryIndex cfg objectID)
        (.loaded (blankObject objectID))
      hashTableFree := store.hashTableFree - 1 }))
    (before : Described world kids) (sameRecords : liveRecord world = liveRecord (view store)) :
    createObject world = .ok (⟨objectID⟩, view after) ∧ Sound after kids none := by
  rcases sound.backed.create inner free rfl created with ⟨backed, same⟩
  rw [← same] at plain
  have types : after.hashTableType =
      Function.update store.hashTableType (entryIndex cfg objectID) .loaded := by
    rw [created]
    simp only [setStatus, writeSlot, popFreeSlot, if_neg inner]
  have files : after.files = store.files := by
    rw [created]
    simp only [setStatus, writeSlot, popFreeSlot, if_neg inner]
  have sectors : after.sectors = store.sectors := by
    rw [created]
    simp only [setStatus, writeSlot, popFreeSlot, if_neg inner]
  have fileNumber : after.fileNumber = store.fileNumber := by
    rw [created]
    simp only [setStatus, writeSlot, popFreeSlot, if_neg inner]
  rcases create_live before.agreement.permanent plain with ⟨_, wasDead, records⟩
  refine ⟨plain, backed, ⟨(create_agreement before.agreement plain).1,
    (create_forest before.forest before.agreement.permanent plain).1⟩, ?_, ?_, ?_⟩
  · apply sound.mapped.carried sectors files fileNumber
    · intro x y z sector found fieldX fieldY
      have loose := sound.mapped.field x y z sector found fieldX fieldY
      have different : sector.mapCon fieldX fieldY ≠ ⟨objectID⟩ := by
        intro here
        rw [here, containerOf, ← sameRecords, wasDead] at loose
        cases loose
      rw [containerOf, records, if_neg different, sameRecords]
      exact loose
    · intros
      rfl
  · intro number notBusy index stored
    rw [Stored, stored_congr (congrFun files number)] at stored
    have swapped := sound.settled number notBusy index stored
    have different : index ≠ entryIndex cfg objectID := by
      intro here
      rw [here, free] at swapped
      cases swapped
    rw [types, Function.update_of_ne different]
    exact swapped
  · rw [same]
    exact sound.noneRecord

theorem create_matches (sound : Sound store kids none) :
    MatchesWith (pagedCreate store) (createObject (view store)) := by
  by_cases full : store.hashTableFree.toNat < cfg.hashTableSize / 16
  · rcases create_view_full full with ⟨failed, plainFailed⟩
    exact .inr (.inl ⟨.abort, failed, plainFailed⟩)
  have probed := probe_view sound.backed cfg.hashTableSize store.nextObjectID
  set objectID := probeTypes store cfg.hashTableSize store.nextObjectID with isProbed
  have cell := view_free sound.backed (entryIndex cfg objectID)
  have plainFull : ¬ (view store).hashTableFree.toNat < cfg.hashTableSize / 16 := full
  have sameNext : (view store).nextObjectID = store.nextObjectID := rfl
  by_cases free : store.hashTableType (entryIndex cfg objectID) = .free
  · have unfolded : pagedCreate store = getFreeObjectSlot pagingLimit
        { store with nextObjectID := objectID } >>= fun taken =>
          if taken.1 = 0 then .ok (NONE, taken.2) else .ok (⟨objectID⟩,
            { setStatus (writeSlot taken.2 taken.1 (blankObject objectID))
                (entryIndex cfg objectID) .loaded taken.1 with
              hashTableFree := taken.2.hashTableFree - 1 }) := by
      simp only [pagedCreate, if_neg full, ← isProbed, if_pos free]
      rfl
    have plain : createObject (view store) = .ok (⟨objectID⟩, { view store with
        hashTable := Function.update (viewCell store) (entryIndex cfg objectID)
          (.loaded (blankObject objectID))
        hashTableFree := store.hashTableFree - 1
        nextObjectID := objectID }) := by
      simp only [createObject, if_neg plainFull, sameNext, probed, cell.mpr free]
      rfl
    rw [unfolded]
    have numbered := Sound.numbered sound objectID
    rcases free_slot_spec numbered (show 2 ^ 34 ≤ 2 ^ 40 - 1 by decide) with
      noRoom | ⟨middle, returned, same, middleSound, inner, _⟩
    · left
      have got : getFreeObjectSlot pagingLimit { store with nextObjectID := objectID } =
          .error .noSector := by
        rw [show pagingLimit = 2 ^ 40 - 1 + 1 from rfl, getFreeObjectSlot, noRoom]
        rfl
      rw [got]
      rfl
    · have got : getFreeObjectSlot pagingLimit { store with nextObjectID := objectID } =
          .ok (popFreeSlot middle) := by
        rw [show pagingLimit = 2 ^ 40 - 1 + 1 from rfl, getFreeObjectSlot, returned]
        rfl
      have slot : (popFreeSlot middle).1 ≠ 0 := by
        rw [popFreeSlot, if_neg inner]
        exact inner
      have counter : (popFreeSlot middle).2.hashTableFree = middle.hashTableFree := by
        rw [popFreeSlot, if_neg inner]
        rfl
      have stillFree : middle.hashTableType (entryIndex cfg objectID) = .free := by
        rw [← view_free middleSound.backed, same]
        exact cell.mpr free
      have sameTable : viewCell middle = viewCell store := congrArg World.hashTable same
      have sameCounter : middle.hashTableFree = store.hashTableFree :=
        congrArg World.hashTableFree same
      rw [got, ok_bind, if_neg slot, counter]
      right
      right
      have ended := Sound.created middleSound inner stillFree rfl
        (by
          rw [plain, sameTable, sameCounter, same]
          rfl)
        sound.described
        (by
          rw [same]
          rfl)
      exact ⟨_, _, kids, rfl, ended.1, ended.2⟩
  right
  left
  refine ⟨.assertion, ?_, ?_⟩
  · simp only [pagedCreate, if_neg full, ← isProbed, if_neg free]
  simp only [createObject, if_neg plainFull, sameNext, probed]
  cases shown : (view store).hashTable (entryIndex cfg objectID) with
  | free => exact (free (cell.mp shown)).elim
  | permanent => rfl
  | loaded record => rfl

theorem cut_walk_none {world : World cfg} (unlinked : Unlinked world.noneRecord) (notNone : obj ≠ NONE)
    (fuel : Nat) : cutWalk world obj fuel NONE = .error .hang := by
  have next : getNextObject world NONE = NONE := by
    exact unlinked.next
  induction fuel with
  | zero => rfl
  | succ fuel ih =>
    rw [cutWalk, next, if_neg notNone.symm]
    exact ih

/-- A loose object cannot be deleted: `cut_object` looks for it in no container. -/
theorem delete_loose_hangs {world : World cfg} (unlinked : Unlinked world.noneRecord)
    (isLive : objectExists world obj = true) (loose : getContainer world obj = NONE) :
    deleteObject world obj = .error .hang := by
  have notNone : obj ≠ NONE := by
    rcases object_exists_iff.mp isLive with ⟨record, live⟩
    exact live_ne_none live
  have first : getFirstContainerObject world NONE = NONE := rfl
  have unlinkFails : unlinkObject world obj = .error .hang := by
    simp only [unlinkObject, loose, first, if_neg notNone.symm, cut_walk_none unlinked notNone]
    rfl
  rw [deleteObject, show walkLimit = 2 ^ 34 - 1 + 1 from rfl, deleteWithin, cutObject]
  simp only [isLive, Bool.not_true, Bool.false_eq_true, if_false, unlinkFails]
  rfl

theorem delete_matches (sound : Sound store kids none) (obj : Object) :
    Matches (pagedDelete store obj) (deleteObject (view store) obj) := by
  have isSucc : walkLimit = 2 ^ 34 - 1 + 1 := rfl
  -- The state after the first access, and the deletion that starts from it.
  have paged : pagedDelete store obj = .error .noSector ∨ ∃ middle, view middle = view store ∧
      Sound middle kids none ∧ Awake middle obj ∧ pagedDelete store obj = pagedDelete middle obj := by
    by_cases missing : obj = NONE
    · refine .inr ⟨store, rfl, sound, ?_, rfl⟩
      rw [missing]
      exact Backed.none_awake sound.backed
    rcases ensure_loaded_spec sound obj (show 2 ^ 37 ≤ pagingLimit by decide) with
      full | ⟨middle, returned, same, middleSound, awake⟩
    · left
      rw [pagedDelete, isSucc, pagedDeleteWithin, pagedExists, if_neg missing, full]
      rfl
    · right
      refine ⟨middle, same, middleSound, awake, ?_⟩
      have here : pagedExists store obj = pagedExists middle obj := by
        rw [pagedExists, pagedExists, if_neg missing, if_neg missing, returned,
          ensure_awake awake (by decide)]
      rw [pagedDelete, pagedDelete, isSucc, pagedDeleteWithin, pagedDeleteWithin, here]
  rcases paged with full | ⟨middle, same, middleSound, awake, start⟩
  · exact .inl full
  have follows := (deletion_follows walkLimit).2.2 middle obj (Sound.calm middleSound) awake
  rw [start, ← same]
  have described := middleSound.described
  rcases isLive : objectExists (view middle) obj with _ | _
  · have idle : pagedDelete middle obj = .ok middle ∧
        deleteObject (view middle) obj = .ok (view middle) := by
      constructor
      · rw [pagedDelete, isSucc, pagedDeleteWithin, exists_awake awake, ok_bind, isLive]
        rfl
      · rw [deleteObject, isSucc, deleteWithin, isLive]
        rfl
    exact .inr (.inr ⟨middle, kids, idle.1, idle.2, middleSound⟩)
  rcases follows with ⟨halt, failed, plainFailed⟩ | ⟨after, returned, plain, calm, steady⟩
  · exact .inr (.inl ⟨halt, failed, plainFailed⟩)
  by_cases loose : getContainer (view middle) obj = NONE
  · have hangs := delete_loose_hangs middleSound.noneRecord isLive loose
    rw [deleteObject, plain] at hangs
    cases hangs
  have edge := (placed_edge described.forest).mp ⟨isLive, loose⟩
  rcases delete_object_spec described.agreement described.forest edge with
    ⟨world, deletedReturned, deleted⟩
  rw [deleteObject, plain] at deletedReturned
  cases deletedReturned
  exact .inr (.inr ⟨after, prune kids obj, returned, plain,
    Sound.deleted middleSound awake edge calm steady deleted⟩)

theorem pages_match {result : Except Halt (PagedStore cfg)}
    {holds : PagedStore cfg → Prop} (pages : Pages store result holds)
    (sound : ∀ after, holds after → ∃ kids, Sound after kids none) :
    Matches result (.ok (view store)) := by
  rcases pages with full | ⟨after, returned, same, here⟩
  · exact .inl full
  rcases sound after here with ⟨kids, afterSound⟩
  rw [← same]
  exact .inr (.inr ⟨after, kids, returned, rfl, afterSound⟩)

theorem swap_sector_matches (sound : Sound store kids none) :
    Matches (swapSector pagingLimit store) (.ok (view store)) := by
  have pages : Pages store (swapSector pagingLimit store) fun after => Sound after kids none ∧
      after.firstFreeObject ≠ 0 ∧ Kept store after :=
    swap_sector_spec sound (show 2 ^ 34 ≤ pagingLimit by decide)
  exact pages_match pages fun after holds => ⟨kids, holds.1⟩

theorem unswap_sector_matches (sound : Sound store kids none) (number : Nat) :
    unswapSector pagingLimit store number = .error .abort ∨
      Matches (unswapSector pagingLimit store number) (.ok (view store)) := by
  rcases opened : store.files number with _ | file
  · left
    rw [show pagingLimit = 2 ^ 40 - 1 + 1 from rfl, unswapSector, opened]
  right
  have pages := unswap_sector_spec sound opened (show 2 ^ 36 ≤ pagingLimit by decide)
  exact pages_match pages fun after holds => ⟨kids, holds.1⟩

section Sectors

variable {world newWorld : World cfg} {mapCon : Fin 32 → Fin 32 → Object} {field : Object}
  {done : List (Fin 32 × Fin 32)}

structure FreshFields (world : World cfg) (done : List (Fin 32 × Fin 32))
    (mapCon : Fin 32 → Fin 32 → Object) : Prop where
  loose : ∀ place ∈ done, containerOf (liveRecord world) (mapCon place.1 place.2) = some NONE
  injective : ∀ place ∈ done, ∀ other ∈ done,
    mapCon place.1 place.2 = mapCon other.1 other.2 → place = other
  apart : ∀ x y z sector, world.sectors x y z = some sector → ∀ place ∈ done,
    ∀ other : Fin 32 × Fin 32, sector.mapCon other.1 other.2 ≠ mapCon place.1 place.2

/-- A new field was no object before, and all others lie where they lay. -/
theorem map_con_created {x y z : Int} (permanent : kinds world 0 = .permanent)
    (created : createMapCon world x y z = .ok (field, newWorld)) :
    liveRecord world field = none ∧ newWorld.sectors = world.sectors ∧
      ∀ node, containerOf (liveRecord newWorld) node =
        if node = field then some NONE else containerOf (liveRecord world) node := by
  rcases bind_ok.mp created with ⟨⟨obj, made⟩, wasMade, ended⟩
  cases ended
  rcases create_live permanent wasMade with ⟨_, wasDead, records⟩
  have sameSectors : made.sectors = world.sectors := by
    unfold createObject at wasMade
    split_ifs at wasMade
    simp only at wasMade
    split at wasMade
    · cases wasMade
      rfl
    · cases wasMade
  have slotSectors : ∀ (start : World cfg) slot value,
      (setSlot start field slot value).sectors = start.sectors := by
    intro start slot value
    unfold setSlot writeObject
    split <;> rfl
  have slotContainers : ∀ (start : World cfg) slot value node,
      containerOf (liveRecord (setSlot start field slot value)) node =
        containerOf (liveRecord start) node := by
    intro start slot value node
    rw [live_set_slot]
    exact view_update_keep fun _ => rfl
  refine ⟨wasDead, ?_, ?_⟩
  · rw [slotSectors, slotSectors, slotSectors, sameSectors]
  intro node
  rw [slotContainers, slotContainers, slotContainers, containerOf, records]
  split_ifs
  · rfl
  · rfl

theorem FreshFields.more (fresh : FreshFields world done mapCon)
    (live : ∀ x y z sector, world.sectors x y z = some sector → ∀ place : Fin 32 × Fin 32,
      liveRecord world (sector.mapCon place.1 place.2) ≠ none)
    (wasDead : liveRecord world field = none) (sectors : newWorld.sectors = world.sectors)
    (containers : ∀ node, containerOf (liveRecord newWorld) node =
      if node = field then some NONE else containerOf (liveRecord world) node)
    {place : Fin 32 × Fin 32} (unused : place ∉ done) :
    FreshFields newWorld (done ++ [place]) fun x y =>
      if x = place.1 ∧ y = place.2 then field else mapCon x y := by
  have isNew : ∀ other : Fin 32 × Fin 32, (other.1 = place.1 ∧ other.2 = place.2) ↔ other = place :=
    fun other => ⟨fun both => Prod.ext both.1 both.2, fun same => by simp [same]⟩
  have old : ∀ other ∈ done, other ≠ place := by
    intro other member here
    exact unused (here ▸ member)
  have oldAlive : ∀ other ∈ done, mapCon other.1 other.2 ≠ field := by
    intro other member here
    have loose := fresh.loose other member
    rw [here, containerOf, wasDead] at loose
    cases loose
  constructor
  · intro other member
    simp only [isNew]
    rcases mem_append.mp member with before | last
    · rw [if_neg (old other before), containers, if_neg (oldAlive other before)]
      exact fresh.loose other before
    · rw [if_pos (mem_singleton.mp last), containers, if_pos rfl]
  · intro left leftMember right rightMember same
    simp only [isNew] at same
    rcases mem_append.mp leftMember with leftBefore | leftLast
    · rw [if_neg (old left leftBefore)] at same
      rcases mem_append.mp rightMember with rightBefore | rightLast
      · rw [if_neg (old right rightBefore)] at same
        exact fresh.injective left leftBefore right rightBefore same
      rw [if_pos (mem_singleton.mp rightLast)] at same
      exact (oldAlive left leftBefore same).elim
    rw [if_pos (mem_singleton.mp leftLast)] at same
    rcases mem_append.mp rightMember with rightBefore | rightLast
    · rw [if_neg (old right rightBefore)] at same
      exact (oldAlive right rightBefore same.symm).elim
    · rw [mem_singleton.mp leftLast, mem_singleton.mp rightLast]
  · intro x y z sector found other member sectorPlace
    rw [sectors] at found
    simp only [isNew]
    rcases mem_append.mp member with before | last
    · rw [if_neg (old other before)]
      exact fresh.apart x y z sector found other before sectorPlace
    rw [if_pos (mem_singleton.mp last)]
    intro here
    apply live x y z sector found sectorPlace
    rw [here]
    exact wasDead

theorem create_map_con_matches (sound : Sound store kids none) (x y z : Int) :
    MatchesWith (pagedCreateMapCon store x y z) (createMapCon (view store) x y z) := by
  unfold pagedCreateMapCon createMapCon
  rcases create_matches sound with
    full | ⟨halt, failed, plainFailed⟩ | ⟨mapCon, made, newKids, returned, plain, madeSound⟩
  · left
    rw [full]
    rfl
  · right
    left
    rw [failed, plainFailed]
    exact ⟨halt, rfl, rfl⟩
  · rw [returned, plain, ok_bind, ok_bind]
    have slots : Matches
        (pagedSetSlot made mapCon 1 (UInt32.ofInt x) >>= fun store =>
          pagedSetSlot store mapCon 2 (UInt32.ofInt y) >>= fun store =>
            pagedSetSlot store mapCon 3 (UInt32.ofInt z))
        (Except.ok (setSlot (view made) mapCon 1 (UInt32.ofInt x)) >>= fun world =>
          Except.ok (setSlot world mapCon 2 (UInt32.ofInt y)) >>= fun world =>
            .ok (setSlot world mapCon 3 (UInt32.ofInt z))) := by
      apply (set_slot_matches madeSound mapCon (by decide) _).then
      intro first firstKids firstSound
      apply (set_slot_matches firstSound mapCon (by decide) _).then
      intro second secondKids secondSound
      exact set_slot_matches secondSound mapCon (by decide) _
    have unfolded : (do
        let store ← pagedSetSlot made mapCon 1 (UInt32.ofInt x)
        let store ← pagedSetSlot store mapCon 2 (UInt32.ofInt y)
        let store ← pagedSetSlot store mapCon 3 (UInt32.ofInt z)
        .ok (mapCon, store)) = (pagedSetSlot made mapCon 1 (UInt32.ofInt x) >>= fun store =>
          pagedSetSlot store mapCon 2 (UInt32.ofInt y) >>= fun store =>
            pagedSetSlot store mapCon 3 (UInt32.ofInt z)) >>= fun store =>
              (Except.ok (mapCon, store) : Except Halt (Object × PagedStore cfg)) := by
      simp only [bind_assoc]
    simp only [unfolded]
    rcases slots with full | ⟨halt, _, plainFailed⟩ | ⟨after, afterKids, ended, same, afterSound⟩
    · left
      rw [full]
      rfl
    · cases plainFailed
    · rw [ended]
      right
      right
      refine ⟨mapCon, after, afterKids, rfl, ?_, afterSound⟩
      rw [← Except.ok.inj same]

theorem create_map_cons_match (sectorX sectorY sectorZ : Int) (fields : List (Fin 32 × Fin 32))
    (sound : Sound store kids none) (fresh : FreshFields (view store) done mapCon)
    (nodup : (done ++ fields).Nodup) :
    pagedCreateMapCons sectorX sectorY sectorZ fields store mapCon = .error .noSector ∨
      (∃ halt, pagedCreateMapCons sectorX sectorY sectorZ fields store mapCon = .error halt ∧
        createMapCons sectorX sectorY sectorZ fields (view store) mapCon = .error halt) ∨
      ∃ after result newKids,
        pagedCreateMapCons sectorX sectorY sectorZ fields store mapCon = .ok (after, result) ∧
        createMapCons sectorX sectorY sectorZ fields (view store) mapCon =
          .ok (view after, result) ∧
        Sound after newKids none ∧ (view after).sectors = (view store).sectors ∧
        FreshFields (view after) (done ++ fields) result := by
  induction fields generalizing store kids mapCon done with
  | nil =>
    rw [append_nil]
    exact .inr (.inr ⟨store, mapCon, kids, rfl, rfl, sound, rfl, fresh⟩)
  | cons place rest ih =>
    rw [pagedCreateMapCons, createMapCons]
    rcases create_map_con_matches sound (sectorX * 32 + place.1) (sectorY * 32 + place.2) sectorZ
      with full | ⟨halt, failed, plainFailed⟩ | ⟨field, made, newKids, returned, plain, madeSound⟩
    · left
      rw [full]
      rfl
    · right
      left
      rw [failed, plainFailed]
      exact ⟨halt, rfl, rfl⟩
    · rw [returned, plain, ok_bind, ok_bind]
      rcases map_con_created sound.described.agreement.permanent plain with
        ⟨wasDead, sectors, containers⟩
      have live : ∀ x y z sector, (view store).sectors x y z = some sector →
          ∀ place : Fin 32 × Fin 32,
            liveRecord (view store) (sector.mapCon place.1 place.2) ≠ none := by
        intro x y z sector found place dead
        rcases Option.map_eq_some_iff.mp found with ⟨paged, pagedFound, rfl⟩
        have loose := sound.mapped.field x y z paged pagedFound place.1 place.2
        rw [containerOf, dead] at loose
        cases loose
      have split : (done ++ [place]) ++ rest = done ++ place :: rest := by simp
      have unused : place ∉ done := by
        intro member
        exact (nodup_append.mp nodup).2.2 place member place mem_cons_self rfl
      have later := ih madeSound (fresh.more live wasDead sectors containers unused)
        (by rw [split]; exact nodup)
      rw [split] at later
      rcases later with full | both | ⟨after, result, afterKids, ended, plainEnded, afterSound,
        sameSectors, afterFresh⟩
      · exact .inl full
      · exact .inr (.inl both)
      · exact .inr (.inr ⟨after, result, afterKids, ended, plainEnded, afterSound,
          sameSectors.trans sectors, afterFresh⟩)

theorem Sound.sector (sound : Sound store kids none) {sectorX sectorY sectorZ : Int}
    (absent : store.sectors sectorX sectorY sectorZ = none)
    (fresh : FreshFields (view store) sectorFields mapCon)
    (added : after = { store with
      sectors := fun x y z =>
        if x = sectorX ∧ y = sectorY ∧ z = sectorZ then some ⟨mapCon, store.roundNr, true, 0⟩
        else store.sectors x y z }) :
    view after = { view store with
      sectors := fun x y z =>
        if x = sectorX ∧ y = sectorY ∧ z = sectorZ then
          some (Sector.mk mapCon store.roundNr 0 : Sector)
        else (view store).sectors x y z } ∧ Sound after kids none := by
  have everywhere : ∀ place : Fin 32 × Fin 32, place ∈ sectorFields := by
    intro place
    apply mem_flatMap.mpr
    exact ⟨place.1, mem_finRange _, mem_map.mpr ⟨place.2, mem_finRange _, rfl⟩⟩
  have same : view after = { view store with
      sectors := fun x y z =>
        if x = sectorX ∧ y = sectorY ∧ z = sectorZ then
          some (Sector.mk mapCon store.roundNr 0 : Sector)
        else (view store).sectors x y z } := by
    have table : viewSectors after = fun x y z =>
        if x = sectorX ∧ y = sectorY ∧ z = sectorZ then
          some (Sector.mk mapCon store.roundNr 0 : Sector)
        else viewSectors store x y z := by
      funext x y z
      rw [added, viewSectors]
      by_cases here : x = sectorX ∧ y = sectorY ∧ z = sectorZ
      · simp only [if_pos here, Option.map_some]
      · simp only [if_neg here, viewSectors]
    rw [view, table, added]
    rfl
  have calm : Calm after := by
    rw [added]
    exact Calm.congr (Sound.calm sound) rfl rfl rfl rfl rfl rfl rfl
  have sectors : ∀ x y z, after.sectors x y z =
      if x = sectorX ∧ y = sectorY ∧ z = sectorZ then some ⟨mapCon, store.roundNr, true, 0⟩
      else store.sectors x y z := by
    intro x y z
    rw [added]
  have records : liveRecord (view after) = liveRecord (view store) := by
    rw [same]
    rfl
  have files : after.files = store.files := by
    rw [added]
  have oldApart : ∀ x y z sector, store.sectors x y z = some sector →
      ∀ place other : Fin 32 × Fin 32, sector.mapCon other.1 other.2 ≠ mapCon place.1 place.2 := by
    intro x y z sector found place other
    have shown : (view store).sectors x y z =
        some ⟨sector.mapCon, sector.timeStamp, sector.mapFlags⟩ := by
      show viewSectors store x y z = _
      rw [viewSectors, found]
      rfl
    exact fresh.apart x y z _ shown place (everywhere place) other
  refine ⟨same, calm.backed, ?_, ?_, fun number _ => calm.settled number, ?_⟩
  · rw [same]
    exact ⟨⟨sound.described.agreement.wellFormed, sound.described.agreement.permanent,
      sound.described.agreement.agree⟩, sound.described.forest⟩
  · constructor
    · intro x y z sector found fieldX fieldY
      rw [sectors] at found
      rw [records]
      by_cases here : x = sectorX ∧ y = sectorY ∧ z = sectorZ
      · rw [if_pos here] at found
        cases found
        exact fresh.loose (fieldX, fieldY) (everywhere _)
      rw [if_neg here] at found
      exact sound.mapped.field x y z sector found fieldX fieldY
    · intro x y z sector x' y' z' sector' found found' place place' sameField
      rw [sectors] at found found'
      by_cases here : x = sectorX ∧ y = sectorY ∧ z = sectorZ
      · rw [if_pos here] at found
        cases found
        by_cases there : x' = sectorX ∧ y' = sectorY ∧ z' = sectorZ
        · rw [if_pos there] at found'
          cases found'
          have samePlace := fresh.injective place (everywhere _) place' (everywhere _) sameField
          rw [here.1, here.2.1, here.2.2, there.1, there.2.1, there.2.2, samePlace]
        rw [if_neg there] at found'
        exact (oldApart x' y' z' sector' found' place place' sameField.symm).elim
      rw [if_neg here] at found
      by_cases there : x' = sectorX ∧ y' = sectorY ∧ z' = sectorZ
      · rw [if_pos there] at found'
        cases found'
        exact (oldApart x y z sector found place' place sameField).elim
      rw [if_neg there] at found'
      exact sound.mapped.distinct x y z sector x' y' z' sector' found found' place place'
        sameField
    · intro number file opened
      rw [files] at opened
      rcases sound.mapped.filed number file opened with
        ⟨closed, sector, found, unloaded, exact_entries⟩
      have apart : ¬ (file.sectorX = sectorX ∧ file.sectorY = sectorY ∧ file.sectorZ = sectorZ) := by
        intro here
        rw [here.1, here.2.1, here.2.2, absent] at found
        cases found
      refine ⟨closed, sector, by rw [sectors, if_neg apart]; exact found, unloaded, ?_⟩
      intro index
      rw [Stored, stored_congr (congrFun files number)]
      exact exact_entries index
    · intro number other file otherFile opened otherOpened
      rw [files] at opened otherOpened
      exact sound.mapped.oneFile number other file otherFile opened otherOpened
    · rw [added]
      exact sound.mapped.fileNumber
  · rw [same]
    exact sound.noneRecord

theorem init_sector_matches (sound : Sound store kids none) (sectorX sectorY sectorZ : Int) :
    Matches (pagedInitSector store sectorX sectorY sectorZ)
      (initSector (view store) sectorX sectorY sectorZ) := by
  have shown : ((view store).sectors sectorX sectorY sectorZ).isSome =
      (store.sectors sectorX sectorY sectorZ).isSome := Option.isSome_map
  rw [pagedInitSector, initSector, shown]
  cases here : (store.sectors sectorX sectorY sectorZ).isSome with
  | true => exact .inr (.inr ⟨store, kids, rfl, rfl, sound⟩)
  | false =>
    have fresh : FreshFields (view store) [] fun _ _ => NONE :=
      ⟨fun _ member => (not_mem_nil member).elim, fun _ member => (not_mem_nil member).elim,
        fun _ _ _ _ _ _ member => (not_mem_nil member).elim⟩
    have nodup : ([] ++ sectorFields).Nodup := sector_fields_nodup
    rcases create_map_cons_match sectorX sectorY sectorZ sectorFields sound fresh nodup with
      full | ⟨halt, failed, plainFailed⟩ |
        ⟨made, mapCon, newKids, returned, plain, madeSound, sameSectors, madeFresh⟩
    · left
      rw [full]
      rfl
    · right
      left
      rw [failed, plainFailed]
      exact ⟨halt, rfl, rfl⟩
    · rw [returned, plain, ok_bind, ok_bind]
      have absent : made.sectors sectorX sectorY sectorZ = none := by
        have sameShown := congrArg (fun sectors => (sectors sectorX sectorY sectorZ).isSome)
          sameSectors
        rw [show ((view made).sectors sectorX sectorY sectorZ).isSome =
          (made.sectors sectorX sectorY sectorZ).isSome from Option.isSome_map, shown, here]
          at sameShown
        simpa using sameShown
      rcases Sound.sector madeSound absent madeFresh rfl with ⟨same, finalSound⟩
      refine .inr (.inr ⟨_, newKids, rfl, ?_, finalSound⟩)
      rw [same]
      rfl

end Sectors

end TibiaGame.PagedRuns
