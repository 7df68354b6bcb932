import TibiaGame.SectorLoading

/-!
# Objects that are not swapped out

Between two calls an object in memory is linked to objects in memory only, because a
sector is swapped out as a whole. As long as a function reaches objects through such
links, it runs on the paged store as it does on the view.
-/

namespace TibiaGame.AwakeObjects

open GameTypes ObjectStore ObjectOperations ContentForest
open ForestSteps SectorSwapping SlotAccounting SwapView SwapOut SectorPaging
open SectorLoading Library.LinkedList Library.OrderedForest Library.Outcome

variable {cfg : GameConfig} {store after : PagedStore cfg} {number index slot : Nat}
  {kids : Object → List Object} {obj con node : Object} {record : MapObject cfg}

def Awake (store : PagedStore cfg) (obj : Object) : Prop :=
  store.hashTableType (entryIndex cfg obj.objectID) ≠ .swapped

structure LinksAwake (store : PagedStore cfg) (record : MapObject cfg) : Prop where
  next : Awake store record.nextObject
  container : Awake store record.container
  content : Awake store record.content

/-- A state between the accesses of one call that pages nothing in or out. -/
structure Calm (store : PagedStore cfg) : Prop where
  backed : Backed store
  settled : ∀ number index, Stored store number index → store.hashTableType index = .swapped
  linked : ∀ index, HasSlot store index → LinksAwake store (readSlot store (store.hashTableData index))

/-- Neither files nor sectors change, and entries at most become free. -/
structure Steady (store after : PagedStore cfg) : Prop where
  layout : after.layout = store.layout
  files : after.files = store.files
  sectors : after.sectors = store.sectors
  fileNumber : after.fileNumber = store.fileNumber
  types : ∀ index, after.hashTableType index = store.hashTableType index ∨
    store.hashTableType index = .loaded ∧ after.hashTableType index = .free

theorem Steady.refl (store : PagedStore cfg) : Steady store store :=
  ⟨rfl, rfl, rfl, rfl, fun _ => .inl rfl⟩

theorem Steady.trans {middle : PagedStore cfg} (first : Steady store middle)
    (second : Steady middle after) : Steady store after where
  layout := second.layout.trans first.layout
  files := second.files.trans first.files
  sectors := second.sectors.trans first.sectors
  fileNumber := second.fileNumber.trans first.fileNumber
  types := by
    intro index
    rcases second.types index with same | ⟨loaded, free⟩
    · rw [same]
      exact first.types index
    rcases first.types index with same | ⟨_, wasFree⟩
    · rw [same] at loaded
      exact .inr ⟨loaded, free⟩
    rw [wasFree] at loaded
    cases loaded

theorem Steady.awake (steady : Steady store after) (awake : Awake store obj) : Awake after obj := by
  intro swapped
  rcases steady.types (entryIndex cfg obj.objectID) with same | ⟨_, free⟩
  · rw [same] at swapped
    exact awake swapped
  rw [free] at swapped
  cases swapped

theorem Steady.links (steady : Steady store after) (links : LinksAwake store record) :
    LinksAwake after record :=
  ⟨steady.awake links.next, steady.awake links.container, steady.awake links.content⟩

theorem Backed.none_awake (backed : Backed store) : Awake store NONE := by
  have zero : entryIndex cfg NONE.objectID = 0 := Nat.zero_mod _
  rw [Awake, zero, (backed.accounting.permanent 0).mpr rfl]
  decide

theorem Sound.same_files (sound : Sound store kids none) (edge : obj ∈ kids con) :
    Stored store number (entryIndex cfg obj.objectID) ↔
      Stored store number (entryIndex cfg con.objectID) := by
  have forest := sound.described.forest
  rcases forest.kid_live edge with ⟨_, objLive, _⟩
  rcases holder_record (forest.parent_holds edge) with ⟨_, conLive, _⟩
  -- A sector has the object below one of its fields exactly when it has the container.
  have sameSector : ∀ x y z sector, store.sectors x y z = some sector →
      (entryIndex cfg obj.objectID ∈ sectorEntries cfg kids sector ↔
        entryIndex cfg con.objectID ∈ sectorEntries cfg kids sector) := by
    intro x y z sector found
    constructor
    · intro inside
      rcases inside with ⟨node, inner, same⟩
      rcases sound.mapped.inside_live forest found inner with ⟨_, live⟩
      rw [live_index_injective live objLive same] at inner
      rcases inner with ⟨field, member, under⟩
      rcases List.mem_map.mp member with ⟨place, _, rfl⟩
      rcases below_cases forest.single under edge with isField | parentInside
      · rw [isField] at edge
        exact (sound.mapped.root forest found place con edge).elim
      · exact ⟨con, ⟨_, member, parentInside⟩, rfl⟩
    intro inside
    rcases inside with ⟨node, inner, same⟩
    rcases sound.mapped.inside_live forest found inner with ⟨_, live⟩
    rw [live_index_injective live conLive same] at inner
    rcases inner with ⟨field, member, under⟩
    exact ⟨obj, ⟨field, member, below_step under edge⟩, rfl⟩
  rcases opened : store.files number with _ | file
  · constructor
    all_goals
      intro stored
      rcases stored with ⟨_, found⟩
      rw [storedRecord, opened] at found
      cases found
  rcases sound.mapped.filed number file opened with ⟨_, sector, found, _, exact_entries⟩
  rw [exact_entries, exact_entries]
  exact sameSector _ _ _ sector found

theorem Sound.edge_awake (sound : Sound store kids none) (edge : obj ∈ kids con) :
    Awake store obj ↔ Awake store con := by
  constructor
  · intro awake swapped
    have stored := (Sound.same_files sound edge).mpr (sound.backed.backed _ swapped)
    exact awake (sound.settled _ nofun _ stored)
  · intro awake swapped
    have stored := (Sound.same_files sound edge).mp (sound.backed.backed _ swapped)
    exact awake (sound.settled _ nofun _ stored)

/-- Between two calls nothing in memory is linked to something that is swapped out. -/
theorem Sound.calm (sound : Sound store kids none) : Calm store where
  backed := sound.backed
  settled := fun number => sound.settled number nofun
  linked := by
    intro index has
    have noneAwake := Backed.none_awake sound.backed
    rcases has with loaded | permanent
    · have forest := sound.described.forest
      set record := readSlot store (store.hashTableData index) with recordIs
      have own : entryIndex cfg record.objectID = index := sound.backed.accounting.ownIndex index loaded
      have live : liveRecord (view store) ⟨record.objectID⟩ = some record := by
        apply live_cell.mpr
        refine ⟨?_, ?_, rfl⟩
        · intro isNone
          have zero : index = 0 := by
            rw [← own, (Object.mk.inj isNone : record.objectID = 0)]
            exact Nat.zero_mod _
          exact sound.backed.accounting.loaded_pos loaded zero
        · show viewCell store (entryIndex cfg record.objectID) = .loaded record
          rw [own]
          exact view_loaded loaded
      have selfAwake : Awake store ⟨record.objectID⟩ := by
        intro swapped
        rw [show entryIndex cfg (Object.mk record.objectID).objectID = index from own,
          loaded] at swapped
        cases swapped
      have containerOf_self : containerOf (liveRecord (view store)) ⟨record.objectID⟩ =
          some record.container := by
        rw [containerOf, live, Option.map_some]
      have nextOf_self : nextOf (liveRecord (view store)) ⟨record.objectID⟩ = record.nextObject := by
        rw [nextOf, live]
        rfl
      have inContainer : record.container ≠ NONE →
          (⟨record.objectID⟩ : Object) ∈ kids record.container := by
        intro placed
        exact (forest.member _ _).mpr ⟨placed, containerOf_self⟩
      constructor
      · by_cases loose : record.container = NONE
        · rw [loose] at containerOf_self
          rw [← nextOf_self, forest.loose_next _ containerOf_self]
          exact noneAwake
        have edge := inContainer loose
        by_cases last : record.nextObject = NONE
        · rw [last]
          exact noneAwake
        have isHolder := forest.parent_holds edge
        rcases holder_record isHolder with ⟨conRecord, conLive, _⟩
        have start : contentOf (liveRecord (view store)) record.container =
            some conRecord.content := by
          rw [contentOf, conLive, Option.map_some]
        have later := chain_next_mem (forest.chain _ _ isHolder start) edge
          (by rwa [nextOf_self])
        rw [nextOf_self] at later
        exact (Sound.edge_awake sound later).mpr ((Sound.edge_awake sound edge).mp selfAwake)
      · by_cases loose : record.container = NONE
        · rw [loose]
          exact noneAwake
        · exact (Sound.edge_awake sound (inContainer loose)).mp selfAwake
      · rcases holds : record.type.holdsObjects with _ | _
        · rw [content_of_plain record holds]
          exact noneAwake
        have chain := forest.chain ⟨record.objectID⟩ record.content
          (by rw [holdsOf, live, Option.map_some, holds])
          (by rw [contentOf, live, Option.map_some])
        rcases members : kids ⟨record.objectID⟩ with _ | ⟨head, rest⟩
        · rw [members] at chain
          rw [chain_start chain]
          exact noneAwake
        have edge : head ∈ kids ⟨record.objectID⟩ := by
          rw [members]
          exact List.mem_cons_self
        rw [members] at chain
        rw [chain_start chain]
        exact (Sound.edge_awake sound edge).mpr selfAwake
    · have zero := (sound.backed.accounting.permanent index).mp permanent
      have unlinked : Unlinked (readSlot store (store.hashTableData index)) := by
        rw [zero]
        exact sound.noneRecord
      constructor
      · rw [unlinked.next]
        exact noneAwake
      · rw [unlinked.container]
        exact noneAwake
      · rw [unlinked.content]
        exact noneAwake

theorem ensure_awake {fuel : Nat} (awake : Awake store obj) (positive : 0 < fuel) :
    ensureLoaded fuel store obj = .ok store := by
  cases fuel with
  | zero => omega
  | succ fuel => rw [ensureLoaded, if_neg awake]

theorem exists_awake (awake : Awake store obj) :
    pagedExists store obj = .ok (objectExists (view store) obj, store) := by
  unfold pagedExists
  by_cases missing : obj = NONE
  · rw [if_pos missing, missing]
    simp [objectExists]
  · rw [if_neg missing, ensure_awake awake (by decide), ok_bind, resident_awake awake missing]

theorem access_awake (awake : Awake store obj) :
    pagedAccess store obj = .ok (accessObject (view store) obj, store) := by
  unfold pagedAccess
  by_cases missing : obj = NONE
  · rw [if_pos missing, missing, accessObject, live_none]
    rfl
  · rw [if_neg missing, ensure_awake awake (by decide), ok_bind, read_awake awake]

theorem get_attribute_awake (awake : Awake store obj) (attr : InstanceAttribute) :
    pagedGetAttribute store obj attr = .ok (getAttribute (view store) obj attr, store) := by
  simp only [pagedGetAttribute, access_awake awake, ok_bind, getAttribute]

theorem first_content_awake (awake : Awake store con) :
    pagedFirstContent store con = .ok (getFirstContainerObject (view store) con, store) := by
  unfold pagedFirstContent getFirstContainerObject
  by_cases missing : con = NONE
  · rw [if_pos missing, if_pos missing]
  rw [if_neg missing, if_neg missing, access_awake awake, ok_bind, getObjectType]
  by_cases holds : (accessObject (view store) con).type.holdsObjects = true
  · simp only [if_pos holds, get_attribute_awake awake, ok_bind]
  · simp only [if_neg holds]

/-- The slot that is read belongs to the entry of the object, or to entry 0. -/
theorem slot_of_entry (backed : Backed store) (obj : Object) :
    ∃ index, HasSlot store index ∧ slotOf store obj = store.hashTableData index := by
  unfold slotOf
  split_ifs with resident
  · have loaded := (Bool.and_eq_true _ _).mp resident.2
    exact ⟨_, .inl (of_decide_eq_true loaded.1), rfl⟩
  · exact ⟨0, backed.accounting.none_slot, rfl⟩

theorem Calm.access_links (calm : Calm store) (awake : Awake store obj) :
    LinksAwake store (accessObject (view store) obj) := by
  rcases slot_of_entry calm.backed obj with ⟨index, has, same⟩
  rw [← read_awake awake, same]
  exact calm.linked index has

theorem cut_walk_awake (obj : Object) (fuel : Nat) {cur : Object} (calm : Calm store)
    (awake : Awake store cur) :
    (∃ halt, pagedCutWalk obj fuel store cur = .error halt ∧
      cutWalk (view store) obj fuel cur = .error halt) ∨
    ∃ prev, pagedCutWalk obj fuel store cur = .ok (prev, store) ∧
      cutWalk (view store) obj fuel cur = .ok prev ∧ Awake store prev := by
  induction fuel generalizing cur with
  | zero => exact .inl ⟨.hang, rfl, rfl⟩
  | succ fuel ih =>
    rw [pagedCutWalk, access_awake awake, ok_bind, cutWalk, getNextObject]
    by_cases found : (accessObject (view store) cur).nextObject = obj
    · right
      refine ⟨cur, ?_, ?_, awake⟩
      all_goals simp only [if_pos found]
    simp only [if_neg found]
    exact ih (calm.access_links awake).next

theorem view_cell_write (accounting : Accounting store) (has : HasSlot store index)
    (object : MapObject cfg) (place : Nat) :
    viewCell (writeSlot store (store.hashTableData index) object) place =
      if place = index ∧ store.hashTableType index = .loaded then .loaded object
      else viewCell store place := by
  by_cases here : place = index
  · rw [here]
    by_cases loaded : store.hashTableType index = .loaded
    · rw [if_pos ⟨rfl, loaded⟩, view_loaded (show (writeSlot store _ object).hashTableType index =
        .loaded from loaded)]
      congr 1
      exact (read_write_slot _ _ _ _).trans (if_pos rfl)
    rw [if_neg fun both => loaded both.2]
    have permanent := has.resolve_left loaded
    simp only [viewCell, permanent]
    rw [show (writeSlot store _ object).hashTableType index = .permanent from permanent]
  rw [if_neg fun both => here both.1]
  apply view_cell_congr
  · rfl
  · rfl
  · intro placeHas
    rw [read_write_slot, if_neg]
    intro same
    exact here (accounting.distinct place index placeHas has same)
  · intro _
    rfl

theorem view_write (backed : Backed store) (awake : Awake store obj)
    (change : MapObject cfg → MapObject cfg) :
    view (writeSlot store (slotOf store obj) (change (readSlot store (slotOf store obj)))) =
      writeObject (view store) obj change := by
  have accounting := backed.accounting
  have noneSlot := accounting.none_slot
  have zero := (accounting.permanent 0).mpr rfl
  rw [writeObject, live_awake awake, slotOf]
  by_cases resident : obj ≠ NONE ∧ isResident store obj = true
  · have loaded := of_decide_eq_true ((Bool.and_eq_true _ _).mp resident.2).1
    have cells := view_cell_write accounting (.inl loaded) (change (readSlot store
      (store.hashTableData (entryIndex cfg obj.objectID))))
    simp only [if_pos resident]
    unfold view
    congr 1
    · funext place
      rw [cells, Function.update_apply]
      simp only [loaded, and_true]
    · rw [read_write_slot, if_neg]
      · rfl
      · intro same
        exact (accounting.loaded_pos loaded) (accounting.distinct 0 _ noneSlot (.inl loaded) same).symm
  have cells := view_cell_write accounting noneSlot (change (readSlot store
    (store.hashTableData 0)))
  simp only [if_neg resident]
  unfold view
  congr 1
  · funext place
    rw [cells, if_neg]
    intro both
    rw [zero] at both
    cases both.2
  · exact (read_write_slot _ _ _ _).trans (if_pos rfl)

/-- A write through a pointer to an object that is not swapped out. -/
theorem Calm.write (calm : Calm store) (awake : Awake store obj)
    {change : MapObject cfg → MapObject cfg}
    (number : ∀ record, (change record).objectID = record.objectID)
    (links : ∀ record, LinksAwake store record → LinksAwake store (change record)) :
    ∃ after, pagedWrite store obj change = .ok after ∧
      view after = writeObject (view store) obj change ∧ Calm after ∧ Steady store after := by
  have accounting := calm.backed.accounting
  have written : pagedWrite store obj change = .ok (writeSlot store (slotOf store obj)
      (change (readSlot store (slotOf store obj)))) := by
    rw [pagedWrite, access_awake awake, ok_bind, ← read_awake awake]
  have steady : ∀ slot object, Steady store (writeSlot store slot object) :=
    fun _ _ => ⟨rfl, rfl, rfl, rfl, fun _ => .inl rfl⟩
  refine ⟨_, written, view_write calm.backed awake change, ?_, steady _ _⟩
  · rcases slot_of_entry calm.backed obj with ⟨index, has, same⟩
    rw [same]
    constructor
    · constructor
      · apply accounting.rewrite has
        intro loaded
        rw [number]
        exact accounting.ownIndex index loaded
      · exact calm.backed.backed
      · exact calm.backed.single
      · intro file place record found
        have wasStored : storedRecord store file place = some record := found
        rcases calm.backed.states file place record wasStored with swapped | ⟨loaded, _⟩
        · exact .inl swapped
        have swapped := calm.settled file place ⟨record, wasStored⟩
        rw [loaded] at swapped
        cases swapped
    · exact calm.settled
    · intro place placeHas
      apply (steady _ _).links
      rw [read_write_slot]
      split_ifs
      · exact links _ (calm.linked index has)
      · exact calm.linked place placeHas

end TibiaGame.AwakeObjects
