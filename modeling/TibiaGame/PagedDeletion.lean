import TibiaGame.AwakeObjects

/-!
# `delete_object` on the paged store

After the first access to the object its whole tree is in memory, so the rest of the
call pages nothing and follows the call on the view.
-/

namespace TibiaGame.PagedDeletion

open GameTypes CronModel ObjectStore ObjectOperations ObjectKinds Function
open ForestSteps ForestDeletion SectorSwapping SlotAccounting SwapView SwapOut
open SectorPaging SectorLoading AwakeObjects Library.OrderedForest Library.Outcome

variable {cfg : GameConfig} {store after : PagedStore cfg} {kids : Object → List Object}
  {obj con : Object}

/-- The call on the paged store does what the call on the view does. -/
def Follows (store : PagedStore cfg) (result : Except Halt (PagedStore cfg))
    (plain : Except Halt (World cfg)) : Prop :=
  (∃ halt, result = .error halt ∧ plain = .error halt) ∨
    ∃ after, result = .ok after ∧ plain = .ok (view after) ∧ Calm after ∧ Steady store after

theorem follows_refl (calm : Calm store) : Follows store (.ok store) (.ok (view store)) :=
  .inr ⟨store, rfl, rfl, calm, Steady.refl store⟩

theorem Follows.then {result : Except Halt (PagedStore cfg)} {plain : Except Halt (World cfg)}
    {next : PagedStore cfg → Except Halt (PagedStore cfg)}
    {plainNext : World cfg → Except Halt (World cfg)} (first : Follows store result plain)
    (later : ∀ middle, Calm middle → Steady store middle →
      Follows middle (next middle) (plainNext (view middle))) :
    Follows store (result >>= next) (plain >>= plainNext) := by
  rcases first with ⟨halt, failed, plainFailed⟩ | ⟨middle, returned, plainReturned, calm, steady⟩
  · left
    refine ⟨halt, ?_, ?_⟩
    · rw [failed]
      rfl
    · rw [plainFailed]
      rfl
  rw [returned, plainReturned, ok_bind, ok_bind]
  rcases later middle calm steady with failed | ⟨after, ended, plainEnded, afterCalm, afterSteady⟩
  · exact .inl failed
  · exact .inr ⟨after, ended, plainEnded, afterCalm, steady.trans afterSteady⟩

theorem Calm.congr (calm : Calm store) (layout : after.layout = store.layout)
    (slots : after.slots = store.slots) (first : after.firstFreeObject = store.firstFreeObject)
    (types : after.hashTableType = store.hashTableType)
    (data : after.hashTableData = store.hashTableData)
    (counter : after.hashTableFree = store.hashTableFree) (files : after.files = store.files) :
    Calm after := by
  have read : readSlot after = readSlot store := by
    funext slot
    rw [readSlot, readSlot, slots]
  have stored : storedRecord after = storedRecord store := by
    funext number index
    rw [storedRecord, storedRecord, files]
  constructor
  · constructor
    · exact calm.backed.accounting.congr layout slots first types data counter
    · intro index swapped
      rw [types] at swapped
      rw [data, Stored, stored]
      exact calm.backed.backed index swapped
    · intro number file opened
      rw [files] at opened
      exact calm.backed.single number file opened
    · intro number index record found
      rw [stored] at found
      rw [types, data, read]
      exact calm.backed.states number index record found
  · intro number index found
    rw [Stored, stored] at found
    rw [types]
    exact calm.settled number index found
  · intro index has
    rw [HasSlot, types] at has
    have linked := calm.linked index has
    have awake : ∀ obj, Awake store obj → Awake after obj := by
      intro obj isAwake
      rw [Awake, types]
      exact isAwake
    rw [read, data]
    exact ⟨awake _ linked.next, awake _ linked.container, awake _ linked.content⟩

section Writes

variable (calm : Calm store) (awake : Awake store obj)
include calm awake

theorem write_follows (change : MapObject cfg → MapObject cfg)
    (number : ∀ record, (change record).objectID = record.objectID)
    (links : ∀ record, LinksAwake store record → LinksAwake store (change record)) :
    Follows store (pagedWrite store obj change) (.ok (writeObject (view store) obj change)) := by
  rcases calm.write awake number links with ⟨after, returned, same, afterCalm, steady⟩
  rw [← same]
  exact .inr ⟨after, returned, rfl, afterCalm, steady⟩

theorem set_next_follows {next : Object} (nextAwake : Awake store next) :
    Follows store (pagedWrite store obj fun record => { record with nextObject := next })
      (.ok (setNextObject (view store) obj next)) :=
  write_follows calm awake (fun record => { record with nextObject := next }) (fun _ => rfl)
    fun _ links => ⟨nextAwake, links.container, links.content⟩

theorem set_container_follows {con : Object} (conAwake : Awake store con) :
    Follows store (pagedWrite store obj fun record => { record with container := con })
      (.ok (setContainer (view store) obj con)) :=
  write_follows calm awake (fun record => { record with container := con }) (fun _ => rfl)
    fun _ links => ⟨links.next, conAwake, links.content⟩

theorem set_attribute_follows {attr : InstanceAttribute} {value : UInt32}
    (fits : attr = .content → Awake store ⟨value⟩) :
    Follows store (pagedSetAttribute store obj attr value)
      (.ok (setAttribute (view store) obj attr value)) := by
  have links : ∀ record : MapObject cfg, LinksAwake store record →
      LinksAwake store (record.setAttribute attr value) := by
    intro record links
    constructor
    · rw [set_attribute_next]
      exact links.next
    · rw [set_attribute_container]
      exact links.container
    · by_cases here : attr = .content
      · rw [here]
        cases holds : record.type.holdsObjects with
        | true =>
          rw [set_content record holds]
          exact fits here
        | false =>
          rw [content_of_plain _ (by rw [record_set_attribute_type]; exact holds)]
          exact Backed.none_awake calm.backed
      rw [set_attribute_content record here]
      exact links.content
  rw [pagedSetAttribute, access_awake awake, ok_bind]
  exact write_follows calm awake (fun record => record.setAttribute attr value)
    (fun record => record_set_attribute_number record attr value) links

end Writes

theorem unlink_follows (calm : Calm store) (awake : Awake store obj) :
    Follows store (pagedUnlink store obj) (unlinkObject (view store) obj) := by
  have sameContainer : (accessObject (view store) obj).container = getContainer (view store) obj :=
    rfl
  have sameNext : (accessObject (view store) obj).nextObject = getNextObject (view store) obj := rfl
  have containerAwake : Awake store (getContainer (view store) obj) :=
    (calm.access_links awake).container
  have nextAwake : Awake store (getNextObject (view store) obj) := (calm.access_links awake).next
  have contentAwake : Awake store
      (getFirstContainerObject (view store) (getContainer (view store) obj)) := by
    unfold getFirstContainerObject
    split_ifs
    · exact Backed.none_awake calm.backed
    · exact (calm.access_links containerAwake).content
    · exact Backed.none_awake calm.backed
  simp only [pagedUnlink, unlinkObject, access_awake awake, ok_bind, sameContainer, sameNext,
    first_content_awake containerAwake]
  by_cases isFirst : getFirstContainerObject (view store) (getContainer (view store) obj) = obj
  · rw [if_pos isFirst, if_pos isFirst]
    exact set_attribute_follows calm containerAwake fun _ => nextAwake
  rw [if_neg isFirst, if_neg isFirst]
  rcases cut_walk_awake obj walkLimit calm contentAwake with
    ⟨halt, failed, plainFailed⟩ | ⟨prev, returned, plainReturned, prevAwake⟩
  · left
    refine ⟨halt, ?_, ?_⟩
    · rw [failed]
      rfl
    · rw [plainFailed]
      rfl
  · rw [returned, plainReturned, ok_bind, ok_bind]
    simp only [access_awake awake, ok_bind, sameNext]
    exact set_next_follows calm prevAwake nextAwake

theorem cut_follows (calm : Calm store) (awake : Awake store obj) :
    Follows store (pagedCut store obj) (cutObject (view store) obj) := by
  rw [pagedCut, exists_awake awake, ok_bind, cutObject]
  rcases isLive : objectExists (view store) obj with _ | _
  · exact follows_refl calm
  apply (unlink_follows calm awake).then
  intro joined joinedCalm joinedSteady
  have stillAwake := joinedSteady.awake awake
  show Follows joined _ (Except.ok (setNextObject (view joined) obj NONE) >>= fun world =>
    .ok (setContainer world obj NONE))
  apply (set_next_follows joinedCalm stillAwake (Backed.none_awake joinedCalm.backed)).then
  intro middle calm steady
  exact set_container_follows calm (steady.awake stillAwake) (Backed.none_awake calm.backed)

section Destroying

variable (calm : Calm store) (awake : Awake store obj)
include calm awake

theorem delete_strings_follows :
    Follows store (pagedDeleteStrings store obj) (.ok (deleteStrings (view store) obj)) := by
  have calmWith : ∀ strings, Calm { store with strings := strings } := fun strings =>
    Calm.congr calm rfl rfl rfl rfl rfl rfl rfl
  have editor : ∀ strings, pagedGetAttribute { store with strings := strings } obj .editor =
      .ok (getAttribute (view store) obj .editor, { store with strings := strings }) :=
    fun strings => @get_attribute_awake _ { store with strings := strings } _ awake .editor
  right
  refine ⟨{ store with strings := (deleteStrings (view store) obj).strings }, ?_, rfl, calmWith _,
    ⟨rfl, rfl, rfl, rfl, fun _ => .inl rfl⟩⟩
  simp only [pagedDeleteStrings, get_attribute_awake awake, ok_bind, editor]
  rfl

theorem cron_stop_follows :
    Follows store ((pagedCronStop store obj).map Prod.snd) ((cronStop (view store) obj).map Prod.snd)
    := by
  unfold pagedCronStop cronStop cronInfo
  rw [exists_awake awake, ok_bind]
  rcases isLive : objectExists (view store) obj with _ | _
  · exact follows_refl calm
  simp only [Bool.not_true, Bool.false_eq_true, if_false, if_true, ok_bind, exists_awake awake,
    isLive]
  show Follows store (Except.map Prod.snd (cronFind store.cron obj >>= _))
    (Except.map Prod.snd (cronFind store.cron obj >>= _))
  rcases cronFind store.cron obj with halt | found
  · exact .inl ⟨halt, rfl, rfl⟩
  rcases found with _ | position
  · exact follows_refl calm
  right
  refine ⟨_, rfl, rfl, Calm.congr calm rfl rfl rfl rfl rfl rfl rfl, ?_⟩
  exact ⟨rfl, rfl, rfl, rfl, fun _ => .inl rfl⟩

theorem release_follows :
    Follows store (.ok (pagedRelease store obj)) (.ok (releaseObject (view store) obj)) := by
  have cell : (view store).hashTable (entryIndex cfg obj.objectID) =
      viewCell store (entryIndex cfg obj.objectID) := rfl
  by_cases loaded : store.hashTableType (entryIndex cfg obj.objectID) = .loaded
  · have unfiled : ∀ number, ¬ Stored store number (entryIndex cfg obj.objectID) := by
      intro number stored
      exact awake (calm.settled number _ stored)
    rcases calm.backed.accounting.inBlocks _ (.inl loaded) with ⟨positive, _⟩
    have notNull : store.hashTableData (entryIndex cfg obj.objectID) ≠ 0 := by omega
    have kept : pagedRelease store obj = { putFreeObjectSlot store
          (store.hashTableData (entryIndex cfg obj.objectID)) with
        hashTableType := update store.hashTableType (entryIndex cfg obj.objectID) .free
        hashTableFree := store.hashTableFree + 1 } := by
      simp only [pagedRelease, if_pos loaded, putFreeObjectSlot, if_neg notNull]
    rcases calm.backed.release loaded unfiled kept with ⟨backed, same⟩
    have types : (pagedRelease store obj).hashTableType =
        update store.hashTableType (entryIndex cfg obj.objectID) .free := by
      rw [kept]
    have data : (pagedRelease store obj).hashTableData = store.hashTableData := by
      rw [kept, putFreeObjectSlot, if_neg notNull]
    have files : (pagedRelease store obj).files = store.files := by
      rw [kept, putFreeObjectSlot, if_neg notNull]
    have steady : Steady store (pagedRelease store obj) := by
      refine ⟨?_, files, ?_, ?_, ?_⟩
      · rw [kept, putFreeObjectSlot, if_neg notNull]
      · rw [kept, putFreeObjectSlot, if_neg notNull]
      · rw [kept, putFreeObjectSlot, if_neg notNull]
      · intro index
        rw [types]
        by_cases here : index = entryIndex cfg obj.objectID
        · rw [here, update_self]
          exact .inr ⟨loaded, rfl⟩
        rw [update_of_ne here]
        exact .inl rfl
    refine .inr ⟨_, rfl, ?_, ⟨backed, ?_, ?_⟩, steady⟩
    · rw [same, releaseObject, cell, view_loaded loaded]
      rfl
    · intro number index stored
      rw [Stored, stored_congr (congrFun files number)] at stored
      have swapped := calm.settled number index stored
      rw [types, update_of_ne]
      · exact swapped
      · intro here
        rw [here, loaded] at swapped
        cases swapped
    · intro index has
      have different : index ≠ entryIndex cfg obj.objectID := by
        intro here
        rw [HasSlot, types, here, update_self] at has
        rcases has with isLoaded | isPermanent
        · cases isLoaded
        · cases isPermanent
      rw [HasSlot, types, update_of_ne different] at has
      have apart : store.hashTableData index ≠
          store.hashTableData (entryIndex cfg obj.objectID) := by
        intro sameSlot
        exact different (calm.backed.accounting.distinct index _ has (.inl loaded) sameSlot)
      have read : readSlot (pagedRelease store obj) (store.hashTableData index) =
          readSlot store (store.hashTableData index) := by
        rw [kept]
        exact read_put_slot store apart
      rw [data, read]
      exact steady.links (calm.linked index has)
  have plain : releaseObject (view store) obj = view store := by
    rw [releaseObject, cell, viewCell]
    cases type : store.hashTableType (entryIndex cfg obj.objectID) with
    | free => rfl
    | permanent => rfl
    | loaded => exact (loaded type).elim
    | swapped => exact (awake type).elim
  rw [pagedRelease, if_neg loaded, plain]
  exact follows_refl calm

theorem destroy_end_follows (timed : Bool) :
    Follows store
      (do
        let (_, store) ← (if timed = true then pagedCronStop store obj else .ok (0, store))
        .ok (pagedRelease store obj))
      (do
        let (_, world) ← (if timed = true then cronStop (view store) obj else .ok (0, view store))
        .ok (releaseObject world obj)) := by
  rcases timed with _ | _
  · exact release_follows calm awake
  simp only [if_true]
  rcases cron_stop_follows calm awake with
    ⟨halt, failed, plainFailed⟩ | ⟨middle, returned, plainReturned, middleCalm, steady⟩
  · left
    refine ⟨halt, ?_, ?_⟩
    · rcases stopped : pagedCronStop store obj with other | result
      · rw [stopped] at failed
        exact failed
      rw [stopped] at failed
      cases failed
    rcases stopped : cronStop (view store) obj with other | result
    · rw [stopped] at plainFailed
      exact plainFailed
    rw [stopped] at plainFailed
    cases plainFailed
  · rcases map_ok.mp returned with ⟨result, stopped, rfl⟩
    rcases map_ok.mp plainReturned with ⟨plainResult, plainStopped, same⟩
    rw [stopped, plainStopped, ok_bind, ok_bind, same]
    rcases release_follows middleCalm (steady.awake awake) with
      ⟨halt, failed, _⟩ | ⟨after, ended, plainEnded, afterCalm, afterSteady⟩
    · cases failed
    · exact .inr ⟨after, ended, plainEnded, afterCalm, steady.trans afterSteady⟩

end Destroying

/-- The three functions of a deletion, by induction on the calls that are left. -/
theorem deletion_follows (fuel : Nat) :
    (∀ (store : PagedStore cfg) obj, Calm store → Awake store obj →
      Follows store (pagedDestroy fuel store obj) (destroyObject fuel (view store) obj)) ∧
    (∀ (store : PagedStore cfg) obj, Calm store → Awake store obj →
      Follows store (pagedEmpty fuel store obj) (emptyContent fuel (view store) obj)) ∧
    ∀ (store : PagedStore cfg) obj, Calm store → Awake store obj →
      Follows store (pagedDeleteWithin fuel store obj) (deleteWithin fuel (view store) obj) := by
  induction fuel with
  | zero => exact ⟨fun _ _ _ _ => .inl ⟨_, rfl, rfl⟩, fun _ _ _ _ => .inl ⟨_, rfl, rfl⟩,
      fun _ _ _ _ => .inl ⟨_, rfl, rfl⟩⟩
  | succ fuel ih =>
    rcases ih with ⟨destroyFollows, emptyFollows, deleteFollows⟩
    refine ⟨?_, ?_, ?_⟩
    · intro store obj calm awake
      rw [pagedDestroy, exists_awake awake, ok_bind, destroyObject]
      rcases isLive : objectExists (view store) obj with _ | _
      · exact follows_refl calm
      simp only [Bool.not_true, Bool.false_eq_true, if_false, access_awake awake, ok_bind]
      set type := (accessObject (view store) obj).type with typeIs
      have sameType : getObjectType (view store) obj = type := rfl
      rw [sameType]
      have strings : Follows store
          (if type.getFlag .text = true then pagedDeleteStrings store obj else .ok store)
          (.ok (if type.getFlag .text = true then deleteStrings (view store) obj
            else view store)) := by
        cases type.getFlag .text with
        | false => exact follows_refl calm
        | true => exact delete_strings_follows calm awake
      apply @Follows.then cfg store _ _
        (fun store => do
          let store ← (if type.holdsObjects = true then pagedEmpty fuel store obj
            else .ok store)
          let (_, store) ← (if type.getFlag .expire = true then pagedCronStop store obj
            else .ok (0, store))
          .ok (pagedRelease store obj))
        (fun world => do
          let world ← (if type.holdsObjects = true then emptyContent fuel world obj
            else .ok world)
          let (_, world) ← (if type.getFlag .expire = true then cronStop world obj
            else .ok (0, world))
          .ok (releaseObject world obj)) strings
      intro stripped strippedCalm strippedSteady
      have strippedAwake := strippedSteady.awake awake
      have content : Follows stripped
          (if type.holdsObjects = true then pagedEmpty fuel stripped obj else .ok stripped)
          (if type.holdsObjects = true then emptyContent fuel (view stripped) obj
            else .ok (view stripped)) := by
        cases type.holdsObjects with
        | false => exact follows_refl strippedCalm
        | true => exact emptyFollows stripped obj strippedCalm strippedAwake
      apply content.then
      intro emptied emptiedCalm emptiedSteady
      exact destroy_end_follows emptiedCalm (emptiedSteady.awake strippedAwake) _
    · intro store obj calm awake
      rw [pagedEmpty, get_attribute_awake awake, ok_bind, emptyContent]
      by_cases empty : Object.mk (getAttribute (view store) obj .content) = NONE
      · simp only [if_pos empty]
        exact follows_refl calm
      simp only [if_neg empty]
      have contentAwake : Awake store ⟨getAttribute (view store) obj .content⟩ :=
        (calm.access_links awake).content
      apply (deleteFollows store _ calm contentAwake).then
      intro middle middleCalm steady
      exact emptyFollows middle obj middleCalm (steady.awake awake)
    · intro store obj calm awake
      rw [pagedDeleteWithin, exists_awake awake, ok_bind, deleteWithin]
      rcases isLive : objectExists (view store) obj with _ | _
      · exact follows_refl calm
      simp only [Bool.not_true, Bool.false_eq_true, if_false]
      apply (cut_follows calm awake).then
      intro middle middleCalm steady
      exact destroyFollows middle obj middleCalm (steady.awake awake)

/-- What `Steady` and a forest without one subtree leave of a sound state. -/
theorem Sound.deleted (sound : Sound store kids none) (awake : Awake store obj)
    (edge : obj ∈ kids con) (calm : Calm after) (steady : Steady store after)
    (deleted : Deleted (view store) kids obj (view after)) : Sound after (prune kids obj) none := by
  have forest := sound.described.forest
  refine ⟨calm.backed, ⟨deleted.agreement, deleted.forest⟩, ?_, ?_, ?_⟩
  · apply sound.mapped.carried steady.sectors steady.files steady.fileNumber
    · intro x y z sector found fieldX fieldY
      have loose := sound.mapped.field x y z sector found fieldX fieldY
      have root := sound.mapped.root forest found (fieldX, fieldY)
      rw [← loose]
      apply forest.container_congr deleted.forest
      · intro parent
        constructor
        · intro inner
          exact prune_subset parent _ inner
        · intro inner
          exact (root parent inner).elim
      apply exists_eq_of_iff
      rw [deleted.survivors]
      constructor
      · intro both
        exact both.1
      intro alive
      refine ⟨alive, ?_⟩
      intro under
      rw [below_root root under] at edge
      exact root con edge
    intro number file sector opened found exact_entries
    -- A sector in a file has nothing of the tree of the object, which is in memory.
    have apart : ∀ field ∈ fieldsOf sector, ∀ node, Below kids field node →
        ¬ Below kids obj node := by
      intro field member node inField inObj
      rcases List.mem_map.mp member with ⟨place, _, rfl⟩
      rcases below_comparable forest.single inField inObj with under | above
      · have inside : entryIndex cfg obj.objectID ∈ sectorEntries cfg kids sector :=
          ⟨obj, ⟨_, member, under⟩, rfl⟩
        exact awake (sound.settled number nofun _ ((exact_entries _).mpr inside))
      rw [below_root (sound.mapped.root forest found place) above] at edge
      exact sound.mapped.root forest found place con edge
    have sameInside : insideAll (prune kids obj) (fieldsOf sector) =
        insideAll kids (fieldsOf sector) := by
      ext node
      constructor
      · intro inner
        rcases inner with ⟨field, member, under⟩
        exact ⟨field, member, (below_prune_disjoint (apart field member)).mp under⟩
      · intro inner
        rcases inner with ⟨field, member, under⟩
        exact ⟨field, member, (below_prune_disjoint (apart field member)).mpr under⟩
    rw [sectorEntries, sectorEntries, sameInside]
  · intro number _ index
    exact calm.settled number index
  · rw [deleted.noneRecord]
    exact sound.noneRecord

end TibiaGame.PagedDeletion
