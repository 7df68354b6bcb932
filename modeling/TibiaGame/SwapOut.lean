import TibiaGame.SwapView
import TibiaGame.ForestDeletion

/-!
# `swap_object` writes a subtree to a file

Every object of the subtree is loaded and in no file. It goes to the file with what
it holds, its slot becomes free, and the view stays as it is.
-/

namespace TibiaGame.SwapOut

open GameTypes ObjectStore ContentForest ForestSteps ForestDeletion SectorSwapping
open SwapView Library.LinkedList Library.OrderedForest Library.Outcome

variable {cfg : GameConfig} {store middle after : PagedStore cfg} {number index : Nat}
  {kids : Object → List Object} {obj con node : Object} {record : MapObject cfg}

section

variable (awake : store.hashTableType (entryIndex cfg obj.objectID) ≠ .swapped)
include awake

theorem live_awake :
    liveRecord (view store) obj = if obj ≠ NONE ∧ isResident store obj = true then
      some (readSlot store (store.hashTableData (entryIndex cfg obj.objectID))) else none := by
  have cell : (view store).hashTable (entryIndex cfg obj.objectID) =
      viewCell store (entryIndex cfg obj.objectID) := rfl
  rw [liveRecord, cell, viewCell]
  by_cases missing : obj = NONE
  · simp [missing]
  cases type : store.hashTableType (entryIndex cfg obj.objectID) with
  | free => simp [missing, isResident, type]
  | permanent => simp [missing, isResident, type]
  | loaded => simp [missing, isResident, type]
  | swapped => exact (awake type).elim

theorem read_awake : readSlot store (slotOf store obj) = accessObject (view store) obj := by
  rw [accessObject, live_awake awake, slotOf]
  split_ifs
  · rfl
  · rfl

theorem resident_awake (notNone : obj ≠ NONE) :
    isResident store obj = objectExists (view store) obj := by
  rw [objectExists, live_awake awake]
  cases isResident store obj with
  | true => simp [notNone]
  | false => simp

end

theorem live_has_record (live : liveRecord (view store) obj = some record) :
    store.hashTableType (entryIndex cfg obj.objectID) = .loaded ∨
      store.hashTableType (entryIndex cfg obj.objectID) = .swapped := by
  rcases live_cell.mp live with ⟨_, cell, _⟩
  have shown : viewCell store (entryIndex cfg obj.objectID) = .loaded record := cell
  cases type : store.hashTableType (entryIndex cfg obj.objectID) with
  | free => simp [viewCell, type] at shown
  | permanent => simp [viewCell, type] at shown
  | loaded => exact .inl rfl
  | swapped => exact .inr rfl

def entries (cfg : GameConfig) (objects : Set Object) : Set Nat :=
  (fun obj => entryIndex cfg obj.objectID) '' objects

def insideAll (kids : Object → List Object) (members : List Object) : Set Object :=
  {node | ∃ member ∈ members, Below kids member node}

theorem inside_eq (kids : Object → List Object) (obj : Object) :
    inside kids obj = insert obj (insideAll kids (kids obj)) := by
  ext node
  constructor
  · intro under
    by_cases here : node = obj
    · exact .inl here
    · exact .inr (below_of_child under here)
  · rintro (rfl | ⟨child, edge, under⟩)
    · exact below_refl kids node
    · exact below_trans (below_child edge) under

theorem inside_all_cons (kids : Object → List Object) (head : Object) (rest : List Object) :
    insideAll kids (head :: rest) = inside kids head ∪ insideAll kids rest := by
  ext node
  simp [insideAll, inside]

theorem inside_all_nil (kids : Object → List Object) : insideAll kids [] = ∅ := by
  ext node
  simp [insideAll]

theorem entries_union (left right : Set Object) :
    entries cfg (left ∪ right) = entries cfg left ∪ entries cfg right := Set.image_union _ _ _

def Apart (kids : Object → List Object) (members : List Object) : Prop :=
  members.Pairwise fun left right => ∀ node, Below kids left node → ¬ Below kids right node

theorem siblings_apart (single : SingleParent kids) (ranked : Ranked kids)
    (nodup : (kids con).Nodup) : Apart kids (kids con) := by
  apply List.Pairwise.imp_of_mem _ nodup
  intro left right leftEdge rightEdge different node under
  exact siblings_disjoint single ranked leftEdge rightEdge different under

theorem Apart.head {head : Object} {rest : List Object} (apart : Apart kids (head :: rest))
    (under : Below kids head node) : node ∉ insideAll kids rest := by
  rintro ⟨member, later, other⟩
  exact (List.pairwise_cons.mp apart).1 member later node under other

theorem inside_all_size {head : Object} {rest : List Object} (apart : Apart kids (head :: rest)) :
    (insideAll kids (head :: rest)).ncard =
      (inside kids head).ncard + (insideAll kids rest).ncard := by
  rw [inside_all_cons, Set.ncard_union_eq _ (Set.toFinite _) (Set.toFinite _)]
  rw [Set.disjoint_left]
  intro node under
  exact apart.head under

theorem inside_size (ranked : Ranked kids) (obj : Object) :
    (inside kids obj).ncard = (insideAll kids (kids obj)).ncard + 1 := by
  rw [inside_eq, Set.ncard_insert_of_notMem _ (Set.toFinite _)]
  rintro ⟨child, edge, under⟩
  exact ranked.parent_not_below edge under

/-- An object that `swap_object` may take: loaded, and in no file. -/
structure Ready (store : PagedStore cfg) (node : Object) : Prop where
  loaded : store.hashTableType (entryIndex cfg node.objectID) = .loaded
  live : ∃ record, liveRecord (view store) node = some record
  unfiled : ∀ number, ¬ Stored store number (entryIndex cfg node.objectID)

/-- Some entries have moved to the file with this number, and nothing else has changed. -/
structure Moved (store after : PagedStore cfg) (number : Nat) (gone : Set Nat) : Prop where
  layout : after.layout = store.layout
  sectors : after.sectors = store.sectors
  fileNumber : after.fileNumber = store.fileNumber
  kept : ∀ index, index ∉ gone → after.hashTableType index = store.hashTableType index ∧
    after.hashTableData index = store.hashTableData index
  moved : ∀ index, index ∈ gone →
    after.hashTableType index = .swapped ∧ after.hashTableData index = number
  otherFiles : ∀ other, other ≠ number → after.files other = store.files other
  file : ∀ old, store.files number = some old →
    ∃ records, after.files number = some { old with records := records }
  stored : ∀ index, Stored after number index ↔ Stored store number index ∨ index ∈ gone
  slot : store.firstFreeObject ≠ 0 ∨ gone.Nonempty → after.firstFreeObject ≠ 0

theorem Moved.refl (store : PagedStore cfg) (number : Nat) : Moved store store number ∅ where
  layout := rfl
  sectors := rfl
  fileNumber := rfl
  kept := fun _ _ => ⟨rfl, rfl⟩
  moved := fun _ member => member.elim
  otherFiles := fun _ _ => rfl
  file := fun old opened => ⟨old.records, opened⟩
  stored := by simp
  slot := by simp

theorem Moved.trans {first second : Set Nat} (left : Moved store middle number first)
    (right : Moved middle after number second) : Moved store after number (first ∪ second) where
  layout := right.layout.trans left.layout
  sectors := right.sectors.trans left.sectors
  fileNumber := right.fileNumber.trans left.fileNumber
  kept := by
    intro place outside
    have outsides := not_or.mp outside
    rcases left.kept place outsides.1 with ⟨leftType, leftData⟩
    rcases right.kept place outsides.2 with ⟨rightType, rightData⟩
    exact ⟨rightType.trans leftType, rightData.trans leftData⟩
  moved := by
    intro place member
    by_cases later : place ∈ second
    · exact right.moved place later
    rcases right.kept place later with ⟨type, data⟩
    rw [type, data]
    exact left.moved place (member.resolve_right later)
  otherFiles := fun other different =>
    (right.otherFiles other different).trans (left.otherFiles other different)
  file := by
    intro old opened
    rcases left.file old opened with ⟨records, middleOpened⟩
    rcases right.file _ middleOpened with ⟨newer, afterOpened⟩
    exact ⟨newer, afterOpened⟩
  stored := by
    intro place
    rw [right.stored, left.stored, Set.mem_union, or_assoc]
  slot := by
    intro given
    apply right.slot
    rcases given with before | ⟨place, member⟩
    · exact .inl (left.slot (.inl before))
    rcases member with early | late
    · exact .inl (left.slot (.inr ⟨place, early⟩))
    · exact .inr ⟨place, late⟩

theorem Moved.ready {gone : Set Nat} (moved : Moved store after number gone)
    (same : view after = view store) (ready : Ready store node)
    (outside : entryIndex cfg node.objectID ∉ gone) : Ready after node where
  loaded := by
    rw [(moved.kept _ outside).1]
    exact ready.loaded
  live := by
    rw [same]
    exact ready.live
  unfiled := by
    intro other stored
    by_cases here : other = number
    · rw [here, moved.stored] at stored
      rcases stored with old | member
      · exact ready.unfiled number old
      · exact outside member
    rcases stored with ⟨record, found⟩
    rw [stored_congr (moved.otherFiles other here)] at found
    exact ready.unfiled other ⟨record, found⟩

/-- Live objects that are not among some live objects have other entries. -/
theorem not_in_entries (world : World cfg) {objects : Set Object}
    (allLive : ∀ other ∈ objects, ∃ record, liveRecord world other = some record)
    (live : ∃ record, liveRecord world node = some record) (outside : node ∉ objects) :
    entryIndex cfg node.objectID ∉ entries cfg objects := by
  rintro ⟨other, member, same⟩
  rcases live with ⟨_, nodeLive⟩
  rcases allLive other member with ⟨_, otherLive⟩
  rw [live_index_injective otherLive nodeLive same] at member
  exact outside member

theorem Ready.resident (ready : Ready store node) : isResident store node = true ∧
    liveRecord (view store) node =
      some (readSlot store (store.hashTableData (entryIndex cfg node.objectID))) := by
  rcases ready.live with ⟨record, live⟩
  have awake : store.hashTableType (entryIndex cfg node.objectID) ≠ .swapped := by
    rw [ready.loaded]
    decide
  have isResident := resident_awake awake (live_ne_none live)
  rw [objectExists, live] at isResident
  rw [live_awake awake, if_pos ⟨live_ne_none live, isResident⟩]
  exact ⟨isResident, rfl⟩

/-- What a part of `swap_sector` that swaps out some objects has done. -/
def SwapsOut (store : PagedStore cfg) (number : Nat) (objects : Set Object)
    (result : Except Halt (PagedStore cfg)) : Prop :=
  ∃ after, result = .ok after ∧ Backed after ∧ view after = view store ∧
    Moved store after number (entries cfg objects)

theorem SwapsOut.then {first second : Set Object} {start : Except Halt (PagedStore cfg)}
    {next : PagedStore cfg → Except Halt (PagedStore cfg)}
    (starts : SwapsOut store number first start)
    (continues : ∀ middle, Backed middle → view middle = view store →
      Moved store middle number (entries cfg first) → SwapsOut middle number second (next middle)) :
    SwapsOut store number (first ∪ second) (start >>= next) := by
  rcases starts with ⟨middle, returned, backed, same, moved⟩
  rcases continues middle backed same moved with ⟨after, ended, afterBacked, afterSame, afterMoved⟩
  refine ⟨after, ?_, afterBacked, afterSame.trans same, ?_⟩
  · rw [returned]
    exact ended
  · rw [entries_union]
    exact moved.trans afterMoved

/-- The last statements of `swap_object`, after the object has been written and all
it holds has been swapped out. -/
theorem swap_object_end {file : SwapFile cfg} (opened : store.files number = some file)
    (backed : Backed store) (ready : Ready store obj)
    (notInside : entryIndex cfg obj.objectID ∉ entries cfg (insideAll kids (kids obj)))
    (middleBacked : Backed middle) (same : view middle = view store)
    (moved : Moved (appendRecord store number
        (readSlot store (store.hashTableData (entryIndex cfg obj.objectID)))) middle number
      (entries cfg (insideAll kids (kids obj)))) :
    SwapsOut store number (inside kids obj)
      (.ok (setStatus (putFreeObjectSlot middle
        (store.hashTableData (entryIndex cfg obj.objectID))) (entryIndex cfg obj.objectID)
          .swapped number)) := by
  have grown := append_files opened
    (readSlot store (store.hashTableData (entryIndex cfg obj.objectID)))
  have own := backed.accounting.ownIndex _ ready.loaded
  have stored : ∀ place, Stored (appendRecord store number
      (readSlot store (store.hashTableData (entryIndex cfg obj.objectID)))) number place ↔
        Stored store number place ∨ place = entryIndex cfg obj.objectID := by
    intro place
    unfold Stored
    rw [stored_append opened (by rw [own]; exact ready.unfiled number), own]
    by_cases here : place = entryIndex cfg obj.objectID
    all_goals simp [here]
  rcases moved.kept _ notInside with ⟨sameType, sameData⟩
  rw [grown] at sameType sameData
  have sameSlot : middle.hashTableData (entryIndex cfg obj.objectID) =
      store.hashTableData (entryIndex cfg obj.objectID) := sameData
  have loaded : middle.hashTableType (entryIndex cfg obj.objectID) = .loaded :=
    sameType.trans ready.loaded
  have otherFiles : ∀ other, other ≠ number → middle.files other = store.files other := by
    intro other different
    rw [moved.otherFiles other different, grown, set_file_files, if_neg different]
  have only : ∀ other, Stored middle other (entryIndex cfg obj.objectID) → other = number := by
    rintro other ⟨record, found⟩
    by_contra different
    rw [stored_congr (otherFiles other different)] at found
    exact ready.unfiled other ⟨record, found⟩
  rcases middleBacked.swapOut loaded ((moved.stored _).mpr (.inl ((stored _).mpr (.inr rfl)))) only
    with ⟨finalBacked, finalSame⟩
  rcases middleBacked.accounting.inBlocks _ (.inl loaded) with ⟨positive, _⟩
  rw [sameSlot] at finalBacked finalSame positive
  have notNull : store.hashTableData (entryIndex cfg obj.objectID) ≠ 0 := by omega
  have gone : entries cfg (inside kids obj) = insert (entryIndex cfg obj.objectID)
      (entries cfg (insideAll kids (kids obj))) := by
    rw [inside_eq, entries, Set.image_insert_eq]
    rfl
  refine ⟨_, rfl, finalBacked, finalSame.trans same, ?_⟩
  rw [gone, putFreeObjectSlot, if_neg notNull]
  constructor
  · exact moved.layout.trans (by rw [grown]; rfl)
  · exact moved.sectors.trans (by rw [grown]; rfl)
  · exact moved.fileNumber.trans (by rw [grown]; rfl)
  · intro place outside
    have outsides := not_or.mp outside
    rcases moved.kept place outsides.2 with ⟨type, data⟩
    rw [grown] at type data
    simp only [setStatus, Function.update_of_ne outsides.1]
    exact ⟨type, data⟩
  · intro place member
    by_cases here : place = entryIndex cfg obj.objectID
    · simp [setStatus, here]
    simp only [setStatus, Function.update_of_ne here]
    exact moved.moved place (member.resolve_left here)
  · exact otherFiles
  · intro old isOld
    rw [opened] at isOld
    have newer : (appendRecord store number
        (readSlot store (store.hashTableData (entryIndex cfg obj.objectID)))).files number =
          some { file with records := file.records ++
            [readSlot store (store.hashTableData (entryIndex cfg obj.objectID))] } := by
      rw [grown, set_file_files, if_pos rfl]
    rcases moved.file _ newer with ⟨records, middleOpened⟩
    rw [← Option.some.inj isOld]
    exact ⟨records, middleOpened⟩
  · intro place
    have middleStored := moved.stored place
    rw [stored] at middleStored
    rw [Set.mem_insert_iff, ← or_assoc, ← middleStored]
    rfl
  · intro _
    exact notNull

structure Swappable (store : PagedStore cfg) (kids : Object → List Object) (number : Nat)
    (objects : Set Object) : Prop where
  backed : Backed store
  forest : Forest (liveRecord (view store)) kids
  opened : ∃ file, store.files number = some file
  ready : ∀ node ∈ objects, Ready store node

theorem Swappable.remaining {first second all : Set Object} (swappable : Swappable store kids number all)
    (split : all = first ∪ second) (disjoint : ∀ node ∈ second, node ∉ first)
    (backed : Backed middle) (same : view middle = view store)
    (moved : Moved store middle number (entries cfg first)) :
    Swappable middle kids number second where
  backed := backed
  forest := by
    rw [same]
    exact swappable.forest
  opened := by
    rcases swappable.opened with ⟨file, opened⟩
    rcases moved.file file opened with ⟨records, newer⟩
    exact ⟨_, newer⟩
  ready := by
    intro node member
    have ready : ∀ other ∈ all, Ready store other := swappable.ready
    rw [split] at ready
    apply moved.ready same (ready node (.inr member))
    apply not_in_entries (view store) _ (ready node (.inr member)).live
      (disjoint node member)
    intro other inFirst
    exact (ready other (.inl inFirst)).live

theorem swap_nothing (backed : Backed store) (number : Nat) :
    SwapsOut store number ∅ (.ok store) := by
  refine ⟨store, rfl, backed, rfl, ?_⟩
  rw [entries, Set.image_empty]
  exact Moved.refl store number

theorem swap_object_step {fuel : Nat} (swappable : Swappable store kids number (inside kids obj))
    (loop : ∀ (written : PagedStore cfg) (first : Object),
      Swappable written kids number (insideAll kids (kids obj)) →
      Chain NONE (nextOf (liveRecord (view written))) first (kids obj) →
      SwapsOut written number (insideAll kids (kids obj)) (swapContent fuel written first number)) :
    SwapsOut store number (inside kids obj) (swapObject (fuel + 1) store obj number) := by
  have ready := swappable.ready obj (below_refl kids obj)
  rcases ready.resident with ⟨resident, live⟩
  rcases swappable.opened with ⟨file, opened⟩
  set entry := readSlot store (store.hashTableData (entryIndex cfg obj.objectID)) with entryIs
  have notInside : obj ∉ insideAll kids (kids obj) := by
    rintro ⟨child, edge, under⟩
    exact swappable.forest.ranked.parent_not_below edge under
  have split := inside_eq kids obj
  have readyKids : ∀ node ∈ insideAll kids (kids obj), Ready store node := by
    intro node member
    apply swappable.ready
    rw [split]
    exact .inr member
  have outside := not_in_entries (view store)
    (fun other member => (readyKids other member).live) ready.live notInside
  have own := swappable.backed.accounting.ownIndex _ ready.loaded
  rcases swappable.backed.append opened ready.loaded (ready.unfiled number) with
    ⟨writtenBacked, writtenSame⟩
  rw [← entryIs] at writtenBacked writtenSame
  set written := appendRecord store number entry with writtenIs
  have grown := append_files opened entry
  have writtenReady : Swappable written kids number (insideAll kids (kids obj)) := by
    constructor
    · exact writtenBacked
    · rw [writtenSame]
      exact swappable.forest
    · rw [writtenIs, grown]
      exact ⟨_, Function.update_self _ _ _⟩
    · intro node member
      constructor
      · rw [writtenIs, grown]
        exact (readyKids node member).loaded
      · rw [writtenSame]
        exact (readyKids node member).live
      · rintro other ⟨record, found⟩
        rw [writtenIs, stored_append opened (by rw [own]; exact ready.unfiled number), own,
          if_neg] at found
        · exact (readyKids node member).unfiled other ⟨record, found⟩
        · rintro ⟨_, sameIndex⟩
          exact outside ⟨node, member, sameIndex⟩
  have content : SwapsOut written number (insideAll kids (kids obj))
      (if entry.type.holdsObjects then swapContent fuel written entry.content number
        else .ok written) := by
    cases holds : entry.type.holdsObjects with
    | true =>
      apply loop written entry.content writtenReady
      rw [writtenSame]
      apply swappable.forest.chain
      · rw [holdsOf, live, Option.map_some, holds]
      · rw [contentOf, live, Option.map_some]
    | false =>
      have barren : kids obj = [] := by
        apply swappable.forest.barren
        rw [holdsOf, live, Option.map_some, holds]
        decide
      rw [barren, inside_all_nil]
      exact swap_nothing writtenBacked number
  rcases content with ⟨middle, returned, middleBacked, middleSame, moved⟩
  have swapped : swapObject (fuel + 1) store obj number = .ok (setStatus (putFreeObjectSlot middle
      (store.hashTableData (entryIndex cfg obj.objectID))) (entryIndex cfg obj.objectID)
        .swapped number) := by
    rcases ready.live with ⟨_, isLive⟩
    simp only [swapObject, live_ne_none isLive, if_false, resident, if_true, ← entryIs, ← writtenIs,
      returned, ok_bind]
  rw [swapped]
  exact swap_object_end opened swappable.backed ready outside middleBacked
    (middleSame.trans writtenSame) moved

theorem swap_content_step {fuel : Nat} {head : Object} {rest : List Object}
    (swappable : Swappable store kids number (insideAll kids (head :: rest)))
    (apart : Apart kids (head :: rest))
    (chain : Chain NONE (nextOf (liveRecord (view store))) head (head :: rest))
    (first : SwapsOut store number (inside kids head) (swapObject fuel store head number))
    (later : ∀ (middle : PagedStore cfg) (next : Object),
      Swappable middle kids number (insideAll kids rest) →
      Chain NONE (nextOf (liveRecord (view middle))) next rest →
      SwapsOut middle number (insideAll kids rest) (swapContent fuel middle next number))
    (positive : 0 < fuel) :
    SwapsOut store number (insideAll kids (head :: rest))
      (swapContent (fuel + 1) store head number) := by
  have ready := swappable.ready head ⟨head, List.mem_cons_self, below_refl kids head⟩
  rcases ready.resident with ⟨_, live⟩
  have awake : store.hashTableType (entryIndex cfg head.objectID) ≠ .swapped := by
    rw [ready.loaded]
    decide
  have here : ensureLoaded fuel store head = .ok store := by
    cases fuel with
    | zero => omega
    | succ fuel => rw [ensureLoaded, if_neg awake]
  have next : (readSlot store (slotOf store head)).nextObject =
      nextOf (liveRecord (view store)) head := by
    rw [read_awake awake, access_live live, nextOf, live]
    rfl
  rw [swapContent, if_neg chain.2.1, here, ok_bind, next, inside_all_cons]
  apply first.then
  intro middle backed same moved
  apply later middle
  · exact swappable.remaining (inside_all_cons kids head rest)
      (fun node member under => apart.head under member) backed same moved
  · rw [same]
    exact chain.2.2

/-- `swap_object` and its loop over the content swap out subtrees, by induction on
how many objects there are. -/
theorem swap_spec (room : Nat) :
    (∀ (store : PagedStore cfg) (obj : Object) (fuel : Nat),
      Swappable store kids number (inside kids obj) → (inside kids obj).ncard ≤ room →
      2 * room ≤ fuel → SwapsOut store number (inside kids obj) (swapObject fuel store obj number)) ∧
    ∀ (store : PagedStore cfg) (members : List Object) (current : Object) (fuel : Nat),
      Swappable store kids number (insideAll kids members) → Apart kids members →
      Chain NONE (nextOf (liveRecord (view store))) current members →
      (insideAll kids members).ncard ≤ room → 2 * room + 1 ≤ fuel →
      SwapsOut store number (insideAll kids members) (swapContent fuel store current number) := by
  have nothing : ∀ (store : PagedStore cfg) (current : Object) (fuel : Nat), Backed store →
      current = NONE → 1 ≤ fuel →
      SwapsOut store number (insideAll kids []) (swapContent fuel store current number) := by
    intro store current fuel backed ended enough
    rcases Nat.exists_eq_add_of_le' enough with ⟨less, rfl⟩
    rw [swapContent, if_pos ended, inside_all_nil]
    exact swap_nothing backed number
  induction room with
  | zero =>
    constructor
    · intro store obj fuel _ small _
      have := inside_pos kids obj
      omega
    intro store members current fuel swappable apart chain small enough
    rcases members with _ | ⟨head, rest⟩
    · exact nothing store current fuel swappable.backed chain (by omega)
    have := inside_pos kids head
    have := inside_all_size apart
    omega
  | succ room ih =>
    rcases ih with ⟨_, contentSpec⟩
    have objectSpec : ∀ (store : PagedStore cfg) (obj : Object) (fuel : Nat),
        Swappable store kids number (inside kids obj) → (inside kids obj).ncard ≤ room + 1 →
        2 * (room + 1) ≤ fuel →
        SwapsOut store number (inside kids obj) (swapObject fuel store obj number) := by
      intro store obj fuel swappable small enough
      rcases Nat.exists_eq_add_of_le' (show 1 ≤ fuel by omega) with ⟨less, rfl⟩
      have sized := inside_size swappable.forest.ranked obj
      apply swap_object_step swappable
      intro written first writtenReady chain
      apply contentSpec written (kids obj) first less writtenReady _ chain (by omega) (by omega)
      exact siblings_apart swappable.forest.single swappable.forest.ranked
        (swappable.forest.nodup obj)
    refine ⟨objectSpec, ?_⟩
    intro store members current fuel swappable apart chain small enough
    rcases members with _ | ⟨head, rest⟩
    · exact nothing store current fuel swappable.backed chain (by omega)
    rcases Nat.exists_eq_add_of_le' (show 1 ≤ fuel by omega) with ⟨less, rfl⟩
    have sized := inside_all_size apart
    have positive := inside_pos kids head
    have isHead : current = head := chain.1
    rw [isHead] at chain ⊢
    apply swap_content_step swappable apart chain
    · apply objectSpec store head less _ (by omega) (by omega)
      refine ⟨swappable.backed, swappable.forest, swappable.opened, ?_⟩
      intro node under
      exact swappable.ready node ⟨head, List.mem_cons_self, under⟩
    · intro middle next middleReady later
      exact contentSpec middle rest next less middleReady (List.pairwise_cons.mp apart).2
        later (by omega) (by omega)
    · omega

theorem swap_fields_spec {members : List Object} {fuel : Nat}
    (swappable : Swappable store kids number (insideAll kids members)) (apart : Apart kids members)
    (enough : 2 ^ 33 + members.length < fuel) :
    SwapsOut store number (insideAll kids members) (swapFields fuel store members number) := by
  induction members generalizing store fuel with
  | nil =>
    rcases Nat.exists_eq_add_of_le' (show 1 ≤ fuel by omega) with ⟨less, rfl⟩
    rw [swapFields, inside_all_nil]
    exact swap_nothing swappable.backed number
  | cons head rest ih =>
    rcases Nat.exists_eq_add_of_le' (show 1 ≤ fuel by omega) with ⟨less, rfl⟩
    rw [List.length_cons] at enough
    have few := nat_card_object
    have bound := Set.ncard_le_card (inside kids head)
    rw [swapFields, inside_all_cons]
    apply SwapsOut.then
    · apply (swap_spec (2 ^ 32)).1 store head less _ (by omega) (by omega)
      refine ⟨swappable.backed, swappable.forest, swappable.opened, ?_⟩
      intro node under
      exact swappable.ready node ⟨head, List.mem_cons_self, under⟩
    intro middle backed same moved
    apply ih _ (List.pairwise_cons.mp apart).2 (by omega)
    exact swappable.remaining (inside_all_cons kids head rest)
      (fun node member under => apart.head under member) backed same moved

end TibiaGame.SwapOut
