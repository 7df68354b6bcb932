import TibiaGame.ForestDeletion

/-!
# The forest under the operations of the map

`append_object`, `set_object`, `copy_object`, `split_object`, `merge_objects`,
`move_object` and `delete_object`, called as their callers call them, change the
forest by one insertion, one removal or one pruning, and a call ends early only
when the hash table has no room for a new object.
-/

namespace TibiaGame.ForestOperations

open Function
open GameTypes ObjectStore ObjectOperations ObjectKinds CronRuns CronAgreement ContentForest
open ForestSteps ForestDeletion Library.OrderedForest Library.Outcome

variable {cfg : GameConfig} {world after : World cfg} {kids : Object → List Object}
  {obj con : Object}

theorem holds_of_type (world : World cfg) (node : Object) :
    holdsOf (liveRecord world) node =
      (typeOf (kinds world) node).map ObjectType.holdsObjects := by
  rw [← live_type, Option.map_map]
  rfl

theorem quiet_holds (quiet : Quiet world after) (node : Object) :
    holdsOf (liveRecord after) node = holdsOf (liveRecord world) node := by
  rw [holds_of_type, holds_of_type, quiet.table]

theorem create_live (permanent : kinds world 0 = .permanent)
    (created : createObject world = .ok (obj, after)) :
    obj ≠ NONE ∧ liveRecord world obj = none ∧ ∀ node, liveRecord after node =
      if node = obj then some (blankObject obj.objectID) else liveRecord world node := by
  have index := (create_kinds created).1
  have notNone : obj ≠ NONE := by
    rintro rfl
    rw [show entryIndex cfg NONE.objectID = 0 from Nat.zero_mod _, permanent] at index
    cases index
  unfold createObject at created
  split_ifs at created
  simp only at created
  split at created
  · rename_i isFree
    cases created
    refine ⟨notNone, ?_, ?_⟩
    · rw [liveRecord, if_neg notNone, isFree]
    intro node
    split_ifs with here
    · rw [here]
      exact live_cell.mpr ⟨notNone, update_self _ _ _, rfl⟩
    by_cases collide : entryIndex cfg node.objectID =
        entryIndex cfg (probe world cfg.hashTableSize world.nextObjectID)
    · have different : probe world cfg.hashTableSize world.nextObjectID ≠ node.objectID := by
        intro equal
        cases node
        exact here (congrArg Object.mk equal.symm)
      simp [liveRecord, collide, isFree, blankObject, different]
    · simp [liveRecord, update_of_ne collide]
  · cases created

theorem create_forest (forest : Forest (liveRecord world) kids)
    (permanent : kinds world 0 = .permanent) (created : createObject world = .ok (obj, after)) :
    Forest (liveRecord after) kids ∧ kids obj = [] ∧ (∀ con, obj ∉ kids con) := by
  rcases create_live permanent created with ⟨notNone, wasDead, records⟩
  have orphan : ∀ con, obj ∉ kids con := by
    intro con edge
    rcases forest.kid_live edge with ⟨record, live, _⟩
    rw [wasDead] at live
    cases live
  have empty : kids obj = [] := by
    apply forest.barren
    simp [holdsOf, wasDead]
  refine ⟨?_, empty, orphan⟩
  apply forest.loose notNone orphan empty
  · intro node different
    rw [records, if_neg different]
  intro record live
  rw [records, if_pos rfl] at live
  cases live
  refine ⟨rfl, rfl, ?_⟩
  intro holds
  rw [content_of_holds _ holds]
  rfl

/-- What leaving a type may do to the record: no link changes, and the first slot
keeps being zero. -/
structure LeavesLinks (change : MapObject cfg → MapObject cfg) : Prop where
  number : ∀ record, (change record).objectID = record.objectID
  next : ∀ record, (change record).nextObject = record.nextObject
  container : ∀ record, (change record).container = record.container
  type : ∀ record, (change record).type = record.type
  slot : ∀ record, record.type.holdsObjects = true ∨ record.attributes 0 = 0 →
    (change record).attributes 0 = record.attributes 0

theorem leaves_links_id : LeavesLinks (id : MapObject cfg → MapObject cfg) :=
  ⟨fun _ => rfl, fun _ => rfl, fun _ => rfl, fun _ => rfl, fun _ _ => rfl⟩

theorem LeavesLinks.comp {first second : MapObject cfg → MapObject cfg}
    (left : LeavesLinks first) (right : LeavesLinks second) :
    LeavesLinks fun record => second (first record) where
  number := fun record => (right.number _).trans (left.number record)
  next := fun record => (right.next _).trans (left.next record)
  container := fun record => (right.container _).trans (left.container record)
  type := fun record => (right.type _).trans (left.type record)
  slot := by
    intro record either
    have firstSlot := left.slot record either
    rw [right.slot (first record), firstSlot]
    rw [left.type, firstSlot]
    exact either

theorem clear_leaves_links {attr : InstanceAttribute} (different : attr ≠ .content)
    (zero : ∀ type : ObjectType cfg, MapObject.normalize type attr 0 = 0) :
    LeavesLinks fun record : MapObject cfg => record.setAttribute attr 0 where
  number := fun record => record_set_attribute_number record attr 0
  next := fun record => set_attribute_next record attr 0
  container := fun record => set_attribute_container record attr 0
  type := fun record => record_set_attribute_type record attr 0
  slot := by
    intro record either
    rcases either with holds | empty
    · exact set_attribute_slot_zero record holds different 0
    unfold MapObject.setAttribute
    split
    · rfl
    · split_ifs
      · simp only [update_apply, zero, empty, ite_self]
      · rfl

section Updates

variable {records : Records cfg}

theorem update_record_id : updateRecord records obj id = records := by
  funext node
  unfold updateRecord
  split_ifs with here
  · rw [here, Option.map_id, id]
  · rfl

theorem update_record_comp (first second : MapObject cfg → MapObject cfg) :
    updateRecord (updateRecord records obj first) obj second =
      updateRecord records obj fun record => second (first record) := by
  funext node
  by_cases here : node = obj
  · simp only [updateRecord, here, if_true, Option.map_map]
    rfl
  · simp only [updateRecord, here, if_false]

end Updates

/-- A step that only changes the record of `obj`, and none of its links. -/
def LeavesRecords (before after : World cfg) (obj : Object) : Prop :=
  ∃ change, LeavesLinks change ∧ liveRecord after = updateRecord (liveRecord before) obj change

theorem leaves_records_of_table (same : after.hashTable = world.hashTable) :
    LeavesRecords world after obj := by
  refine ⟨id, leaves_links_id, ?_⟩
  rw [update_record_id]
  funext node
  exact live_congr same node

theorem LeavesRecords.trans {first second third : World cfg} (left : LeavesRecords first second obj)
    (right : LeavesRecords second third obj) : LeavesRecords first third obj := by
  rcases left with ⟨change, keeps, records⟩
  rcases right with ⟨later, laterKeeps, laterRecords⟩
  refine ⟨_, keeps.comp laterKeeps, ?_⟩
  rw [laterRecords, records, update_record_comp]

theorem clear_leaves_records (world : World cfg) (obj : Object) {attr : InstanceAttribute}
    (different : attr ≠ .content)
    (zero : ∀ type : ObjectType cfg, MapObject.normalize type attr 0 = 0) :
    LeavesRecords world (setAttribute world obj attr 0) obj :=
  ⟨_, clear_leaves_links different zero, live_set_attribute world obj attr 0⟩

theorem drop_strings_leaves (world : World cfg) (obj : Object) :
    LeavesRecords world (dropStrings world obj) obj := by
  have cleared : ∀ (start : World cfg) (attr : InstanceAttribute) strings,
      attr = .textString ∨ attr = .editor →
      LeavesRecords start (setAttribute { start with strings := strings } obj attr 0) obj := by
    intro start attr strings either
    apply (leaves_records_of_table (by rfl : { start with strings := strings }.hashTable = _)).trans
    rcases either with rfl | rfl
    all_goals exact clear_leaves_records _ obj nofun fun _ => rfl
  exact (cleared world .textString _ (.inl rfl)).trans (cleared _ .editor _ (.inr rfl))

theorem leave_type_leaves {oldType newType : ObjectType cfg} {carried : Carried}
    (left : leaveType world obj oldType newType = .ok (carried, after)) :
    LeavesRecords world after obj := by
  unfold leaveType at left
  by_cases field : oldType.isMapContainer = true
  · rw [if_pos field] at left
    cases left
    exact leaves_records_of_table rfl
  rw [if_neg field] at left
  rcases bind_ok.mp left with ⟨⟨saved, stopped⟩, timer, ended⟩
  cases ended
  have stoppedLeaves : LeavesRecords world stopped obj := by
    split_ifs at timer
    · rcases cron_stop_frame timer with ⟨cron, rfl⟩
      exact leaves_records_of_table rfl
    · cases timer
      exact leaves_records_of_table rfl
  apply stoppedLeaves.trans
  have droppedLeaves : LeavesRecords stopped
      (if (oldType.getFlag .text && !newType.getFlag .text) = true then dropStrings stopped obj
        else stopped) obj := by
    split_ifs
    · exact drop_strings_leaves stopped obj
    · exact leaves_records_of_table rfl
  apply droppedLeaves.trans
  by_cases magic : oldType.getFlag .magicField = true
  · rw [if_pos magic]
    exact clear_leaves_records _ obj nofun fun _ => rfl
  rw [if_neg magic]
  exact leaves_records_of_table rfl

theorem provide_content {attr : InstanceAttribute} (different : attr ≠ .content) (value : UInt32)
    (record : MapObject cfg) : (provide attr value record).content = record.content := by
  unfold provide
  split_ifs
  · exact set_attribute_content record different value
  · rfl

theorem provide_next (attr : InstanceAttribute) (value : UInt32) (record : MapObject cfg) :
    (provide attr value record).nextObject = record.nextObject := by
  unfold provide
  split_ifs
  · exact set_attribute_next record attr value
  · rfl

theorem provide_container (attr : InstanceAttribute) (value : UInt32) (record : MapObject cfg) :
    (provide attr value record).container = record.container := by
  unfold provide
  split_ifs
  · exact set_attribute_container record attr value
  · rfl

theorem enter_record_next (newType : ObjectType cfg) (carried : Carried) (record : MapObject cfg) :
    (enterRecord newType carried record).nextObject = record.nextObject := by
  unfold enterRecord
  rw [apply_if_keeps fun record => set_attribute_next record _ _,
    apply_if_keeps (provide_next _ _), apply_if_keeps (provide_next _ _),
    apply_if_keeps (provide_next _ _), apply_if_keeps fun record => set_attribute_next record _ _]

theorem enter_record_container (newType : ObjectType cfg) (carried : Carried)
    (record : MapObject cfg) :
    (enterRecord newType carried record).container = record.container := by
  unfold enterRecord
  rw [apply_if_keeps fun record => set_attribute_container record _ _,
    apply_if_keeps (provide_container _ _), apply_if_keeps (provide_container _ _),
    apply_if_keeps (provide_container _ _),
    apply_if_keeps fun record => set_attribute_container record _ _]

/-- The first slot becomes the content of an object that turns into a container. -/
theorem enter_record_content {newType : ObjectType cfg} (holds : newType.holdsObjects = true)
    (carried : Carried) (record : MapObject cfg) :
    (enterRecord newType carried record).content = ⟨record.attributes 0⟩ := by
  unfold enterRecord
  have sets : ∀ attr value, attr ≠ .content → ∀ record : MapObject cfg,
      (record.setAttribute attr value).content = record.content :=
    fun attr value different record => set_attribute_content record different value
  have provides : ∀ attr value, attr ≠ .content → ∀ record : MapObject cfg,
      (provide attr value record).content = record.content :=
    fun attr value different => provide_content different value
  rw [apply_if_keeps (sets .savedExpireTime _ nofun),
    apply_if_keeps (provides .remainingUses _ nofun),
    apply_if_keeps (provides .poolLiquidType _ nofun), apply_if_keeps (provides .charges _ nofun),
    apply_if_keeps (sets .amount _ nofun)]
  exact content_of_holds { record with type := newType } holds

/-- One object has a new type; its links stay, and so does its list where it may have one. -/
structure Retyped (before after : Records cfg) (obj : Object) (newType : ObjectType cfg)
    (record newRecord : MapObject cfg) : Prop where
  newLive : after obj = some newRecord
  others : ∀ node, node ≠ obj → after node = before node
  next : newRecord.nextObject = record.nextObject
  container : newRecord.container = record.container
  type : newRecord.type = newType
  content : newType.holdsObjects = true →
    record.type.holdsObjects = true ∨ record.attributes 0 = 0 →
    newRecord.content = ⟨record.attributes 0⟩

theorem expire_table (world : World cfg) (obj : Object) (delay : Int32) :
    (cronExpire world obj delay).hashTable = world.hashTable := by
  rw [cron_expire_eq]
  split_ifs <;> rfl

theorem change_records {record : MapObject cfg} {newType : ObjectType cfg}
    (live : liveRecord world obj = some record)
    (changed : changeObject world obj newType = .ok after) :
    ∃ newRecord, Retyped (liveRecord world) (liveRecord after) obj newType record newRecord := by
  have isLive : objectExists world obj = true := object_exists_iff.mpr ⟨record, live⟩
  simp only [changeObject, isLive, Bool.not_true, Bool.false_eq_true, if_false] at changed
  rcases bind_ok.mp changed with ⟨⟨carried, left⟩, wasLeft, ended⟩
  cases ended
  rcases leave_type_leaves wasLeft with ⟨change, keeps, leftRecords⟩
  have records : liveRecord (cronExpire (enterType left obj newType carried) obj carried.delay) =
      updateRecord (liveRecord world) obj fun record =>
        enterRecord newType carried (change record) := by
    funext node
    rw [live_congr (expire_table _ _ _) node, enterType,
      live_write_update left obj (enter_record_number newType carried), leftRecords,
      update_record_comp]
  refine ⟨enterRecord newType carried (change record), ?_, ?_, ?_, ?_, ?_, ?_⟩
  · rw [records, updateRecord, if_pos rfl, live]
    rfl
  · intro node different
    rw [records, updateRecord, if_neg different]
  · rw [enter_record_next, keeps.next]
  · rw [enter_record_container, keeps.container]
  · exact enter_record_type newType carried _
  · intro holds either
    rw [enter_record_content holds, keeps.slot record either]

theorem Retyped.types {newType : ObjectType cfg} {record newRecord : MapObject cfg}
    (retyped : Retyped (liveRecord world) (liveRecord after) obj newType record newRecord)
    (node : Object) :
    typeOf (kinds after) node = if node = obj then some newType else typeOf (kinds world) node := by
  rw [← live_type]
  split_ifs with here
  · rw [here, retyped.newLive, Option.map_some, retyped.type]
  · rw [retyped.others node here, live_type]

/-- A change of type leaves the lists alone when the old type could hold objects or
left the slot empty, and when nothing loses the list it has. -/
theorem Retyped.forest {newType : ObjectType cfg} {record newRecord : MapObject cfg}
    (retyped : Retyped (liveRecord world) (liveRecord after) obj newType record newRecord)
    (forest : Forest (liveRecord world) kids) (live : liveRecord world obj = some record)
    (fits : newType.holdsObjects = true →
      record.type.holdsObjects = true ∨ record.attributes 0 = 0)
    (empties : newType.holdsObjects = false → kids obj = []) : Forest (liveRecord after) kids := by
  apply forest.retype live retyped.newLive retyped.others retyped.next retyped.container
  · rw [retyped.type]
    intro holds
    rw [retyped.content holds (fits holds)]
    cases wasHolder : record.type.holdsObjects with
    | true =>
      apply forest.chain obj
      · rw [holdsOf, live, Option.map_some, wasHolder]
      · rw [contentOf, live, Option.map_some, content_of_holds record wasHolder]
    | false =>
      have barren : kids obj = [] := by
        apply forest.barren
        simp [holdsOf, live, wasHolder]
      rcases fits holds with absurd | empty
      · rw [wasHolder] at absurd
        cases absurd
      rw [barren, empty]
      rfl
  · rw [retyped.type]
    exact empties

/-- The types after `append_object` or `set_object` has returned: one more. -/
theorem create_placed_types {type : ObjectType cfg} {append : Bool} (agreement : Agreement world)
    (created : createPlaced world con type append = .ok (obj, after)) :
    objectExists world obj = false ∧ ∀ node, typeOf (kinds after) node =
      if node = obj then some type else typeOf (kinds world) node := by
  rcases bind_ok.mp created with ⟨⟨fresh, made⟩, wasMade, rest⟩
  rcases bind_ok.mp rest with ⟨changed, wasChanged, rest⟩
  rcases bind_ok.mp rest with ⟨result, wasPlaced, ended⟩
  cases ended
  rcases create_live agreement.permanent wasMade with ⟨_, wasDead, records⟩
  have madeLive : liveRecord made obj = some (blankObject obj.objectID) := by
    rw [records, if_pos rfl]
  rcases change_records madeLive wasChanged with ⟨newRecord, retyped⟩
  constructor
  · rw [objectExists, wasDead]
    rfl
  intro node
  rw [(place_quiet wasPlaced).table, retyped.types]
  split_ifs with here
  · rfl
  · rw [← live_type, ← live_type, records, if_neg here]

theorem priority_of_type (world : World cfg) (node : Object) :
    getObjectPriority world node = ((typeOf (kinds world) node).map typePriority).getD (-1) := by
  unfold getObjectPriority
  by_cases isLive : objectExists world node = true
  · rw [if_pos isLive, type_of_exists isLive]
    rfl
  rw [if_neg isLive]
  rw [exists_iff_type, Option.not_isSome_iff_eq_none] at isLive
  rw [isLive]
  rfl

/-- The lists with `obj` where `place_object` puts it. -/
def placed (world : World cfg) (kids : Object → List Object) (obj con : Object) (append : Bool) :
    Object → List Object :=
  Function.update kids con
    (placeFront world obj con append (kids con) ++ obj :: placeBack world obj con append (kids con))

theorem placed_congr (isLive : objectExists world con = true) (same : kinds after = kinds world)
    (append : Bool) : placed after kids obj con append = placed world kids obj con append := by
  have priorities : ∀ node, getObjectPriority after node = getObjectPriority world node := by
    intro node
    rw [priority_of_type, priority_of_type, same]
  have type : getObjectType after con = getObjectType world con := by
    apply object_type_of
    rw [same]
    exact type_of_exists isLive
  simp only [placed, placeFront, placeBack, stopsBefore, priorities, type]

theorem placed_elsewhere {node : Object} (append : Bool) (different : node ≠ con) :
    placed world kids obj con append node = kids node := by
  rw [placed, update_of_ne different]

/-- A new object of a type has been put into the list of `con`. -/
structure Created (before : World cfg) (kids : Object → List Object) (con : Object)
    (type : ObjectType cfg) (append : Bool) (obj : Object) (after : World cfg) : Prop where
  fresh : liveRecord before obj = none
  agreement : Agreement after
  types : ∀ node, typeOf (kinds after) node =
    if node = obj then some type else typeOf (kinds before) node
  forest : Forest (liveRecord after) (placed after kids obj con append)

/-- Either the hash table has no room, or the new object is there. -/
def CreatesIn (world : World cfg) (kids : Object → List Object) (con : Object)
    (type : ObjectType cfg) (append : Bool) (result : Except Halt (Object × World cfg)) : Prop :=
  (∃ halt, createObject world = .error halt ∧ result = .error halt) ∨
    ∃ obj after, result = .ok (obj, after) ∧ Created world kids con type append obj after

theorem create_placed_spec (agreement : Agreement world) (forest : Forest (liveRecord world) kids)
    (isHolder : holdsOf (liveRecord world) con = some true) (type : ObjectType cfg)
    (append : Bool) : CreatesIn world kids con type append (createPlaced world con type append) := by
  unfold createPlaced
  rcases created : createObject world with halt | result
  · exact .inl ⟨halt, created, rfl⟩
  rcases result with ⟨obj, made⟩
  rcases create_live agreement.permanent created with ⟨_, wasDead, records⟩
  rcases create_forest forest agreement.permanent created with ⟨madeForest, empty, _⟩
  rcases create_agreement agreement created with ⟨madeAgreement, _⟩
  have madeLive : liveRecord made obj = some (blankObject obj.objectID) := by
    rw [records, if_pos rfl]
  rcases change_object_spec madeAgreement (object_exists_iff.mpr ⟨_, madeLive⟩) type with
    ⟨changed, returned, changedAgreement, _⟩
  rcases change_records madeLive returned with ⟨newRecord, retyped⟩
  have defaultHolds : (default : ObjectType cfg).holdsObjects = true :=
    map_container_holds default rfl
  have changedForest := retyped.forest madeForest madeLive (fun _ => .inl defaultHolds)
    (fun _ => empty)
  have different : con ≠ obj := by
    rintro rfl
    rw [holdsOf, wasDead] at isHolder
    cases isHolder
  have stillHolder : holdsOf (liveRecord changed) con = some true := by
    rw [holdsOf, retyped.others con different, records, if_neg different]
    exact isHolder
  have loose : containerOf (liveRecord changed) obj = some NONE := by
    rw [containerOf, retyped.newLive, Option.map_some, retyped.container]
    rfl
  have outside : ¬ Below kids obj con := by
    rw [below_leaf empty]
    exact different
  rcases place_object_spec changedForest stillHolder loose outside append with
    ⟨after, placedOk, quiet, newForest⟩
  right
  refine ⟨obj, after, ?_, wasDead, changedAgreement.quiet quiet, ?_, ?_⟩
  · simp only [ok_bind, returned, placedOk]
  · intro node
    rw [quiet.table, retyped.types]
    split_ifs with here
    · rfl
    · rw [← live_type, ← live_type, records, if_neg here]
  · rcases holder_record stillHolder with ⟨record, live, _⟩
    rw [placed_congr (object_exists_iff.mpr ⟨record, live⟩) quiet.table append]
    exact newForest

theorem Created.later {type : ObjectType cfg} {append : Bool} {final : World cfg}
    (created : Created world kids con type append obj after) (quiet : Quiet after final)
    (isLive : objectExists after con = true)
    (forest : Forest (liveRecord final) (placed after kids obj con append)) :
    Created world kids con type append obj final where
  fresh := created.fresh
  agreement := created.agreement.quiet quiet
  types := by
    intro node
    rw [quiet.table]
    exact created.types node
  forest := by
    rw [placed_congr isLive quiet.table append]
    exact forest

theorem Created.live {type : ObjectType cfg} {append : Bool}
    (created : Created world kids con type append obj after) :
    ∃ record, liveRecord after obj = some record ∧ record.type = type := by
  have typed := created.types obj
  rw [if_pos rfl, ← live_type] at typed
  exact Option.map_eq_some_iff.mp typed

theorem Created.other_live {type : ObjectType cfg} {append : Bool} {node : Object}
    (created : Created world kids con type append obj after)
    (isLive : objectExists world node = true) : node ≠ obj ∧ objectExists after node = true := by
  have different : node ≠ obj := by
    rintro rfl
    rw [objectExists, created.fresh] at isLive
    cases isLive
  refine ⟨different, ?_⟩
  rw [exists_iff_type, created.types, if_neg different, ← exists_iff_type]
  exact isLive

theorem holder_exists (isHolder : holdsOf (liveRecord world) con = some true) :
    objectExists world con = true := by
  rcases holder_record isHolder with ⟨record, live, _⟩
  exact object_exists_iff.mpr ⟨record, live⟩

section

variable (agreement : Agreement world) (forest : Forest (liveRecord world) kids)
    (isHolder : holdsOf (liveRecord world) con = some true) (type : ObjectType cfg)
include agreement forest isHolder type

theorem append_object_spec : CreatesIn world kids con type true (appendObject world con type) := by
  unfold appendObject
  rw [holder_exists isHolder]
  exact create_placed_spec agreement forest isHolder type true

theorem set_object_spec (creatureID : UInt32) :
    CreatesIn world kids con type false (setObject world con type creatureID) := by
  have isLive := holder_exists isHolder
  unfold setObject
  rw [isLive]
  rcases create_placed_spec agreement forest isHolder type false with
    ⟨halt, full, failed⟩ | ⟨obj, after, returned, created⟩
  · left
    refine ⟨halt, full, ?_⟩
    simp only [Bool.not_true, Bool.false_eq_true, if_false, failed, error_bind]
  · right
    by_cases creature : type.isCreatureContainer = true
    · refine ⟨obj, setSlot after obj 1 creatureID, ?_, ?_⟩
      · simp only [Bool.not_true, Bool.false_eq_true, if_false, returned, ok_bind, creature, if_true]
      · exact created.later (set_slot_quiet _ _ _ _) (created.other_live isLive).2
          (set_slot_forest created.forest (by decide))
    refine ⟨obj, after, ?_, created⟩
    simp only [Bool.not_true, Bool.false_eq_true, if_false, returned, ok_bind, creature]

end

section Copies

variable {source : Object}

theorem access_set_slot {record : MapObject cfg} (live : liveRecord world obj = some record)
    (different : source ≠ obj) (slot : Fin 4) (value : UInt32) :
    accessObject (setSlot world obj slot value) source = accessObject world source := by
  have sameNone : (setSlot world obj slot value).noneRecord = world.noneRecord := by
    rw [setSlot, writeObject, live]
  unfold accessObject
  rw [sameNone, live_set_slot, updateRecord, if_neg different]

theorem copy_some_slots (slots : List (Fin 4)) {record : MapObject cfg}
    (live : liveRecord world obj = some record) (different : source ≠ obj) :
    liveRecord (slots.foldl (fun world slot =>
        setSlot world obj slot ((accessObject world source).attributes slot)) world) =
      updateRecord (liveRecord world) obj fun record => { record with
        attributes := fun slot => if slot ∈ slots then (accessObject world source).attributes slot
          else record.attributes slot } := by
  induction slots generalizing world record with
  | nil =>
    exact update_record_id.symm
  | cons first rest ih =>
    have written := live_set_slot world obj first ((accessObject world source).attributes first)
    have stillLive : ∃ newRecord, liveRecord (setSlot world obj first
        ((accessObject world source).attributes first)) obj = some newRecord := by
      rw [written]
      exact update_live live
    rcases stillLive with ⟨newRecord, stillLive⟩
    rw [List.foldl_cons, ih stillLive, access_set_slot live different, written,
      update_record_comp]
    congr 1
    funext record
    congr 1
    funext slot
    split_ifs <;> simp_all

theorem copy_slots_live {record : MapObject cfg} (live : liveRecord world obj = some record)
    (different : source ≠ obj) :
    liveRecord (copySlots world source obj) =
      updateRecord (liveRecord world) obj fun record =>
        { record with attributes := (accessObject world source).attributes } := by
  unfold copySlots
  rw [copy_some_slots (List.finRange 4) live different]
  simp only [List.mem_finRange, if_true]

section

variable (forest : Forest (liveRecord world) kids)
include forest

/-- A member without content takes over the attributes of another object, but not its list. -/
theorem copy_slots_forest {record : MapObject cfg} (live : liveRecord world obj = some record)
    (different : source ≠ obj) (empty : kids obj = []) :
    Forest (liveRecord (clearContent (copySlots world source obj) obj record.type)) kids := by
  have copied := copy_slots_live live different
  have cleared : ∃ newRecord : MapObject cfg,
      liveRecord (clearContent (copySlots world source obj) obj record.type) =
        updateRecord (liveRecord world) obj (fun _ => newRecord) ∧
      newRecord.nextObject = record.nextObject ∧ newRecord.container = record.container ∧
      (newRecord.type.holdsObjects = true → newRecord.content = NONE) := by
    unfold clearContent
    rcases holds : record.type.holdsObjects with _ | _
    · refine ⟨{ record with attributes := (accessObject world source).attributes }, ?_, rfl, rfl,
        ?_⟩
      · simp only [Bool.false_eq_true, if_false, copied]
        funext node
        simp only [updateRecord, live, Option.map_some]
      · intro absurd
        rw [holds] at absurd
        cases absurd
    refine ⟨MapObject.setAttribute
      { record with attributes := (accessObject world source).attributes } .content
        NONE.objectID, ?_, ?_, ?_, ?_⟩
    · simp only [if_true, live_set_attribute, copied, update_record_comp]
      funext node
      simp only [updateRecord, live, Option.map_some]
    · exact set_attribute_next _ _ _
    · exact set_attribute_container _ _ _
    · intro _
      have stored := set_content
        { record with attributes := (accessObject world source).attributes } holds NONE.objectID
      exact stored
  rcases cleared with ⟨newRecord, records, next, container, content⟩
  have newLive : liveRecord (clearContent (copySlots world source obj) obj record.type) obj =
      some newRecord := by
    rw [records, updateRecord, if_pos rfl, live]
    rfl
  apply forest.retype live newLive
  · intro node apart
    rw [records, updateRecord, if_neg apart]
  · exact next
  · exact container
  · intro holds
    rw [empty, content holds]
    rfl
  · intro _
    exact empty

theorem duplicate_string_forest {attr : InstanceAttribute} (different : attr ≠ .content) :
    Forest (liveRecord (duplicateString world obj attr)) kids := by
  unfold duplicateString
  split_ifs
  · apply set_attribute_forest _ different
    exact forest
  · exact forest

theorem duplicate_strings_forest (type : ObjectType cfg) :
    Forest (liveRecord (duplicateStrings world obj type)) kids := by
  unfold duplicateStrings
  split_ifs
  · have first : Forest (liveRecord (duplicateString world obj .textString)) kids :=
      duplicate_string_forest forest nofun
    exact duplicate_string_forest first (show InstanceAttribute.editor ≠ .content from nofun)
  · exact forest

end

theorem copy_object_spec (agreement : Agreement world) (forest : Forest (liveRecord world) kids)
    (isHolder : holdsOf (liveRecord world) con = some true)
    (isLive : objectExists world source = true)
    (item : (getObjectType world source).isCreatureContainer = false) :
    CreatesIn world kids con (getObjectType world source) false (copyObject world con source) := by
  have conLive := holder_exists isHolder
  simp only [copyObject, isLive, conLive, item, Bool.not_true, Bool.false_eq_true, if_false]
  rcases set_object_spec agreement forest isHolder (getObjectType world source) 0 with
    ⟨halt, full, failed⟩ | ⟨obj, made, returned, created⟩
  · left
    refine ⟨halt, full, ?_⟩
    rw [failed, error_bind]
  · right
    rw [returned]
    refine ⟨obj, _, rfl, ?_⟩
    rcases created.live with ⟨record, live, type⟩
    have quiet := (copy_slots_quiet made source obj).trans ((clear_content_quiet _ obj
      (getObjectType world source)).trans (duplicate_strings_quiet _ obj
        (getObjectType world source)))
    apply created.later quiet (created.other_live conLive).2
    apply duplicate_strings_forest
    have empty : placed made kids obj con false obj = [] := by
      rw [placed_elsewhere false (created.other_live conLive).1.symm]
      apply forest.barren
      simp [holdsOf, created.fresh]
    rw [← type]
    exact copy_slots_forest created.forest live (created.other_live isLive).1 empty

end Copies

theorem member_container (forest : Forest (liveRecord world) kids) (edge : obj ∈ kids con) :
    objectExists world obj = true ∧ getContainer world obj = con := by
  rcases forest.kid_live edge with ⟨record, live, inCon⟩
  constructor
  · exact object_exists_iff.mpr ⟨record, live⟩
  · rw [getContainer, access_live live, inCon]

section

variable (agreement : Agreement world) (forest : Forest (liveRecord world) kids)
    (edge : obj ∈ kids con)
include agreement forest edge

/-- `split_object` puts a copy beside its object, or leaves every list as it is. -/
theorem split_object_spec (count : Int32) :
    (∃ res after, splitObject world obj count = .ok (res, after) ∧ Quiet world after ∧
        Forest (liveRecord after) kids) ∨
      CreatesIn world kids con (getObjectType world obj) false (splitObject world obj count) := by
  rcases member_container forest edge with ⟨isLive, container⟩
  have isHolder := forest.parent_holds edge
  simp only [splitObject, isLive, Bool.not_true, Bool.false_eq_true, if_false, container]
  have idle : ∀ res : Object, ∃ res' after, (Except.ok (res, world) : Except Halt _) =
      .ok (res', after) ∧ Quiet world after ∧ Forest (liveRecord after) kids :=
    fun res => ⟨res, world, rfl, .refl world, forest⟩
  split_ifs
  · exact .inl (idle obj)
  · exact .inl (idle obj)
  · exact .inl (idle obj)
  · cases item : (getObjectType world obj).isCreatureContainer with
    | true =>
      left
      have refused : copyObject world con obj = .ok (NONE, world) := by
        simp only [copyObject, isLive, holder_exists isHolder, item, Bool.not_true,
          Bool.false_eq_true, if_false, if_true]
      rw [refused]
      refine ⟨NONE, _, rfl, ?_, ?_⟩
      · exact (set_attribute_quiet _ _ _ _).trans (set_attribute_quiet _ _ _ _)
      · have first : Forest (liveRecord (setAttribute world NONE .amount count.toUInt32)) kids :=
          set_attribute_forest forest (by decide)
        exact set_attribute_forest first (show InstanceAttribute.amount ≠ .content by decide)
    | false =>
      right
      rcases copy_object_spec agreement forest isHolder isLive item with
        ⟨halt, full, failed⟩ | ⟨res, made, returned, created⟩
      · left
        refine ⟨halt, full, ?_⟩
        rw [failed, error_bind]
      · right
        rw [returned]
        refine ⟨res, _, rfl, ?_⟩
        have first : Forest (liveRecord (setAttribute made res .amount count.toUInt32))
            (placed made kids res con false) := set_attribute_forest created.forest (by decide)
        apply created.later ((set_attribute_quiet _ _ _ _).trans (set_attribute_quiet _ _ _ _))
          (created.other_live (holder_exists isHolder)).2
        exact set_attribute_forest first (show InstanceAttribute.amount ≠ .content by decide)

theorem merge_objects_spec (dest : Object) :
    mergeObjects world obj dest = .ok world ∨
      ∃ after, mergeObjects world obj dest = .ok after ∧ Deleted world kids obj after := by
  have isLive := (member_container forest edge).1
  have merged : objectExists world dest = true → ∀ amount, ∃ after,
      deleteObject (setAttribute world dest .amount amount) obj = .ok after ∧
        Deleted world kids obj after := by
    intro destExists amount
    rcases object_exists_iff.mp destExists with ⟨_, destLive⟩
    have quiet := set_attribute_quiet world dest .amount amount
    have counted : Forest (liveRecord (setAttribute world dest .amount amount)) kids :=
      set_attribute_forest forest nofun
    rcases delete_object_spec (agreement.quiet quiet) counted edge with ⟨after, returned, deleted⟩
    refine ⟨after, returned, deleted.agreement, deleted.forest, ?_,
      deleted.noneRecord.trans (write_none_record destLive _)⟩
    intro node
    rw [deleted.survivors, exists_iff_type, quiet.table, ← exists_iff_type]
  simp only [mergeObjects, isLive, Bool.not_true, Bool.false_eq_true, if_false]
  rcases destExists : objectExists world dest with _ | _
  · exact .inl rfl
  simp only [Bool.not_true, Bool.false_eq_true, if_false]
  split_ifs
  · exact .inl rfl
  · exact .inl rfl
  all_goals exact .inr (merged destExists _)

end

/-- `move_object` takes the object out of its list and puts it into another. -/
theorem move_object_spec {old : Object} (forest : Forest (liveRecord world) kids)
    (edge : obj ∈ kids old) (isHolder : holdsOf (liveRecord world) con = some true)
    (outside : ¬ Below kids obj con) :
    ∃ after, moveObject world obj con = .ok after ∧ Quiet world after ∧
      Forest (liveRecord after)
        (placed after (update kids old ((kids old).erase obj)) obj con false) := by
  have isLive := (member_container forest edge).1
  rcases cut_object_spec forest edge with ⟨cut, returned, quiet, cutForest, loose, _⟩
  have stillHolder : holdsOf (liveRecord cut) con = some true := by
    rw [quiet_holds quiet]
    exact isHolder
  have stillOutside : ¬ Below (update kids old ((kids old).erase obj)) obj con := by
    intro under
    apply outside
    apply below_mono _ under
    intro parent child inner
    by_cases here : parent = old
    · rw [here, update_self] at inner
      rw [here]
      exact List.mem_of_mem_erase inner
    · rwa [update_of_ne here] at inner
  rcases place_object_spec cutForest stillHolder loose stillOutside false with
    ⟨after, placedOk, placeQuiet, newForest⟩
  refine ⟨after, ?_, quiet.trans placeQuiet, ?_⟩
  · simp only [moveObject, isLive, holder_exists isHolder, Bool.not_true, Bool.false_eq_true,
      if_false, returned, ok_bind, placedOk]
  · rw [placed_congr (holder_exists stillHolder) placeQuiet.table]
    exact newForest

end TibiaGame.ForestOperations
