import TibiaGame.ForestOperations

/-!
# What an object is apart from its links

Placing, cutting and deleting leave every view of the objects that remain, as long as
the view does not look at links; only `create_object`, `change_object` and attribute
writes concern more, each of them one object. The payload of an object is its type with
every attribute but `CONTENT`.
-/

namespace TibiaGame.ObjectPayload

open GameTypes ObjectStore ObjectOperations ObjectKinds CronRuns ForestSteps Function
open ForestOperations Library.Outcome

variable {cfg : GameConfig} {world after : World cfg} {obj con : Object}

section Records

variable (record : MapObject cfg)

/-- The attribute has a slot of its own in an object of the type. -/
def stores (type : ObjectType cfg) (attr : InstanceAttribute) : Bool :=
  match type.getAttributeOffset attr with
  | some offset => decide (offset < 4)
  | none => false

theorem get_attribute_set (attr other : InstanceAttribute) (value : UInt32) :
    (record.setAttribute attr value).getAttribute other =
      if other = attr ∧ stores record.type attr = true then
        MapObject.normalize record.type attr value
      else record.getAttribute other := by
  have sameType := record_set_attribute_type record attr value
  unfold stores
  rcases found : record.type.getAttributeOffset attr with _ | offset
  · have same : record.setAttribute attr value = record := by
      rw [MapObject.setAttribute, found]
    rw [same, if_neg (by simp)]
  by_cases bound : offset < 4
  · have written : record.setAttribute attr value = { record with
        attributes := update record.attributes ⟨offset, bound⟩
          (MapObject.normalize record.type attr value) } := by
      rw [MapObject.setAttribute, found]
      simp only [bound, dif_pos]
    by_cases here : other = attr
    · rw [if_pos ⟨here, by simpa using bound⟩, here, MapObject.getAttribute, sameType, found,
        written]
      simp only [bound, dif_pos, update_self]
    rw [if_neg fun both => here both.1, MapObject.getAttribute, MapObject.getAttribute,
      sameType]
    rcases otherFound : record.type.getAttributeOffset other with _ | place
    · rfl
    simp only
    split_ifs with fits
    · have apart : (⟨place, fits⟩ : Fin 4) ≠ ⟨offset, bound⟩ := by
        intro same
        have equal : place = offset := congrArg Fin.val same
        rw [equal] at otherFound
        exact here (attribute_offset_injective _ otherFound found)
      rw [written]
      exact update_of_ne apart _ _
    · rfl
  have same : record.setAttribute attr value = record := by
    rw [MapObject.setAttribute, found]
    simp only [bound, dif_neg, not_false_eq_true]
  rw [same, if_neg (by simp [bound])]

theorem get_attribute_absent {type : ObjectType cfg} {attr : InstanceAttribute}
    (absent : stores type attr = false) (typed : record.type = type) :
    record.getAttribute attr = 0 := by
  unfold stores at absent
  rw [MapObject.getAttribute, typed]
  rcases found : type.getAttributeOffset attr with _ | offset
  · rfl
  rw [found] at absent
  have large : ¬ offset < 4 := by simpa using absent
  simp only [large, dif_neg, not_false_eq_true]

def payload (record : MapObject cfg) : ObjectType cfg × (InstanceAttribute → UInt32) :=
  (record.type, fun attr => if attr = .content then 0 else record.getAttribute attr)

theorem payload_set_content (value : UInt32) :
    payload (record.setAttribute .content value) = payload record := by
  unfold payload
  rw [record_set_attribute_type]
  congr 1
  funext attr
  rw [get_attribute_set]
  split_ifs with first second
  · rfl
  · exact (first second.1).elim
  · rfl

end Records

section Views

variable {Value : Type} {view : MapObject cfg → Value}

structure Unlinked (view : MapObject cfg → Value) : Prop where
  next : ∀ record next, view { record with nextObject := next } = view record
  container : ∀ record con, view { record with container := con } = view record
  content : ∀ record value, view (record.setAttribute .content value) = view record

def viewOf (view : MapObject cfg → Value) (world : World cfg) (obj : Object) : Option Value :=
  (liveRecord world obj).map view

def SameView (view : MapObject cfg → Value) (before after : World cfg) : Prop :=
  ∀ node, viewOf view after node = viewOf view before node

def FewerViews (view : MapObject cfg → Value) (before after : World cfg) : Prop :=
  ∀ node, viewOf view after node = none ∨ viewOf view after node = viewOf view before node

def Beside (view : MapObject cfg → Value) (obj : Object) (before after : World cfg) : Prop :=
  ∀ node, node ≠ obj → viewOf view after node = viewOf view before node

theorem same_view_of_table (same : after.hashTable = world.hashTable) :
    SameView view world after := by
  intro node
  rw [viewOf, live_congr same node]
  rfl

theorem SameView.trans {first second third : World cfg} (left : SameView view first second)
    (right : SameView view second third) : SameView view first third :=
  fun node => (right node).trans (left node)

theorem SameView.fewer (same : SameView view world after) : FewerViews view world after :=
  fun node => .inr (same node)

theorem SameView.beside (same : SameView view world after) : Beside view obj world after :=
  fun node _ => same node

theorem FewerViews.trans {first second third : World cfg} (left : FewerViews view first second)
    (right : FewerViews view second third) : FewerViews view first third := by
  intro node
  rcases right node with gone | kept
  · exact .inl gone
  rw [kept]
  exact left node

theorem Beside.trans {first second third : World cfg} (left : Beside view obj first second)
    (right : Beside view obj second third) : Beside view obj first third :=
  fun node different => (right node different).trans (left node different)

theorem write_view {change : MapObject cfg → MapObject cfg}
    (number : ∀ record, (change record).objectID = record.objectID)
    (keeps : ∀ record, view (change record) = view record) :
    SameView view world (writeObject world obj change) := by
  intro node
  rw [viewOf, live_write_update world obj number]
  exact view_update_keep keeps

theorem write_beside {change : MapObject cfg → MapObject cfg}
    (number : ∀ record, (change record).objectID = record.objectID) :
    Beside view obj world (writeObject world obj change) := by
  intro node different
  rw [viewOf, live_write_update world obj number, updateRecord, if_neg different]
  rfl

theorem set_attribute_beside (world : World cfg) (obj : Object) (attr : InstanceAttribute)
    (value : UInt32) : Beside view obj world (setAttribute world obj attr value) :=
  write_beside fun record => record_set_attribute_number record attr value

theorem set_slot_beside (world : World cfg) (obj : Object) (slot : Fin 4) (value : UInt32) :
    Beside view obj world (setSlot world obj slot value) :=
  write_beside fun _ => rfl

section

variable (unlinked : Unlinked view)
include unlinked

theorem set_next_view (world : World cfg) (obj next : Object) :
    SameView view world (setNextObject world obj next) :=
  write_view (fun _ => rfl) fun record => unlinked.next record next

theorem set_container_view (world : World cfg) (obj con : Object) :
    SameView view world (setContainer world obj con) :=
  write_view (fun _ => rfl) fun record => unlinked.container record con

theorem set_content_view (world : World cfg) (obj : Object) (value : UInt32) :
    SameView view world (setAttribute world obj .content value) :=
  write_view (fun record => record_set_attribute_number record .content value)
    fun record => unlinked.content record value

theorem place_view {append : Bool} (placed : placeObject world obj con append = .ok after) :
    SameView view world after := by
  unfold placeObject at placed
  split_ifs at placed
  · cases placed
    exact same_view_of_table rfl
  · cases placed
    exact same_view_of_table rfl
  · cases placed
    exact same_view_of_table rfl
  · rcases bind_ok.mp placed with ⟨⟨prev, cur⟩, _, ended⟩
    cases ended
    apply SameView.trans _
      ((set_next_view unlinked _ _ _).trans (set_container_view unlinked _ _ _))
    split_ifs
    · exact set_next_view unlinked _ _ _
    · exact set_content_view unlinked _ _ _

theorem cut_view (cut : cutObject world obj = .ok after) : SameView view world after := by
  unfold cutObject at cut
  split_ifs at cut
  · cases cut
    exact same_view_of_table rfl
  rcases bind_ok.mp cut with ⟨middle, unlinkedObj, ended⟩
  cases ended
  have joined : SameView view world middle := by
    simp only [unlinkObject] at unlinkedObj
    split_ifs at unlinkedObj
    · cases unlinkedObj
      exact set_content_view unlinked _ _ _
    · rcases bind_ok.mp unlinkedObj with ⟨prev, _, ended⟩
      cases ended
      exact set_next_view unlinked _ _ _
  exact joined.trans ((set_next_view unlinked _ _ _).trans (set_container_view unlinked _ _ _))

end

theorem release_view (world : World cfg) (obj : Object) :
    FewerViews view world (releaseObject world obj) := by
  intro node
  unfold releaseObject
  cases cell : world.hashTable (entryIndex cfg obj.objectID) with
  | free => exact .inr rfl
  | permanent => exact .inr rfl
  | loaded record =>
    by_cases here : entryIndex cfg node.objectID = entryIndex cfg obj.objectID
    · left
      simp [viewOf, liveRecord, here]
    right
    simp [viewOf, liveRecord, update_of_ne here]

theorem deletion_view (unlinked : Unlinked view) (deleted : deleteObject world obj = .ok after) :
    FewerViews view world after :=
  (deletion_preserves (fun _ => (same_view_of_table rfl).fewer)
    (fun _ _ _ => FewerViews.trans) (fun _ _ => (same_view_of_table rfl).fewer)
    (fun _ _ => (same_view_of_table rfl).fewer) release_view
    (fun _ _ _ wasCut => (cut_view unlinked wasCut).fewer) _).2.2 _ _ _ deleted

theorem move_view (unlinked : Unlinked view) (moved : moveObject world obj con = .ok after) :
    SameView view world after := by
  unfold moveObject at moved
  split_ifs at moved
  · cases moved
    exact same_view_of_table rfl
  · cases moved
    exact same_view_of_table rfl
  · rcases bind_ok.mp moved with ⟨middle, wasCut, placed⟩
    exact (cut_view unlinked wasCut).trans (place_view unlinked placed)

section New

variable {type : ObjectType cfg}

theorem copy_slots_beside (world : World cfg) (source target : Object) :
    Beside view target world (copySlots world source target) := by
  unfold copySlots
  induction List.finRange 4 generalizing world with
  | nil => exact (same_view_of_table rfl).beside
  | cons slot rest ih =>
    rw [List.foldl_cons]
    exact (set_slot_beside _ _ _ _).trans (ih _)

theorem duplicate_string_beside (world : World cfg) (obj : Object) (attr : InstanceAttribute) :
    Beside view obj world (duplicateString world obj attr) := by
  unfold duplicateString
  split_ifs
  · exact ((same_view_of_table rfl).beside : Beside view obj world _).trans (set_attribute_beside _ _ _ _)
  · exact (same_view_of_table rfl).beside

theorem finish_copy_beside (world : World cfg) (source obj : Object) (type : ObjectType cfg) :
    Beside view obj world
      (duplicateStrings (clearContent (copySlots world source obj) obj type) obj type) := by
  apply (copy_slots_beside world source obj).trans
  have cleared : ∀ start : World cfg, Beside view obj start (clearContent start obj type) := by
    intro start
    unfold clearContent
    split_ifs
    · exact set_attribute_beside _ _ _ _
    · exact (same_view_of_table rfl).beside
  apply (cleared _).trans
  unfold duplicateStrings
  split_ifs
  · exact (duplicate_string_beside _ _ _).trans (duplicate_string_beside _ _ _)
  · exact (same_view_of_table rfl).beside

theorem finish_copy_quiet (world : World cfg) (source obj : Object) (type : ObjectType cfg) :
    Quiet world
      (duplicateStrings (clearContent (copySlots world source obj) obj type) obj type) :=
  ((copy_slots_quiet _ _ _).trans (clear_content_quiet _ _ _)).trans (duplicate_strings_quiet _ _ _)

/-- A new object of a type is there, and the others are left alone. -/
structure Fresh (view : MapObject cfg → Value) (before after : World cfg) (obj : Object)
    (type : ObjectType cfg) : Prop where
  dead : liveRecord before obj = none
  typed : typeOf (kinds after) obj = some type
  beside : Beside view obj before after
  permanent : kinds after 0 = .permanent

theorem Fresh.live (fresh : Fresh view world after obj type) : objectExists after obj = true :=
  (exists_iff_type _ _).mpr (Option.isSome_of_eq_some fresh.typed)

theorem Fresh.later {later : World cfg} (fresh : Fresh view world after obj type)
    (quiet : Quiet after later) (beside : Beside view obj after later) :
    Fresh view world later obj type where
  dead := fresh.dead
  typed := by rw [quiet.table, fresh.typed]
  beside := fresh.beside.trans beside
  permanent := by rw [quiet.table, fresh.permanent]

variable (unlinked : Unlinked view) (permanent : kinds world 0 = .permanent)
include unlinked permanent

theorem create_placed_fresh {append : Bool}
    (created : createPlaced world con type append = .ok (obj, after)) :
    Fresh view world after obj type := by
  unfold createPlaced at created
  rcases bind_ok.mp created with ⟨⟨fresh, born⟩, wasBorn, typing⟩
  rcases bind_ok.mp typing with ⟨changed, typed, placing⟩
  rcases bind_ok.mp placing with ⟨placed, wasPlaced, same⟩
  cases same
  rcases create_live permanent wasBorn with ⟨notNone, wasDead, live⟩
  have newLive : liveRecord born obj = some (blankObject obj.objectID) := by
    rw [live, if_pos rfl]
  have bornLive : objectExists born obj = true := object_exists_iff.mpr ⟨_, newLive⟩
  have field : (getObjectType born obj).isMapContainer = true := by
    rw [getObjectType, access_live newLive]
    rfl
  rw [changeObject, bornLive, leaveType, if_pos field] at typed
  cases typed
  have bornBeside : Beside view obj world born := by
    intro node different
    rw [viewOf, live, if_neg different]
    rfl
  have typedBeside : Beside view obj born (enterType born obj type ⟨0, 0, -1⟩) :=
    write_beside fun record => enter_record_number type _ record
  have timed : (cronExpire (enterType born obj type ⟨0, 0, -1⟩) obj (-1)).hashTable =
      (enterType born obj type ⟨0, 0, -1⟩).hashTable := by
    rw [cron_expire_eq]
    split_ifs <;> rfl
  have sameKinds := congrArg (fun table index => cellKind (table index)) timed
  have placedKinds := ((place_quiet wasPlaced).table.trans sameKinds).trans
    (enter_type_kinds bornLive type ⟨0, 0, -1⟩).1
  rcases create_kinds wasBorn with ⟨wasFree, bornKinds, _⟩
  have elsewhere : 0 ≠ entryIndex cfg obj.objectID := by
    intro here
    rw [← here, permanent] at wasFree
    cases wasFree
  constructor
  · exact wasDead
  · rw [placedKinds, type_of_kind]
    exact ⟨notNone, update_self _ _ _⟩
  · apply (bornBeside.trans typedBeside).trans
    apply ((same_view_of_table timed).beside : Beside view obj _ _).trans
    exact (place_view unlinked wasPlaced).beside
  · rw [placedKinds, update_of_ne elsewhere, bornKinds, update_of_ne elsewhere]
    exact permanent

theorem set_object_fresh {creatureID : UInt32} (conLive : objectExists world con = true)
    (created : setObject world con type creatureID = .ok (obj, after)) :
    Fresh view world after obj type := by
  simp only [setObject, conLive, Bool.not_true, Bool.false_eq_true, if_false] at created
  rcases bind_ok.mp created with ⟨⟨new, made⟩, wasMade, ended⟩
  have fresh := create_placed_fresh unlinked permanent wasMade
  split_ifs at ended
  · cases ended
    exact fresh.later (set_slot_quiet _ _ _ _) (set_slot_beside _ _ _ _)
  · cases ended
    exact fresh

theorem copy_object_fresh {source : Object} (isLive : objectExists world source = true)
    (conLive : objectExists world con = true)
    (item : (getObjectType world source).isCreatureContainer = false)
    (copied : copyObject world con source = .ok (obj, after)) :
    Fresh view world after obj (getObjectType world source) := by
  simp only [copyObject, isLive, conLive, item, Bool.not_true, Bool.false_eq_true, if_false] at copied
  rcases bind_ok.mp copied with ⟨⟨new, made⟩, wasMade, ended⟩
  cases ended
  exact (set_object_fresh unlinked permanent conLive wasMade).later (finish_copy_quiet _ _ _ _)
    (finish_copy_beside _ _ _ _)

end New

end Views

def payloadOf (world : World cfg) (obj : Object) :
    Option (ObjectType cfg × (InstanceAttribute → UInt32)) :=
  viewOf payload world obj

def SamePayload (before after : World cfg) : Prop := SameView payload before after

/-- Objects may be gone; those that remain keep their payload. -/
def FewerPayloads (before after : World cfg) : Prop := FewerViews payload before after

theorem payload_unlinked : Unlinked (payload : MapObject cfg → _) :=
  ⟨fun _ _ => rfl, fun _ _ => rfl, payload_set_content⟩

theorem SamePayload.fewer (same : SamePayload world after) : FewerPayloads world after :=
  SameView.fewer same

theorem place_payload {append : Bool} (placed : placeObject world obj con append = .ok after) :
    SamePayload world after := place_view payload_unlinked placed

theorem deletion_payload (deleted : deleteObject world obj = .ok after) :
    FewerPayloads world after := deletion_view payload_unlinked deleted

theorem move_payload (moved : moveObject world obj con = .ok after) : SamePayload world after :=
  move_view payload_unlinked moved

end TibiaGame.ObjectPayload
