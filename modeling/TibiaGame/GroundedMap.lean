import TibiaGame.OperateSteps

/-!
# The fields of the map stay where they are

No operation on objects touches the table of sectors or puts a field into a container,
and none deletes a field: what the lookups rely on holds after every call.
-/

namespace TibiaGame.GroundedMap

open Function
open GameTypes ObjectStore ObjectOperations ObjectKinds CronRuns ContentForest ForestOperations
open ForestRuns ContainerWalks Library.OrderedForest Library.Outcome

variable {cfg : GameConfig} {world after : World cfg} {kids newKids : Object → List Object}
  {obj con : Object}

def SameSectors (before after : World cfg) : Prop := after.sectors = before.sectors

theorem SameSectors.trans {first second third : World cfg} (left : SameSectors first second)
    (right : SameSectors second third) : SameSectors first third :=
  Eq.trans right left

theorem write_sectors (world : World cfg) (obj : Object) (change : MapObject cfg → MapObject cfg) :
    SameSectors world (writeObject world obj change) := by
  unfold writeObject SameSectors
  split <;> rfl

theorem set_attribute_sectors (world : World cfg) (obj : Object) (attr : InstanceAttribute)
    (value : UInt32) : SameSectors world (setAttribute world obj attr value) :=
  write_sectors _ _ _

theorem set_slot_sectors (world : World cfg) (obj : Object) (slot : Fin 4) (value : UInt32) :
    SameSectors world (setSlot world obj slot value) :=
  write_sectors _ _ _

theorem change_attribute_sectors (world : World cfg) (obj : Object) (attr : InstanceAttribute)
    (value : UInt32) : SameSectors world (changeAttribute world obj attr value) := by
  unfold changeAttribute
  split_ifs
  · rfl
  · exact set_attribute_sectors _ _ _ _

theorem place_sectors {append : Bool} (placed : placeObject world obj con append = .ok after) :
    SameSectors world after := by
  unfold placeObject at placed
  split_ifs at placed
  · cases placed
    rfl
  · cases placed
    rfl
  · cases placed
    rfl
  · rcases bind_ok.mp placed with ⟨⟨prev, cur⟩, _, ended⟩
    cases ended
    apply SameSectors.trans _ ((write_sectors _ _ _).trans (write_sectors _ _ _))
    split_ifs
    · exact write_sectors _ _ _
    · exact set_attribute_sectors _ _ _ _

theorem cut_sectors (cut : cutObject world obj = .ok after) : SameSectors world after := by
  unfold cutObject at cut
  split_ifs at cut
  · cases cut
    rfl
  rcases bind_ok.mp cut with ⟨middle, unlinked, ended⟩
  cases ended
  have joined : SameSectors world middle := by
    simp only [unlinkObject] at unlinked
    split_ifs at unlinked
    · cases unlinked
      exact set_attribute_sectors _ _ _ _
    · rcases bind_ok.mp unlinked with ⟨prev, _, ended⟩
      cases ended
      exact write_sectors _ _ _
  exact joined.trans ((write_sectors _ _ _).trans (write_sectors _ _ _))

theorem release_sectors (world : World cfg) (obj : Object) :
    SameSectors world (releaseObject world obj) := by
  unfold releaseObject SameSectors
  split <;> rfl

theorem delete_sectors (deleted : deleteObject world obj = .ok after) : SameSectors world after := by
  have kept := @deletion_preserves cfg SameSectors (fun _ => rfl) (fun _ _ _ => SameSectors.trans)
    (fun _ _ => rfl) (fun _ _ => rfl) release_sectors (fun _ _ _ wasCut => cut_sectors wasCut)
    walkLimit
  exact kept.2.2 _ _ _ deleted

theorem create_sectors (created : createObject world = .ok (obj, after)) :
    SameSectors world after := by
  unfold createObject at created
  split_ifs at created
  simp only at created
  split at created
  · cases created
    rfl
  · cases created

theorem drop_strings_sectors (world : World cfg) (obj : Object) :
    SameSectors world (dropStrings world obj) := by
  have cleared : ∀ (start : World cfg) strings attr, SameSectors start
      (setAttribute { start with strings := strings } obj attr 0) :=
    fun start strings attr => set_attribute_sectors { start with strings := strings } obj attr 0
  exact (cleared world _ .textString).trans (cleared _ _ .editor)

theorem leave_sectors {oldType newType : ObjectType cfg} {carried : Carried}
    (left : leaveType world obj oldType newType = .ok (carried, after)) :
    SameSectors world after := by
  unfold leaveType at left
  by_cases field : oldType.isMapContainer = true
  · rw [if_pos field] at left
    cases left
    rfl
  rw [if_neg field] at left
  rcases bind_ok.mp left with ⟨⟨saved, stopped⟩, timer, ended⟩
  cases ended
  have stoppedSame : SameSectors world stopped := by
    split_ifs at timer
    · rcases cron_stop_frame timer with ⟨cron, same⟩
      rw [same]
      rfl
    · cases timer
      rfl
  apply stoppedSame.trans
  have droppedSame : SameSectors stopped
      (if (oldType.getFlag .text && !newType.getFlag .text) = true then dropStrings stopped obj
        else stopped) := by
    split_ifs
    · exact drop_strings_sectors stopped obj
    · rfl
  apply droppedSame.trans
  by_cases magic : oldType.getFlag .magicField = true
  · rw [if_pos magic]
    exact set_attribute_sectors _ _ _ _
  rw [if_neg magic]
  rfl

theorem change_object_sectors {newType : ObjectType cfg}
    (changed : changeObject world obj newType = .ok after) : SameSectors world after := by
  unfold changeObject at changed
  split_ifs at changed
  · cases changed
    rfl
  rcases bind_ok.mp changed with ⟨⟨carried, left⟩, wasLeft, ended⟩
  cases ended
  apply (leave_sectors wasLeft).trans
  rw [cron_expire_eq]
  split_ifs
  all_goals exact write_sectors _ _ _

theorem create_placed_sectors {type : ObjectType cfg} {append : Bool}
    (created : createPlaced world con type append = .ok (obj, after)) : SameSectors world after := by
  rcases bind_ok.mp created with ⟨⟨fresh, born⟩, wasBorn, typing⟩
  rcases bind_ok.mp typing with ⟨changed, typed, placing⟩
  rcases bind_ok.mp placing with ⟨placed, wasPlaced, same⟩
  cases same
  exact ((create_sectors wasBorn).trans (change_object_sectors typed)).trans
    (place_sectors wasPlaced)

theorem set_object_sectors {type : ObjectType cfg} {creatureID : UInt32}
    (created : setObject world con type creatureID = .ok (obj, after)) :
    SameSectors world after := by
  unfold setObject at created
  by_cases missing : (!objectExists world con) = true
  · rw [if_pos missing] at created
    cases created
    rfl
  rw [if_neg missing] at created
  rcases bind_ok.mp created with ⟨⟨new, made⟩, wasMade, ended⟩
  have same := create_placed_sectors wasMade
  split_ifs at ended
  · cases ended
    exact same.trans (set_slot_sectors _ _ _ _)
  · cases ended
    exact same

theorem copy_slots_sectors (world : World cfg) (source target : Object) :
    SameSectors world (copySlots world source target) := by
  unfold copySlots
  induction List.finRange 4 generalizing world with
  | nil => rfl
  | cons slot rest ih =>
    rw [List.foldl_cons]
    exact (set_slot_sectors _ _ _ _).trans (ih _)

theorem duplicate_string_sectors (world : World cfg) (obj : Object) (attr : InstanceAttribute) :
    SameSectors world (duplicateString world obj attr) := by
  unfold duplicateString
  split_ifs
  · exact set_attribute_sectors _ _ _ _
  · rfl

theorem clear_content_sectors (world : World cfg) (obj : Object) (type : ObjectType cfg) :
    SameSectors world (clearContent world obj type) := by
  unfold clearContent
  split_ifs
  · exact set_attribute_sectors _ _ _ _
  · rfl

theorem duplicate_strings_sectors (world : World cfg) (obj : Object) (type : ObjectType cfg) :
    SameSectors world (duplicateStrings world obj type) := by
  unfold duplicateStrings
  split_ifs
  · exact (duplicate_string_sectors _ _ _).trans (duplicate_string_sectors _ _ _)
  · rfl

theorem copy_object_sectors {source : Object}
    (copied : copyObject world con source = .ok (obj, after)) : SameSectors world after := by
  unfold copyObject at copied
  by_cases noSource : (!objectExists world source) = true
  · rw [if_pos noSource] at copied
    cases copied
    rfl
  rw [if_neg noSource] at copied
  by_cases noCon : (!objectExists world con) = true
  · rw [if_pos noCon] at copied
    cases copied
    rfl
  rw [if_neg noCon] at copied
  by_cases creature : (getObjectType world source).isCreatureContainer = true
  · simp only [creature, if_true] at copied
    cases copied
    rfl
  simp only [if_neg creature] at copied
  rcases bind_ok.mp copied with ⟨⟨new, made⟩, wasMade, ended⟩
  cases ended
  exact (((set_object_sectors wasMade).trans (copy_slots_sectors _ _ _)).trans
    (clear_content_sectors _ _ _)).trans (duplicate_strings_sectors _ _ _)

theorem split_sectors {count : Int32} {part : Object}
    (split : splitObject world obj count = .ok (part, after)) : SameSectors world after := by
  unfold splitObject at split
  split_ifs at split
  · cases split
    rfl
  · cases split
    rfl
  · simp only at split
    split_ifs at split
    · cases split
      rfl
    · cases split
      rfl
    · rcases bind_ok.mp split with ⟨⟨res, made⟩, copied, ended⟩
      cases ended
      exact (copy_object_sectors copied).trans
        ((set_attribute_sectors _ _ _ _).trans (set_attribute_sectors _ _ _ _))

theorem move_sectors (moved : moveObject world obj con = .ok after) : SameSectors world after := by
  unfold moveObject at moved
  split_ifs at moved
  · cases moved
    rfl
  · cases moved
    rfl
  · rcases bind_ok.mp moved with ⟨middle, wasCut, placed⟩
    exact (cut_sectors wasCut).trans (place_sectors placed)

section Fields

variable {field : Object}

def IsField (world : World cfg) (field : Object) : Prop :=
  objectExists world field = true ∧ (getObjectType world field).isMapContainer = true

theorem default_of_map_container (type : ObjectType cfg) (isMap : type.isMapContainer = true) :
    type = default := by
  rcases type with ⟨number, known⟩
  have zero : number = 0 := by simpa [ObjectType.isMapContainer] using isMap
  subst zero
  rfl

theorem field_iff_type : IsField world field ↔ typeOf (kinds world) field = some default := by
  constructor
  · intro isField
    rw [type_of_exists isField.1, default_of_map_container _ isField.2]
  intro typed
  constructor
  · rw [exists_iff_type, typed]
    rfl
  · rw [object_type_of typed]
    rfl

section

variable (grounded : Grounded world)
include grounded

theorem Grounded.orphan (forest : Forest (liveRecord world) kids) (isField : IsField world field)
    (con : Object) : field ∉ kids con := by
  intro edge
  have inCon := (member_container forest edge).2
  rw [grounded.root field isField.1 isField.2] at inCon
  exact ((forest.member con field).mp edge).1 inCon.symm

theorem Grounded.item (forest : Forest (liveRecord world) kids) (edge : obj ∈ kids con) :
    (getObjectType world obj).isMapContainer = false := by
  apply Bool.eq_false_iff.mpr
  intro isMap
  exact Grounded.orphan grounded forest ⟨(member_container forest edge).1, isMap⟩ con edge

theorem grounded_after (sectors : SameSectors world after)
    (newForest : Forest (liveRecord after) newKids)
    (stays : ∀ field, IsField world field → IsField after field)
    (roots : ∀ field con, IsField after field → field ∉ newKids con) : Grounded after where
  root := by
    intro field isLive isMap
    rcases container_cases newForest isLive with loose | inside
    · exact loose.1
    · exact (roots field _ ⟨isLive, isMap⟩ inside.1).elim
  sector := by
    intro x y z sector found offsetX offsetY
    rw [sectors] at found
    exact stays _ (grounded.sector x y z sector found offsetX offsetY)

theorem Grounded.quiet (forest : Forest (liveRecord world) kids)
    (newForest : Forest (liveRecord after) kids) (sectors : SameSectors world after)
    (quiet : Quiet world after) : Grounded after := by
  apply grounded_after grounded sectors newForest
  · intro field isField
    rw [field_iff_type, quiet.table, ← field_iff_type]
    exact isField
  · intro field con isField
    rw [field_iff_type, quiet.table, ← field_iff_type] at isField
    exact Grounded.orphan grounded forest isField con

end

variable (grounded : Grounded world) (forest : Forest (liveRecord world) kids)
    (newForest : Forest (liveRecord after) newKids) (sectors : SameSectors world after)
include grounded forest newForest sectors

theorem Grounded.appears {type : ObjectType cfg} {append : Bool}
    (appears : Appears world kids con type append after newKids)
    (item : type.isMapContainer = false) : Grounded after := by
  rcases appears with ⟨obj, wasDead, ⟨front, back, split, _, inserted⟩, types⟩
  have fields : ∀ field, IsField after field ↔ field ≠ obj ∧ IsField world field := by
    intro field
    rw [field_iff_type, field_iff_type, types]
    split_ifs with here
    · constructor
      · intro typed
        rw [Option.some.inj typed] at item
        cases item
      · intro both
        exact (both.1 here).elim
    · exact (and_iff_right here).symm
  apply grounded_after grounded sectors newForest
  · intro field isField
    apply (fields field).mpr
    constructor
    · intro same
      rw [same] at isField
      rw [isField.1] at wasDead
      cases wasDead
    · exact isField
  intro field holder isField edge
  rcases (fields field).mp isField with ⟨different, was⟩
  apply Grounded.orphan grounded forest was holder
  rw [inserted] at edge
  by_cases here : holder = con
  · rw [here, update_self, List.mem_append, List.mem_cons] at edge
    rw [here, split, List.mem_append]
    rcases edge with inFront | same | inBack
    · exact .inl inFront
    · exact (different same).elim
    · exact .inr inBack
  · rwa [update_of_ne here] at edge

theorem Grounded.disappears (edge : obj ∈ kids con)
    (disappears : Disappears world kids obj after newKids) : Grounded after := by
  rcases disappears with ⟨pruned, survivors, types⟩
  have remains : ∀ field, IsField world field → IsField after field := by
    intro field isField
    have isLive : objectExists after field = true := by
      apply (survivors field).mpr
      constructor
      · exact isField.1
      intro under
      have same := below_root (Grounded.orphan grounded forest isField) under
      rw [same] at edge
      exact Grounded.orphan grounded forest isField con edge
    rw [field_iff_type, types field isLive, ← field_iff_type]
    exact isField
  apply grounded_after grounded sectors newForest remains
  intro field holder isField inner
  have was : IsField world field := by
    rw [field_iff_type, ← types field isField.1, ← field_iff_type]
    exact isField
  rw [pruned] at inner
  exact Grounded.orphan grounded forest was holder (prune_subset holder field inner)

theorem Grounded.moved {old : Object} {append : Bool} (quiet : Quiet world after)
    (edge : obj ∈ kids old)
    (inserted : Inserted after (update kids old ((kids old).erase obj)) newKids obj con
      append) : Grounded after := by
  have same : ∀ field, IsField after field ↔ IsField world field := by
    intro field
    rw [field_iff_type, quiet.table, ← field_iff_type]
  apply grounded_after grounded sectors newForest
  · intro field isField
    exact (same field).mpr isField
  intro field holder isField inner
  have was := (same field).mp isField
  have notObj : field ≠ obj := by
    intro here
    rw [here] at was
    exact Grounded.orphan grounded forest was old edge
  have fewer : ∀ node, field ∈ update kids old ((kids old).erase obj) node →
      field ∈ kids node := by
    intro node member
    by_cases here : node = old
    · rw [here, update_self] at member
      rw [here]
      exact List.mem_of_mem_erase member
    · rwa [update_of_ne here] at member
  rcases inserted with ⟨front, back, split, _, result⟩
  apply Grounded.orphan grounded forest was holder
  apply fewer
  rw [result] at inner
  by_cases here : holder = con
  · rw [here, update_self, List.mem_append, List.mem_cons] at inner
    rw [here, split, List.mem_append]
    rcases inner with inFront | isObj | inBack
    · exact .inl inFront
    · exact (notObj isObj).elim
    · exact .inr inBack
  · rwa [update_of_ne here] at inner

end Fields

end TibiaGame.GroundedMap
