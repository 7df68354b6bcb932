import TibiaGame.ObjectOperations
import TibiaGame.Library.Outcome

/-!
# Numbers and types of the objects in the store

Which numbers are taken and which type each object has is all that the timers
and the choice of new numbers depend on. Only four steps of the source change
it: taking a free entry, giving one back, `set_object_type` and nothing else;
every other write is quiet.
-/

namespace TibiaGame.ObjectKinds

open GameTypes CronModel CronRuns ObjectStore ObjectOperations Library.Outcome Function

variable {cfg : GameConfig}

inductive CellKind (cfg : GameConfig) where
  | free
  | permanent
  | loaded (objectID : UInt32) (type : ObjectType cfg)

def cellKind : Cell cfg → CellKind cfg
  | .free => .free
  | .permanent => .permanent
  | .loaded record => .loaded record.objectID record.type

def kinds (world : World cfg) : Nat → CellKind cfg := fun index => cellKind (world.hashTable index)

def typeOf (table : Nat → CellKind cfg) (obj : Object) : Option (ObjectType cfg) :=
  if obj = NONE then none
  else
    match table (entryIndex cfg obj.objectID) with
    | .loaded objectID type => if objectID = obj.objectID then some type else none
    | _ => none

theorem live_type (world : World cfg) (obj : Object) :
    (liveRecord world obj).map MapObject.type = typeOf (kinds world) obj := by
  unfold liveRecord typeOf kinds
  split_ifs with missing
  · rfl
  cases world.hashTable (entryIndex cfg obj.objectID) with
  | free => rfl
  | permanent => rfl
  | loaded record =>
    simp only [cellKind]
    split_ifs <;> rfl

theorem exists_iff_type (world : World cfg) (obj : Object) :
    objectExists world obj = true ↔ (typeOf (kinds world) obj).isSome = true := by
  rw [← live_type, Option.isSome_map]
  rfl

theorem object_type_of {world : World cfg} {obj : Object} {type : ObjectType cfg}
    (typed : typeOf (kinds world) obj = some type) : getObjectType world obj = type := by
  rw [← live_type] at typed
  obtain ⟨record, live, same⟩ := Option.map_eq_some_iff.mp typed
  rw [getObjectType, access_live live, same]

theorem type_of_exists {world : World cfg} {obj : Object} (isLive : objectExists world obj = true) :
    typeOf (kinds world) obj = some (getObjectType world obj) := by
  obtain ⟨type, typed⟩ := Option.isSome_iff_exists.mp ((exists_iff_type world obj).mp isLive)
  rw [object_type_of typed, typed]

theorem type_of_kind {table : Nat → CellKind cfg} {obj : Object} {type : ObjectType cfg} :
    typeOf table obj = some type ↔
      obj ≠ NONE ∧ table (entryIndex cfg obj.objectID) = .loaded obj.objectID type := by
  unfold typeOf
  by_cases missing : obj = NONE
  · simp [missing]
  cases table (entryIndex cfg obj.objectID) with
  | free => simp
  | permanent => simp
  | loaded objectID found =>
    by_cases same : objectID = obj.objectID <;> simp [missing, same]

/-- The step changes no number, no type, no timer and no counter of the store. -/
structure Quiet (before after : World cfg) : Prop where
  table : kinds after = kinds before
  cron : after.cron = before.cron
  nextObjectID : after.nextObjectID = before.nextObjectID
  hashTableFree : after.hashTableFree = before.hashTableFree
  roundNr : after.roundNr = before.roundNr

theorem Quiet.refl (world : World cfg) : Quiet world world := ⟨rfl, rfl, rfl, rfl, rfl⟩

theorem Quiet.trans {first second third : World cfg} (left : Quiet first second)
    (right : Quiet second third) : Quiet first third where
  table := right.table.trans left.table
  cron := right.cron.trans left.cron
  nextObjectID := right.nextObjectID.trans left.nextObjectID
  hashTableFree := right.hashTableFree.trans left.hashTableFree
  roundNr := right.roundNr.trans left.roundNr

theorem write_quiet (world : World cfg) (obj : Object) {change : MapObject cfg → MapObject cfg}
    (keepsID : ∀ record, (change record).objectID = record.objectID)
    (keepsType : ∀ record, (change record).type = record.type) :
    Quiet world (writeObject world obj change) := by
  unfold writeObject
  rcases live : liveRecord world obj with _ | record
  · exact ⟨rfl, rfl, rfl, rfl, rfl⟩
  refine ⟨?_, rfl, rfl, rfl, rfl⟩
  obtain ⟨_, cell, _⟩ := live_cell.mp live
  funext index
  by_cases here : index = entryIndex cfg obj.objectID
  · simp [kinds, here, cell, cellKind, keepsID, keepsType]
  · simp [kinds, update_of_ne here]

theorem strings_quiet (world : World cfg) (strings : DynamicStrings.StringTable) :
    Quiet world { world with strings := strings } := ⟨rfl, rfl, rfl, rfl, rfl⟩

theorem record_set_attribute_type (record : MapObject cfg) (attr : InstanceAttribute)
    (value : UInt32) : (record.setAttribute attr value).type = record.type := by
  unfold MapObject.setAttribute
  split
  · rfl
  · split_ifs <;> rfl

theorem record_set_attribute_number (record : MapObject cfg) (attr : InstanceAttribute)
    (value : UInt32) : (record.setAttribute attr value).objectID = record.objectID := by
  unfold MapObject.setAttribute
  split
  · rfl
  · split_ifs <;> rfl

theorem provide_number (attr : InstanceAttribute) (value : UInt32) (record : MapObject cfg) :
    (provide attr value record).objectID = record.objectID := by
  unfold provide
  split_ifs
  · exact record_set_attribute_number record attr value
  · rfl

theorem provide_type (attr : InstanceAttribute) (value : UInt32) (record : MapObject cfg) :
    (provide attr value record).type = record.type := by
  unfold provide
  split_ifs
  · exact record_set_attribute_type record attr value
  · rfl

/-- A conditional step of `change_object` keeps what its step keeps. -/
theorem apply_if_keeps {Value : Type} {view : MapObject cfg → Value} {flag : Bool}
    {change : MapObject cfg → MapObject cfg} (keeps : ∀ record, view (change record) = view record)
    (record : MapObject cfg) : view (applyIf flag change record) = view record := by
  unfold applyIf
  split_ifs
  · exact keeps record
  · rfl

section

variable (world : World cfg)
include world

theorem set_attribute_quiet (obj : Object) (attr : InstanceAttribute) (value : UInt32) :
    Quiet world (setAttribute world obj attr value) :=
  write_quiet world obj (fun record => record_set_attribute_number record attr value)
    (fun record => record_set_attribute_type record attr value)

theorem set_next_quiet (obj next : Object) : Quiet world (setNextObject world obj next) :=
  write_quiet world obj (fun _ => rfl) (fun _ => rfl)

theorem set_container_quiet (obj con : Object) : Quiet world (setContainer world obj con) :=
  write_quiet world obj (fun _ => rfl) (fun _ => rfl)

theorem set_slot_quiet (obj : Object) (slot : Fin 4) (value : UInt32) :
    Quiet world (setSlot world obj slot value) :=
  write_quiet world obj (fun _ => rfl) (fun _ => rfl)

theorem place_between_quiet (obj con prev cur : Object) :
    Quiet world (placeBetween world obj con prev cur) := by
  refine Quiet.trans ?_ ((set_next_quiet _ _ _).trans (set_container_quiet _ _ _))
  split_ifs
  · exact set_next_quiet _ _ _
  · exact set_attribute_quiet _ _ _ _

end

theorem place_quiet {world after : World cfg} {obj con : Object} {append : Bool}
    (placed : placeObject world obj con append = .ok after) : Quiet world after := by
  unfold placeObject at placed
  split_ifs at placed
  · cases placed
    exact .refl world
  · cases placed
    exact .refl world
  · cases placed
    exact .refl world
  · obtain ⟨⟨prev, cur⟩, _, ended⟩ := bind_ok.mp placed
    cases ended
    exact place_between_quiet _ _ _ _ _

theorem unlink_quiet {world after : World cfg} {obj : Object}
    (unlinked : unlinkObject world obj = .ok after) : Quiet world after := by
  simp only [unlinkObject] at unlinked
  split_ifs at unlinked
  · cases unlinked
    exact set_attribute_quiet _ _ _ _
  · obtain ⟨prev, _, joined⟩ := bind_ok.mp unlinked
    cases joined
    exact set_next_quiet _ _ _

theorem cut_quiet {world after : World cfg} {obj : Object}
    (cut : cutObject world obj = .ok after) : Quiet world after := by
  unfold cutObject at cut
  split_ifs at cut
  · cases cut
    exact .refl world
  obtain ⟨middle, unlinked, ended⟩ := bind_ok.mp cut
  cases ended
  exact (unlink_quiet unlinked).trans
    ((set_next_quiet _ _ _).trans (set_container_quiet _ _ _))

section

variable (world : World cfg)
include world

theorem drop_strings_quiet (obj : Object) : Quiet world (dropStrings world obj) := by
  exact (strings_quiet _ _).trans ((set_attribute_quiet _ _ _ _).trans
    ((strings_quiet _ _).trans (set_attribute_quiet _ _ _ _)))

theorem copy_slots_quiet (source target : Object) : Quiet world (copySlots world source target) := by
  unfold copySlots
  generalize List.finRange 4 = slots
  induction slots generalizing world with
  | nil => exact .refl world
  | cons slot rest ih => exact (set_slot_quiet _ _ _ _).trans (ih _)

theorem duplicate_string_quiet (obj : Object) (attr : InstanceAttribute) :
    Quiet world (duplicateString world obj attr) := by
  unfold duplicateString
  split_ifs
  · exact (strings_quiet _ _).trans (set_attribute_quiet _ _ _ _)
  · exact .refl world

theorem clear_content_quiet (obj : Object) (type : ObjectType cfg) :
    Quiet world (clearContent world obj type) := by
  unfold clearContent
  split_ifs
  · exact set_attribute_quiet _ _ _ _
  · exact .refl world

theorem duplicate_strings_quiet (obj : Object) (type : ObjectType cfg) :
    Quiet world (duplicateStrings world obj type) := by
  unfold duplicateStrings
  split_ifs
  · exact (duplicate_string_quiet _ _ _).trans (duplicate_string_quiet _ _ _)
  · exact .refl world

end

theorem create_kinds {world after : World cfg} {obj : Object}
    (created : createObject world = .ok (obj, after)) :
    kinds world (entryIndex cfg obj.objectID) = .free ∧
      kinds after = update (kinds world) (entryIndex cfg obj.objectID)
        (.loaded obj.objectID default) ∧
      after.cron = world.cron ∧ after.nextObjectID = obj.objectID ∧
      obj.objectID = probe world cfg.hashTableSize world.nextObjectID ∧
      after.roundNr = world.roundNr := by
  unfold createObject at created
  split_ifs at created
  simp only at created
  split at created
  · rename_i isFree
    cases created
    refine ⟨by simp only [kinds, isFree, cellKind], ?_, rfl, rfl, rfl, rfl⟩
    funext index
    simp only [kinds, update_apply]
    split_ifs <;> rfl
  · cases created

theorem release_kinds (world : World cfg) (obj : Object) :
    kinds (releaseObject world obj) =
      (match kinds world (entryIndex cfg obj.objectID) with
        | .loaded _ _ => update (kinds world) (entryIndex cfg obj.objectID) .free
        | _ => kinds world) ∧
      (releaseObject world obj).cron = world.cron ∧
      (releaseObject world obj).nextObjectID = world.nextObjectID := by
  unfold releaseObject
  cases cell : world.hashTable (entryIndex cfg obj.objectID) with
  | free => simp [kinds, cell, cellKind]
  | permanent => simp [kinds, cell, cellKind]
  | loaded record =>
    refine ⟨?_, rfl, rfl⟩
    funext index
    simp only [kinds, cell, cellKind, update_apply]
    split_ifs <;> rfl

theorem enter_record_number (newType : ObjectType cfg) (carried : Carried)
    (record : MapObject cfg) : (enterRecord newType carried record).objectID = record.objectID := by
  unfold enterRecord
  rw [apply_if_keeps fun record => record_set_attribute_number record _ _,
    apply_if_keeps (provide_number _ _), apply_if_keeps (provide_number _ _),
    apply_if_keeps (provide_number _ _),
    apply_if_keeps fun record => record_set_attribute_number record _ _]

theorem enter_record_type (newType : ObjectType cfg) (carried : Carried) (record : MapObject cfg) :
    (enterRecord newType carried record).type = newType := by
  unfold enterRecord
  rw [apply_if_keeps fun record => record_set_attribute_type record _ _,
    apply_if_keeps (provide_type _ _), apply_if_keeps (provide_type _ _),
    apply_if_keeps (provide_type _ _),
    apply_if_keeps fun record => record_set_attribute_type record _ _]

theorem enter_type_kinds {world : World cfg} {obj : Object} (isLive : objectExists world obj = true)
    (newType : ObjectType cfg) (carried : Carried) :
    kinds (enterType world obj newType carried) =
        update (kinds world) (entryIndex cfg obj.objectID)
          (.loaded obj.objectID newType) ∧
      (enterType world obj newType carried).cron = world.cron ∧
      (enterType world obj newType carried).nextObjectID = world.nextObjectID ∧
      (enterType world obj newType carried).roundNr = world.roundNr := by
  obtain ⟨record, live⟩ := object_exists_iff.mp isLive
  obtain ⟨_, cell, number⟩ := live_cell.mp live
  unfold enterType writeObject
  rw [live]
  refine ⟨?_, rfl, rfl, rfl⟩
  funext index
  simp only [kinds, update_apply]
  split_ifs with here
  · simp [cellKind, number, enter_record_number, enter_record_type]
  · rfl

section Table

variable {table : Nat → CellKind cfg} {obj other : Object}

/-- Nobody but `obj` is reached through its entry. -/
def OwnEntry (table : Nat → CellKind cfg) (obj : Object) : Prop :=
  ∀ objectID type, table (entryIndex cfg obj.objectID) = .loaded objectID type →
    objectID = obj.objectID

theorem own_entry_of_free (isFree : table (entryIndex cfg obj.objectID) = .free) :
    OwnEntry table obj := by
  intro objectID type loaded
  rw [isFree] at loaded
  cases loaded

theorem own_entry_of_type {type : ObjectType cfg} (typed : typeOf table obj = some type) :
    OwnEntry table obj := by
  intro objectID found loaded
  rw [(type_of_kind.mp typed).2] at loaded
  cases loaded
  rfl

theorem type_of_update_other (own : OwnEntry table obj) (type : ObjectType cfg)
    (different : other ≠ obj) :
    typeOf (update table (entryIndex cfg obj.objectID) (.loaded obj.objectID type)) other =
      typeOf table other := by
  by_cases collide : entryIndex cfg other.objectID = entryIndex cfg obj.objectID
  · have apart : obj.objectID ≠ other.objectID := by
      intro equal
      cases other
      cases obj
      exact different (congrArg Object.mk equal.symm)
    have dead : typeOf table other = none := by
      apply Option.eq_none_iff_forall_ne_some.mpr
      intro found typed
      have loaded := (type_of_kind.mp typed).2
      rw [collide] at loaded
      exact apart (own _ _ loaded).symm
    rw [dead]
    simp [typeOf, collide, apart]
  · simp [typeOf, update_of_ne collide]

theorem type_of_update (own : OwnEntry table obj) (notNone : obj ≠ NONE) (type : ObjectType cfg)
    (other : Object) :
    typeOf (update table (entryIndex cfg obj.objectID) (.loaded obj.objectID type)) other =
      if other = obj then some type else typeOf table other := by
  split_ifs with same
  · rw [same]
    exact type_of_kind.mpr ⟨notNone, update_self _ _ _⟩
  · exact type_of_update_other own type same

theorem type_of_freed (own : OwnEntry table obj) (other : Object) :
    typeOf (update table (entryIndex cfg obj.objectID) .free) other =
      if other = obj then none else typeOf table other := by
  split_ifs with same
  · rw [same]
    simp [typeOf]
  by_cases collide : entryIndex cfg other.objectID = entryIndex cfg obj.objectID
  · have dead : typeOf table other = none := by
      apply Option.eq_none_iff_forall_ne_some.mpr
      intro found typed
      have loaded := (type_of_kind.mp typed).2
      rw [collide] at loaded
      have equal := own _ _ loaded
      exact same (congrArg Object.mk equal)
    rw [dead]
    simp [typeOf, collide]
  · simp [typeOf, update_of_ne collide]

end Table

theorem cron_info_frame {world after : World cfg} {obj : Object} {deleteOp : Bool}
    {remaining : UInt32} (returned : cronInfo world obj deleteOp = .ok (remaining, after)) :
    ∃ cron, after = { world with cron := cron } := by
  unfold cronInfo at returned
  split at returned
  · obtain ⟨found, _, ended⟩ := bind_ok.mp returned
    rcases found with _ | position
    · cases ended
      exact ⟨world.cron, rfl⟩
    rcases deleteOp with _ | _
    · cases ended
      exact ⟨world.cron, rfl⟩
    cases ended
    exact ⟨_, rfl⟩
  · cases returned
    exact ⟨world.cron, rfl⟩

theorem cron_stop_frame {world after : World cfg} {obj : Object} {remaining : UInt32}
    (returned : cronStop world obj = .ok (remaining, after)) :
    ∃ cron, after = { world with cron := cron } := by
  rw [cron_stop_eq] at returned
  exact cron_info_frame returned

/-- What `DestroyObject` does before it gives the entry back, for an object that exists. -/
theorem destroy_cases {world after : World cfg} {obj : Object} {fuel : Nat}
    (destroyed : destroyObject fuel world obj = .ok after) :
    (objectExists world obj = false ∧ after = world) ∨
      ∃ less first emptied remaining stopped, fuel = less + 1 ∧ objectExists world obj = true ∧
        (∃ strings, first = { world with strings := strings }) ∧
        (emptyContent less first obj = .ok emptied ∨ emptied = first) ∧
        (if (getObjectType world obj).getFlag .expire then cronStop emptied obj
          else .ok (0, emptied)) = .ok (remaining, stopped) ∧ after = releaseObject stopped obj := by
  rcases fuel with _ | less
  · cases destroyed
  rw [destroyObject] at destroyed
  by_cases isLive : objectExists world obj = true
  · simp only [isLive, Bool.not_true, Bool.false_eq_true, if_false] at destroyed
    obtain ⟨emptied, content, rest⟩ := bind_ok.mp destroyed
    obtain ⟨⟨remaining, stopped⟩, timer, ended⟩ := bind_ok.mp rest
    cases ended
    refine .inr ⟨less,
      if (getObjectType world obj).getFlag .text then deleteStrings world obj else world,
      emptied, remaining, stopped, rfl, isLive, ?_, ?_, timer, rfl⟩
    · split_ifs
      · exact ⟨_, rfl⟩
      · exact ⟨world.strings, rfl⟩
    split at content
    · exact .inl content
    · cases content
      exact .inr rfl
  simp only [isLive, Bool.not_false, if_true] at destroyed
  cases destroyed
  exact .inl ⟨by simpa using isLive, rfl⟩

/-- Objects may be gone, and those that remain keep number and type. -/
structure Shrunk (before after : World cfg) : Prop where
  table : ∀ index, kinds after index = .free ∧ kinds before index ≠ .permanent ∨
    kinds after index = kinds before index
  nextObjectID : after.nextObjectID = before.nextObjectID
  roundNr : after.roundNr = before.roundNr

theorem Quiet.shrunk {before after : World cfg} (quiet : Quiet before after) :
    Shrunk before after where
  table := fun index => .inr (congrFun quiet.table index)
  nextObjectID := quiet.nextObjectID
  roundNr := quiet.roundNr

theorem Shrunk.trans {first second third : World cfg} (left : Shrunk first second)
    (right : Shrunk second third) : Shrunk first third where
  table := by
    intro index
    rcases right.table index with ⟨gone, stays⟩ | kept
    · rcases left.table index with ⟨_, stayed⟩ | same
      · exact .inl ⟨gone, stayed⟩
      · exact .inl ⟨gone, same ▸ stays⟩
    rw [kept]
    exact left.table index
  nextObjectID := right.nextObjectID.trans left.nextObjectID
  roundNr := right.roundNr.trans left.roundNr

theorem cron_shrunk (world : World cfg) (cron : CronStore) :
    Shrunk world { world with cron := cron } := ⟨fun _ => .inr rfl, rfl, rfl⟩

theorem release_shrunk (world : World cfg) (obj : Object) :
    Shrunk world (releaseObject world obj) := by
  obtain ⟨table, _, counter⟩ := release_kinds world obj
  refine ⟨?_, counter, ?_⟩
  · intro index
    rw [table]
    cases kind : kinds world (entryIndex cfg obj.objectID) with
    | free => exact .inr rfl
    | permanent => exact .inr rfl
    | loaded objectID type =>
      simp only [update_apply]
      split_ifs with here
      · left
        rw [here, kind]
        exact ⟨rfl, nofun⟩
      · exact .inr rfl
  · unfold releaseObject
    split <;> rfl

theorem empty_content_cases {world after : World cfg} {obj : Object} {fuel : Nat}
    (emptied : emptyContent fuel world obj = .ok after) :
    after = world ∨ ∃ less inner middle, fuel = less + 1 ∧
      deleteWithin less world inner = .ok middle ∧ emptyContent less middle obj = .ok after := by
  rcases fuel with _ | less
  · cases emptied
  rw [emptyContent] at emptied
  split_ifs at emptied
  · cases emptied
    exact .inl rfl
  · obtain ⟨middle, deleted, rest⟩ := bind_ok.mp emptied
    exact .inr ⟨less, _, middle, rfl, deleted, rest⟩

theorem delete_cases {world after : World cfg} {obj : Object} {fuel : Nat}
    (deleted : deleteWithin fuel world obj = .ok after) :
    (objectExists world obj = false ∧ after = world) ∨
      ∃ less cut, fuel = less + 1 ∧ objectExists world obj = true ∧
        cutObject world obj = .ok cut ∧ destroyObject less cut obj = .ok after := by
  rcases fuel with _ | less
  · cases deleted
  rw [deleteWithin] at deleted
  by_cases isLive : objectExists world obj = true
  · simp only [isLive, Bool.not_true, Bool.false_eq_true, if_false] at deleted
    obtain ⟨cut, wasCut, rest⟩ := bind_ok.mp deleted
    exact .inr ⟨less, cut, rfl, isLive, wasCut, rest⟩
  simp only [isLive, Bool.not_false, if_true] at deleted
  cases deleted
  exact .inl ⟨by simpa using isLive, rfl⟩

/-- The three functions call each other with less fuel. What each of their own steps
preserves is preserved by all of them. -/
theorem deletion_preserves {Kept : World cfg → World cfg → Prop} (same : ∀ world, Kept world world)
    (trans : ∀ first second third, Kept first second → Kept second third → Kept first third)
    (strings : ∀ (world : World cfg) strings, Kept world { world with strings := strings })
    (cron : ∀ (world : World cfg) cron, Kept world { world with cron := cron })
    (release : ∀ world obj, Kept world (releaseObject world obj))
    (cut : ∀ world after obj, cutObject world obj = .ok after → Kept world after) (fuel : Nat) :
    (∀ world after obj, destroyObject fuel world obj = .ok after → Kept world after) ∧
      (∀ world after obj, emptyContent fuel world obj = .ok after → Kept world after) ∧
      ∀ world after obj, deleteWithin fuel world obj = .ok after → Kept world after := by
  induction fuel with
  | zero =>
    refine ⟨?_, ?_, ?_⟩ <;>
      · nofun
  | succ fuel ih =>
    obtain ⟨destroyIH, emptyIH, deleteIH⟩ := ih
    refine ⟨?_, ?_, ?_⟩
    · intro world after obj destroyed
      rcases destroy_cases destroyed with ⟨_, rfl⟩ | ⟨less, first, emptied, remaining, stopped,
        less_eq, _, ⟨texts, rfl⟩, content, timer, rfl⟩
      · exact same _
      cases less_eq
      have emptiedKept : Kept { world with strings := texts } emptied := by
        rcases content with returned | rfl
        · exact emptyIH _ _ _ returned
        · exact same _
      have stoppedKept : Kept emptied stopped := by
        split_ifs at timer
        · rcases cron_stop_frame timer with ⟨store, rfl⟩
          exact cron emptied store
        · cases timer
          exact same _
      exact trans _ _ _ (strings world texts) (trans _ _ _ emptiedKept
        (trans _ _ _ stoppedKept (release stopped obj)))
    · intro world after obj emptied
      rcases empty_content_cases emptied with rfl | ⟨less, inner, middle, less_eq, deleted, rest⟩
      · exact same _
      cases less_eq
      exact trans _ _ _ (deleteIH _ _ _ deleted) (emptyIH _ _ _ rest)
    · intro world after obj deleted
      rcases delete_cases deleted with ⟨_, rfl⟩ | ⟨less, middle, less_eq, _, wasCut, destroyed⟩
      · exact same _
      cases less_eq
      exact trans _ _ _ (cut _ _ _ wasCut) (destroyIH _ _ _ destroyed)

theorem deletion_shrinks (fuel : Nat) :
    (∀ (world after : World cfg) obj, destroyObject fuel world obj = .ok after →
        Shrunk world after) ∧
      (∀ (world after : World cfg) obj, emptyContent fuel world obj = .ok after →
        Shrunk world after) ∧
      ∀ (world after : World cfg) obj, deleteWithin fuel world obj = .ok after →
        Shrunk world after :=
  deletion_preserves (fun world => (Quiet.refl world).shrunk) (fun _ _ _ => Shrunk.trans)
    (fun world strings => (strings_quiet world strings).shrunk) cron_shrunk release_shrunk
    (fun _ _ _ wasCut => (cut_quiet wasCut).shrunk) fuel

theorem Shrunk.type {before after : World cfg} (shrunk : Shrunk before after) (obj : Object) :
    typeOf (kinds after) obj = none ∨ typeOf (kinds after) obj = typeOf (kinds before) obj := by
  rcases shrunk.table (entryIndex cfg obj.objectID) with ⟨gone, _⟩ | kept
  · left
    unfold typeOf
    rw [gone]
    split_ifs <;> rfl
  right
  unfold typeOf
  rw [kept]

end TibiaGame.ObjectKinds
