import TibiaGame.FurnishedWorlds
import TibiaGame.Library.ForestChanges

/-!
# What the operations do to the content lists

Whatever an operation does to the objects is one of five things: nothing that a list or
a type shows, an object that comes to another container, one that is born in a
container, one that is gone with all it holds, and one that turns into another type.
-/

namespace TibiaGame.OperateEffects

open GameTypes ObjectStore ObjectOperations ObjectKinds ContentForest Function
open ForestDeletion ForestOperations ForestRuns ContainerWalks OperateSteps GroundedMap
open FurnishedWorlds Library.OrderedForest Library.ForestChanges

variable {cfg : GameConfig} {world middle after : World cfg} {kids newKids lastKids : Object → List Object}
  {obj con old dest part : Object} {type : ObjectType cfg} {count : Int32} {split : Bool}

structure Kept (before after : World cfg) (kids : Object → List Object) : Prop where
  sound : Sound after kids
  types : ∀ node, typeOf (kinds after) node = typeOf (kinds before) node

structure Comes (before after : World cfg) (kids newKids : Object → List Object)
    (obj con : Object) : Prop where
  sound : Sound after newKids
  arrives : Arrives kids newKids obj con
  types : ∀ node, typeOf (kinds after) node = typeOf (kinds before) node

structure Born (before after : World cfg) (kids newKids : Object → List Object)
    (obj con : Object) (type : ObjectType cfg) : Prop where
  sound : Sound after newKids
  arrives : Arrives kids newKids obj con
  dead : objectExists before obj = false
  types : ∀ node, typeOf (kinds after) node =
    if node = obj then some type else typeOf (kinds before) node

structure Gone (before after : World cfg) (kids newKids : Object → List Object)
    (obj : Object) : Prop where
  sound : Sound after newKids
  departs : Departs kids newKids obj
  survivors : ∀ node, objectExists after node = true ↔
    objectExists before node = true ∧ ¬ Below kids obj node
  types : ∀ node, objectExists after node = true →
    typeOf (kinds after) node = typeOf (kinds before) node

structure Turned (before after : World cfg) (kids : Object → List Object) (obj : Object)
    (type : ObjectType cfg) : Prop where
  sound : Sound after kids
  types : ∀ node, typeOf (kinds after) node =
    if node = obj then some type else typeOf (kinds before) node

section Lists

variable {base : Object → List Object} {append : Bool}

theorem inserted_arrives (inserted : Inserted world base newKids obj con append)
    (orphan : ∀ node, obj ∉ base node) : Arrives base newKids obj con := by
  rcases inserted with ⟨front, back, split, _, result⟩
  constructor
  · intro node
    rw [result]
    by_cases here : node = con
    · rw [here, update_self, split, List.filter_append, List.filter_append,
        List.filter_cons_of_neg (by simp)]
    · rw [update_of_ne here]
  intro node
  rw [result]
  by_cases here : node = con
  · rw [here, update_self]
    simp
  rw [update_of_ne here]
  exact iff_of_false (orphan node) here

variable (forest : Forest (liveRecord world) kids)
include forest

/-- Taking an object out of its list is no arrival, but the start of one. -/
theorem erased_arrives (edge : obj ∈ kids old)
    (inserted : Inserted after (update kids old ((kids old).erase obj)) newKids obj con
      append) : Arrives kids newKids obj con := by
  have erased : ∀ node, update kids old ((kids old).erase obj) node =
      (kids node).filter (· ≠ obj) := by
    intro node
    by_cases here : node = old
    · rw [here, update_self, (forest.nodup old).erase_eq_filter]
      apply List.filter_congr
      intro child _
      rw [decide_not]
      rfl
    rw [update_of_ne here, filter_away]
    intro inner
    exact here (forest.single _ _ _ inner edge)
  have arrives := inserted_arrives inserted (by
    intro node
    rw [erased]
    simp)
  constructor
  · intro node
    rw [arrives.row, erased, List.filter_filter]
    simp
  · exact arrives.place

theorem unborn_orphan (dead : objectExists world obj = false) (node : Object) : obj ∉ kids node := by
  intro edge
  rw [(member_container forest edge).1] at dead
  cases dead

theorem unborn_empty (dead : objectExists world obj = false) : kids obj = [] := by
  apply forest.barren
  intro holds
  rw [holder_exists holds] at dead
  cases dead

end Lists

section Single

theorem Kept.refl (sound : Sound world kids) : Kept world world kids := ⟨sound, fun _ => rfl⟩

theorem Kept.trans (first : Kept world middle kids) (second : Kept middle after kids) :
    Kept world after kids :=
  ⟨second.sound, fun node => (second.types node).trans (first.types node)⟩

theorem kept_live (types : ∀ node, typeOf (kinds after) node = typeOf (kinds world) node)
    (node : Object) : objectExists after node = objectExists world node := by
  apply Bool.eq_iff_iff.mpr
  rw [exists_iff_type, types, ← exists_iff_type]

variable (sound : Sound world kids)
include sound

theorem change_attribute_kept {attr : InstanceAttribute} (different : attr ≠ .content)
    (value : UInt32) : Kept world (changeAttribute world obj attr value) kids := by
  constructor
  · exact change_attribute_sound sound different value
  intro node
  unfold changeAttribute
  split_ifs
  · rfl
  · rw [(set_attribute_quiet world obj attr value).table]

theorem move_comes (edge : obj ∈ kids old) (isHolder : IsHolder world con)
    (outside : ¬ Below kids obj con) (moved : moveObject world obj con = .ok after) :
    ∃ newKids, Comes world after kids newKids obj con := by
  have forest := sound.described.forest
  rcases move_object_spec forest edge (holder_iff.mp isHolder) outside with
    ⟨result, returned, quiet, newForest⟩
  rw [moved] at returned
  cases returned
  have inserted := placed_inserted after (update kids old ((kids old).erase obj)) obj con false
  have grounded := Grounded.moved sound.grounded forest newForest (move_sectors moved) quiet edge
    inserted
  refine ⟨_, ⟨⟨sound.described.agreement.quiet quiet, newForest⟩, grounded⟩, ?_, ?_⟩
  · exact erased_arrives forest edge inserted
  · intro node
    rw [quiet.table]

theorem created_born {append : Bool} (created : Created world kids con type append obj after)
    (sectors : SameSectors world after) (item : type.isMapContainer = false) :
    Born world after kids (placed after kids obj con append) obj con type := by
  have forest := sound.described.forest
  have dead : objectExists world obj = false := by
    rw [objectExists, created.fresh]
    rfl
  constructor
  · constructor
    · exact ⟨created.agreement, created.forest⟩
    · exact Grounded.appears sound.grounded forest created.forest sectors
        (created_appears created) item
  · exact inserted_arrives (placed_inserted _ _ _ _ _) (unborn_orphan forest dead)
  · exact dead
  · exact created.types

theorem set_object_born {creatureID : UInt32} (isHolder : IsHolder world con)
    (item : type.isMapContainer = false)
    (created : setObject world con type creatureID = .ok (obj, after)) :
    ∃ newKids, Born world after kids newKids obj con type := by
  rcases set_object_spec sound.described.agreement sound.described.forest
    (holder_iff.mp isHolder) type creatureID with ⟨halt, _, failed⟩ | ⟨made, final, returned, born⟩
  · rw [failed] at created
    cases created
  rw [returned] at created
  cases created
  exact ⟨_, created_born sound born (set_object_sectors returned) item⟩

theorem delete_gone (edge : obj ∈ kids con) (deleted : deleteObject world obj = .ok after) :
    Gone world after kids (prune kids obj) obj := by
  have forest := sound.described.forest
  rcases delete_object_spec sound.described.agreement forest edge with ⟨result, returned, spec⟩
  rw [deleted] at returned
  cases returned
  have disappears := deleted_disappears ((deletion_shrinks _).2.2 _ _ _ deleted) spec
  constructor
  · constructor
    · exact ⟨spec.agreement, spec.forest⟩
    · exact Grounded.disappears sound.grounded forest spec.forest (delete_sectors deleted) edge
        disappears
  · exact prune_departs forest.nodup
  · exact disappears.2.1
  · exact disappears.2.2

end Single

theorem Kept.gone (kept : Kept world middle kids) (gone : Gone middle after kids newKids obj) :
    Gone world after kids newKids obj where
  sound := gone.sound
  departs := gone.departs
  survivors := by
    intro node
    rw [gone.survivors, kept_live kept.types]
  types := fun node isLive => (gone.types node isLive).trans (kept.types node)

theorem Born.kept (born : Born world middle kids newKids obj con type)
    (kept : Kept middle after newKids) : Born world after kids newKids obj con type where
  sound := kept.sound
  arrives := born.arrives
  dead := born.dead
  types := by
    intro node
    rw [kept.types, born.types]

theorem Born.comes (born : Born world middle kids newKids obj old type)
    (comes : Comes middle after newKids lastKids obj con) :
    Born world after kids lastKids obj con type where
  sound := comes.sound
  arrives := born.arrives.trans comes.arrives
  dead := born.dead
  types := by
    intro node
    rw [comes.types, born.types]

section

variable (born : Born world after kids newKids obj con type)
include born

theorem Born.edge : obj ∈ newKids con :=
  (born.arrives.place con).mpr rfl

theorem Born.apart : con ≠ obj := by
  intro same
  have edge := born.edge
  rw [same] at edge
  exact born.sound.described.forest.ranked.not_own_child edge

theorem Born.leaf (forest : Forest (liveRecord world) kids) : newKids obj = [] := by
  rw [born.arrives.elsewhere born.apart.symm (unborn_orphan forest born.dead obj)]
  exact unborn_empty forest born.dead

theorem Born.other {node : Object} (isLive : objectExists world node = true) :
    node ≠ obj ∧ objectExists after node = true ∧
      getObjectType after node = getObjectType world node := by
  have different : node ≠ obj := by
    intro same
    rw [same, born.dead] at isLive
    cases isLive
  have typed := born.types node
  rw [if_neg different, type_of_exists isLive] at typed
  constructor
  · exact different
  constructor
  · rw [exists_iff_type, typed]
    rfl
  · exact object_type_of typed

end

theorem Born.gone (born : Born world middle kids newKids obj con type)
    (forest : Forest (liveRecord world) kids) (gone : Gone middle after newKids lastKids obj) :
    Kept world after kids := by
  have leaf := born.leaf forest
  have sameKids : lastKids = kids := born.arrives.departs gone.departs leaf
    (unborn_orphan forest born.dead) (unborn_empty forest born.dead)
  have sound := gone.sound
  rw [sameKids] at sound
  constructor
  · exact sound
  intro node
  have survives := gone.survivors node
  rw [below_leaf leaf] at survives
  by_cases here : node = obj
  · have isDead : ¬ objectExists after node = true := fun isLive => (survives.mp isLive).2 here
    have wasDead := born.dead
    rw [here] at isDead ⊢
    rw [exists_iff_type, Option.not_isSome_iff_eq_none] at isDead
    rw [← Bool.not_eq_true, exists_iff_type, Option.not_isSome_iff_eq_none] at wasDead
    rw [isDead, wasDead]
  have typed := born.types node
  rw [if_neg here] at typed
  cases isLive : objectExists after node with
  | true => rw [gone.types node isLive, typed]
  | false =>
    have wasDead : ¬ objectExists middle node = true := by
      intro wasLive
      rw [survives.mpr ⟨wasLive, here⟩] at isLive
      cases isLive
    rw [← Bool.not_eq_true, exists_iff_type, Option.not_isSome_iff_eq_none] at isLive
    rw [exists_iff_type, Option.not_isSome_iff_eq_none, typed] at wasDead
    rw [isLive, wasDead]

section Calls

variable (sound : Sound world kids)
include sound

theorem parts_moved_kept : Kept world (partsMoved world obj dest count) kids := by
  have different : InstanceAttribute.amount ≠ .content := by decide
  have taken : Kept world (partsTaken world obj count) kids :=
    change_attribute_kept sound different _
  exact taken.trans (change_attribute_kept taken.sound different _)

theorem merge_gone (edge : obj ∈ kids con) (mergeable : Mergeable world obj dest count)
    (merged : mergeObjects world obj dest = .ok after) :
    Gone world after kids (prune kids obj) obj := by
  simp only [mergeObjects, mergeable.live, mergeable.destLive, mergeable.type, Bool.not_true,
    Bool.false_eq_true, if_false, ne_eq, not_true_eq_false] at merged
  have stack := mergeable.stack
  rw [mergeable.type] at stack
  rw [stack] at merged
  have different : InstanceAttribute.amount ≠ .content := by decide
  have counted : ∀ amount, Kept world (setAttribute world dest .amount amount) kids := by
    intro amount
    have kept : Kept world (changeAttribute world dest .amount amount) kids :=
      change_attribute_kept sound different amount
    rwa [changeAttribute, mergeable.destLive] at kept
  exact (counted _).gone (delete_gone (counted _).sound edge merged)

theorem split_born (edge : obj ∈ kids old) (parted : Parted world obj count)
    (cut : splitObject world obj count = .ok (part, after)) :
    ∃ newKids, Born world after kids newKids part old (getObjectType world obj) := by
  rcases split_part sound.described edge parted with
    ⟨halt, failed, _⟩ | ⟨new, made, _, returned, created⟩
  · rw [failed] at cut
    cases cut
  · have sectors := split_sectors returned
    rw [returned] at cut
    cases cut
    have item : (getObjectType world obj).isMapContainer = false :=
      Grounded.item sound.grounded sound.described.forest edge
    exact ⟨_, created_born sound created sectors item⟩

/-- `move` after its checks: the object comes to the container, or a part of it is born there. -/
theorem carried_effect (ready : Ready world kids obj con old)
    (cut : if split then splitObject world obj count = .ok (part, middle)
      else part = obj ∧ middle = world) (moved : moveObject middle part con = .ok after) :
    (¬ (split = true ∧ Parted world obj count) ∧ part = obj ∧ middle = world ∧
      ∃ newKids, Comes world after kids newKids obj con) ∨
    split = true ∧ Parted world obj count ∧
      ∃ newKids, Born world after kids newKids part con (getObjectType world obj) := by
  have isLive := (member_container sound.described.forest ready.edge).1
  by_cases separates : split = true ∧ Parted world obj count
  · rw [if_pos separates.1] at cut
    rcases split_born sound ready.edge separates.2 cut with ⟨partKids, born⟩
    have conOther := born.other ready.holder.1
    have isHolder : IsHolder middle con := by
      constructor
      · exact conOther.2.1
      · rw [conOther.2.2]
        exact ready.holder.2
    have outside : ¬ Below partKids part con := by
      rw [below_leaf (born.leaf sound.described.forest)]
      exact conOther.1
    rcases move_comes born.sound born.edge isHolder outside moved with ⟨newKids, comes⟩
    right
    exact ⟨separates.1, separates.2, newKids, born.comes comes⟩
  have whole : part = obj ∧ middle = world := by
    rcases split with _ | _
    · exact cut
    rw [if_pos rfl, split_whole (fun parted => separates ⟨rfl, parted⟩) isLive] at cut
    cases cut
    exact ⟨rfl, rfl⟩
  rcases whole with ⟨samePart, sameWorld⟩
  rw [samePart, sameWorld] at moved
  left
  exact ⟨separates, samePart, sameWorld,
    move_comes sound ready.edge ready.holder ready.outside moved⟩

end Calls

end TibiaGame.OperateEffects
