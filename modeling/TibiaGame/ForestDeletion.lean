import TibiaGame.ForestSteps
import TibiaGame.CronAgreement

/-!
# `delete_object` takes out a subtree

`delete_object` and `DestroyObject` call each other down the tree, and
`DestroyObject` reads the first member again after each deletion. Every deletion
makes what is left inside the object smaller, which bounds the calls.
-/

namespace TibiaGame.ForestDeletion

open Function
open GameTypes ObjectStore ObjectOperations ObjectKinds CronRuns CronAgreement ContentForest
open ForestSteps Library.LinkedList Library.OrderedForest Library.Outcome

variable {cfg : GameConfig} {world : World cfg} {kids : Object → List Object} {obj con : Object}

def inside (kids : Object → List Object) (obj : Object) : Set Object := {node | Below kids obj node}

theorem inside_finite (kids : Object → List Object) (obj : Object) : (inside kids obj).Finite :=
  Set.toFinite _

theorem inside_pos (kids : Object → List Object) (obj : Object) : 0 < (inside kids obj).ncard :=
  (Set.ncard_pos (inside_finite kids obj)).mpr ⟨obj, below_refl kids obj⟩

theorem inside_child_lt (ranked : Ranked kids) (edge : con ∈ kids obj) :
    (inside kids con).ncard < (inside kids obj).ncard := by
  apply Set.ncard_lt_ncard _ (inside_finite kids obj)
  constructor
  · intro node under
    exact below_trans (below_child edge) under
  · intro all
    exact ranked.parent_not_below edge (all (below_refl kids obj))

theorem inside_prune_lt (nodup : ∀ node, (kids node).Nodup) (ranked : Ranked kids)
    (edge : con ∈ kids obj) : (inside (prune kids con) obj).ncard < (inside kids obj).ncard := by
  apply Set.ncard_lt_ncard _ (inside_finite kids obj)
  constructor
  · intro node under
    exact below_of_prune under
  intro all
  have still : Below (prune kids con) obj con := all (below_child edge)
  cases still with
  | refl => exact ranked.not_own_child edge
  | tail _ last => exact prune_gone nodup _ last

theorem release_live {record : MapObject cfg} (live : liveRecord world obj = some record)
    (node : Object) :
    liveRecord (releaseObject world obj) node =
      if node = obj then none else liveRecord world node := by
  rcases live_cell.mp live with ⟨notNone, cell, number⟩
  unfold releaseObject
  rw [cell]
  split_ifs with here
  · rw [here, liveRecord, if_neg notNone]
    simp
  by_cases collide : entryIndex cfg node.objectID = entryIndex cfg obj.objectID
  · have different : obj.objectID ≠ node.objectID := by
      intro equal
      exact here (congrArg Object.mk equal.symm)
    simp [liveRecord, collide, cell, number, different]
  · simp [liveRecord, update_of_ne collide]

/-- What is left after the content of a loose object has been deleted. -/
structure Emptied (before : World cfg) (kids : Object → List Object) (obj : Object)
    (after : World cfg) : Prop where
  agreement : Agreement after
  forest : Forest (liveRecord after) (prune kids obj)
  survivors : ∀ node, objectExists after node = true ↔
    objectExists before node = true ∧ (node = obj ∨ ¬ Below kids obj node)
  noneRecord : after.noneRecord = before.noneRecord

/-- What is left after an object and its content have been deleted. -/
structure Deleted (before : World cfg) (kids : Object → List Object) (obj : Object)
    (after : World cfg) : Prop where
  agreement : Agreement after
  forest : Forest (liveRecord after) (prune kids obj)
  survivors : ∀ node, objectExists after node = true ↔
    objectExists before node = true ∧ ¬ Below kids obj node
  noneRecord : after.noneRecord = before.noneRecord

theorem loose_exists (loose : containerOf (liveRecord world) obj = some NONE) :
    objectExists world obj = true := by
  rcases Option.map_eq_some_iff.mp loose with ⟨record, live, _⟩
  exact object_exists_iff.mpr ⟨record, live⟩

theorem leaf_emptied (agreement : Agreement world) (forest : Forest (liveRecord world) kids)
    (loose : containerOf (liveRecord world) obj = some NONE) (empty : kids obj = []) :
    Emptied world kids obj world where
  agreement := agreement
  forest := by
    rw [prune_leaf (forest.orphan loose) empty]
    exact forest
  survivors := by
    intro node
    rw [below_leaf empty]
    tauto
  noneRecord := rfl

theorem exists_eq_of_iff {before after : World cfg} {node : Object}
    (same : objectExists after node = true ↔ objectExists before node = true) :
    (liveRecord after node).isSome = (liveRecord before node).isSome :=
  Bool.eq_iff_iff.mpr same

theorem Emptied.loose {after : World cfg} (emptied : Emptied world kids obj after)
    (forest : Forest (liveRecord world) kids)
    (loose : containerOf (liveRecord world) obj = some NONE) :
    containerOf (liveRecord after) obj = some NONE := by
  rw [← loose]
  apply forest.container_congr emptied.forest
  · intro con
    constructor
    · intro edge
      exact prune_subset con obj edge
    · intro edge
      exact (forest.orphan loose con edge).elim
  · apply exists_eq_of_iff
    rw [emptied.survivors]
    simp

/-- A loose object whose content is already gone is destroyed: the timer and the entry. -/
theorem destroy_loose_end {before : World cfg} (type : ObjectType cfg)
    (emptied : Emptied before kids obj world) (forest : Forest (liveRecord before) kids)
    (loose : containerOf (liveRecord before) obj = some NONE) :
    ∃ remaining stopped, (if type.getFlag .expire then cronStop world obj else .ok (0, world)) =
        .ok (remaining, stopped) ∧
      Forest (liveRecord (releaseObject stopped obj)) (prune kids obj) ∧
      (∀ node, objectExists (releaseObject stopped obj) node = true ↔
        objectExists before node = true ∧ ¬ Below kids obj node) ∧
      (releaseObject stopped obj).noneRecord = before.noneRecord := by
  have stillLoose := emptied.loose forest loose
  have timer : ∃ remaining cron,
      (if type.getFlag .expire then cronStop world obj else .ok (0, world)) =
        .ok (remaining, { world with cron := cron }) := by
    by_cases timed : type.getFlag .expire = true
    · rcases cron_info_spec emptied.agreement.wellFormed obj true with
        ⟨remaining, cron, returned, _⟩
      refine ⟨remaining, cron, ?_⟩
      rw [if_pos timed, cron_stop_eq, returned]
    · exact ⟨0, world.cron, by rw [if_neg timed]⟩
  rcases timer with ⟨remaining, cron, returned⟩
  refine ⟨remaining, _, returned, ?_⟩
  have sameRecords : liveRecord { world with cron := cron } = liveRecord world := by
    funext node
    exact live_congr rfl node
  rcases Option.map_eq_some_iff.mp stillLoose with ⟨record, live, _⟩
  have stoppedLive : liveRecord { world with cron := cron } obj = some record := by
    exact live
  have released := release_live stoppedLive
  rw [sameRecords] at released
  refine ⟨?_, ?_, ?_⟩
  · apply emptied.forest.loose (live_ne_none live) (emptied.forest.orphan stillLoose)
      (prune_inside (below_refl kids obj))
    · intro node different
      rw [released, if_neg different]
    · intro newRecord gone
      rw [released, if_pos rfl] at gone
      cases gone
  · intro node
    unfold objectExists
    rw [released]
    by_cases here : node = obj
    · rw [if_pos here, here]
      simp [below_refl]
    rw [if_neg here]
    have kept := emptied.survivors node
    rw [objectExists] at kept
    rw [kept]
    simp [here, objectExists]
  · rw [← emptied.noneRecord, releaseObject]
    split <;> rfl

/-- `DestroyObject`, given that its loop over the content does what it should. -/
theorem destroy_of_empty {fuel : Nat}
    (loop : ∀ (start : World cfg), Agreement start → liveRecord start = liveRecord world →
      ∃ after, emptyContent fuel start obj = .ok after ∧ Emptied start kids obj after)
    (agreement : Agreement world) (forest : Forest (liveRecord world) kids)
    (loose : containerOf (liveRecord world) obj = some NONE) :
    ∃ after, destroyObject (fuel + 1) world obj = .ok after ∧ Deleted world kids obj after := by
  have isLive := loose_exists loose
  set type := getObjectType world obj with typeIs
  set start := if type.getFlag .text then deleteStrings world obj else world with startIs
  have startQuiet : Quiet world start := by
    rw [startIs]
    split_ifs
    · exact strings_quiet _ _
    · exact .refl world
  have startRecords : liveRecord start = liveRecord world := by
    rw [startIs]
    split_ifs
    · funext node
      exact live_congr rfl node
    · rfl
  have startForest : Forest (liveRecord start) kids := by rwa [startRecords]
  have startLoose : containerOf (liveRecord start) obj = some NONE := by rwa [startRecords]
  have content : ∃ after,
      (if type.holdsObjects then emptyContent fuel start obj else .ok start) = .ok after ∧
        Emptied start kids obj after := by
    by_cases holds : type.holdsObjects = true
    · rw [if_pos holds]
      exact loop start (agreement.quiet startQuiet) startRecords
    rw [if_neg holds]
    refine ⟨start, rfl, leaf_emptied (agreement.quiet startQuiet) startForest startLoose ?_⟩
    apply startForest.barren
    rw [startRecords, holdsOf]
    rcases object_exists_iff.mp isLive with ⟨record, live⟩
    rw [typeIs, getObjectType, access_live live] at holds
    rw [live]
    simpa using holds
  rcases content with ⟨emptiedWorld, returned, emptied⟩
  rcases destroy_loose_end type emptied startForest startLoose with
    ⟨remaining, stopped, stoppedReturned, finalForest, survivors, sameNone⟩
  have destroyed : destroyObject (fuel + 1) world obj = .ok (releaseObject stopped obj) := by
    simp only [destroyObject, isLive, Bool.not_true, Bool.false_eq_true, if_false, ← typeIs,
      ← startIs, returned, ok_bind, stoppedReturned]
  refine ⟨_, destroyed, ?_, finalForest, ?_, ?_⟩
  · exact ((deletion_agreement _).1 _ _ _ agreement destroyed).1
  · intro node
    rw [survivors]
    simp only [objectExists, startRecords]
  · rw [sameNone, startIs]
    split_ifs <;> rfl

theorem delete_of_destroy {fuel : Nat}
    (destroy : ∀ (start : World cfg) startKids, Agreement start →
      Forest (liveRecord start) startKids → containerOf (liveRecord start) obj = some NONE →
      (∀ node, Below startKids obj node ↔ Below kids obj node) →
      ∃ after, destroyObject fuel start obj = .ok after ∧ Deleted start startKids obj after)
    (agreement : Agreement world) (forest : Forest (liveRecord world) kids)
    (edge : obj ∈ kids con) :
    ∃ after, deleteWithin (fuel + 1) world obj = .ok after ∧ Deleted world kids obj after := by
  rcases cut_object_spec forest edge with ⟨cut, returned, quiet, cutForest, cutLoose, cutNone⟩
  rcases forest.kid_live edge with ⟨record, live, _⟩
  have isLive : objectExists world obj = true := object_exists_iff.mpr ⟨record, live⟩
  have outside := forest.ranked.parent_not_below edge
  have sameInside : ∀ node, Below (update kids con ((kids con).erase obj)) obj node ↔
      Below kids obj node := by
    intro node
    apply below_congr
    intro inner under
    rw [update_of_ne]
    rintro rfl
    exact outside under
  have samePrune : prune (update kids con ((kids con).erase obj)) obj = prune kids obj := by
    funext node
    by_cases under : Below kids obj node
    · rw [prune_inside under, prune_inside ((sameInside node).mpr under)]
    rw [prune_outside under, prune_outside (fun still => under ((sameInside node).mp still))]
    by_cases here : node = con
    · rw [here, update_self]
      exact List.erase_of_not_mem (forest.nodup con).not_mem_erase
    · rw [update_of_ne here]
  rcases destroy cut _ (agreement.quiet quiet) cutForest cutLoose sameInside with
    ⟨after, destroyed, deleted⟩
  refine ⟨after, ?_, deleted.agreement, ?_, ?_, deleted.noneRecord.trans cutNone⟩
  · simp only [deleteWithin, isLive, Bool.not_true, Bool.false_eq_true, if_false, returned, ok_bind]
    exact destroyed
  · rw [← samePrune]
    exact deleted.forest
  · intro node
    rw [deleted.survivors, sameInside, exists_iff_type, quiet.table, ← exists_iff_type]

theorem content_is_head (forest : Forest (liveRecord world) kids)
    (isLive : objectExists world obj = true) :
    Object.mk (getAttribute world obj .content) = headOf NONE (kids obj) := by
  rcases object_exists_iff.mp isLive with ⟨record, live⟩
  have content : contentOf (liveRecord world) obj = some ⟨getAttribute world obj .content⟩ := by
    rw [contentOf, live, getAttribute, access_live live]
    rfl
  cases holds : record.type.holdsObjects with
  | true =>
    have isHolder : holdsOf (liveRecord world) obj = some true := by
      rw [holdsOf, live, Option.map_some, holds]
    exact chain_start (forest.chain obj _ isHolder content)
  | false =>
    have plain : holdsOf (liveRecord world) obj ≠ some true := by
      rw [holdsOf, live, Option.map_some, holds]
      decide
    rw [forest.barren obj plain, head_of_nil, getAttribute, access_live live]
    exact content_of_plain record holds

/-- After the first member has gone, the loop goes on with a smaller forest. -/
theorem Emptied.after_child {middle after : World cfg} (forest : Forest (liveRecord world) kids)
    (edge : con ∈ kids obj) (deleted : Deleted world kids con middle)
    (emptied : Emptied middle (prune kids con) obj after) : Emptied world kids obj after where
  agreement := emptied.agreement
  forest := by
    rw [← prune_child forest.single edge]
    exact emptied.forest
  survivors := by
    intro node
    rw [emptied.survivors, deleted.survivors]
    by_cases here : node = obj
    · have outside : ¬ Below kids con node := by
        rw [here]
        exact forest.ranked.parent_not_below edge
      simp [here, here ▸ outside]
    constructor
    · rintro ⟨⟨alive, notPart⟩, same | notLeft⟩
      · exact (here same).elim
      · refine ⟨alive, .inr ?_⟩
        intro under
        exact (below_prune_or under).elim notLeft notPart
    rintro ⟨alive, same | outside⟩
    · exact (here same).elim
    · refine ⟨⟨alive, ?_⟩, .inr ?_⟩
      · intro part
        exact outside (below_trans (below_child edge) part)
      · intro left
        exact outside (below_of_prune left)
  noneRecord := emptied.noneRecord.trans deleted.noneRecord

theorem Deleted.parent_loose {after : World cfg} (deleted : Deleted world kids con after)
    (forest : Forest (liveRecord world) kids) (edge : con ∈ kids obj)
    (loose : containerOf (liveRecord world) obj = some NONE) :
    containerOf (liveRecord after) obj = some NONE := by
  rw [← loose]
  apply forest.container_congr deleted.forest
  · intro parent
    constructor
    · intro inner
      exact prune_subset parent obj inner
    · intro inner
      exact (forest.orphan loose parent inner).elim
  · apply exists_eq_of_iff
    rw [deleted.survivors]
    simp [forest.ranked.parent_not_below edge]

/-- The loop of `DestroyObject` ends, by induction on how much the object holds. -/
theorem empty_content_spec (room : Nat) :
    ∀ (world : World cfg) (kids : Object → List Object) (obj : Object) (fuel : Nat),
      Agreement world → Forest (liveRecord world) kids →
      containerOf (liveRecord world) obj = some NONE →
      (inside kids obj).ncard ≤ room + 1 → 3 * room + 1 ≤ fuel →
      ∃ after, emptyContent fuel world obj = .ok after ∧ Emptied world kids obj after := by
  induction room with
  | zero =>
    intro world kids obj fuel agreement forest loose small enough
    have empty : kids obj = [] := by
      rcases members : kids obj with _ | ⟨child, rest⟩
      · rfl
      have edge : child ∈ kids obj := by simp [members]
      have := inside_child_lt forest.ranked edge
      have := inside_pos kids child
      omega
    rcases fuel with _ | fuel
    · exact (Nat.not_succ_le_zero _ enough).elim
    refine ⟨world, ?_, leaf_emptied agreement forest loose empty⟩
    rw [emptyContent, content_is_head forest (loose_exists loose), empty, head_of_nil,
      if_pos rfl]
  | succ room ih =>
    intro world kids obj fuel agreement forest loose small enough
    rcases members : kids obj with _ | ⟨child, rest⟩
    · rcases fuel with _ | fuel
      · exact (Nat.not_succ_le_zero _ enough).elim
      refine ⟨world, ?_, leaf_emptied agreement forest loose members⟩
      rw [emptyContent, content_is_head forest (loose_exists loose), members, head_of_nil,
        if_pos rfl]
    have edge : child ∈ kids obj := by simp [members]
    have childSmaller := inside_child_lt forest.ranked edge
    have restSmaller := inside_prune_lt forest.nodup forest.ranked edge
    rcases Nat.exists_eq_add_of_le' (show 3 ≤ fuel by omega) with ⟨less, rfl⟩
    -- The first member is deleted with the fuel that remains below the loop.
    have childDeleted : ∃ middle, deleteWithin (less + 2) world child = .ok middle ∧
        Deleted world kids child middle := by
      apply delete_of_destroy _ agreement forest edge
      intro start startKids startAgreement startForest startLoose sameInside
      apply destroy_of_empty _ startAgreement startForest startLoose
      intro begun begunAgreement begunRecords
      have sameSize : (inside startKids child).ncard = (inside kids child).ncard := by
        congr 1
        ext node
        exact sameInside node
      apply ih begun startKids child less begunAgreement
      · rwa [begunRecords]
      · rwa [begunRecords]
      · omega
      · omega
    rcases childDeleted with ⟨middle, deletedReturned, deleted⟩
    rcases ih middle (prune kids child) obj (less + 2) deleted.agreement deleted.forest
      (deleted.parent_loose forest edge loose) (by omega) (by omega) with
      ⟨after, restReturned, emptied⟩
    refine ⟨after, ?_, emptied.after_child forest edge deleted⟩
    rw [emptyContent, content_is_head forest (loose_exists loose), members, head_of_cons,
      if_neg (forest.kid_ne_none edge), deletedReturned]
    exact restReturned

/-- `delete_object` of a placed object returns, and exactly the object and what
lies inside it are gone. -/
theorem delete_object_spec (agreement : Agreement world) (forest : Forest (liveRecord world) kids)
    (edge : obj ∈ kids con) :
    ∃ after, deleteObject world obj = .ok after ∧ Deleted world kids obj after := by
  apply delete_of_destroy _ agreement forest edge
  intro start startKids startAgreement startForest startLoose _
  apply destroy_of_empty _ startAgreement startForest startLoose
  intro begun begunAgreement begunRecords
  have bound := Set.ncard_le_card (inside startKids obj)
  have few := nat_card_object
  apply empty_content_spec (2 ^ 32) begun startKids obj _ begunAgreement
  · rwa [begunRecords]
  · rwa [begunRecords]
  · omega
  · decide

end TibiaGame.ForestDeletion
