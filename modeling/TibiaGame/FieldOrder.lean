import TibiaGame.ForestRuns
import TibiaGame.Library.OrderedInsertion

/-!
# The order of the objects on a map field

`place_object` searches a field for the place that its object's priority gives it,
and taking objects out disturbs nothing. `change_object` leaves an object where it
lies, so a field stays sorted as long as every new type fits between its neighbours.
-/

namespace TibiaGame.FieldOrder

open GameTypes ObjectStore ObjectOperations ObjectKinds ContentForest ForestSteps List Function
open ForestOperations ForestRuns Library.LinkedList Library.OrderedForest
open Library.OrderedInsertion

variable {cfg : GameConfig} {world after : World cfg} {kids newKids : Object → List Object}
  {obj con : Object}

/-- The objects from `cur` on along `NextObject`. -/
def contentWalk (world : World cfg) : Nat → Object → List Object
  | 0, _ => []
  | fuel + 1, cur =>
      if cur = NONE then [] else cur :: contentWalk world fuel (getNextObject world cur)

def contentList (world : World cfg) (con : Object) : List Object :=
  contentWalk world walkLimit (getFirstContainerObject world con)

def FieldsSorted (world : World cfg) : Prop :=
  ∀ con, objectExists world con = true → (getObjectType world con).isMapContainer = true →
    OrderedBy (getObjectPriority world) (contentList world con)

def RanksBetween (world : World cfg) (obj : Object) (newType : ObjectType cfg) : Prop :=
  (∀ prev, objectExists world prev = true → getContainer world prev = getContainer world obj →
    getNextObject world prev = obj → getObjectPriority world prev ≤ typePriority newType) ∧
  (getNextObject world obj ≠ NONE →
    typePriority newType ≤ getObjectPriority world (getNextObject world obj))

/-- A change of type on a map field keeps the rank between the neighbours. No object
turns into a field: `change` deletes it instead. -/
def KeepsRank (world : World cfg) : MapCall cfg → Prop
  | .changeObject obj newType => newType.isMapContainer = false ∧
      ((getObjectType world (getContainer world obj)).isMapContainer = true →
        RanksBetween world obj newType)
  | _ => True

def AdmissibleInRank (world : World cfg) (call : MapCall cfg) : Prop :=
  Admissible world call ∧ KeepsRank world call

theorem content_walk_chain {members : List Object} {cur : Object} {fuel : Nat}
    (chain : Chain NONE (nextOf (liveRecord world)) cur members)
    (alive : ∀ node ∈ members, ∃ record, liveRecord world node = some record)
    (enough : members.length < fuel) : contentWalk world fuel cur = members := by
  induction members generalizing cur fuel with
  | nil =>
    rcases fuel with _ | fuel
    · rfl
    have ended : cur = NONE := chain
    rw [contentWalk, if_pos ended]
  | cons node rest ih =>
    rcases fuel with _ | fuel
    · exact (Nat.not_lt_zero _ enough).elim
    rcases chain with ⟨rfl, inner, later⟩
    rcases alive cur mem_cons_self with ⟨record, live⟩
    rw [← next_of_live live] at later
    rw [contentWalk, if_neg inner, ih later
      (fun node member => alive node (mem_cons_of_mem cur member))
      (Nat.lt_of_succ_lt_succ enough)]

theorem content_list_eq (described : Described world kids) (isHolder : IsHolder world con) :
    contentList world con = kids con := by
  rcases isHolder with ⟨isLive, holds⟩
  have notNone : con ≠ NONE := by
    rintro rfl
    cases isLive
  rcases holder_record (holder_iff.mp ⟨isLive, holds⟩) with ⟨record, live, _⟩
  unfold contentList
  rw [getFirstContainerObject, if_neg notNone, if_pos holds]
  apply content_walk_chain _ (kids_alive described.forest) (kids_length described.forest con)
  apply described.forest.chain con _ (holder_iff.mp ⟨isLive, holds⟩)
  rw [contentOf, live, getAttribute, access_live live]
  rfl

def Ranked (world : World cfg) (kids : Object → List Object) : Prop :=
  ∀ con type, typeOf (kinds world) con = some type → type.isMapContainer = true →
    OrderedBy (getObjectPriority world) (kids con)

theorem fields_sorted_iff (described : Described world kids) :
    FieldsSorted world ↔ Ranked world kids := by
  constructor
  · intro sorted con type typed field
    have isLive : objectExists world con = true := by
      rw [exists_iff_type, typed]
      rfl
    rw [← object_type_of typed] at field
    rw [← content_list_eq described ⟨isLive, map_container_holds _ field⟩]
    exact sorted con isLive field
  · intro ranked con isLive field
    rw [content_list_eq described ⟨isLive, map_container_holds _ field⟩]
    exact ranked con _ (type_of_exists isLive) field

theorem priority_congr {node : Object}
    (same : typeOf (kinds after) node = typeOf (kinds world) node) :
    getObjectPriority after node = getObjectPriority world node := by
  rw [priority_of_type, priority_of_type, same]

theorem inserted_ordered {append : Bool} {holder : Object}
    (inserted : Inserted world kids newKids obj con append)
    (ordered : OrderedBy (getObjectPriority world) (kids holder))
    (field : (getObjectType world holder).isMapContainer = true) :
    OrderedBy (getObjectPriority world) (newKids holder) := by
  rcases inserted with ⟨front, back, split, place, rfl⟩
  by_cases here : holder = con
  · subst here
    have whole := place_split world obj holder append (kids holder)
    rw [← place, split] at whole
    have rest := append_cancel_left whole
    rw [update_self, place, rest, ← split]
    simp only [placeFront, placeBack, field, if_true]
    apply ordered_search ordered
    · intro left right stops order
      unfold stopsBefore at stops ⊢
      split_ifs at stops ⊢
      · exact decide_eq_true (lt_of_lt_of_le (of_decide_eq_true stops) order)
      · exact decide_eq_true (le_trans (of_decide_eq_true stops) order)
    · intro item passes
      unfold stopsBefore at passes
      split_ifs at passes
      · exact not_lt.mp (of_decide_eq_false passes)
      · exact (not_le.mp (of_decide_eq_false passes)).le
    · intro item stops
      unfold stopsBefore at stops
      split_ifs at stops
      · exact (of_decide_eq_true stops).le
      · exact of_decide_eq_true stops
  rw [update_of_ne here]
  exact ordered

theorem dead_holds_nothing (described : Described world kids)
    (dead : objectExists world con = false) : kids con = [] := by
  apply described.forest.barren
  rw [objectExists, Option.isSome_eq_false_iff, Option.isNone_iff_eq_none] at dead
  simp [holdsOf, dead]

theorem nothing_ordered {holder : Object} (empty : kids holder = []) :
    OrderedBy (getObjectPriority world) (kids holder) := by
  rw [empty]
  exact List.Pairwise.nil

theorem stays_ranked (described : Described world kids) (ranked : Ranked world kids)
    (stays : Stays world kids after newKids) : Ranked after newKids := by
  rcases stays with ⟨rfl, types⟩
  intro holder type typed field
  rcases types holder with same | ⟨dead, _⟩
  · rw [same] at typed
    apply (ranked holder type typed field).congr
    intro node edge
    apply priority_congr
    rcases types node with kept | ⟨dead, _⟩
    · exact kept
    rw [(member_container described.forest edge).1] at dead
    cases dead
  · exact nothing_ordered (dead_holds_nothing described dead)

theorem appears_ranked {type : ObjectType cfg} {append : Bool} (described : Described world kids)
    (ranked : Ranked world kids) (appears : Appears world kids con type append after newKids) :
    Ranked after newKids := by
  rcases appears with ⟨obj, fresh, inserted, types⟩
  intro holder found typed field
  have isField : (getObjectType after holder).isMapContainer = true := by
    rw [object_type_of typed]
    exact field
  apply inserted_ordered inserted _ isField
  by_cases here : holder = obj
  · apply nothing_ordered
    rw [here]
    exact dead_holds_nothing described fresh
  rw [types, if_neg here] at typed
  apply (ranked holder found typed field).congr
  intro node edge
  apply priority_congr
  rw [types, if_neg]
  rintro rfl
  rw [(member_container described.forest edge).1] at fresh
  cases fresh

theorem disappears_ranked (described : Described after newKids) (ranked : Ranked world kids)
    (disappears : Disappears world kids obj after newKids) : Ranked after newKids := by
  rcases disappears with ⟨rfl, _, types⟩
  intro holder type typed field
  have isLive : objectExists after holder = true := by
    rw [exists_iff_type, typed]
    rfl
  rw [types holder isLive] at typed
  have fewer : (prune kids obj holder).Sublist (kids holder) := by
    by_cases under : Below kids obj holder
    · rw [prune_inside under]
      exact nil_sublist _
    rw [prune_outside under]
    exact erase_sublist
  apply ((ranked holder type typed field).sublist fewer).congr
  intro node edge
  apply priority_congr
  exact types node (member_container described.forest edge).1

theorem moved_ranked {old : Object} (ranked : Ranked world kids)
    (inserted : Inserted after (update kids old ((kids old).erase obj)) newKids obj con
      false) (table : kinds after = kinds world) : Ranked after newKids := by
  intro holder type typed field
  have isField : (getObjectType after holder).isMapContainer = true := by
    rw [object_type_of typed]
    exact field
  rw [table] at typed
  apply inserted_ordered inserted _ isField
  have fewer : (update kids old ((kids old).erase obj) holder).Sublist (kids holder) := by
    by_cases here : holder = old
    · rw [here, update_self]
      exact erase_sublist
    · rw [update_of_ne here]
  apply ((ranked holder type typed field).sublist fewer).congr
  intro node _
  apply priority_congr
  rw [table]

section

variable (described : Described world kids)
include described

theorem neighbour_links {front back : List Object} (split : kids con = front ++ obj :: back) :
    getNextObject world obj = headOf NONE back ∧
      ∀ start last, front = start ++ [last] → getNextObject world last = obj := by
  have edge : obj ∈ kids con := by
    rw [split]
    exact mem_append_right _ mem_cons_self
  have isHolder := described.forest.parent_holds edge
  rcases holder_record isHolder with ⟨record, live, _⟩
  have chain := described.forest.chain con record.content isHolder (by rw [contentOf, live]; rfl)
  constructor
  · rw [split] at chain
    rcases kids_alive described.forest obj edge with ⟨objRecord, objLive⟩
    rw [next_of_live objLive]
    exact chain_start (chain_suffix chain).2.2
  rintro start last rfl
  rw [split, append_assoc] at chain
  have lastIn : last ∈ kids con := by
    rw [split]
    simp
  rcases kids_alive described.forest last lastIn with ⟨lastRecord, lastLive⟩
  rw [next_of_live lastLive]
  exact (chain_suffix chain).2.2.1

/-- Everything before the object ranks below the new type, everything behind above it. -/
theorem ranks_between_all {front back : List Object} {newType : ObjectType cfg}
    (split : kids con = front ++ obj :: back)
    (ordered : OrderedBy (getObjectPriority world) (kids con))
    (between : RanksBetween world obj newType) :
    (∀ node ∈ front, getObjectPriority world node ≤ typePriority newType) ∧
      ∀ node ∈ back, typePriority newType ≤ getObjectPriority world node := by
  rcases neighbour_links described split with ⟨next, previous⟩
  have edge : obj ∈ kids con := by
    rw [split]
    exact mem_append_right _ mem_cons_self
  rw [split] at ordered
  rcases pairwise_append.mp ordered with ⟨frontOrdered, backOrdered, _⟩
  constructor
  · rcases eq_nil_or_concat front with rfl | ⟨start, last, rfl⟩
    · nofun
    rw [concat_eq_append] at frontOrdered split ⊢
    have lastIn : last ∈ kids con := by
      rw [split]
      simp
    rcases member_container described.forest lastIn with ⟨lastLive, lastCon⟩
    have bound := between.1 last lastLive
      (by rw [lastCon, (member_container described.forest edge).2])
      (previous start last (concat_eq_append ..))
    intro node member
    rcases mem_append.mp member with early | final
    · have order := (pairwise_append.mp frontOrdered).2.2 node early last (by simp)
      exact order.trans bound
    rw [mem_singleton.mp final]
    exact bound
  rcases back with _ | ⟨first, rest⟩
  · nofun
  have firstIn : first ∈ kids con := by
    rw [split]
    simp
  have bound := between.2 (by
    rw [next, head_of_cons]
    exact described.forest.kid_ne_none firstIn)
  rw [next, head_of_cons] at bound
  intro node member
  rcases mem_cons.mp member with rfl | later
  · exact bound
  have tail := (pairwise_cons.mp backOrdered).2
  exact bound.trans ((pairwise_cons.mp tail).1 node later)

theorem changed_ranked {newType : ObjectType cfg} (ranked : Ranked world kids)
    (keeps : KeepsRank world (.changeObject obj newType))
    (types : ∀ node, typeOf (kinds after) node =
      if node = obj then some newType else typeOf (kinds world) node) : Ranked after kids := by
  intro holder type typed field
  have notObj : holder ≠ obj := by
    rintro rfl
    rw [types, if_pos rfl] at typed
    rw [← Option.some.inj typed, keeps.1] at field
    cases field
  rw [types, if_neg notObj] at typed
  have ordered := ranked holder type typed field
  have others : ∀ node, node ≠ obj →
      getObjectPriority after node = getObjectPriority world node := by
    intro node different
    apply priority_congr
    rw [types, if_neg different]
  by_cases edge : obj ∈ kids holder
  · have container := (member_container described.forest edge).2
    have isField : (getObjectType world (getContainer world obj)).isMapContainer = true := by
      rw [container, object_type_of typed]
      exact field
    rcases append_of_mem edge with ⟨front, back, split⟩
    rcases ranks_between_all described split ordered (keeps.2 isField) with ⟨before, behind⟩
    have nodup := described.forest.nodup holder
    rw [split] at nodup ordered ⊢
    have notOthers := (nodup_cons.mp (nodup_middle.mp nodup)).1
    have ownPriority : getObjectPriority after obj = typePriority newType := by
      rw [priority_of_type, types, if_pos rfl]
      rfl
    apply ordered_splice
    · have rest : (front ++ back).Sublist (front ++ obj :: back) :=
        (List.Sublist.refl front).append (sublist_cons_self obj back)
      apply (OrderedBy.sublist ordered rest).congr
      intro node member
      apply others
      rintro rfl
      exact notOthers member
    · intro node member
      rw [ownPriority, others node]
      · exact before node member
      · rintro rfl
        exact notOthers (mem_append_left _ member)
    · intro node member
      rw [ownPriority, others node]
      · exact behind node member
      · rintro rfl
        exact notOthers (mem_append_right _ member)
  apply ordered.congr
  intro node member
  apply others
  rintro rfl
  exact edge member

theorem effect_ranked {call : MapCall cfg} (newDescribed : Described after newKids)
    (ranked : Ranked world kids) (keeps : KeepsRank world call)
    (effect : Effect world kids after newKids call) : Ranked after newKids := by
  cases call with
  | initSector sectorX sectorY sectorZ => exact stays_ranked described ranked effect
  | appendObject con type => exact appears_ranked described ranked effect
  | setObject con type creatureID => exact appears_ranked described ranked effect
  | copyObject con source =>
    exact effect.elim (stays_ranked described ranked) (appears_ranked described ranked)
  | splitObject obj count =>
    exact effect.elim (stays_ranked described ranked) (appears_ranked described ranked)
  | mergeObjects obj dest =>
    exact effect.elim (stays_ranked described ranked) (disappears_ranked newDescribed ranked)
  | moveObject obj con => exact moved_ranked ranked effect.1 effect.2
  | deleteObject obj => exact disappears_ranked newDescribed ranked effect
  | changeObject obj newType =>
    rcases effect with ⟨rfl, types⟩
    exact changed_ranked described ranked keeps types
  | changeAttribute obj attr value => exact stays_ranked described ranked effect
  | nextRound roundNr => exact stays_ranked described ranked effect

end

/-- From a state with sorted fields, every run whose changes of type keep the rank
between the neighbours has sorted fields in all its states. -/
theorem fields_stay_sorted {start : World cfg} (described : Described start kids)
    (sorted : FieldsSorted start)
    (run : RunFrom AdmissibleInRank start world) : FieldsSorted world := by
  rcases run_invariant (fun _ _ permitted => permitted.1) described
    ((fields_sorted_iff described).mp sorted)
    (fun _ _ _ _ _ described ranked permitted newDescribed effect =>
      effect_ranked described newDescribed ranked permitted.2 effect) run with
    ⟨finalKids, finalDescribed, ranked⟩
  exact (fields_sorted_iff finalDescribed).mpr ranked

/-- Type 0 is the field, type 1 has no flag at all, and type 2 is ground. -/
def groundConfig : GameConfig where
  maxTypeID := 2
  typeFlags := fun typeID flag =>
    typeID == 0 && flag == .container || typeID == 2 && flag == .bank
  typeAttributes := fun _ _ => 0
  hashTableLog := 4
  maxTypeID_lt := by decide
  mapContainer_holds := by decide
  mapContainer_lasts := by decide
  creature_single := by decide
  hashTableLog_lt := by decide

def plainType : ObjectType groundConfig := ⟨1, by decide⟩

def groundType : ObjectType groundConfig := ⟨2, by decide⟩

def fieldWorld : World groundConfig :=
  ((createMapCon (initialWorld groundConfig) 0 0 7).map Prod.snd).toOption.getD
    (initialWorld groundConfig)

def fieldAfter (calls : List (MapCall groundConfig)) : World groundConfig :=
  (runMap fieldWorld calls).toOption.getD fieldWorld

def twoPlain : List (MapCall groundConfig) :=
  [.setObject ⟨1⟩ plainType 0, .setObject ⟨1⟩ plainType 0]

theorem field_world_described : Described fieldWorld fun _ => [] := by
  rcases create_map_con_spec (initial_described groundConfig) 0 0 7 with
    ⟨halt, failed, _⟩ | ⟨field, after, returned, described, _⟩
  · cases failed
  · cases returned
    exact described

theorem field_world_sorted : FieldsSorted fieldWorld := by
  apply (fields_sorted_iff field_world_described).mpr
  intro con type _ _
  exact List.Pairwise.nil

theorem two_plain_run (allowed : World groundConfig → MapCall groundConfig → Prop)
    (permits : ∀ world, IsHolder world ⟨1⟩ → allowed world (.setObject ⟨1⟩ plainType 0)) :
    RunFrom allowed fieldWorld (fieldAfter twoPlain) := by
  have first : RunFrom allowed fieldWorld (fieldAfter [.setObject ⟨1⟩ plainType 0]) :=
    RunFrom.start.step (permits fieldWorld ⟨rfl, rfl⟩) rfl
  exact first.step (permits _ ⟨rfl, rfl⟩) rfl

theorem priority_le_low (world : World cfg) (node : Object) :
    getObjectPriority world node ≤ priorityLow := by
  unfold getObjectPriority typePriority
  split_ifs <;> decide

theorem plain_change_sorted :
    FieldsSorted (fieldAfter (twoPlain ++ [.changeObject ⟨2⟩ plainType])) := by
  apply fields_stay_sorted field_world_described field_world_sorted
  have two := two_plain_run AdmissibleInRank fun world isHolder => ⟨isHolder, trivial⟩
  have permitted : AdmissibleInRank (fieldAfter twoPlain) (.changeObject ⟨2⟩ plainType) := by
    refine ⟨⟨⟨rfl, by decide⟩, nofun, fun _ => rfl⟩, rfl, fun _ => ⟨?_, fun inner => (inner rfl).elim⟩⟩
    intro prev _ _ _
    exact priority_le_low _ prev
  exact two.step permitted rfl

/-- Ground in the place of the lower of two objects: the field is no longer sorted. -/
theorem ground_above_unsorted : RunFrom Admissible fieldWorld
      (fieldAfter (twoPlain ++ [.changeObject ⟨2⟩ groundType])) ∧ FieldsSorted fieldWorld ∧
    ¬ FieldsSorted (fieldAfter (twoPlain ++ [.changeObject ⟨2⟩ groundType])) := by
  refine ⟨?_, field_world_sorted, ?_⟩
  · have two := two_plain_run Admissible fun world isHolder => isHolder
    have permitted : Admissible (fieldAfter twoPlain) (.changeObject ⟨2⟩ groundType) :=
      ⟨⟨rfl, by decide⟩, nofun, fun _ => rfl⟩
    exact two.step permitted rfl
  · intro sorted
    have unsorted := sorted ⟨1⟩ rfl rfl
    revert unsorted
    decide

end TibiaGame.FieldOrder
