import TibiaGame.ContentForest
import TibiaGame.ObjectKinds
import Mathlib.Data.List.TakeWhile

/-!
# The forest under single writes, `place_object` and `cut_object`

Each function of the source that changes a link is given its effect on the
forest. The searches end because a list without repetition is shorter than the
range of object numbers.
-/

namespace TibiaGame.ForestSteps

open Function
open GameTypes ObjectStore ObjectOperations ObjectKinds ContentForest Library.LinkedList List
open Library.OrderedForest Library.Outcome

variable {cfg : GameConfig}

def updateRecord (records : Records cfg) (obj : Object)
    (change : MapObject cfg → MapObject cfg) : Records cfg := fun node =>
  if node = obj then (records obj).map change else records node

theorem live_write_update (world : World cfg) (obj : Object)
    {change : MapObject cfg → MapObject cfg}
    (keepsID : ∀ record, (change record).objectID = record.objectID) :
    liveRecord (writeObject world obj change) = updateRecord (liveRecord world) obj change := by
  funext node
  exact live_write world obj node keepsID

theorem write_none_record {world : World cfg} {obj : Object} {record : MapObject cfg}
    (live : liveRecord world obj = some record) (change : MapObject cfg → MapObject cfg) :
    (writeObject world obj change).noneRecord = world.noneRecord := by
  rw [writeObject, live]

theorem live_set_next (world : World cfg) (obj next : Object) :
    liveRecord (setNextObject world obj next) =
      updateRecord (liveRecord world) obj fun record => { record with nextObject := next } :=
  live_write_update world obj fun _ => rfl

theorem live_set_container (world : World cfg) (obj con : Object) :
    liveRecord (setContainer world obj con) =
      updateRecord (liveRecord world) obj fun record => { record with container := con } :=
  live_write_update world obj fun _ => rfl

theorem live_set_attribute (world : World cfg) (obj : Object) (attr : InstanceAttribute)
    (value : UInt32) :
    liveRecord (setAttribute world obj attr value) =
      updateRecord (liveRecord world) obj fun record => record.setAttribute attr value :=
  live_write_update world obj fun record => record_set_attribute_number record attr value

theorem live_set_slot (world : World cfg) (obj : Object) (slot : Fin 4) (value : UInt32) :
    liveRecord (setSlot world obj slot value) =
      updateRecord (liveRecord world) obj fun record =>
        { record with attributes := update record.attributes slot value } :=
  live_write_update world obj fun _ => rfl

section Views

variable {records : Records cfg} {obj node : Object} {change : MapObject cfg → MapObject cfg}

theorem view_update_keep {Value : Type} {view : MapObject cfg → Value}
    (keeps : ∀ record, view (change record) = view record) :
    (updateRecord records obj change node).map view = (records node).map view := by
  unfold updateRecord
  split_ifs with here
  · rw [here, Option.map_map]
    congr 1
    funext record
    exact keeps record
  · rfl

theorem view_update_set {Value : Type} {view : MapObject cfg → Value} {value : Value}
    {record : MapObject cfg} (live : records obj = some record)
    (sets : view (change record) = value) :
    (updateRecord records obj change node).map view =
      if node = obj then some value else (records node).map view := by
  unfold updateRecord
  split_ifs
  · rw [live, Option.map_some, Option.map_some, sets]
  · rfl

theorem next_update_keep (keeps : ∀ record, (change record).nextObject = record.nextObject) :
    nextOf (updateRecord records obj change) node = nextOf records node := by
  rw [nextOf, view_update_keep keeps, nextOf]

theorem next_update_set {next : Object} {record : MapObject cfg} (live : records obj = some record)
    (sets : (change record).nextObject = next) :
    nextOf (updateRecord records obj change) node =
      if node = obj then next else nextOf records node := by
  rw [nextOf, view_update_set live sets, nextOf]
  split_ifs <;> rfl

theorem update_live {record : MapObject cfg} (live : records node = some record) :
    ∃ newRecord, updateRecord records obj change node = some newRecord := by
  unfold updateRecord
  split_ifs with here
  · rw [← here, live]
    exact ⟨_, rfl⟩
  · exact ⟨record, live⟩

end Views

section Contents

variable (record : MapObject cfg)

theorem content_of_holds (holds : record.type.holdsObjects = true) :
    record.content = ⟨record.attributes 0⟩ := by
  rw [MapObject.content, MapObject.getAttribute, content_offset _ holds]
  rfl

theorem content_of_plain (plain : record.type.holdsObjects = false) : record.content = NONE := by
  rw [MapObject.content, MapObject.getAttribute, content_offset_none _ plain]
  rfl

theorem set_content (holds : record.type.holdsObjects = true) (value : UInt32) :
    (record.setAttribute .content value).content = ⟨value⟩ := by
  have sameType := record_set_attribute_type record .content value
  rw [content_of_holds _ (by rw [sameType]; exact holds), MapObject.setAttribute,
    content_offset _ holds]
  simp [MapObject.normalize]

theorem set_attribute_slot_zero (holds : record.type.holdsObjects = true)
    {attr : InstanceAttribute} (different : attr ≠ .content) (value : UInt32) :
    (record.setAttribute attr value).attributes 0 = record.attributes 0 := by
  unfold MapObject.setAttribute
  rcases found : record.type.getAttributeOffset attr with _ | offset
  · rfl
  simp only
  split_ifs with bound
  · have notZero : (0 : Fin 4) ≠ ⟨offset, bound⟩ := by
      intro same
      have offsetZero : offset = 0 := (congrArg Fin.val same).symm
      rw [offsetZero] at found
      exact different (attribute_offset_injective _ found (content_offset _ holds))
    simp only [update_of_ne notZero]
  · rfl

theorem set_attribute_content {attr : InstanceAttribute} (different : attr ≠ .content)
    (value : UInt32) : (record.setAttribute attr value).content = record.content := by
  have sameType := record_set_attribute_type record attr value
  rcases holds : record.type.holdsObjects with _ | _
  · rw [content_of_plain _ holds, content_of_plain _ (by rw [sameType]; exact holds)]
  rw [content_of_holds _ holds, content_of_holds _ (by rw [sameType]; exact holds),
    set_attribute_slot_zero record holds different]

theorem set_slot_content {slot : Fin 4} (different : slot ≠ 0) (value : UInt32) :
    MapObject.content { record with
      attributes := update record.attributes slot value } = record.content := by
  rcases holds : record.type.holdsObjects with _ | _
  · rw [content_of_plain record holds]
    exact content_of_plain _ holds
  have changed := content_of_holds { record with
    attributes := update record.attributes slot value } holds
  rw [changed, content_of_holds record holds]
  simp only [update_of_ne different.symm]

theorem set_attribute_next (attr : InstanceAttribute) (value : UInt32) :
    (record.setAttribute attr value).nextObject = record.nextObject := by
  unfold MapObject.setAttribute
  split
  · rfl
  · split_ifs <;> rfl

theorem set_attribute_container (attr : InstanceAttribute) (value : UInt32) :
    (record.setAttribute attr value).container = record.container := by
  unfold MapObject.setAttribute
  split
  · rfl
  · split_ifs <;> rfl

end Contents

section Splices

variable {records : Records cfg} {obj con : Object}

/-- The link that leads to what follows `front` in the list of `con` is set to `value`. -/
def joinRecords (records : Records cfg) (con : Object) (front : List Object) (value : Object) :
    Records cfg :=
  if front = [] then updateRecord records con fun record =>
    record.setAttribute .content value.objectID
  else updateRecord records (lastOf NONE front) fun record => { record with nextObject := value }

def relink (records : Records cfg) (obj next container : Object) : Records cfg :=
  updateRecord (updateRecord records obj fun record => { record with nextObject := next }) obj
    fun record => { record with container := container }

structure Spliced (before after : Records cfg) (con : Object) (front : List Object)
    (obj value next container : Object) : Prop where
  next : ∀ node, nextOf after node = if node = obj then next
    else if node = lastOf NONE front ∧ front ≠ [] then value else nextOf before node
  container : ∀ node, containerOf after node =
    if node = obj then some container else containerOf before node
  holds : ∀ node, holdsOf after node = holdsOf before node
  content : ∀ node, contentOf after node =
    if node = con ∧ front = [] then some value else contentOf before node

theorem relink_views {record : MapObject cfg} (live : records obj = some record)
    (next container : Object) :
    (∀ node, nextOf (relink records obj next container) node =
        if node = obj then next else nextOf records node) ∧
      (∀ node, containerOf (relink records obj next container) node =
        if node = obj then some container else containerOf records node) ∧
      (∀ node, holdsOf (relink records obj next container) node = holdsOf records node) ∧
      ∀ node, contentOf (relink records obj next container) node = contentOf records node := by
  refine ⟨?_, ?_, ?_, ?_⟩ <;>
    · intro node
      by_cases here : node = obj
      · subst here
        simp [relink, updateRecord, nextOf, containerOf, holdsOf, contentOf, live,
          MapObject.content, MapObject.getAttribute]
      · simp [relink, updateRecord, nextOf, containerOf, holdsOf, contentOf, here]

theorem join_views {front : List Object} {conRecord : MapObject cfg}
    (conLive : records con = some conRecord) (conHolds : conRecord.type.holdsObjects = true)
    (lastLive : front ≠ [] → ∃ record, records (lastOf NONE front) = some record) (value : Object) :
    (∀ node, nextOf (joinRecords records con front value) node =
        if node = lastOf NONE front ∧ front ≠ [] then value else nextOf records node) ∧
      (∀ node, containerOf (joinRecords records con front value) node = containerOf records node) ∧
      (∀ node, holdsOf (joinRecords records con front value) node = holdsOf records node) ∧
      ∀ node, contentOf (joinRecords records con front value) node =
        if node = con ∧ front = [] then some value else contentOf records node := by
  by_cases some_front : front = []
  · rw [joinRecords, if_pos some_front]
    refine ⟨?_, ?_, ?_, ?_⟩
    · intro node
      rw [if_neg (fun both => both.2 some_front)]
      exact next_update_keep fun record => set_attribute_next record _ _
    · intro node
      exact view_update_keep fun record => set_attribute_container record _ _
    · intro node
      apply view_update_keep
      intro record
      rw [record_set_attribute_type]
    · intro node
      simp only [some_front, and_true]
      exact view_update_set conLive (set_content conRecord conHolds value.objectID)
  rw [joinRecords, if_neg some_front]
  rcases lastLive some_front with ⟨record, live⟩
  refine ⟨?_, ?_, ?_, ?_⟩
  · intro node
    simp only [ne_eq, some_front, not_false_eq_true, and_true]
    exact next_update_set live rfl
  all_goals
    intro node
    by_cases here : node = lastOf NONE front
    · simp [updateRecord, containerOf, holdsOf, contentOf, here, live, some_front,
        MapObject.content, MapObject.getAttribute]
    · simp [updateRecord, containerOf, holdsOf, contentOf, here, some_front]

theorem splice_views {front : List Object} {conRecord record : MapObject cfg}
    (conLive : records con = some conRecord) (conHolds : conRecord.type.holdsObjects = true)
    (objLive : records obj = some record)
    (lastLive : front ≠ [] → ∃ record, records (lastOf NONE front) = some record)
    (value next container : Object) :
    Spliced records (relink (joinRecords records con front value) obj next container) con front
      obj value next container := by
  rcases join_views conLive conHolds lastLive value with
    ⟨joinNext, joinContainer, joinHolds, joinContent⟩
  have joinedLive : ∃ joined, joinRecords records con front value obj = some joined := by
    unfold joinRecords
    split_ifs
    all_goals exact update_live objLive
  rcases joinedLive with ⟨joined, joinedLive⟩
  rcases relink_views joinedLive next container with
    ⟨linkNext, linkContainer, linkHolds, linkContent⟩
  constructor
  · intro node
    rw [linkNext, joinNext]
  · intro node
    rw [linkContainer, joinContainer]
  · intro node
    rw [linkHolds, joinHolds]
  · intro node
    rw [linkContent, joinContent]

end Splices

section Writes

variable {world : World cfg} {kids : Object → List Object} {obj : Object}

variable (forest : Forest (liveRecord world) kids)
include forest

/-- A write to the record of an object that changes none of its links. -/
theorem write_forest {change : MapObject cfg → MapObject cfg}
    (number : ∀ record, (change record).objectID = record.objectID)
    (next : ∀ record, (change record).nextObject = record.nextObject)
    (container : ∀ record, (change record).container = record.container)
    (type : ∀ record, (change record).type = record.type)
    (content : ∀ record, (change record).content = record.content) :
    Forest (liveRecord (writeObject world obj change)) kids := by
  rw [live_write_update world obj number]
  apply forest.frame
  · intro node
    exact next_update_keep next
  · intro node
    exact view_update_keep container
  · intro node
    apply view_update_keep
    intro record
    rw [type]
  · intro node _
    exact view_update_keep content

theorem set_attribute_forest {attr : InstanceAttribute} {value : UInt32}
    (different : attr ≠ .content) : Forest (liveRecord (setAttribute world obj attr value)) kids :=
  write_forest forest (fun record => record_set_attribute_number record attr value)
    (fun record => set_attribute_next record attr value)
    (fun record => set_attribute_container record attr value)
    (fun record => record_set_attribute_type record attr value)
    (fun record => set_attribute_content record different value)

theorem set_slot_forest {slot : Fin 4} {value : UInt32} (different : slot ≠ 0) :
    Forest (liveRecord (setSlot world obj slot value)) kids :=
  write_forest forest (fun _ => rfl) (fun _ => rfl) (fun _ => rfl) (fun _ => rfl)
    (fun record => set_slot_content record different value)

end Writes

theorem object_number_injective : Function.Injective fun obj : Object =>
    (⟨obj.objectID.toNat, obj.objectID.toNat_lt⟩ : Fin (2 ^ 32)) := by
  intro left right same
  have numbers : left.objectID.toNat = right.objectID.toNat := congrArg Fin.val same
  exact congrArg Object.mk (UInt32.toNat_inj.mp numbers)

instance : Finite Object := Finite.of_injective _ object_number_injective

theorem nat_card_object : Nat.card Object ≤ 2 ^ 32 := by
  have bound := Nat.card_le_card_of_injective _ object_number_injective
  rwa [Nat.card_fin] at bound

theorem nodup_length (members : List Object) (nodup : members.Nodup) : members.length ≤ 2 ^ 32 := by
  have counted := Set.ncard_coe_finset members.toFinset
  have bound := Set.ncard_le_card (members.toFinset : Set Object)
  rw [counted, toFinset_card_of_nodup nodup] at bound
  exact bound.trans nat_card_object

section Walks

variable {world : World cfg} {kids : Object → List Object} {obj con : Object}

theorem next_of_live {record : MapObject cfg} (live : liveRecord world obj = some record) :
    getNextObject world obj = nextOf (liveRecord world) obj := by
  rw [getNextObject, access_live live, nextOf, live]
  rfl

/-- The search of `place_object` splits the list where it first may stop. -/
theorem place_walk_chain {stop : Object → Bool} {members : List Object} {prev cur : Object}
    {fuel : Nat} (chain : Chain NONE (nextOf (liveRecord world)) cur members)
    (alive : ∀ node ∈ members, ∃ record, liveRecord world node = some record)
    (enough : members.length < fuel) :
    placeWalk world stop fuel prev cur =
      .ok (lastOf prev (members.takeWhile fun node => !stop node),
        headOf NONE (members.dropWhile fun node => !stop node)) := by
  induction members generalizing prev cur fuel with
  | nil =>
    rcases fuel with _ | fuel
    · exact (Nat.not_lt_zero _ enough).elim
    have ended : cur = NONE := chain
    simp [placeWalk, ended]
  | cons node rest ih =>
    rcases fuel with _ | fuel
    · exact (Nat.not_lt_zero _ enough).elim
    rcases chain with ⟨rfl, inner, later⟩
    rw [placeWalk, if_neg inner]
    cases stops : stop cur with
    | true => simp [stops]
    | false =>
      rcases alive cur (by simp) with ⟨record, live⟩
      rw [← next_of_live live] at later
      simp only [Bool.false_eq_true, if_false, takeWhile_cons, dropWhile_cons,
        stops, Bool.not_false, if_true, last_of_cons]
      exact ih later (fun node member => alive node (mem_cons_of_mem cur member))
        (Nat.lt_of_succ_lt_succ enough)

theorem cut_walk_chain {front back : List Object} {cur : Object} {fuel : Nat}
    (chain : Chain NONE (nextOf (liveRecord world)) cur (front ++ obj :: back))
    (nodup : (front ++ obj :: back).Nodup)
    (alive : ∀ node ∈ front, ∃ record, liveRecord world node = some record)
    (some_front : front ≠ []) (enough : front.length ≤ fuel) :
    cutWalk world obj fuel cur = .ok (lastOf NONE front) := by
  induction front generalizing cur fuel with
  | nil => exact (some_front rfl).elim
  | cons node rest ih =>
    rcases fuel with _ | fuel
    · exact (Nat.not_succ_le_zero _ enough).elim
    rcases chain with ⟨rfl, inner, later⟩
    rcases alive cur (by simp) with ⟨record, live⟩
    rw [← next_of_live live] at later
    rw [cutWalk]
    rcases rest with _ | ⟨second, other⟩
    · rw [if_pos later.1]
      rfl
    have notYet : getNextObject world cur ≠ obj := by
      rw [later.1]
      rintro rfl
      have tail := (nodup_cons.mp nodup).2
      exact (nodup_cons.mp tail).1 (by simp)
    rw [if_neg notYet]
    exact ih later (nodup_cons.mp nodup).2
      (fun node member => alive node (mem_cons_of_mem cur member)) (by simp)
      (Nat.le_of_succ_le_succ enough)

theorem holder_record (isHolder : holdsOf (liveRecord world) con = some true) :
    ∃ record, liveRecord world con = some record ∧ record.type.holdsObjects = true := by
  rcases Option.map_eq_some_iff.mp isHolder with ⟨record, live, holds⟩
  exact ⟨record, live, holds⟩

theorem kids_alive (forest : Forest (liveRecord world) kids) :
    ∀ node ∈ kids con, ∃ record, liveRecord world node = some record := by
  intro node member
  rcases forest.kid_live member with ⟨record, live, _⟩
  exact ⟨record, live⟩

theorem kids_length (forest : Forest (liveRecord world) kids) (con : Object) :
    (kids con).length < walkLimit := by
  have bound := nodup_length (kids con) (forest.nodup con)
  exact bound.trans_lt (by decide)

/-- What precedes the place of `obj` in the list of `con`. -/
def placeFront (world : World cfg) (obj con : Object) (append : Bool) (members : List Object) :
    List Object :=
  if (getObjectType world con).isMapContainer then
    let objPriority := getObjectPriority world obj
    let append := append || (objPriority != priorityCreature && objPriority != priorityLow)
    members.takeWhile fun node => !stopsBefore world objPriority append node
  else if append then members
  else []

def placeBack (world : World cfg) (obj con : Object) (append : Bool) (members : List Object) :
    List Object :=
  if (getObjectType world con).isMapContainer then
    let objPriority := getObjectPriority world obj
    let append := append || (objPriority != priorityCreature && objPriority != priorityLow)
    members.dropWhile fun node => !stopsBefore world objPriority append node
  else if append then []
  else members

theorem place_split (world : World cfg) (obj con : Object) (append : Bool) (members : List Object) :
    members = placeFront world obj con append members ++ placeBack world obj con append members := by
  unfold placeFront placeBack
  split_ifs
  · exact takeWhile_append_dropWhile.symm
  · exact (append_nil members).symm
  · exact (nil_append members).symm

theorem place_search_spec (forest : Forest (liveRecord world) kids)
    (isHolder : holdsOf (liveRecord world) con = some true) (obj : Object) (append : Bool) :
    placeSearch world obj con append =
      .ok (lastOf NONE (placeFront world obj con append (kids con)),
        headOf NONE (placeBack world obj con append (kids con))) := by
  rcases holder_record isHolder with ⟨record, live, _⟩
  have first : contentOf (liveRecord world) con = some ⟨getAttribute world con .content⟩ := by
    rw [contentOf, live, getAttribute, access_live live]
    rfl
  have chain := forest.chain con _ isHolder first
  have walk : ∀ stop, placeWalk world stop walkLimit NONE ⟨getAttribute world con .content⟩ =
      .ok (lastOf NONE ((kids con).takeWhile fun node => !stop node),
        headOf NONE ((kids con).dropWhile fun node => !stop node)) := by
    intro stop
    exact place_walk_chain chain (kids_alive forest) (kids_length forest con)
  simp only [placeSearch, placeFront, placeBack]
  split_ifs
  · exact walk _
  · have whole := takeWhile_eq_self_iff.mpr fun node (_ : node ∈ kids con) =>
      (Bool.not_false : (!false) = true)
    have nothing := dropWhile_eq_nil_iff.mpr fun node (_ : node ∈ kids con) =>
      (Bool.not_false : (!false) = true)
    rw [walk, whole, nothing]
  · rw [chain_start chain]
    rfl

theorem front_last_mem {front back : List Object} (split : kids con = front ++ back)
    (some_front : front ≠ []) : lastOf NONE front ∈ kids con := by
  rw [split]
  cases front with
  | nil => exact (some_front rfl).elim
  | cons node rest => exact mem_append_left _ (last_of_mem node rest)

variable (forest : Forest (liveRecord world) kids)
include forest

theorem last_ne_none {front back : List Object} (split : kids con = front ++ back) :
    lastOf NONE front ≠ NONE ↔ front ≠ [] := by
  constructor
  · rintro inner rfl
    exact inner rfl
  · intro some_front
    exact forest.kid_ne_none (front_last_mem split some_front)

/-- The assignments of `place_object` put a loose object into the list of `con`. -/
theorem place_between_forest {front back : List Object} (split : kids con = front ++ back)
    (isHolder : holdsOf (liveRecord world) con = some true)
    (loose : containerOf (liveRecord world) obj = some NONE) (outside : ¬ Below kids obj con) :
    Forest (liveRecord (placeBetween world obj con (lastOf NONE front) (headOf NONE back)))
      (update kids con (front ++ obj :: back)) := by
  rcases Option.map_eq_some_iff.mp loose with ⟨record, objLive, _⟩
  rcases holder_record isHolder with ⟨conRecord, conLive, conHolds⟩
  have placed : liveRecord (placeBetween world obj con (lastOf NONE front) (headOf NONE back)) =
      relink (joinRecords (liveRecord world) con front obj) obj (headOf NONE back) con := by
    rw [placeBetween, live_set_container, live_set_next, relink, joinRecords]
    by_cases some_front : front = []
    · have first : ¬ lastOf NONE front ≠ NONE := by
        rw [last_ne_none forest split]
        exact fun inner => inner some_front
      rw [if_neg first, if_pos some_front, live_set_attribute]
    · rw [if_pos ((last_ne_none forest split).mpr some_front), if_neg some_front, live_set_next]
  have spliced := splice_views conLive conHolds objLive
    (fun some_front => kids_alive forest _ (front_last_mem split some_front)) obj (headOf NONE back)
    con
  rw [placed]
  apply forest.insert split isHolder loose (live_ne_none objLive) outside
  · rw [spliced.next, if_pos rfl]
  · intro some_front
    have objNotLast : lastOf NONE front ≠ obj := by
      intro same
      exact forest.orphan loose con (same ▸ front_last_mem split some_front)
    rw [spliced.next, if_neg objNotLast, if_pos ⟨rfl, some_front⟩]
  · intro node notObj notLast
    rw [spliced.next, if_neg notObj, if_neg fun both => notLast both.1]
  · exact spliced.container
  · exact spliced.holds
  · intro node _
    exact spliced.content node

theorem place_object_spec (isHolder : holdsOf (liveRecord world) con = some true)
    (loose : containerOf (liveRecord world) obj = some NONE) (outside : ¬ Below kids obj con)
    (append : Bool) :
    ∃ after, placeObject world obj con append = .ok after ∧ Quiet world after ∧
      Forest (liveRecord after) (update kids con
        (placeFront world obj con append (kids con) ++
          obj :: placeBack world obj con append (kids con))) := by
  rcases Option.map_eq_some_iff.mp loose with ⟨record, objLive, _⟩
  rcases holder_record isHolder with ⟨conRecord, conLive, conHolds⟩
  have objExists : objectExists world obj = true := object_exists_iff.mpr ⟨record, objLive⟩
  have conExists : objectExists world con = true := object_exists_iff.mpr ⟨conRecord, conLive⟩
  have holds : (getObjectType world con).holdsObjects = true := by
    rw [getObjectType, access_live conLive]
    exact conHolds
  have placed : placeObject world obj con append = .ok (placeBetween world obj con
      (lastOf NONE (placeFront world obj con append (kids con)))
      (headOf NONE (placeBack world obj con append (kids con)))) := by
    simp only [placeObject, objExists, conExists, holds, Bool.not_true, Bool.false_eq_true,
      if_false, place_search_spec forest isHolder obj append, ok_bind]
  refine ⟨_, placed, place_between_quiet _ _ _ _ _, ?_⟩
  exact place_between_forest forest (place_split world obj con append (kids con)) isHolder loose
    outside

theorem cut_object_spec (edge : obj ∈ kids con) :
    ∃ after, cutObject world obj = .ok after ∧ Quiet world after ∧
      Forest (liveRecord after) (update kids con ((kids con).erase obj)) ∧
      containerOf (liveRecord after) obj = some NONE ∧ after.noneRecord = world.noneRecord := by
  rcases forest.kid_live edge with ⟨record, objLive, inCon⟩
  have isHolder := forest.parent_holds edge
  rcases holder_record isHolder with ⟨conRecord, conLive, conHolds⟩
  have objExists : objectExists world obj = true := object_exists_iff.mpr ⟨record, objLive⟩
  have notNone : obj ≠ NONE := live_ne_none objLive
  have conNotNone : con ≠ NONE := live_ne_none conLive
  rcases append_of_mem edge with ⟨front, back, split⟩
  have nodup := forest.nodup con
  rw [split] at nodup
  have erased : (kids con).erase obj = front ++ back := by
    have notFront : obj ∉ front := by
      intro member
      exact (nodup_cons.mp (nodup_middle.mp nodup)).1 (mem_append_left _ member)
    rw [split, erase_append_right _ notFront, erase_cons_head]
  have first : contentOf (liveRecord world) con = some (getFirstContainerObject world con) := by
    have holds : (getObjectType world con).holdsObjects = true := by
      rw [getObjectType, access_live conLive]
      exact conHolds
    rw [getFirstContainerObject, if_neg conNotNone, if_pos holds, contentOf, conLive, getAttribute,
      access_live conLive]
    rfl
  have chain := forest.chain con _ isHolder first
  rw [split] at chain
  have notOthers : obj ∉ front ++ back := (nodup_cons.mp (nodup_middle.mp nodup)).1
  have container : getContainer world obj = con := by
    rw [getContainer, access_live objLive, inCon]
  -- The neighbours are joined, through the list head or through the member before.
  have unlinked : ∃ joined, unlinkObject world obj = .ok joined ∧
      liveRecord joined =
        joinRecords (liveRecord world) con front (nextOf (liveRecord world) obj) ∧
      joined.noneRecord = world.noneRecord := by
    simp only [unlinkObject, container, joinRecords]
    by_cases some_front : front = []
    · have isFirst : getFirstContainerObject world con = obj := by
        rw [some_front] at chain
        exact chain.1
      rw [if_pos isFirst, if_pos some_front]
      refine ⟨_, rfl, ?_, write_none_record conLive _⟩
      rw [live_set_attribute, next_of_live objLive]
    have notFirst : getFirstContainerObject world con ≠ obj := by
      rcases front with _ | ⟨node, rest⟩
      · exact (some_front rfl).elim
      rw [chain.1]
      rintro rfl
      exact (nodup_cons.mp nodup).1 (by simp)
    have found : cutWalk world obj walkLimit (getFirstContainerObject world con) =
        .ok (lastOf NONE front) := by
      apply cut_walk_chain chain nodup
      · intro node member
        apply kids_alive forest
        rw [split]
        exact mem_append_left _ member
      · exact some_front
      · have bound := kids_length forest con
        rw [split, length_append] at bound
        omega
    rw [if_neg notFirst, if_neg some_front, found]
    rcases kids_alive forest _ (front_last_mem split some_front) with ⟨_, lastLive⟩
    refine ⟨_, rfl, ?_, write_none_record lastLive _⟩
    rw [live_set_next, next_of_live objLive]
  rcases unlinked with ⟨joined, returned, joinedRecords, joinedNone⟩
  have cut : cutObject world obj = .ok (setContainer (setNextObject joined obj NONE) obj NONE) := by
    simp only [cutObject, objExists, Bool.not_true, Bool.false_eq_true, if_false, returned, ok_bind]
  have cutRecords : liveRecord (setContainer (setNextObject joined obj NONE) obj NONE) =
      relink (joinRecords (liveRecord world) con front (nextOf (liveRecord world) obj)) obj
        NONE NONE := by
    rw [live_set_container, live_set_next, joinedRecords, relink]
  have spliced := splice_views conLive conHolds objLive
    (fun some_front => kids_alive forest _ (front_last_mem split some_front))
    (nextOf (liveRecord world) obj) NONE NONE
  have joinedLive : ∃ record, liveRecord joined obj = some record := by
    rw [joinedRecords, joinRecords]
    split_ifs
    all_goals exact update_live objLive
  have cutNone : (setContainer (setNextObject joined obj NONE) obj NONE).noneRecord =
      world.noneRecord := by
    rcases joinedLive with ⟨_, live⟩
    have linked : ∃ record, liveRecord (setNextObject joined obj NONE) obj = some record := by
      rw [live_set_next]
      exact update_live live
    rcases linked with ⟨_, linkedLive⟩
    rw [setContainer, write_none_record linkedLive, setNextObject, write_none_record live,
      joinedNone]
  refine ⟨_, cut, cut_quiet cut, ?_, ?_, cutNone⟩
  · rw [erased, cutRecords]
    apply forest.remove split
    · rw [spliced.next, if_pos rfl]
    · intro some_front
      have objNotLast : lastOf NONE front ≠ obj := by
        intro same
        apply notOthers
        rcases front with _ | ⟨node, rest⟩
        · exact (some_front rfl).elim
        rw [← same]
        exact mem_append_left _ (last_of_mem node rest)
      rw [spliced.next, if_neg objNotLast, if_pos ⟨rfl, some_front⟩]
    · intro node notObj notLast
      rw [spliced.next, if_neg notObj, if_neg fun both => notLast both.1]
    · exact spliced.container
    · exact spliced.holds
    · intro node _
      exact spliced.content node
  · rw [cutRecords, spliced.container, if_pos rfl]

end Walks

end TibiaGame.ForestSteps
