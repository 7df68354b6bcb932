import TibiaGame.ForestOperations

/-!
# Runs of the map functions

A run is a sequence of map calls, each made as the callers of the source make it:
into containers that exist, with objects that lie somewhere, and never into the
object that is moved. Every state of a run is described by a forest, and every
call changes the forest at one place.
-/

namespace TibiaGame.ForestRuns

open Function
open GameTypes ObjectStore ObjectOperations ObjectKinds CronAgreement ContentForest ForestSteps
open ForestDeletion ForestOperations Library.LinkedList Library.OrderedForest Library.Outcome

variable {cfg : GameConfig} {world after : World cfg} {kids newKids : Object → List Object}
  {obj con : Object}

def IsHolder (world : World cfg) (con : Object) : Prop :=
  objectExists world con = true ∧ (getObjectType world con).holdsObjects = true

def IsPlaced (world : World cfg) (obj : Object) : Prop :=
  objectExists world obj = true ∧ getContainer world obj ≠ NONE

/-- `child` is `obj` itself or lies inside it, as the `Container` fields say. -/
def Encloses (world : World cfg) (obj child : Object) : Prop :=
  Relation.ReflTransGen
    (fun parent child => objectExists world child = true ∧ getContainer world child = parent)
    obj child

/-- A new type finds an empty slot where it expects its content, and an object that
stops being a container holds nothing. -/
def Retypable (world : World cfg) (obj : Object) (newType : ObjectType cfg) : Prop :=
  (newType.holdsObjects = true → (getObjectType world obj).holdsObjects = true ∨
    (accessObject world obj).attributes 0 = 0) ∧
  (newType.holdsObjects = false → getAttribute world obj .content = 0)

def Admissible (world : World cfg) : MapCall cfg → Prop
  | .initSector _ _ _ => True
  | .appendObject con _ => IsHolder world con
  | .setObject con _ _ => IsHolder world con
  | .copyObject con _ => IsHolder world con
  | .splitObject obj _ => IsPlaced world obj
  | .mergeObjects obj _ => IsPlaced world obj
  | .moveObject obj con => IsPlaced world obj ∧ IsHolder world con ∧ ¬ Encloses world obj con
  | .deleteObject obj => IsPlaced world obj
  | .changeObject obj newType => IsPlaced world obj ∧ Retypable world obj newType
  | .changeAttribute _ attr _ => attr ≠ .content
  | .nextRound _ => True

/-- The states of a run from `start` whose calls are all allowed where they are made. -/
inductive RunFrom (allowed : World cfg → MapCall cfg → Prop) (start : World cfg) :
    World cfg → Prop
  | start : RunFrom allowed start start
  | step {world after : World cfg} {call : MapCall cfg} (earlier : RunFrom allowed start world)
      (permitted : allowed world call) (called : callMap world call = .ok after) :
      RunFrom allowed start after

def Reached (world : World cfg) : Prop := RunFrom Admissible (initialWorld cfg) world

/-- `obj` comes to lie in the list of `con`, where `place_object` has its place; all
other lists and the order of the other members stay. -/
def Inserted (world : World cfg) (kids newKids : Object → List Object) (obj con : Object)
    (append : Bool) : Prop :=
  ∃ front back, kids con = front ++ back ∧
    front = placeFront world obj con append (kids con) ∧
    newKids = Function.update kids con (front ++ obj :: back)

/-- A new object of a type appears in the list of `con`. -/
def Appears (before : World cfg) (kids : Object → List Object) (con : Object)
    (type : ObjectType cfg) (append : Bool) (after : World cfg) (newKids : Object → List Object) :
    Prop :=
  ∃ obj, objectExists before obj = false ∧ Inserted after kids newKids obj con append ∧
    ∀ node, typeOf (kinds after) node =
      if node = obj then some type else typeOf (kinds before) node

/-- The subtree of `obj` and nothing else is gone. -/
def Disappears (before : World cfg) (kids : Object → List Object) (obj : Object)
    (after : World cfg) (newKids : Object → List Object) : Prop :=
  newKids = prune kids obj ∧ (∀ node, objectExists after node = true ↔
    objectExists before node = true ∧ ¬ Below kids obj node) ∧
  ∀ node, objectExists after node = true →
    typeOf (kinds after) node = typeOf (kinds before) node

/-- No list and no type changes; there may be more fields of the map. -/
def Stays (before : World cfg) (kids : Object → List Object) (after : World cfg)
    (newKids : Object → List Object) : Prop :=
  newKids = kids ∧ ∀ node, typeOf (kinds after) node = typeOf (kinds before) node ∨
    objectExists before node = false ∧ typeOf (kinds after) node = some default

def Effect (before : World cfg) (kids : Object → List Object) (after : World cfg)
    (newKids : Object → List Object) : MapCall cfg → Prop
  | .initSector _ _ _ => Stays before kids after newKids
  | .appendObject con type => Appears before kids con type true after newKids
  | .setObject con type _ => Appears before kids con type false after newKids
  | .copyObject con source => Stays before kids after newKids ∨
      Appears before kids con (getObjectType before source) false after newKids
  | .splitObject obj _ => Stays before kids after newKids ∨
      Appears before kids (getContainer before obj) (getObjectType before obj) false after newKids
  | .mergeObjects obj _ => Stays before kids after newKids ∨
      Disappears before kids obj after newKids
  | .moveObject obj con =>
      Inserted after (Function.update kids (getContainer before obj)
        ((kids (getContainer before obj)).erase obj)) newKids obj con false ∧
      kinds after = kinds before
  | .deleteObject obj => Disappears before kids obj after newKids
  | .changeObject obj newType => newKids = kids ∧ ∀ node, typeOf (kinds after) node =
      if node = obj then some newType else typeOf (kinds before) node
  | .changeAttribute _ _ _ => Stays before kids after newKids
  | .nextRound _ => Stays before kids after newKids

structure Described (world : World cfg) (kids : Object → List Object) : Prop where
  agreement : Agreement world
  forest : Forest (liveRecord world) kids

theorem holder_iff : IsHolder world con ↔ holdsOf (liveRecord world) con = some true := by
  constructor
  · rintro ⟨isLive, holds⟩
    rcases object_exists_iff.mp isLive with ⟨record, live⟩
    rw [getObjectType, access_live live] at holds
    rw [holdsOf, live, Option.map_some, holds]
  intro isHolder
  rcases holder_record isHolder with ⟨record, live, holds⟩
  refine ⟨object_exists_iff.mpr ⟨record, live⟩, ?_⟩
  rw [getObjectType, access_live live]
  exact holds

theorem placed_edge (forest : Forest (liveRecord world) kids) :
    IsPlaced world obj ↔ obj ∈ kids (getContainer world obj) := by
  constructor
  · rintro ⟨isLive, notNone⟩
    rcases object_exists_iff.mp isLive with ⟨record, live⟩
    apply (forest.member _ _).mpr
    refine ⟨notNone, ?_⟩
    rw [containerOf, live, getContainer, access_live live]
    rfl
  · intro edge
    refine ⟨(member_container forest edge).1, ?_⟩
    exact ((forest.member _ _).mp edge).1

theorem encloses_iff (forest : Forest (liveRecord world) kids) (notNone : obj ≠ NONE) :
    Encloses world obj con ↔ Below kids obj con := by
  have edges : ∀ parent child, parent ≠ NONE →
      ((objectExists world child = true ∧ getContainer world child = parent) ↔
        child ∈ kids parent) := by
    intro parent child inner
    constructor
    · rintro ⟨isLive, rfl⟩
      exact (placed_edge forest).mp ⟨isLive, inner⟩
    · intro edge
      exact member_container forest edge
  constructor
  · intro under
    have both : Below kids obj con ∧ con ≠ NONE := by
      induction under with
      | refl => exact ⟨below_refl kids obj, notNone⟩
      | tail _ edge ih =>
        rcases ih with ⟨inner, parentNotNone⟩
        have member := (edges _ _ parentNotNone).mp edge
        exact ⟨below_step inner member, forest.kid_ne_none member⟩
    exact both.1
  intro under
  have both : Encloses world obj con ∧ con ≠ NONE := by
    induction under with
    | refl => exact ⟨.refl, notNone⟩
    | tail _ edge ih =>
      rcases ih with ⟨inner, parentNotNone⟩
      exact ⟨inner.tail ((edges _ _ parentNotNone).mpr edge), forest.kid_ne_none edge⟩
  exact both.1

theorem create_error {halt : Halt} (failed : createObject world = .error halt) :
    halt = .abort ∨ halt = .assertion := by
  unfold createObject at failed
  split_ifs at failed
  · cases failed
    exact .inl rfl
  simp only at failed
  split at failed
  · cases failed
  · cases failed
    exact .inr rfl

theorem placed_inserted (world : World cfg) (kids : Object → List Object) (obj con : Object)
    (append : Bool) : Inserted world kids (placed world kids obj con append) obj con append :=
  ⟨_, _, place_split world obj con append (kids con), rfl, rfl⟩

theorem stays_refl (world : World cfg) (kids : Object → List Object) :
    Stays world kids world kids := ⟨rfl, fun _ => .inl rfl⟩

theorem quiet_stays (quiet : Quiet world after) : Stays world kids after kids := by
  refine ⟨rfl, ?_⟩
  intro node
  rw [quiet.table]
  exact .inl rfl

theorem created_appears {type : ObjectType cfg} {append : Bool}
    (created : Created world kids con type append obj after) :
    Appears world kids con type append after (placed after kids obj con append) := by
  refine ⟨obj, ?_, placed_inserted after kids obj con append, created.types⟩
  rw [objectExists, created.fresh]
  rfl

theorem Stays.trans {final : World cfg} {finalKids : Object → List Object}
    (first : Stays world kids after newKids) (second : Stays after newKids final finalKids) :
    Stays world kids final finalKids := by
  refine ⟨second.1.trans first.1, ?_⟩
  intro node
  rcases second.2 node with same | ⟨dead, field⟩
  · rw [same]
    exact first.2 node
  right
  rcases first.2 node with same | ⟨wasDead, _⟩
  · refine ⟨?_, field⟩
    rw [← Bool.not_eq_true, exists_iff_type, ← same, ← exists_iff_type, Bool.not_eq_true]
    exact dead
  · exact ⟨wasDead, field⟩

theorem shrunk_types (shrunk : Shrunk world after) (node : Object)
    (isLive : objectExists after node = true) :
    typeOf (kinds after) node = typeOf (kinds world) node := by
  rcases shrunk.type node with gone | same
  · rw [exists_iff_type, gone] at isLive
    cases isLive
  · exact same

theorem deleted_disappears (shrunk : Shrunk world after) (deleted : Deleted world kids obj after) :
    Disappears world kids obj after (prune kids obj) :=
  ⟨rfl, deleted.survivors, shrunk_types shrunk⟩

theorem merge_shrinks {dest : Object} (merged : mergeObjects world obj dest = .ok after) :
    Shrunk world after := by
  simp only [mergeObjects] at merged
  split_ifs at merged
  · cases merged
    exact (Quiet.refl world).shrunk
  · cases merged
    exact (Quiet.refl world).shrunk
  · cases merged
    exact (Quiet.refl world).shrunk
  · cases merged
    exact (Quiet.refl world).shrunk
  all_goals
    exact (set_attribute_quiet _ _ _ _).shrunk.trans ((deletion_shrinks _).2.2 _ _ _ merged)

/-- A call either finds no room in the hash table, or it returns and `effect` has happened. -/
def Outcome (result : Except Halt (World cfg))
    (effect : World cfg → (Object → List Object) → Prop) : Prop :=
  (∃ halt, result = .error halt ∧ (halt = .abort ∨ halt = .assertion)) ∨
    ∃ after newKids, result = .ok after ∧ Described after newKids ∧ effect after newKids

theorem Outcome.imp {result : Except Halt (World cfg)}
    {first second : World cfg → (Object → List Object) → Prop} (outcome : Outcome result first)
    (weaker : ∀ after newKids, first after newKids → second after newKids) :
    Outcome result second := by
  rcases outcome with full | ⟨after, newKids, returned, described, effect⟩
  · exact .inl full
  · exact .inr ⟨after, newKids, returned, described, weaker after newKids effect⟩

theorem creates_outcome {type : ObjectType cfg} {append : Bool}
    {result : Except Halt (Object × World cfg)}
    (creates : CreatesIn world kids con type append result) :
    Outcome (result.map Prod.snd) (Appears world kids con type append) := by
  rcases creates with ⟨halt, full, rfl⟩ | ⟨obj, after, rfl, created⟩
  · exact .inl ⟨halt, rfl, create_error full⟩
  · exact .inr ⟨after, _, rfl, ⟨created.agreement, created.forest⟩, created_appears created⟩

theorem create_map_con_spec (described : Described world kids) (x y z : Int) :
    (∃ halt, createMapCon world x y z = .error halt ∧ (halt = .abort ∨ halt = .assertion)) ∨
      ∃ field after, createMapCon world x y z = .ok (field, after) ∧ Described after kids ∧
        Stays world kids after kids := by
  unfold createMapCon
  rcases created : createObject world with halt | result
  · exact .inl ⟨halt, rfl, create_error created⟩
  rcases result with ⟨field, made⟩
  right
  refine ⟨field, _, rfl, ?_, ?_⟩
  · constructor
    · exact (create_agreement described.agreement created).1.quiet
        ((set_slot_quiet _ _ _ _).trans ((set_slot_quiet _ _ _ _).trans
          (set_slot_quiet _ _ _ _)))
    · have madeForest := (create_forest described.forest described.agreement.permanent created).1
      exact set_slot_forest (set_slot_forest (set_slot_forest madeForest (by decide))
        (by decide)) (by decide)
  have born : Stays world kids made kids := by
    refine ⟨rfl, ?_⟩
    intro node
    rcases create_live described.agreement.permanent created with ⟨_, wasDead, records⟩
    by_cases here : node = field
    · right
      rw [here, objectExists, wasDead]
      exact ⟨rfl, (create_agreement described.agreement created).2⟩
    left
    rw [← live_type, ← live_type, records, if_neg here]
  exact born.trans (quiet_stays ((set_slot_quiet _ _ _ _).trans
    ((set_slot_quiet _ _ _ _).trans (set_slot_quiet _ _ _ _))))

theorem create_map_cons_spec (sectorX sectorY sectorZ : Int) (fields : List (Fin 32 × Fin 32))
    (described : Described world kids) (mapCon : Fin 32 → Fin 32 → Object) :
    (∃ halt, createMapCons sectorX sectorY sectorZ fields world mapCon = .error halt ∧
        (halt = .abort ∨ halt = .assertion)) ∨
      ∃ after result, createMapCons sectorX sectorY sectorZ fields world mapCon =
          .ok (after, result) ∧ Described after kids ∧ Stays world kids after kids := by
  induction fields generalizing world mapCon with
  | nil => exact .inr ⟨world, mapCon, rfl, described, stays_refl world kids⟩
  | cons place rest ih =>
    rw [createMapCons]
    rcases create_map_con_spec described (sectorX * 32 + place.1) (sectorY * 32 + place.2)
      sectorZ with ⟨halt, failed, full⟩ | ⟨field, made, returned, madeDescribed, stays⟩
    · rw [failed]
      exact .inl ⟨halt, rfl, full⟩
    rw [returned, ok_bind]
    rcases ih madeDescribed _ with failed | ⟨after, result, ended, finalDescribed, restStays⟩
    · exact .inl failed
    · exact .inr ⟨after, result, ended, finalDescribed, stays.trans restStays⟩

theorem init_sector_outcome (described : Described world kids) (sectorX sectorY sectorZ : Int) :
    Outcome (initSector world sectorX sectorY sectorZ) (Stays world kids) := by
  unfold initSector
  split_ifs
  · exact .inr ⟨world, kids, rfl, described, stays_refl world kids⟩
  rcases create_map_cons_spec sectorX sectorY sectorZ sectorFields described fun _ _ => NONE with
    ⟨halt, failed, full⟩ | ⟨filled, mapCon, returned, filledDescribed, stays⟩
  · rw [failed]
    exact .inl ⟨halt, rfl, full⟩
  · rw [returned]
    right
    refine ⟨_, kids, rfl, ?_, stays⟩
    constructor
    · exact filledDescribed.agreement.quiet ⟨rfl, rfl, rfl, rfl, rfl⟩
    · exact filledDescribed.forest

theorem change_object_outcome (described : Described world kids) {newType : ObjectType cfg}
    (isPlaced : IsPlaced world obj) (retypable : Retypable world obj newType) :
    Outcome (changeObject world obj newType) fun after newKids =>
      Effect world kids after newKids (.changeObject obj newType) := by
  right
  rcases isPlaced with ⟨isLive, _⟩
  rcases change_object_spec described.agreement isLive newType with ⟨after, returned, agreement, _⟩
  rcases object_exists_iff.mp isLive with ⟨record, live⟩
  rcases change_records live returned with ⟨newRecord, retyped⟩
  rcases retypable with ⟨fits, empties⟩
  rw [getObjectType, access_live live] at fits
  refine ⟨after, kids, returned, ⟨agreement, ?_⟩, rfl, retyped.types⟩
  apply retyped.forest described.forest live fits
  intro plain
  have head := content_is_head described.forest isLive
  rw [empties plain] at head
  rcases members : kids obj with _ | ⟨first, rest⟩
  · rfl
  rw [members, head_of_cons] at head
  have inner : first ∈ kids obj := by
    rw [members]
    exact List.mem_cons_self
  exact (described.forest.kid_ne_none inner head.symm).elim

/-- One call of a run: the state after it is described by the changed forest. -/
theorem call_map_outcome (described : Described world kids) {call : MapCall cfg}
    (admissible : Admissible world call) :
    Outcome (callMap world call) fun after newKids => Effect world kids after newKids call := by
  rcases described with ⟨agreement, forest⟩
  cases call with
  | initSector sectorX sectorY sectorZ =>
    exact init_sector_outcome ⟨agreement, forest⟩ sectorX sectorY sectorZ
  | appendObject con type =>
    exact creates_outcome (append_object_spec agreement forest (holder_iff.mp admissible) type)
  | setObject con type creatureID =>
    exact creates_outcome
      (set_object_spec agreement forest (holder_iff.mp admissible) type creatureID)
  | copyObject con source =>
    have idle : copyObject world con source = .ok (NONE, world) →
        Outcome (callMap world (.copyObject con source)) fun after newKids =>
          Effect world kids after newKids (.copyObject con source) := by
      intro refused
      right
      refine ⟨world, kids, ?_, ⟨agreement, forest⟩, .inl (stays_refl world kids)⟩
      rw [callMap, refused]
      rfl
    rcases isLive : objectExists world source with _ | _
    · apply idle
      simp only [copyObject, isLive, Bool.not_false, if_true]
    cases item : (getObjectType world source).isCreatureContainer with
    | true =>
      apply idle
      simp only [copyObject, isLive, admissible.1, item, Bool.not_true, Bool.false_eq_true,
        if_false, if_true]
    | false =>
      apply (creates_outcome
        (copy_object_spec agreement forest (holder_iff.mp admissible) isLive item)).imp
      intro after newKids appears
      exact .inr appears
  | splitObject obj count =>
    rcases split_object_spec agreement forest ((placed_edge forest).mp admissible) count with
      ⟨res, after, returned, quiet, kept⟩ | creates
    · right
      refine ⟨after, kids, ?_, ⟨agreement.quiet quiet, kept⟩, .inl (quiet_stays quiet)⟩
      rw [callMap, returned]
      rfl
    · apply (creates_outcome creates).imp
      intro after newKids appears
      exact .inr appears
  | mergeObjects obj dest =>
    right
    rcases merge_objects_spec agreement forest ((placed_edge forest).mp admissible) dest with
      idle | ⟨after, returned, deleted⟩
    · exact ⟨world, kids, idle, ⟨agreement, forest⟩, .inl (stays_refl world kids)⟩
    · refine ⟨after, _, returned, ⟨deleted.agreement, deleted.forest⟩, .inr ?_⟩
      exact deleted_disappears (merge_shrinks returned) deleted
  | moveObject obj con =>
    rcases admissible with ⟨isPlaced, isHolder, outside⟩
    rw [encloses_iff forest (forest.kid_ne_none ((placed_edge forest).mp isPlaced))] at outside
    rcases move_object_spec forest ((placed_edge forest).mp isPlaced) (holder_iff.mp isHolder)
      outside with ⟨after, returned, quiet, newForest⟩
    right
    exact ⟨after, _, returned, ⟨agreement.quiet quiet, newForest⟩,
      placed_inserted after _ obj con false, quiet.table⟩
  | deleteObject obj =>
    right
    rcases delete_object_spec agreement forest ((placed_edge forest).mp admissible) with
      ⟨after, returned, deleted⟩
    exact ⟨after, _, returned, ⟨deleted.agreement, deleted.forest⟩,
      deleted_disappears ((deletion_shrinks _).2.2 _ _ _ returned) deleted⟩
  | changeObject obj newType =>
    exact change_object_outcome ⟨agreement, forest⟩ admissible.1 admissible.2
  | changeAttribute obj attr value =>
    right
    rw [callMap, changeAttribute]
    cases objectExists world obj with
    | false => exact ⟨world, kids, rfl, ⟨agreement, forest⟩, stays_refl world kids⟩
    | true => exact ⟨_, kids, rfl, ⟨agreement.quiet (set_attribute_quiet _ _ _ _),
        set_attribute_forest forest admissible⟩, quiet_stays (set_attribute_quiet _ _ _ _)⟩
  | nextRound roundNr =>
    right
    exact ⟨_, kids, rfl, ⟨⟨agreement.wellFormed, agreement.permanent, agreement.agree⟩, forest⟩,
      stays_refl world kids⟩

theorem initial_dead (cfg : GameConfig) (node : Object) :
    liveRecord (initialWorld cfg) node = none := by
  unfold liveRecord initialWorld permanentTable
  split_ifs
  · rfl
  · simp only [update_apply]
    split_ifs <;> rfl

theorem initial_described (cfg : GameConfig) : Described (initialWorld cfg) fun _ => [] where
  agreement := initial_agreement cfg
  forest := by
    constructor
    · exact live_none _
    · intro con first isHolder _
      rw [holdsOf, initial_dead] at isHolder
      cases isHolder
    · intro con _
      rfl
    · intro con obj
      rw [containerOf, initial_dead]
      simp
    · intro con
      exact List.nodup_nil
    · exact ⟨fun _ => 0, fun parent child edge => (List.not_mem_nil edge).elim⟩
    · intro node loose
      rw [containerOf, initial_dead] at loose
      cases loose

theorem run_invariant {allowed : World cfg → MapCall cfg → Prop}
    {Inv : World cfg → (Object → List Object) → Prop} {start : World cfg}
    (admits : ∀ world call, allowed world call → Admissible world call)
    (described : Described start kids) (holds : Inv start kids)
    (step : ∀ world kids call after newKids, Described world kids → Inv world kids →
      allowed world call → Described after newKids → Effect world kids after newKids call →
      Inv after newKids)
    (run : RunFrom allowed start world) : ∃ kids, Described world kids ∧ Inv world kids := by
  induction run with
  | start => exact ⟨kids, described, holds⟩
  | step _ permitted called ih =>
    rcases ih with ⟨oldKids, oldDescribed, oldHolds⟩
    rcases call_map_outcome oldDescribed (admits _ _ permitted) with
      ⟨halt, failed, _⟩ | ⟨after, newKids, returned, newDescribed, effect⟩
    · rw [called] at failed
      cases failed
    · rw [called] at returned
      cases returned
      exact ⟨newKids, newDescribed, step _ _ _ _ _ oldDescribed oldHolds permitted newDescribed
        effect⟩

theorem reached_described (reached : Reached world) : ∃ kids, Described world kids := by
  rcases run_invariant (fun _ _ admissible => admissible) (initial_described cfg) trivial
    (fun _ _ _ _ _ _ _ _ _ _ => trivial) reached with ⟨kids, described, _⟩
  exact ⟨kids, described⟩

section Members

variable {append : Bool}

theorem Inserted.member (inserted : Inserted world kids newKids obj con append)
    (holder node : Object) :
    node ∈ newKids holder ↔ node ∈ kids holder ∨ holder = con ∧ node = obj := by
  rcases inserted with ⟨front, back, split, _, rfl⟩
  by_cases here : holder = con
  · rw [here, update_self, split]
    simp only [List.mem_append, List.mem_cons, true_and]
    tauto
  rw [update_of_ne here]
  simp only [here, false_and, or_false]

theorem prune_member {gone holder node : Object} (outside : ¬ Below kids gone node)
    (edge : node ∈ kids holder) : node ∈ prune kids gone holder := by
  have holderOutside : ¬ Below kids gone holder := fun under => outside (below_step under edge)
  rw [prune_outside holderOutside]
  apply (List.mem_erase_of_ne _).mpr edge
  rintro rfl
  exact outside (below_refl kids node)

end Members

def Rooted (world : World cfg) (kids : Object → List Object) : Prop :=
  ∀ obj type, typeOf (kinds world) obj = some type → (∀ con, obj ∉ kids con) → type = default

theorem stays_rooted (rooted : Rooted world kids) (stays : Stays world kids after newKids) :
    Rooted after newKids := by
  intro node type typed nowhere
  rw [stays.1] at nowhere
  rcases stays.2 node with same | ⟨_, field⟩
  · rw [same] at typed
    exact rooted node type typed nowhere
  rw [typed] at field
  exact Option.some.inj field

theorem appears_rooted {type : ObjectType cfg} {append : Bool} (rooted : Rooted world kids)
    (appears : Appears world kids con type append after newKids) : Rooted after newKids := by
  rcases appears with ⟨obj, _, inserted, types⟩
  intro node found typed nowhere
  have members := inserted.member
  have different : node ≠ obj := by
    rintro rfl
    exact nowhere con ((members con node).mpr (.inr ⟨rfl, rfl⟩))
  rw [types, if_neg different] at typed
  apply rooted node found typed
  intro holder edge
  exact nowhere holder ((members holder node).mpr (.inl edge))

theorem disappears_rooted (rooted : Rooted world kids)
    (disappears : Disappears world kids obj after newKids) : Rooted after newKids := by
  rcases disappears with ⟨rfl, survivors, types⟩
  intro node found typed nowhere
  have isLive : objectExists after node = true := by
    rw [exists_iff_type, typed]
    rfl
  rw [types node isLive] at typed
  apply rooted node found typed
  intro holder edge
  exact nowhere holder (prune_member ((survivors node).mp isLive).2 edge)

theorem effect_rooted {call : MapCall cfg} (described : Described world kids)
    (rooted : Rooted world kids) (admissible : Admissible world call)
    (effect : Effect world kids after newKids call) : Rooted after newKids := by
  cases call with
  | initSector sectorX sectorY sectorZ => exact stays_rooted rooted effect
  | appendObject con type => exact appears_rooted rooted effect
  | setObject con type creatureID => exact appears_rooted rooted effect
  | copyObject con source => exact effect.elim (stays_rooted rooted) (appears_rooted rooted)
  | splitObject obj count => exact effect.elim (stays_rooted rooted) (appears_rooted rooted)
  | mergeObjects obj dest => exact effect.elim (stays_rooted rooted) (disappears_rooted rooted)
  | moveObject obj con =>
    rcases effect with ⟨inserted, table⟩
    intro node type typed nowhere
    rw [table] at typed
    apply rooted node type typed
    intro holder edge
    have different : node ≠ obj := by
      rintro rfl
      exact nowhere con ((inserted.member con node).mpr (.inr ⟨rfl, rfl⟩))
    apply nowhere holder
    apply (inserted.member holder node).mpr
    left
    by_cases here : holder = getContainer world obj
    · rw [here, update_self]
      rw [here] at edge
      exact (List.mem_erase_of_ne different).mpr edge
    rw [update_of_ne here]
    exact edge
  | deleteObject obj => exact disappears_rooted rooted effect
  | changeObject obj newType =>
    rcases effect with ⟨rfl, types⟩
    intro node type typed nowhere
    have different : node ≠ obj := by
      rintro rfl
      exact nowhere _ ((placed_edge described.forest).mp admissible.1)
    rw [types, if_neg different] at typed
    exact rooted node type typed nowhere
  | changeAttribute obj attr value => exact stays_rooted rooted effect
  | nextRound roundNr => exact stays_rooted rooted effect

theorem reached_rooted (reached : Reached world) :
    ∃ kids, Described world kids ∧ Rooted world kids := by
  have initialRooted : Rooted (initialWorld cfg) fun _ => [] := by
    intro obj type typed _
    rw [← live_type, initial_dead] at typed
    cases typed
  exact run_invariant (fun _ _ admissible => admissible) (initial_described cfg) initialRooted
    (fun _ _ _ _ _ described rooted admissible _ effect =>
      effect_rooted described rooted admissible effect) reached

theorem small_number {number : Nat} (small : number < cfg.hashTableSize) :
    (UInt32.ofNat number).toNat = number := by
  have sizeBound := hash_table_size_le cfg
  exact Nat.mod_eq_of_lt (by omega)

/-- The numbers up to `taken` are fields of the map, and no other has been given out. -/
structure FieldsOnly (world : World cfg) (taken : Nat) : Prop where
  permanent : kinds world 0 = .permanent
  fields : ∀ number, 0 < number → number ≤ taken →
    kinds world number = .loaded (UInt32.ofNat number) default
  unused : ∀ number, taken < number → number < cfg.hashTableSize → kinds world number = .free
  counter : world.nextObjectID.toNat = max taken 1
  room : world.hashTableFree.toNat = cfg.hashTableSize - 1 - taken

theorem FieldsOnly.quiet {taken : Nat} (fieldsOnly : FieldsOnly world taken)
    (quiet : Quiet world after) : FieldsOnly after taken where
  permanent := by
    rw [quiet.table]
    exact fieldsOnly.permanent
  fields := by
    rw [quiet.table]
    exact fieldsOnly.fields
  unused := by
    rw [quiet.table]
    exact fieldsOnly.unused
  counter := by
    rw [quiet.nextObjectID]
    exact fieldsOnly.counter
  room := by
    rw [quiet.hashTableFree]
    exact fieldsOnly.room

theorem free_of_kind {index : Nat} (isFree : kinds world index = .free) :
    world.hashTable index = .free := by
  unfold kinds at isFree
  cases cell : world.hashTable index with
  | free => rfl
  | permanent =>
    rw [cell] at isFree
    cases isFree
  | loaded record =>
    rw [cell] at isFree
    cases isFree

theorem probe_fields {taken : Nat} (fieldsOnly : FieldsOnly world taken)
    (fits : taken + 1 < cfg.hashTableSize) :
    probe world cfg.hashTableSize world.nextObjectID = UInt32.ofNat (taken + 1) := by
  have nextNumber := small_number fits
  have nextFree : world.hashTable (entryIndex cfg (UInt32.ofNat (taken + 1))) = .free := by
    rw [entryIndex, nextNumber, Nat.mod_eq_of_lt fits]
    exact free_of_kind (fieldsOnly.unused _ (Nat.lt_succ_self taken) fits)
  rcases Nat.exists_eq_add_of_le' (show 2 ≤ cfg.hashTableSize by omega) with ⟨less, size⟩
  have counter := fieldsOnly.counter
  rcases taken with _ | taken
  · have first : world.nextObjectID = UInt32.ofNat 1 := UInt32.toNat_inj.mp counter
    rw [size, first, probe, nextFree]
  have latestNumber := small_number (show taken + 1 < cfg.hashTableSize by omega)
  have latest : world.nextObjectID = UInt32.ofNat (taken + 1) := by
    apply UInt32.toNat_inj.mp
    omega
  have kind := fieldsOnly.fields (taken + 1) (by omega) le_rfl
  have used : ∃ record,
      world.hashTable (entryIndex cfg (UInt32.ofNat (taken + 1))) = .loaded record := by
    rw [entryIndex, latestNumber, Nat.mod_eq_of_lt (by omega)]
    unfold kinds at kind
    cases cell : world.hashTable (taken + 1) with
    | free =>
      rw [cell] at kind
      cases kind
    | permanent =>
      rw [cell] at kind
      cases kind
    | loaded record => exact ⟨record, rfl⟩
  rcases used with ⟨record, used⟩
  have following : UInt32.ofNat (taken + 1) + 1 = UInt32.ofNat (taken + 1 + 1) := by
    rw [UInt32.ofNat_add (taken + 1) 1]
    rfl
  rw [size, latest, probe, used]
  rw [following, probe, nextFree]

theorem create_field {taken : Nat} (fieldsOnly : FieldsOnly world taken)
    (fits : taken + 1 < cfg.hashTableSize)
    (roomy : cfg.hashTableSize / 16 ≤ cfg.hashTableSize - 1 - taken) :
    ∃ field after, createObject world = .ok (field, after) ∧ FieldsOnly after (taken + 1) := by
  have number := probe_fields fieldsOnly fits
  have nextNumber := small_number fits
  have entry : entryIndex cfg (UInt32.ofNat (taken + 1)) = taken + 1 := by
    rw [entryIndex, nextNumber, Nat.mod_eq_of_lt fits]
  have isFree : world.hashTable (taken + 1) = .free :=
    free_of_kind (fieldsOnly.unused _ (Nat.lt_succ_self taken) fits)
  have room := fieldsOnly.room
  have enough : ¬ world.hashTableFree.toNat < cfg.hashTableSize / 16 := by omega
  have created : ∃ after, createObject world = .ok (⟨UInt32.ofNat (taken + 1)⟩, after) ∧
      after.hashTableFree = world.hashTableFree - 1 := by
    simp only [createObject, if_neg enough, number, entry, isFree]
    exact ⟨_, rfl, rfl⟩
  rcases created with ⟨after, created, lessRoom⟩
  rcases create_kinds created with ⟨_, table, _, counter, _⟩
  rw [entry] at table
  refine ⟨_, after, created, ?_, ?_, ?_, ?_, ?_⟩
  · rw [table, update_of_ne (by omega)]
    exact fieldsOnly.permanent
  · intro field positive bound
    rw [table]
    by_cases here : field = taken + 1
    · rw [here, update_self]
    rw [update_of_ne here]
    exact fieldsOnly.fields field positive (by omega)
  · intro field larger bound
    rw [table, update_of_ne (by omega)]
    exact fieldsOnly.unused field (by omega) bound
  · rw [counter, nextNumber]
    omega
  · have positive : (1 : UInt32) ≤ world.hashTableFree := by
      rw [UInt32.le_iff_toNat_le, room]
      show 1 ≤ _
      omega
    rw [lessRoom, UInt32.toNat_sub_of_le _ _ positive, room]
    show cfg.hashTableSize - 1 - taken - 1 = _
    omega

theorem create_fields (sectorX sectorY sectorZ : Int) (fields : List (Fin 32 × Fin 32))
    {taken : Nat} (mapCon : Fin 32 → Fin 32 → Object) (fieldsOnly : FieldsOnly world taken)
    (fits : taken + fields.length < cfg.hashTableSize)
    (roomy : cfg.hashTableSize / 16 ≤ cfg.hashTableSize - (taken + fields.length)) :
    ∃ after result, createMapCons sectorX sectorY sectorZ fields world mapCon =
        .ok (after, result) ∧ FieldsOnly after (taken + fields.length) := by
  induction fields generalizing world taken mapCon with
  | nil => exact ⟨world, mapCon, rfl, fieldsOnly⟩
  | cons place rest ih =>
    rw [List.length_cons] at fits roomy
    rcases create_field fieldsOnly (by omega) (by omega) with ⟨field, made, created, more⟩
    have written : ∃ final, createMapCon world (sectorX * 32 + place.1) (sectorY * 32 + place.2)
        sectorZ = .ok (field, final) ∧ FieldsOnly final (taken + 1) := by
      rw [createMapCon, created]
      exact ⟨_, rfl, more.quiet ((set_slot_quiet _ _ _ _).trans ((set_slot_quiet _ _ _ _).trans
        (set_slot_quiet _ _ _ _)))⟩
    rcases written with ⟨final, returned, finalOnly⟩
    rw [createMapCons, returned, ok_bind, List.length_cons,
      show taken + (rest.length + 1) = taken + 1 + rest.length by omega]
    exact ih _ finalOnly (by omega) (by omega)

theorem initial_fields_only (cfg : GameConfig) : FieldsOnly (initialWorld cfg) 0 where
  permanent := by simp [kinds, initialWorld, permanentTable, cellKind]
  fields := by
    intro number positive bound
    omega
  unused := by
    intro number positive _
    have notZero : number ≠ 0 := by omega
    simp [kinds, initialWorld, permanentTable, cellKind, update_of_ne notZero]
  counter := rfl
  room := by
    have positive := hash_table_size_pos cfg
    show (UInt32.ofNat (cfg.hashTableSize - 1)).toNat = _
    rw [small_number (show cfg.hashTableSize - 1 < cfg.hashTableSize by omega)]
    rfl

/-- An empty table of at least 2048 entries has room for a first sector. -/
theorem first_sector (large : 2048 ≤ cfg.hashTableSize) (sectorX sectorY sectorZ : Int) :
    ∃ after, initSector (initialWorld cfg) sectorX sectorY sectorZ = .ok after ∧
      FieldsOnly after 1024 := by
  have count : sectorFields.length = 1024 := by
    simp [sectorFields]
  rcases create_fields sectorX sectorY sectorZ sectorFields (fun _ _ => NONE)
    (initial_fields_only cfg) (by omega) (by omega) with ⟨filled, mapCon, returned, fieldsOnly⟩
  rw [count] at fieldsOnly
  have empty : ¬ ((initialWorld cfg).sectors sectorX sectorY sectorZ).isSome = true := nofun
  rw [initSector, if_neg empty, returned]
  exact ⟨_, rfl, fieldsOnly.quiet ⟨rfl, rfl, rfl, rfl, rfl⟩⟩

theorem FieldsOnly.holder {taken number : Nat} (fieldsOnly : FieldsOnly world taken)
    (positive : 0 < number) (bound : number ≤ taken) (small : number < cfg.hashTableSize) :
    IsHolder world ⟨UInt32.ofNat number⟩ := by
  have plain := small_number small
  have typed : typeOf (kinds world) ⟨UInt32.ofNat number⟩ = some default := by
    apply type_of_kind.mpr
    constructor
    · intro isNone
      have zero := congrArg (fun obj : Object => obj.objectID.toNat) isNone
      rw [show NONE.objectID.toNat = 0 from rfl] at zero
      simp only [plain] at zero
      omega
    · rw [entryIndex, plain, Nat.mod_eq_of_lt small]
      exact fieldsOnly.fields number positive bound
  constructor
  · rw [exists_iff_type, typed]
    rfl
  · rw [object_type_of typed]
    exact map_container_holds default rfl

/-- In every state of a run the content lists are a forest: finite, without a ring,
with the members that name the container. Every placed object is in one list once, and
`cut_object` finds it there. Every further call returns, unless the hash table is full,
and has its effect on the lists and no other. -/
theorem content_lists_are_a_forest (reached : Reached world) :
    ∃ kids, Forest (liveRecord world) kids ∧
      (∀ obj, IsPlaced world obj →
        (∃! con, obj ∈ kids con) ∧ (kids (getContainer world obj)).count obj = 1 ∧
          ∃ after, cutObject world obj = .ok after) ∧
      ∀ call, Admissible world call → Outcome (callMap world call) fun after newKids =>
        Effect world kids after newKids call := by
  rcases reached_described reached with ⟨kids, described⟩
  refine ⟨kids, described.forest, ?_, fun call admissible => call_map_outcome described admissible⟩
  intro obj isPlaced
  have edge := (placed_edge described.forest).mp isPlaced
  refine ⟨⟨_, edge, fun other edge' => described.forest.single _ _ _ edge' edge⟩, ?_, ?_⟩
  · exact List.count_eq_one_of_mem (described.forest.nodup _) edge
  · rcases cut_object_spec described.forest edge with ⟨after, returned, _⟩
    exact ⟨after, returned⟩

def sectorConfig : GameConfig where
  maxTypeID := 0
  typeFlags := fun _ flag => flag == .container
  typeAttributes := fun _ _ => 0
  hashTableLog := 11
  maxTypeID_lt := by decide
  mapContainer_holds := rfl
  mapContainer_lasts := rfl
  creature_single := rfl
  hashTableLog_lt := by decide

theorem first_sector_is_a_forest :
    ∃ world : World sectorConfig, Reached world ∧ IsHolder world ⟨1⟩ ∧
      ∃ kids, Forest (liveRecord world) kids ∧ Outcome (appendObject world ⟨1⟩ default |>.map
        Prod.snd) fun after newKids =>
          Effect world kids after newKids (.appendObject ⟨1⟩ default) := by
  have large : 2048 ≤ sectorConfig.hashTableSize := by decide
  rcases first_sector large 0 0 7 with ⟨world, returned, fieldsOnly⟩
  have reached : Reached world :=
    @RunFrom.step _ _ _ _ _ (.initSector 0 0 7) RunFrom.start trivial returned
  have isHolder : IsHolder world ⟨1⟩ :=
    fieldsOnly.holder Nat.one_pos (by decide) (by decide)
  rcases content_lists_are_a_forest reached with ⟨kids, forest, _, calls⟩
  exact ⟨world, reached, isHolder, kids, forest, calls (.appendObject ⟨1⟩ default) isHolder⟩

end TibiaGame.ForestRuns
