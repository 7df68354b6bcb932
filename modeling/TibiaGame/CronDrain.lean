import TibiaGame.ForestRuns
import TibiaGame.ObjectPayload

/-!
# The loop of `process_cron_system`

A pass of the loop takes the object at the front of the timers, turns it into its
expire target, and deletes it when that is refused. `delete_op` itself refuses a
stack whose amount is negative as an `int`; no run has such a stack.
-/

namespace TibiaGame.CronDrain

open GameTypes CronInvariant CronOperations ObjectStore ObjectOperations
open ObjectKinds CronAgreement ContentForest ForestSteps ForestDeletion ForestOperations ForestRuns
open ObjectPayload Library.LinkedList Library.OrderedForest Library.Outcome

variable {cfg : GameConfig} {world after : World cfg} {obj con : Object}

/-- The loop of `delete_op` over the members of a container. -/
def deleteContents : Nat → World cfg → Object → Except Halt (World cfg)
  | 0, _, _ => .error .hang
  | fuel + 1, world, help =>
      if help = NONE then .ok world
      else do
        let next := getNextObject world help
        let world ← deleteObject world help
        deleteContents fuel world next

/-- The test of `delete_op` on the count -1. -/
def countRefused (world : World cfg) (obj : Object) : Bool :=
  (getObjectType world obj).getFlag .cumulative &&
    decide ((getAttribute world obj .amount).toInt32 < -1)

/-- `delete_op` with the count -1; `events` are the map calls of the separation event.
Where the source throws, nothing has happened yet. -/
def deleteOp (events : List (MapCall cfg)) (world : World cfg) (obj : Object) :
    Except Halt (World cfg) :=
  if !objectExists world obj then .ok world
  else if countRefused world obj then .ok world
  else do
    let world ← (if (getObjectType world obj).holdsObjects then
      deleteContents walkLimit world (getFirstContainerObject world obj) else .ok world)
    let world ← runMap world events
    if objectExists world obj then deleteObject world obj else .ok world

/-- The attributes that `change` sets when the new type brings them. -/
def broughtAttributes : List (Flag × InstanceAttribute) :=
  [(.cumulative, .amount), (.magicField, .responsible), (.liquidPool, .poolLiquidType),
    (.liquidContainer, .containerLiquidType), (.key, .keyNumber), (.rune, .charges)]

def bringAttributes (oldType newType : ObjectType cfg) (obj : Object) (value : UInt32)
    (world : World cfg) : World cfg :=
  broughtAttributes.foldl (fun world (flag, attr) =>
    if newType.getFlag flag && !oldType.getFlag flag then changeAttribute world obj attr value
    else world) world

/-- `EXPIRETARGET` of a type. -/
def expireTarget (type : ObjectType cfg) : ObjectType cfg :=
  setTypeID cfg (type.getAttribute .expireTarget).toInt32.toInt

/-- What is done about the object given by `cron_check`, after its content has been
seen to. `refused` says whether one of the checks of `empty` or `change` throws. -/
def expireObject (events : List (MapCall cfg)) (refused : Bool) (target : ObjectType cfg)
    (world : World cfg) (obj : Object) : Except Halt (World cfg) :=
  let objType := getObjectType world obj
  if !objectExists world obj || refused || objType.isCreatureContainer ||
      target.isCreatureContainer || target.isMapContainer then deleteOp events world obj
  else do
    let world ← changeObject world obj target
    .ok (bringAttributes objType target obj 0 world)

/-- One pass of the loop; `contents` are the map calls of `empty`. -/
def drainPass (contents events : List (MapCall cfg)) (refused : Bool) (world : World cfg) :
    Except Halt (World cfg) :=
  let obj := cronCheck world
  if obj = NONE then .ok world
  else do
    let target := expireTarget (getObjectType world obj)
    let world ← runMap world contents
    expireObject events refused target world obj

section

variable {type : ObjectType cfg} {value : UInt32}

/-- A stack has a positive amount as an `int`. Fields of the map keep their
coordinates in the same slots. -/
def Modest (record : MapObject cfg) : Prop :=
  record.type.isMapContainer = false → record.type.getFlag .cumulative = true →
    (record.getAttribute .amount).toNat < 2 ^ 31

def Stacks (world : World cfg) : Prop :=
  ∀ node record, liveRecord world node = some record → Modest record

theorem modest_of_payload {record other : MapObject cfg} (same : payload record = payload other)
    (modest : Modest other) : Modest record := by
  have types : record.type = other.type := congrArg Prod.fst same
  have amounts : record.getAttribute .amount = other.getAttribute .amount :=
    congrFun (congrArg Prod.snd same) .amount
  unfold Modest
  rw [types, amounts]
  exact modest

theorem Stacks.fewer (counted : Stacks world) (fewer : FewerPayloads world after) : Stacks after := by
  intro node record live
  rcases fewer node with gone | kept
  · rw [viewOf, live] at gone
    cases gone
  rw [viewOf, live] at kept
  rcases Option.map_eq_some_iff.mp kept.symm with ⟨old, oldLive, same⟩
  exact modest_of_payload same.symm (counted node old oldLive)

theorem Stacks.update (counted : Stacks world) {change : MapObject cfg → MapObject cfg}
    (records : liveRecord after = updateRecord (liveRecord world) obj change)
    (keeps : ∀ record, liveRecord world obj = some record → Modest (change record)) :
    Stacks after := by
  intro node record live
  rw [records, updateRecord] at live
  split_ifs at live
  · rcases Option.map_eq_some_iff.mp live with ⟨old, oldLive, rfl⟩
    exact keeps old oldLive
  · exact counted node record live

theorem normalize_amount_lt (type : ObjectType cfg) (small : value.toNat < 2 ^ 31) :
    (MapObject.normalize type .amount value).toNat < 2 ^ 31 := by
  unfold MapObject.normalize
  by_cases zero : value = 0
  · rw [if_pos zero, if_pos (.inl rfl)]
    decide
  rw [if_neg zero]
  exact small

theorem modest_set_attribute {record : MapObject cfg} {attr : InstanceAttribute}
    (modest : Modest record) (small : attr = .amount → value.toNat < 2 ^ 31) :
    Modest (record.setAttribute attr value) := by
  intro item stack
  rw [record_set_attribute_type] at item stack
  rw [get_attribute_set]
  split_ifs with here
  · rw [← here.1]
    exact normalize_amount_lt record.type (small here.1.symm)
  · exact modest item stack

theorem Stacks.set_attribute (counted : Stacks world) (attr : InstanceAttribute)
    (small : attr = .amount → value.toNat < 2 ^ 31) :
    Stacks (setAttribute world obj attr value) := by
  apply counted.update (live_set_attribute world obj attr value)
  intro record live
  exact modest_set_attribute (counted obj record live) small

theorem Stacks.change_attribute (counted : Stacks world) (attr : InstanceAttribute)
    (small : attr = .amount → value.toNat < 2 ^ 31) :
    Stacks (changeAttribute world obj attr value) := by
  unfold changeAttribute
  split_ifs
  · exact counted
  · exact counted.set_attribute attr small

theorem modest_blank (number : UInt32) : Modest (blankObject number : MapObject cfg) := by nofun

theorem Stacks.create (counted : Stacks world) (permanent : kinds world 0 = .permanent)
    (created : createObject world = .ok (obj, after)) : Stacks after := by
  intro node record live
  rw [(create_live permanent created).2.2] at live
  split_ifs at live
  · cases live
    exact modest_blank obj.objectID
  · exact counted node record live

theorem apply_if_modest {flag : Bool} {change : MapObject cfg → MapObject cfg}
    (keeps : ∀ record, Modest record → Modest (change record)) {record : MapObject cfg}
    (modest : Modest record) : Modest (applyIf flag change record) := by
  unfold applyIf
  split_ifs
  · exact keeps record modest
  · exact modest

theorem provide_modest {attr : InstanceAttribute} (different : attr ≠ .amount) (value : UInt32)
    {record : MapObject cfg} (modest : Modest record) : Modest (provide attr value record) := by
  unfold provide
  split_ifs
  · exact modest_set_attribute modest fun same => (different same).elim
  · exact modest

theorem enter_record_modest (newType : ObjectType cfg) {carried : Carried}
    (small : carried.amount.toNat < 2 ^ 31) (record : MapObject cfg) :
    Modest (enterRecord newType carried record) := by
  have entered : (if carried.amount ≤ 0 then 1 else carried.amount).toNat < 2 ^ 31 := by
    split_ifs
    · decide
    · exact small
  have first : Modest (applyIf (newType.getFlag .cumulative)
      (fun record => record.setAttribute .amount
        (if carried.amount ≤ 0 then 1 else carried.amount)) { record with type := newType }) := by
    unfold applyIf
    cases stack : newType.getFlag .cumulative with
    | true =>
      intro item _
      rw [if_pos rfl, get_attribute_set]
      cases stored : stores newType .amount with
      | true =>
        exact normalize_amount_lt newType entered
      | false =>
        rw [if_neg (by simp),
          get_attribute_absent { record with type := newType } stored rfl]
        decide
    | false =>
      intro _ absurd
      rw [if_neg (by decide), stack] at absurd
      cases absurd
  have provided : ∀ attr value, attr ≠ .amount → ∀ record : MapObject cfg,
      Modest record → Modest (provide attr value record) :=
    fun attr value different record => provide_modest different value
  have saved : ∀ record : MapObject cfg, Modest record →
      Modest (record.setAttribute .savedExpireTime carried.savedExpireTime) :=
    fun record modest => modest_set_attribute modest nofun
  exact apply_if_modest saved (apply_if_modest (provided .remainingUses _ nofun)
    (apply_if_modest (provided .poolLiquidType _ nofun)
      (apply_if_modest (provided .charges _ nofun) first)))

theorem leave_type_amount {oldType newType : ObjectType cfg} {carried : Carried}
    (left : leaveType world obj oldType newType = .ok (carried, after)) :
    carried.amount = 0 ∨ carried.amount = 1 ∨ oldType.isMapContainer = false ∧
      oldType.getFlag .cumulative = true ∧ carried.amount = getAttribute world obj .amount := by
  unfold leaveType at left
  cases field : oldType.isMapContainer with
  | true =>
    rw [field, if_pos rfl] at left
    cases left
    exact .inl rfl
  | false =>
    rw [field, if_neg (by decide)] at left
    rcases bind_ok.mp left with ⟨⟨saved, stopped⟩, _, ended⟩
    cases ended
    dsimp only
    split_ifs with timed stack
    · exact .inr (.inl rfl)
    · exact .inr (.inr ⟨rfl, stack, rfl⟩)
    · exact .inl rfl

theorem Stacks.change (counted : Stacks world) {newType : ObjectType cfg}
    (changed : changeObject world obj newType = .ok after) : Stacks after := by
  by_cases isLive : objectExists world obj = true
  · simp only [changeObject, isLive, Bool.not_true, Bool.false_eq_true, if_false] at changed
    rcases bind_ok.mp changed with ⟨⟨carried, left⟩, wasLeft, ended⟩
    cases ended
    rcases object_exists_iff.mp isLive with ⟨record, live⟩
    have small : carried.amount.toNat < 2 ^ 31 := by
      rcases leave_type_amount wasLeft with zero | one | ⟨item, stack, same⟩
      · rw [zero]
        decide
      · rw [one]
        decide
      · rw [same, getAttribute, access_live live]
        rw [getObjectType, access_live live] at item stack
        exact counted obj record live item stack
    rcases leave_type_leaves wasLeft with ⟨change, _, leftRecords⟩
    have records : liveRecord (cronExpire (enterType left obj newType carried) obj carried.delay) =
        updateRecord (liveRecord world) obj fun record =>
          enterRecord newType carried (change record) := by
      funext node
      rw [live_congr (expire_table _ _ _) node, enterType,
        live_write_update left obj (enter_record_number newType carried), leftRecords,
        update_record_comp]
    apply counted.update records
    intro old _
    exact enter_record_modest newType small (change old)
  simp only [changeObject, isLive, Bool.not_false, if_true] at changed
  cases changed
  exact counted

theorem Stacks.create_placed {append : Bool} (counted : Stacks world)
    (permanent : kinds world 0 = .permanent)
    (created : createPlaced world con type append = .ok (obj, after)) : Stacks after := by
  rcases bind_ok.mp created with ⟨⟨fresh, made⟩, wasMade, rest⟩
  rcases bind_ok.mp rest with ⟨changed, wasChanged, rest⟩
  rcases bind_ok.mp rest with ⟨placed, wasPlaced, ended⟩
  cases ended
  exact ((counted.create permanent wasMade).change wasChanged).fewer (place_payload wasPlaced).fewer

/-- The raw write of `set_object` goes to creatures, which are no stacks. -/
theorem Stacks.set_object {creatureID : UInt32} (counted : Stacks world)
    (agreement : Agreement world) (placed : setObject world con type creatureID = .ok (obj, after)) :
    Stacks after := by
  unfold setObject at placed
  split_ifs at placed with _ creature
  · cases placed
    exact counted
  · rcases bind_ok.mp placed with ⟨⟨fresh, made⟩, wasMade, ended⟩
    cases ended
    have madeCounted := counted.create_placed agreement.permanent wasMade
    apply madeCounted.update (live_set_slot made obj 1 creatureID)
    intro record live item stack
    have single : type.getFlag .cumulative = false := by
      have number : type.typeID = 99 := by simpa [ObjectType.isCreatureContainer] using creature
      rw [ObjectType.getFlag, number]
      exact cfg.creature_single
    have typed := (create_placed_types agreement wasMade).2 obj
    rw [if_pos rfl, ← live_type, live, Option.map_some] at typed
    rw [Option.some.inj typed, single] at stack
    cases stack
  · rcases bind_ok.mp placed with ⟨⟨fresh, made⟩, wasMade, ended⟩
    cases ended
    exact counted.create_placed agreement.permanent wasMade

theorem set_object_types {creatureID : UInt32} (agreement : Agreement world)
    (isLive : objectExists world con = true)
    (placed : setObject world con type creatureID = .ok (obj, after)) :
    objectExists world obj = false ∧ ∀ node, typeOf (kinds after) node =
      if node = obj then some type else typeOf (kinds world) node := by
  simp only [setObject, isLive, Bool.not_true, Bool.false_eq_true, if_false] at placed
  rcases bind_ok.mp placed with ⟨⟨fresh, made⟩, wasMade, ended⟩
  split_ifs at ended
  · cases ended
    rcases create_placed_types agreement wasMade with ⟨wasDead, types⟩
    refine ⟨wasDead, ?_⟩
    rw [(set_slot_quiet made fresh 1 creatureID).table]
    exact types
  · cases ended
    exact create_placed_types agreement wasMade

theorem copy_object_types {source node : Object} (agreement : Agreement world)
    (isLive : objectExists world node = true)
    (copied : copyObject world con source = .ok (obj, after)) :
    typeOf (kinds after) node = typeOf (kinds world) node := by
  simp only [copyObject] at copied
  split_ifs at copied with sourceDead conDead creature
  · cases copied
    rfl
  · cases copied
    rfl
  · cases copied
    rfl
  · rcases bind_ok.mp copied with ⟨⟨fresh, made⟩, wasMade, ended⟩
    cases ended
    have quiet := (copy_slots_quiet made source fresh).trans ((clear_content_quiet _ fresh
      (getObjectType world source)).trans (duplicate_strings_quiet _ fresh
        (getObjectType world source)))
    rcases set_object_types agreement (by simpa using conDead) wasMade with ⟨wasDead, types⟩
    have different : node ≠ fresh := by
      rintro rfl
      rw [wasDead] at isLive
      cases isLive
    rw [quiet.table, types, if_neg different]

end

section

variable (counted : Stacks world)
include counted

theorem Stacks.duplicate_string (obj : Object) {attr : InstanceAttribute}
    (different : attr ≠ .amount) : Stacks (duplicateString world obj attr) := by
  unfold duplicateString
  split_ifs
  · apply Stacks.set_attribute
    · exact counted
    · exact fun same => (different same).elim
  · exact counted

theorem Stacks.copy {source : Object} (agreement : Agreement world)
    (copied : copyObject world con source = .ok (obj, after)) : Stacks after := by
  simp only [copyObject] at copied
  split_ifs at copied with sourceDead conDead creature
  · cases copied
    exact counted
  · cases copied
    exact counted
  · cases copied
    exact counted
  · rcases bind_ok.mp copied with ⟨⟨fresh, made⟩, wasMade, ended⟩
    cases ended
    have sourceLive : objectExists world source = true := by simpa using sourceDead
    have conLive : objectExists world con = true := by simpa using conDead
    have madeCounted := counted.set_object agreement wasMade
    rcases set_object_types agreement conLive wasMade with ⟨wasDead, types⟩
    have different : source ≠ fresh := by
      rintro rfl
      rw [wasDead] at sourceLive
      cases sourceLive
    have typed := types fresh
    rw [if_pos rfl, ← live_type] at typed
    rcases Option.map_eq_some_iff.mp typed with ⟨record, live, type⟩
    have sourceTyped := types source
    rw [if_neg different, type_of_exists sourceLive, ← live_type] at sourceTyped
    rcases Option.map_eq_some_iff.mp sourceTyped with ⟨original, originalLive, originalType⟩
    have slotsCounted : Stacks (copySlots made source fresh) := by
      apply madeCounted.update (copy_slots_live live different)
      intro found foundLive
      rw [live] at foundLive
      cases foundLive
      have same : payload { record with attributes := (accessObject made source).attributes } =
          payload original := by
        rw [access_live originalLive]
        simp only [ObjectPayload.payload, MapObject.getAttribute, type, originalType]
      exact modest_of_payload same (madeCounted source original originalLive)
    have cleared : Stacks (clearContent (copySlots made source fresh) fresh
        (getObjectType world source)) := by
      unfold clearContent
      split_ifs
      · exact slotsCounted.set_attribute .content fun same => by cases same
      · exact slotsCounted
    unfold duplicateStrings
    split_ifs
    · have first := cleared.duplicate_string fresh (show InstanceAttribute.textString ≠ .amount by decide)
      exact first.duplicate_string fresh (show InstanceAttribute.editor ≠ .amount by decide)
    · exact cleared

theorem Stacks.create_map_cons {sectorX sectorY sectorZ : Int} {fields : List (Fin 32 × Fin 32)}
    {mapCon result : Fin 32 → Fin 32 → Object} (agreement : Agreement world)
    (created : createMapCons sectorX sectorY sectorZ fields world mapCon = .ok (after, result)) :
    Stacks after := by
  induction fields generalizing world mapCon with
  | nil =>
    cases created
    exact counted
  | cons place rest ih =>
    rcases bind_ok.mp created with ⟨⟨field, made⟩, wasMade, ended⟩
    rcases bind_ok.mp wasMade with ⟨⟨blank, first⟩, wasCreated, written⟩
    cases written
    have firstAgreement := create_agreement agreement wasCreated
    have quiet := (set_slot_quiet first field 1 (UInt32.ofInt (sectorX * 32 + place.1))).trans
      ((set_slot_quiet _ field 2 (UInt32.ofInt (sectorY * 32 + place.2))).trans
        (set_slot_quiet _ field 3 (UInt32.ofInt sectorZ)))
    apply ih _ (firstAgreement.1.quiet quiet) ended
    have isField : ∀ (start : World cfg) record slot value, Quiet first start →
        liveRecord start field = some record →
        Modest { record with attributes := Function.update record.attributes slot value } := by
      intro start record slot value startQuiet live item
      have typed := firstAgreement.2
      rw [← startQuiet.table, ← live_type, live, Option.map_some] at typed
      simp only [Option.some.inj typed] at item
      cases item
    have second := (counted.create agreement.permanent wasCreated).update
      (live_set_slot first field 1 (UInt32.ofInt (sectorX * 32 + place.1)))
      fun record live => isField first record _ _ (.refl first) live
    have third := second.update (live_set_slot _ field 2 (UInt32.ofInt (sectorY * 32 + place.2)))
      fun record live => isField _ record _ _ (set_slot_quiet _ _ _ _) live
    exact third.update (live_set_slot _ field 3 (UInt32.ofInt sectorZ)) fun record live =>
      isField _ record _ _ ((set_slot_quiet _ _ _ _).trans (set_slot_quiet _ _ _ _)) live

theorem Stacks.delete (deleted : deleteObject world obj = .ok after) : Stacks after :=
  counted.fewer (deletion_payload deleted)

theorem Stacks.split {count : Int32} (agreement : Agreement world) {res : Object}
    (split : splitObject world obj count = .ok (res, after)) : Stacks after := by
  simp only [splitObject] at split
  split_ifs at split with dead single range whole
  · cases split
    exact counted
  · cases split
    exact counted
  · cases split
    exact counted
  · cases split
    exact counted
  · rcases bind_ok.mp split with ⟨⟨copy, copied⟩, wasCopied, ended⟩
    cases ended
    have isLive : objectExists world obj = true := by simpa using dead
    rcases object_exists_iff.mp isLive with ⟨record, live⟩
    rw [not_or] at range
    have positive : 0 < count.toInt := by
      have bound := range.1
      rw [Int32.le_iff_toInt_le] at bound
      simpa using bound
    have taken : count.toUInt32.toNat < 2 ^ 31 := by
      have natural : count.toUInt32.toNat = count.toInt.toNat :=
        Int32.toNat_toUInt32_of_le (Int32.le_iff_toInt_le.mpr (by simpa using positive.le))
      have bound := count.toInt_lt
      omega
    have part : Stacks (setAttribute copied copy .amount count.toUInt32) :=
      (counted.copy agreement wasCopied).set_attribute .amount fun _ => taken
    apply part.update (live_set_attribute _ obj .amount _)
    intro found foundLive item stack
    have typed : some found.type = some record.type := by
      rw [← Option.map_some, ← foundLive, live_type, (set_attribute_quiet _ _ _ _).table,
        copy_object_types agreement isLive wasCopied, ← live_type, live, Option.map_some]
    rw [record_set_attribute_type, Option.some.inj typed] at item stack
    have whole := counted obj record live item stack
    have smaller : (getAttribute world obj .amount - count.toUInt32).toNat < 2 ^ 31 := by
      have enough : count.toUInt32 ≤ getAttribute world obj .amount := UInt32.not_lt.mp range.2
      rw [UInt32.toNat_sub_of_le _ _ enough, getAttribute, access_live live]
      omega
    exact modest_set_attribute (part obj found foundLive) (fun _ => smaller)
      (by rw [record_set_attribute_type, Option.some.inj typed]; exact item)
      (by rw [record_set_attribute_type, Option.some.inj typed]; exact stack)

theorem Stacks.merge {dest : Object} (merged : mergeObjects world obj dest = .ok after) :
    Stacks after := by
  simp only [mergeObjects] at merged
  split_ifs at merged with _ _ _ _ large
  · cases merged
    exact counted
  · cases merged
    exact counted
  · cases merged
    exact counted
  · cases merged
    exact counted
  · exact (counted.set_attribute .amount fun _ => by decide).delete merged
  · have bound : ¬ 100 < (mergedParts world dest + mergedParts world obj).toNat := large
    exact (counted.set_attribute .amount fun _ => by omega).delete merged

end

/-- Attribute writes other than those of the map functions give no negative amount. -/
def Plain : MapCall cfg → Prop
  | .changeAttribute _ attr value => attr = .amount → value.toNat < 2 ^ 31
  | _ => True

theorem call_map_stacks {call : MapCall cfg} (counted : Stacks world) (agreement : Agreement world)
    (plain : Plain call) (called : callMap world call = .ok after) : Stacks after := by
  cases call with
  | initSector sectorX sectorY sectorZ =>
    simp only [callMap, initSector] at called
    split_ifs at called
    · cases called
      exact counted
    rcases bind_ok.mp called with ⟨⟨filled, mapCon⟩, wasFilled, ended⟩
    cases ended
    have filledCounted := counted.create_map_cons agreement wasFilled
    exact filledCounted
  | appendObject con type =>
    rcases map_ok.mp called with ⟨⟨fresh, result⟩, appended, rfl⟩
    unfold appendObject at appended
    split_ifs at appended
    · cases appended
      exact counted
    · exact counted.create_placed agreement.permanent appended
  | setObject con type creatureID =>
    rcases map_ok.mp called with ⟨⟨fresh, result⟩, placed, rfl⟩
    exact counted.set_object agreement placed
  | copyObject con source =>
    rcases map_ok.mp called with ⟨⟨fresh, result⟩, copied, rfl⟩
    exact counted.copy agreement copied
  | splitObject source count =>
    rcases map_ok.mp called with ⟨⟨fresh, result⟩, split, rfl⟩
    exact counted.split agreement split
  | mergeObjects source dest => exact counted.merge called
  | moveObject source con => exact counted.fewer (move_payload called).fewer
  | deleteObject source => exact counted.delete called
  | changeObject source newType => exact counted.change called
  | changeAttribute source attr value =>
    cases called
    exact counted.change_attribute attr plain
  | nextRound roundNr =>
    cases called
    exact counted

theorem run_map_stacks {calls : List (MapCall cfg)} (counted : Stacks world)
    (agreement : Agreement world) (plain : ∀ call ∈ calls, Plain call)
    (reached : runMap world calls = .ok after) : Stacks after := by
  induction calls generalizing world with
  | nil =>
    cases reached
    exact counted
  | cons call rest ih =>
    rcases bind_ok.mp reached with ⟨middle, stepped, later⟩
    apply ih _ (call_map_agreement agreement stepped)
      (fun next member => plain next (List.mem_cons_of_mem call member)) later
    exact call_map_stacks counted agreement (plain call List.mem_cons_self) stepped

theorem initial_stacks (cfg : GameConfig) : Stacks (initialWorld cfg) := by
  intro node record live
  rw [initial_dead] at live
  cases live

section Progress

variable {events contents calls : List (MapCall cfg)} {refused : Bool} {target : ObjectType cfg}

theorem dead_untimed (agreement : Agreement world) (dead : objectExists world obj = false) :
    timers world.cron obj = 0 := by
  have untyped : typeOf (kinds world) obj = none := by
    rw [← Option.not_isSome_iff_eq_none, ← exists_iff_type, dead]
    decide
  rw [agreement.agree, expires_none untyped]
  rfl

theorem scheduled_exists (agreement : Agreement world) {due : UInt32}
    (member : (obj, due) ∈ scheduled world.cron) : objectExists world obj = true := by
  by_contra dead
  have untimed := dead_untimed agreement (Bool.not_eq_true _ ▸ dead)
  exact Multiset.countP_eq_zero.mp untimed _ member (by simp)

theorem cron_check_exists (agreement : Agreement world) (found : cronCheck world ≠ NONE) :
    objectExists world (cronCheck world) = true ∧
      (getObjectType world (cronCheck world)).getFlag .expire = true := by
  have member : ∃ due, (cronCheck world, due) ∈ scheduled world.cron := by
    have nonneg := agreement.wellFormed.size_nonneg
    unfold cronCheck at found ⊢
    split_ifs at found ⊢ with some_entries due
    · have first : Occupied world.cron 1 := ⟨le_rfl, by omega⟩
      refine ⟨(world.cron.cronEntryArray 1).roundNr, ?_⟩
      rw [scheduled_split first]
      exact Multiset.mem_cons_self _ _
    all_goals exact (found rfl).elim
  rcases member with ⟨due, member⟩
  have isLive := scheduled_exists agreement member
  refine ⟨isLive, ?_⟩
  have one := agreement.agree (cronCheck world)
  rw [expires_of_type (type_of_exists isLive)] at one
  by_contra lasts
  rw [if_neg lasts] at one
  exact Multiset.countP_eq_zero.mp one _ member (by simp)

/-- The entry of `obj` that stood before the pass is gone: the calls on its content
have removed it, or `obj` is gone, or the entry has been taken out and one for the
expire target may stand in its place. -/
def Settled (before after : World cfg) (obj : Object) (target : ObjectType cfg) : Prop :=
  timers before.cron obj = 0 ∨
    (objectExists after obj = false ∧ timers after.cron obj = 0) ∨
    ∃ due rest, scheduled before.cron = (obj, due) ::ₘ rest ∧ (∀ other, (obj, other) ∉ rest) ∧
      (scheduled after.cron = rest ∨ target.getFlag .expire = true ∧
        ∃ renewed, scheduled after.cron = (obj, renewed) ::ₘ rest)

theorem delete_contents_agreement {fuel : Nat} {help : Object} (agreement : Agreement world)
    (deleted : deleteContents fuel world help = .ok after) : Agreement after := by
  induction fuel generalizing world help with
  | zero => cases deleted
  | succ fuel ih =>
    rw [deleteContents] at deleted
    split_ifs at deleted
    · cases deleted
      exact agreement
    · rcases bind_ok.mp deleted with ⟨middle, first, rest⟩
      exact ih ((deletion_agreement _).2.2 _ _ _ agreement first).1 rest

theorem count_accepted (counted : Stacks world) (isLive : objectExists world obj = true)
    (item : (getObjectType world obj).isMapContainer = false) : countRefused world obj = false := by
  rcases object_exists_iff.mp isLive with ⟨record, live⟩
  unfold countRefused
  rcases stack : (getObjectType world obj).getFlag .cumulative with _ | _
  · rfl
  rw [getObjectType, access_live live] at item stack
  have small := counted obj record live item stack
  have amount : (record.getAttribute .amount).toInt32.toInt =
      ((record.getAttribute .amount).toNat : Int) :=
    BitVec.toInt_eq_toNat_of_lt (show 2 * (record.getAttribute .amount).toNat < 2 ^ 32 by omega)
  rw [getAttribute, access_live live, Bool.true_and, decide_eq_false_iff_not, Int32.not_lt,
    Int32.le_iff_toInt_le, amount]
  exact le_trans (show (-1 : Int32).toInt ≤ 0 by decide) (Int.natCast_nonneg _)

theorem delete_op_settles (agreement : Agreement world) (counted : Stacks world)
    (deleted : deleteOp events world obj = .ok after) : Settled world after obj target := by
  unfold deleteOp at deleted
  rcases isLive : objectExists world obj with _ | _
  · exact .inl (dead_untimed agreement isLive)
  cases field : (getObjectType world obj).isMapContainer with
  | true =>
    left
    have lasts : (getObjectType world obj).getFlag .expire = false := by
      have zero : (getObjectType world obj).typeID = 0 := by
        simpa [ObjectType.isMapContainer] using field
      rw [ObjectType.getFlag, zero]
      exact cfg.mapContainer_lasts
    rw [agreement.agree, expires_of_type (type_of_exists isLive), lasts]
    rfl
  | false =>
    right
    left
    simp only [isLive, count_accepted counted isLive field, Bool.not_true, Bool.false_eq_true,
      if_false] at deleted
    rcases bind_ok.mp deleted with ⟨emptied, content, rest⟩
    rcases bind_ok.mp rest with ⟨separated, events, ended⟩
    have emptiedAgreement : Agreement emptied := by
      split_ifs at content
      · exact delete_contents_agreement agreement content
      · cases content
        exact agreement
    have separatedAgreement := run_map_agreement emptiedAgreement events
    have final : Agreement after ∧ objectExists after obj = false := by
      split_ifs at ended with still
      · rcases (deletion_agreement _).2.2 _ _ _ separatedAgreement ended with ⟨kept, gone⟩
        refine ⟨kept, ?_⟩
        rw [← Bool.not_eq_true, exists_iff_type, gone]
        exact Bool.false_ne_true
      · cases ended
        exact ⟨separatedAgreement, by simpa using still⟩
    exact ⟨final.2, dead_untimed final.1 final.2⟩

theorem bring_attributes_quiet (oldType newType : ObjectType cfg) (obj : Object) (value : UInt32)
    (world : World cfg) : Quiet world (bringAttributes oldType newType obj value world) := by
  unfold bringAttributes
  generalize broughtAttributes = attributes
  induction attributes generalizing world with
  | nil => exact .refl world
  | cons first rest ih =>
    apply Quiet.trans _ (ih _)
    dsimp only
    split_ifs
    · unfold changeAttribute
      split_ifs
      · exact .refl world
      · exact set_attribute_quiet _ _ _ _
    · exact .refl world

theorem expire_object_settles (agreement : Agreement world) (counted : Stacks world)
    (expired : expireObject events refused target world obj = .ok after) :
    Settled world after obj target := by
  unfold expireObject at expired
  dsimp only at expired
  split_ifs at expired with deletes
  · exact delete_op_settles agreement counted expired
  have isLive : objectExists world obj = true := by
    by_contra dead
    simp [dead] at deletes
  rcases timed : (getObjectType world obj).getFlag .expire with _ | _
  · left
    rw [agreement.agree, expires_of_type (type_of_exists isLive), timed]
    rfl
  right
  right
  rcases bind_ok.mp expired with ⟨changed, wasChanged, ended⟩
  cases ended
  rcases change_object_spec agreement isLive target with ⟨result, returned, _, _, taken⟩
  rw [wasChanged] at returned
  cases returned
  rcases taken timed with ⟨due, rest, before, replaced⟩
  refine ⟨due, rest, before, ?_, ?_⟩
  · intro other member
    have one := agreement.agree obj
    rw [expires_of_type (type_of_exists isLive), timed, if_pos rfl, timers, before,
      Multiset.countP_cons, if_pos (by simp)] at one
    have none_left : rest.countP (fun entry => entry.1 = obj) = 0 := by omega
    exact Multiset.countP_eq_zero.mp none_left _ member (by simp)
  · rw [(bring_attributes_quiet _ _ _ _ _).cron]
    exact replaced

/-- The loop over the members ends with an empty container, still in its place. -/
theorem delete_contents_spec {kids : Object → List Object} {members : List Object} {fuel : Nat}
    (described : Described world kids) (inside : kids obj = members) (edge : obj ∈ kids con)
    (enough : members.length < fuel) :
    ∃ after newKids, deleteContents fuel world (headOf NONE members) = .ok after ∧
      Described after newKids ∧ obj ∈ newKids con := by
  induction members generalizing world kids fuel with
  | nil =>
    rcases fuel with _ | fuel
    · exact (Nat.not_lt_zero _ enough).elim
    refine ⟨world, kids, ?_, described, edge⟩
    rw [head_of_nil, deleteContents, if_pos rfl]
  | cons first rest ih =>
    rcases fuel with _ | fuel
    · exact (Nat.not_lt_zero _ enough).elim
    have forest := described.forest
    have inner : first ∈ kids obj := by
      rw [inside]
      exact List.mem_cons_self
    have outside : ¬ Below kids first obj := forest.ranked.parent_not_below inner
    have isHolder := forest.parent_holds inner
    rcases holder_record isHolder with ⟨record, live, _⟩
    have chain := forest.chain obj record.content isHolder (by rw [contentOf, live]; rfl)
    rw [inside] at chain
    rcases forest.kid_live inner with ⟨firstRecord, firstLive, _⟩
    have next : getNextObject world first = headOf NONE rest := by
      rw [next_of_live firstLive]
      exact chain_start chain.2.2
    rcases delete_object_spec described.agreement forest inner with
      ⟨middle, returned, deleted⟩
    have shorter : prune kids first obj = rest := by
      rw [prune_outside outside, inside, List.erase_cons_head]
    rcases ih ⟨deleted.agreement, deleted.forest⟩ shorter (prune_member outside edge)
      (Nat.lt_of_succ_lt_succ enough) with ⟨after, newKids, ended, newDescribed, newEdge⟩
    refine ⟨after, newKids, ?_, newDescribed, newEdge⟩
    rw [head_of_cons, deleteContents, if_neg (forest.kid_ne_none inner)]
    simp only [next, returned, ok_bind]
    exact ended

/-- A pass over a placed object returns when nothing else happens on the way. -/
theorem expire_object_returns {kids : Object → List Object} (described : Described world kids)
    (edge : obj ∈ kids con) (refused : Bool) (target : ObjectType cfg) :
    ∃ after, expireObject [] refused target world obj = .ok after := by
  have isLive := (member_container described.forest edge).1
  unfold expireObject
  dsimp only
  split_ifs
  · unfold deleteOp
    rw [isLive]
    split_ifs
    · rename_i absurd
      cases absurd
    · exact ⟨world, rfl⟩
    · rename_i holds
      have head : getFirstContainerObject world obj = headOf NONE (kids obj) := by
        rw [getFirstContainerObject, if_neg (described.forest.kid_ne_none edge), if_pos holds]
        exact content_is_head described.forest isLive
      rcases delete_contents_spec described rfl edge (kids_length described.forest obj) with
        ⟨emptied, newKids, returned, newDescribed, newEdge⟩
      rcases delete_object_spec newDescribed.agreement newDescribed.forest newEdge with
        ⟨after, deleted, _⟩
      refine ⟨after, ?_⟩
      rw [head, returned]
      simp only [ok_bind, runMap, (member_container newDescribed.forest newEdge).1, if_true]
      exact deleted
    · rcases delete_object_spec described.agreement described.forest edge with ⟨after, deleted, _⟩
      refine ⟨after, ?_⟩
      simp only [ok_bind, runMap, isLive, if_true]
      exact deleted
  · rcases change_object_spec described.agreement isLive target with ⟨after, changed, _⟩
    rw [changed]
    exact ⟨_, rfl⟩

theorem expiring_placed {kids : Object → List Object} (rooted : Rooted world kids)
    (isLive : objectExists world obj = true)
    (timed : (getObjectType world obj).getFlag .expire = true) : ∃ con, obj ∈ kids con := by
  by_contra nowhere
  have field := rooted obj _ (type_of_exists isLive) (fun con edge => nowhere ⟨con, edge⟩)
  rw [field] at timed
  have lasts : (default : ObjectType cfg).getFlag .expire = false := cfg.mapContainer_lasts
  rw [lasts] at timed
  cases timed

/-- Timers and objects agree in every state of every run, whatever the arguments of its
calls, so that `cron_check` gives no dead object. A pass of the drain loop that returns
has dealt with the entry it was given, and it returns in every state that the callers of
the source can reach. -/
theorem timers_agree_with_objects (cfg : GameConfig) :
    (∀ (calls : List (MapCall cfg)) world, runMap (initialWorld cfg) calls = .ok world →
      (∀ obj, objectExists world obj = true → timers world.cron obj =
        if (getObjectType world obj).getFlag .expire then 1 else 0) ∧
      (∀ obj due, (obj, due) ∈ scheduled world.cron → objectExists world obj = true) ∧
      (cronCheck world ≠ NONE → objectExists world (cronCheck world) = true ∧
        ∀ contents events refused middle after, (∀ call ∈ calls ++ contents, Plain call) →
          runMap world contents = .ok middle →
          drainPass contents events refused world = .ok after →
          Settled middle after (cronCheck world)
            (expireTarget (getObjectType world (cronCheck world))))) ∧
    ∀ world : World cfg, Reached world → ∀ refused,
      ∃ after, drainPass [] [] refused world = .ok after := by
  constructor
  · intro calls world reached
    have agreement := run_map_agreement (initial_agreement cfg) reached
    refine ⟨?_, fun obj due member => scheduled_exists agreement member, ?_⟩
    · intro obj isLive
      rw [agreement.agree, expires_of_type (type_of_exists isLive)]
    · intro found
      refine ⟨(cron_check_exists agreement found).1, ?_⟩
      intro contents events refused middle after plain emptied drained
      have counted := run_map_stacks (initial_stacks cfg) (initial_agreement cfg)
        (fun call member => plain call (List.mem_append_left _ member)) reached
      have middleCounted := run_map_stacks counted agreement
        (fun call member => plain call (List.mem_append_right _ member)) emptied
      have middleAgreement := run_map_agreement agreement emptied
      simp only [drainPass, if_neg found, emptied, ok_bind] at drained
      exact expire_object_settles middleAgreement middleCounted drained
  · intro world reached refused
    rcases reached_rooted reached with ⟨kids, described, rooted⟩
    unfold drainPass
    dsimp only
    split_ifs with nothing
    · exact ⟨world, rfl⟩
    · rcases cron_check_exists described.agreement nothing with ⟨isLive, timed⟩
      rcases expiring_placed rooted isLive timed with ⟨con, edge⟩
      exact expire_object_returns described edge refused _

end Progress

end TibiaGame.CronDrain
