import TibiaGame.FurnishedWorlds
import TibiaGame.ObjectPayload

/-!
# What a change of type makes of the attributes

The attributes of an object lie in four slots that each type packs in its own way.
`change_object` empties the slots of some attributes of the old type, and gives values to some
attributes of the new one; the other slots are read as they are.
-/

namespace TibiaGame.TypeChanges

open GameTypes ObjectStore ObjectOperations ObjectKinds CronAgreement ForestSteps
open ForestOperations ObjectPayload FurnishedWorlds Library.Outcome

variable {cfg : GameConfig} {world after : World cfg} {obj : Object}
  {oldType newType : ObjectType cfg} {record : MapObject cfg}

/-- The attributes of the old type that `change_object` sets to zero. -/
def clears (oldType newType : ObjectType cfg) (attr : InstanceAttribute) : Bool :=
  !oldType.isMapContainer &&
    ((attr == .textString || attr == .editor) && oldType.getFlag .text && !newType.getFlag .text ||
      attr == .responsible && oldType.getFlag .magicField)

def slotLeft (record : MapObject cfg) (newType : ObjectType cfg) (slot : Fin 4) : UInt32 :=
  if instanceAttributes.any fun attr => clears record.type newType attr &&
      record.type.getAttributeOffset attr == some slot.val then 0
  else record.attributes slot

/-- The value that `change_object` gives to an attribute which is zero. -/
def defaultValue (newType : ObjectType cfg) : InstanceAttribute → Option UInt32
  | .amount => some 1
  | .charges => some 1
  | .poolLiquidType => some liquidWater
  | .remainingUses => some (newType.getAttribute .totalUses)
  | _ => none

/-- A value that `change_object` gives to an attribute: its default, or the time that was left. -/
def Assigns (world : World cfg) (obj : Object) (newType : ObjectType cfg) (attr : InstanceAttribute)
    (value : UInt32) : Prop :=
  defaultValue newType attr = some value ∨
    attr = .savedExpireTime ∧ ∃ stopped, cronStop world obj = .ok (value, stopped)

def Inherits (record : MapObject cfg) (attr : InstanceAttribute) (value : UInt32) : Prop :=
  record.type.hasAttribute attr = true ∧ value = record.getAttribute attr

/-- Every attribute of the new type is inherited, assigned or zero. -/
def KeepsMeaning (world : World cfg) (obj : Object) (newType : ObjectType cfg)
    (record newRecord : MapObject cfg) : Prop :=
  ∀ attr, newType.hasAttribute attr = true →
    Inherits record attr (newRecord.getAttribute attr) ∨
      Assigns world obj newType attr (newRecord.getAttribute attr) ∨ newRecord.getAttribute attr = 0

/-- Each slot of the new type is empty, or holds what suits its new attribute; two attributes
are always written. -/
def SlotsFit (record : MapObject cfg) (newType : ObjectType cfg) : Prop :=
  ∀ attr (slot : Fin 4), newType.getAttributeOffset attr = some slot.val →
    attr ≠ .amount → attr ≠ .savedExpireTime →
      slotLeft record newType slot = 0 ∨ Inherits record attr (slotLeft record newType slot) ∨
        defaultValue newType attr = some (slotLeft record newType slot)

theorem clear_slot (record : MapObject cfg) {attr : InstanceAttribute}
    (zero : MapObject.normalize record.type attr 0 = 0) (slot : Fin 4) :
    (record.setAttribute attr 0).attributes slot =
      if record.type.getAttributeOffset attr = some slot.val then 0 else record.attributes slot := by
  unfold MapObject.setAttribute
  rcases found : record.type.getAttributeOffset attr with _ | offset
  · rw [if_neg (by simp)]
  simp only [Option.some.injEq]
  by_cases bound : offset < 4
  · rw [dif_pos bound, zero]
    by_cases here : offset = slot.val
    · have same : slot = ⟨offset, bound⟩ := Fin.ext here.symm
      rw [if_pos here, same]
      exact Function.update_self _ _ _
    have apart : slot ≠ ⟨offset, bound⟩ := by
      intro same
      exact here (congrArg Fin.val same).symm
    rw [if_neg here]
    exact Function.update_of_ne apart _ _
  rw [dif_neg bound, if_neg]
  intro same
  exact bound (same ▸ slot.isLt)

def leftRecord (record : MapObject cfg) (newType : ObjectType cfg) : MapObject cfg :=
  if record.type.isMapContainer then record
  else
    applyIf (record.type.getFlag .magicField) (fun record => record.setAttribute .responsible 0)
      (applyIf (record.type.getFlag .text && !newType.getFlag .text)
        (fun record => (record.setAttribute .textString 0).setAttribute .editor 0) record)

theorem left_record_slot (record : MapObject cfg) (newType : ObjectType cfg) (slot : Fin 4) :
    (leftRecord record newType).attributes slot = slotLeft record newType slot := by
  unfold leftRecord slotLeft clears applyIf
  cases field : record.type.isMapContainer with
  | true => simp
  | false =>
    cases dropped : record.type.getFlag .text && !newType.getFlag .text <;>
      cases magic : record.type.getFlag .magicField <;>
        simp [instanceAttributes, clear_slot, MapObject.normalize, record_set_attribute_type,
          dropped]
    all_goals grind

theorem drop_strings_records (world : World cfg) (obj : Object) :
    liveRecord (dropStrings world obj) = updateRecord (liveRecord world) obj
      fun record => (record.setAttribute .textString 0).setAttribute .editor 0 := by
  unfold dropStrings
  rw [live_set_attribute]
  have strings : ∀ (start : World cfg) strings,
      liveRecord { start with strings := strings } = liveRecord start := by
    intro start strings
    funext node
    exact live_congr rfl node
  rw [strings, live_set_attribute, strings, update_record_comp]

theorem leave_type_record (live : liveRecord world obj = some record)
    {carried : Carried} (left : leaveType world obj record.type newType = .ok (carried, after)) :
    liveRecord after obj = some (leftRecord record newType) ∧
      (carried.amount = 0 ∨ carried.amount = 1 ∨ Inherits record .amount carried.amount) ∧
      (carried.savedExpireTime = 0 ∨
        ∃ stopped, cronStop world obj = .ok (carried.savedExpireTime, stopped)) := by
  unfold leaveType at left
  unfold leftRecord
  by_cases field : record.type.isMapContainer = true
  · rw [if_pos field] at left ⊢
    cases left
    exact ⟨live, .inl rfl, .inl rfl⟩
  rw [if_neg field] at left ⊢
  rcases bind_ok.mp left with ⟨⟨saved, stopped⟩, timer, ended⟩
  have savedTime : saved = 0 ∨ ∃ stopped, cronStop world obj = .ok (saved, stopped) := by
    split_ifs at timer
    · exact .inr ⟨stopped, timer⟩
    · cases timer
      exact .inl rfl
  have stoppedLive : liveRecord stopped = liveRecord world := by
    funext node
    split_ifs at timer
    · rcases cron_stop_frame timer with ⟨cron, same⟩
      rw [same]
      exact live_congr rfl node
    · cases timer
      rfl
  have droppedRecords : liveRecord (if (record.type.getFlag .text && !newType.getFlag .text) = true
      then dropStrings stopped obj else stopped) = updateRecord (liveRecord world) obj
        (applyIf (record.type.getFlag .text && !newType.getFlag .text)
          fun record => (record.setAttribute .textString 0).setAttribute .editor 0) := by
    unfold applyIf
    split_ifs with drops
    · rw [drop_strings_records, stoppedLive]
    · rw [stoppedLive]
      exact update_record_id.symm
  cases ended
  refine ⟨?_, ?_, savedTime⟩
  · have finalRecords : ∀ start : World cfg, liveRecord (if record.type.getFlag .magicField = true
        then setAttribute start obj .responsible 0 else start) =
          updateRecord (liveRecord start) obj (applyIf (record.type.getFlag .magicField)
            fun record => record.setAttribute .responsible 0) := by
      intro start
      unfold applyIf
      split_ifs
      · exact live_set_attribute start obj .responsible 0
      · exact update_record_id.symm
    rw [finalRecords, droppedRecords, update_record_comp, updateRecord, if_pos rfl, live]
    rfl
  by_cases renewed : (record.type.getFlag .expire && newType.getFlag .cumulative) = true
  · right
    left
    simp only [renewed, if_true]
  by_cases stack : record.type.getFlag .cumulative = true
  · right
    right
    constructor
    · simp [ObjectType.hasAttribute, instanceAttributeFlag, stack]
    · simp only [renewed, stack, if_true, if_false, Bool.false_eq_true]
      rw [ObjectStore.getAttribute, access_live live]
  left
  simp only [renewed, stack, if_false, Bool.false_eq_true]

def entered (newType : ObjectType cfg) (carried : Carried) (attr : InstanceAttribute)
    (value : UInt32) : UInt32 :=
  if attr = .amount then if carried.amount ≤ 0 then 1 else carried.amount
  else if attr = .savedExpireTime then carried.savedExpireTime
  else if value = 0 then (defaultValue newType attr).getD 0
  else value

theorem flag_of_stores {attr : InstanceAttribute} (different : attr ≠ .content)
    (stored : stores newType attr = true) : newType.getFlag (instanceAttributeFlag attr) = true := by
  unfold stores ObjectType.getAttributeOffset ObjectType.hasAttribute at stored
  by_contra missing
  simp [different, missing] at stored

theorem get_attribute_written {attr : InstanceAttribute} (different : attr ≠ .content)
    (other : InstanceAttribute) (value : UInt32) (typed : record.type = newType) :
    (applyIf (newType.getFlag (instanceAttributeFlag attr))
        (fun record => record.setAttribute attr value) record).getAttribute other =
      if other = attr ∧ stores newType attr = true then MapObject.normalize newType attr value
      else record.getAttribute other := by
  unfold applyIf
  split_ifs with flagged here here
  · rw [get_attribute_set, typed, if_pos here]
  · rw [get_attribute_set, typed, if_neg here]
  · exact absurd (flag_of_stores different here.2) flagged
  · rfl

theorem get_attribute_provided {attr : InstanceAttribute} (different : attr ≠ .content)
    (other : InstanceAttribute) (value : UInt32) (typed : record.type = newType) :
    (applyIf (newType.getFlag (instanceAttributeFlag attr))
        (provide attr value) record).getAttribute other =
      if other = attr ∧ stores newType attr = true ∧ record.getAttribute attr = 0 then
        MapObject.normalize newType attr value
      else record.getAttribute other := by
  unfold applyIf provide
  split_ifs with flagged empty here here here
  · rw [get_attribute_set, typed, if_pos ⟨here.1, here.2.1⟩]
  · rw [get_attribute_set, typed, if_neg]
    intro both
    exact here ⟨both.1, both.2, empty⟩
  · exact absurd here.2.2 empty
  · rfl
  · exact absurd (flag_of_stores different here.2.1) flagged
  · rfl

theorem enter_record_get (carried : Carried) (record : MapObject cfg) {attr : InstanceAttribute}
    (stored : stores newType attr = true) :
    (enterRecord newType carried record).getAttribute attr =
      entered newType carried attr ({ record with type := newType }.getAttribute attr) := by
  unfold enterRecord
  simp only
  set typed : MapObject cfg := { record with type := newType }
  set stack := applyIf (newType.getFlag .cumulative) (fun record => record.setAttribute .amount
    (if carried.amount ≤ 0 then 1 else carried.amount)) typed with stackIs
  set rune := applyIf (newType.getFlag .rune) (provide .charges 1) stack with runeIs
  set pool := applyIf (newType.getFlag .liquidPool) (provide .poolLiquidType liquidWater) rune
    with poolIs
  set worn := applyIf (newType.getFlag .wearOut)
    (provide .remainingUses (newType.getAttribute .totalUses)) pool with wornIs
  have stackType : stack.type = newType :=
    apply_if_keeps (fun record => record_set_attribute_type record _ _) typed
  have runeType : rune.type = newType := by
    rw [runeIs, apply_if_keeps (provide_type _ _), stackType]
  have poolType : pool.type = newType := by
    rw [poolIs, apply_if_keeps (provide_type _ _), runeType]
  have wornType : worn.type = newType := by
    rw [wornIs, apply_if_keeps (provide_type _ _), poolType]
  have atStack : ∀ other, stack.getAttribute other = _ := fun other =>
    get_attribute_written (by decide : InstanceAttribute.amount ≠ .content) other _ rfl
  have atRune : ∀ other, rune.getAttribute other = _ := fun other =>
    get_attribute_provided (by decide : InstanceAttribute.charges ≠ .content) other _ stackType
  have atPool : ∀ other, pool.getAttribute other = _ := fun other =>
    get_attribute_provided (by decide : InstanceAttribute.poolLiquidType ≠ .content) other _ runeType
  have atWorn : ∀ other, worn.getAttribute other = _ := fun other =>
    get_attribute_provided (by decide : InstanceAttribute.remainingUses ≠ .content) other _ poolType
  refine (get_attribute_written (by decide : InstanceAttribute.savedExpireTime ≠ .content) attr _
    wornType).trans ?_
  simp only [atWorn, atPool, atRune, atStack]
  cases attr
  all_goals simp [entered, defaultValue, MapObject.normalize, stored, liquidWater]
  -- An amount is never zero here, so that it is written as it is.
  intro zero positive
  rw [if_neg positive] at zero
  exact absurd zero positive

theorem get_attribute_slot {attr : InstanceAttribute} (slot : Fin 4)
    (found : record.type.getAttributeOffset attr = some slot.val) :
    record.getAttribute attr = record.attributes slot := by
  rw [MapObject.getAttribute, found]
  simp only [slot.isLt, dif_pos]

/-- An attribute that is not always written is read from the slot as the old type left it. -/
theorem slot_keeps_meaning (world : World cfg) (obj : Object) {attr : InstanceAttribute}
    (carried : Carried) (notAmount : attr ≠ .amount) (notSaved : attr ≠ .savedExpireTime)
    (value : UInt32) :
    Inherits record attr (entered newType carried attr value) ∨
        Assigns world obj newType attr (entered newType carried attr value) ∨
        entered newType carried attr value = 0 ↔
      value = 0 ∨ Inherits record attr value ∨ defaultValue newType attr = some value := by
  rw [entered, if_neg notAmount, if_neg notSaved]
  unfold Assigns
  by_cases empty : value = 0
  · rw [if_pos empty]
    constructor
    · intro _
      exact .inl empty
    intro _
    cases given : defaultValue newType attr with
    | none => exact .inr (.inr rfl)
    | some value => exact .inr (.inl (.inl rfl))
  rw [if_neg empty]
  constructor
  · intro meaning
    rcases meaning with inherited | other
    · exact .inr (.inl inherited)
    rcases other with assigned | zero
    · rcases assigned with given | saved
      · exact .inr (.inr given)
      · exact absurd saved.1 notSaved
    · exact absurd zero empty
  intro fits
  rcases fits with zero | other
  · exact absurd zero empty
  rcases other with inherited | given
  · exact .inl inherited
  · exact .inr (.inl (.inl given))

/-- After `change_object` no attribute is read from a slot of another one exactly when the slots
fit the new type. -/
theorem change_keeps_meaning (agreement : Agreement world) (newType : ObjectType cfg)
    (live : liveRecord world obj = some record) :
    ∃ after newRecord, changeObject world obj newType = .ok after ∧
      liveRecord after obj = some newRecord ∧ newRecord.type = newType ∧
      (KeepsMeaning world obj newType record newRecord ↔ SlotsFit record newType) := by
  have isLive : objectExists world obj = true := object_exists_iff.mpr ⟨record, live⟩
  rcases change_object_spec agreement isLive newType with ⟨after, returned, _⟩
  have changed := returned
  simp only [changeObject, isLive, Bool.not_true, Bool.false_eq_true, if_false] at changed
  rcases bind_ok.mp changed with ⟨⟨carried, left⟩, wasLeft, ended⟩
  cases ended
  rw [getObjectType, access_live live] at wasLeft
  rcases leave_type_record live wasLeft with ⟨leftLive, amount, saved⟩
  have newLive : liveRecord (cronExpire (enterType left obj newType carried) obj carried.delay) obj =
      some (enterRecord newType carried (leftRecord record newType)) := by
    rw [live_congr (expire_table _ _ _) obj, enterType,
      live_write_update left obj (enter_record_number newType carried), updateRecord, if_pos rfl,
      leftLive]
    rfl
  have typed := enter_record_type newType carried (leftRecord record newType)
  refine ⟨_, _, returned, newLive, typed, ?_⟩
  have value : ∀ attr (slot : Fin 4), newType.getAttributeOffset attr = some slot.val →
      (enterRecord newType carried (leftRecord record newType)).getAttribute attr =
        entered newType carried attr (slotLeft record newType slot) := by
    intro attr slot found
    have stored : stores newType attr = true := by
      rw [stores, found]
      exact decide_eq_true slot.isLt
    have read : ({ leftRecord record newType with type := newType } : MapObject cfg).getAttribute
        attr = (leftRecord record newType).attributes slot := get_attribute_slot slot found
    rw [enter_record_get carried _ stored, read, left_record_slot]
  constructor
  · intro keeps attr slot found notAmount notSaved
    have has := (attribute_offset_some newType found).1
    have meaning := keeps attr has
    rw [value attr slot found] at meaning
    exact (slot_keeps_meaning world obj carried notAmount notSaved _).mp meaning
  · intro fits attr has
    by_cases stored : stores newType attr = true
    · have somewhere : ∃ slot : Fin 4, newType.getAttributeOffset attr = some slot.val := by
        unfold stores at stored
        cases found : newType.getAttributeOffset attr with
        | none =>
          rw [found] at stored
          cases stored
        | some offset =>
          rw [found] at stored
          exact ⟨⟨offset, of_decide_eq_true stored⟩, rfl⟩
      rcases somewhere with ⟨slot, found⟩
      rw [value attr slot found]
      by_cases isAmount : attr = .amount
      · rw [entered, if_pos isAmount, isAmount]
        split_ifs with none_left
        · exact .inr (.inl (.inl rfl))
        · rcases amount with zero | other
          · rw [zero] at none_left
            exact absurd (by decide) none_left
          · rcases other with one | inherited
            · rw [one]
              exact .inr (.inl (.inl rfl))
            · exact .inl inherited
      · by_cases isSaved : attr = .savedExpireTime
        · rw [entered, if_neg isAmount, if_pos isSaved]
          rcases saved with zero | stopped
          · exact .inr (.inr zero)
          · exact .inr (.inl (.inr ⟨isSaved, stopped⟩))
        · apply (slot_keeps_meaning world obj carried isAmount isSaved _).mpr
          exact fits attr slot found isAmount isSaved
    · right
      right
      exact get_attribute_absent _ (Bool.eq_false_iff.mpr stored) typed

def fiftyCoins : List (Furniture smallTypes) := [⟨⟨1⟩, setTypeID smallTypes 102, 0, 50⟩]

/-- The change of type returns, and what it leaves passes a test. -/
def changedSuch (world : World cfg) (obj : Object) (newType : ObjectType cfg)
    (test : World cfg → Bool) : Bool :=
  match changeObject world obj newType with
  | .error _ => false
  | .ok after => test after

theorem coins_are_changed : ∃ (world : World smallTypes) (record : MapObject smallTypes),
    Agreement world ∧ liveRecord world ⟨3⟩ = some record ∧ ∃ after newRecord,
      changeObject world ⟨3⟩ (setTypeID smallTypes 103) = .ok after ∧
      liveRecord after ⟨3⟩ = some newRecord ∧ newRecord.type = setTypeID smallTypes 103 ∧
      (KeepsMeaning world ⟨3⟩ (setTypeID smallTypes 103) record newRecord ↔
        SlotsFit record (setTypeID smallTypes 103)) := by
  have passes : furnishedSuch fiftyCoins (fun world => objectExists world ⟨3⟩) = true := by
    decide +kernel
  rcases furnished_such passes with ⟨world, kids, sound, isLive⟩
  rcases object_exists_iff.mp isLive with ⟨record, live⟩
  exact ⟨world, record, sound.described.agreement, live,
    change_keeps_meaning sound.described.agreement (setTypeID smallTypes 103) live⟩

/-- The fifty coins become a bag, with an object of the number 50 inside. -/
theorem amount_becomes_content : ∃ (world after : World smallTypes)
    (record newRecord : MapObject smallTypes), Agreement world ∧
      liveRecord world ⟨3⟩ = some record ∧
      changeObject world ⟨3⟩ (setTypeID smallTypes 101) = .ok after ∧
      liveRecord after ⟨3⟩ = some newRecord ∧ newRecord.content = ⟨50⟩ ∧
      ¬ KeepsMeaning world ⟨3⟩ (setTypeID smallTypes 101) record newRecord := by
  have passes : furnishedSuch fiftyCoins (fun world => objectExists world ⟨3⟩ &&
      decide (getObjectType world ⟨3⟩ = setTypeID smallTypes 102) &&
      changedSuch world ⟨3⟩ (setTypeID smallTypes 101) fun after =>
        objectExists after ⟨3⟩ && getAttribute after ⟨3⟩ .content == 50) = true := by
    decide +kernel
  rcases furnished_such passes with ⟨world, kids, sound, test⟩
  simp only [Bool.and_eq_true, decide_eq_true_eq] at test
  rcases test with ⟨⟨isLive, coins⟩, result⟩
  unfold changedSuch at result
  rcases changed : changeObject world ⟨3⟩ (setTypeID smallTypes 101) with halt | after
  · rw [changed] at result
    cases result
  rw [changed] at result
  simp only [Bool.and_eq_true, beq_iff_eq] at result
  rcases object_exists_iff.mp isLive with ⟨record, live⟩
  rcases object_exists_iff.mp result.1 with ⟨newRecord, newLive⟩
  have number : newRecord.getAttribute .content = 50 := by
    rw [← result.2, ObjectStore.getAttribute, access_live newLive]
  have wasCoins : record.type = setTypeID smallTypes 102 := by
    rw [← coins, getObjectType, access_live live]
  refine ⟨world, after, record, newRecord, sound.described.agreement, live, changed, newLive,
    congrArg Object.mk number, ?_⟩
  intro keeps
  have meaning := keeps .content (by decide)
  rw [number] at meaning
  rcases meaning with inherited | other
  · have had := inherited.1
    rw [wasCoins] at had
    exact absurd had (by decide)
  · rcases other with assigned | zero
    · rcases assigned with given | saved
      · cases given
      · cases saved.1
    · exact absurd zero (by decide)

end TibiaGame.TypeChanges
