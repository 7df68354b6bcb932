import TibiaGame.InventoryWeights
import TibiaGame.TypeReplacements

/-!
# What a creature carries after one step

By how much the weight in the body of a creature changes when an object comes to another
container, when parts go from one stack to another, and when an object is new, is
changed or is gone.
-/

namespace TibiaGame.CarriedSteps

open GameTypes ObjectStore ObjectOperations ObjectKinds Function
open ObjectPayload OperateSteps
open FurnishedWorlds OperateEffects StackAmounts AmountChanges Weights InventoryWeights DepotSpace
open DepotCounts Library.OrderedForest Library.ForestSums

variable {cfg : GameConfig} {world middle after : World cfg} {kids newKids : Object → List Object}
  {carrier obj con dest piece place : Object} {type : ObjectType cfg} {amount value : UInt32}
  {count : Int32} {weight : Nat}

/-- A weight counts for what the creature carries, where its place is in the body. -/
noncomputable def within (kids : Object → List Object) (carrier place : Object) (weight : Nat) : Nat :=
  open Classical in if Below kids carrier place then weight else 0

theorem within_inside (inside : Below kids carrier place) :
    within kids carrier place weight = weight := if_pos inside

theorem within_outside (outside : ¬ Below kids carrier place) :
    within kids carrier place weight = 0 := if_neg outside

theorem within_add {other : Nat} : within kids carrier place (weight + other) =
    within kids carrier place weight + within kids carrier place other := by
  unfold within
  split_ifs
  · rfl
  · rfl

theorem within_mono {more : Nat} (least : weight ≤ more) :
    within kids carrier place weight ≤ within kids carrier place more := by
  unfold within
  split_ifs
  · exact least
  · exact Nat.le_refl 0

/-- The weight does not rise, unless something that was elsewhere comes into the body. -/
def Gains (kids : Object → List Object) (carrier obj con : Object) (before after added : Nat) : Prop :=
  after ≤ before ∨ Below kids carrier con ∧ ¬ Below kids carrier obj ∧ after ≤ before + added

theorem gains_of_sum {before afterwards : Nat}
    (sum : afterwards + within kids carrier obj weight ≤ before + within kids carrier con weight) :
    Gains kids carrier obj con before afterwards weight := by
  by_cases into : Below kids carrier con
  · rw [within_inside into] at sum
    by_cases inside : Below kids carrier obj
    · rw [within_inside inside] at sum
      exact .inl (by omega)
    rw [within_outside inside] at sum
    exact .inr ⟨into, inside, sum⟩
  rw [within_outside into] at sum
  exact .inl (by omega)

def partWeight (type : ObjectType cfg) : Nat :=
  if type.getFlag .take then (type.getAttribute .weight).toNat else 0

/-- What an object weighs whatever its `AMOUNT`. -/
def restWeight (type : ObjectType cfg) : Nat :=
  if type.getFlag .take then 0 else fixedWeight type

theorem unit_weight_stack (stack : type.getFlag .cumulative = true) :
    unitWeight (some (type, amount)) = partWeight type * amount.toNat + restWeight type := by
  rw [unitWeight, partWeight, restWeight, stack]
  cases type.getFlag .take with
  | true => simp
  | false => simp

theorem unit_weight_single (single : type.getFlag .cumulative = false) :
    unitWeight (some (type, amount)) = partWeight type + restWeight type := by
  rw [unitWeight, partWeight, restWeight, single]
  cases type.getFlag .take with
  | true => simp
  | false => simp

theorem weight_of_found (found : stackOf world obj = some (type, amount)) :
    weightOf world obj = unitWeight (some (type, amount)) := by
  rw [weightOf, found]

theorem written_le : (written type value).toNat ≤ max 1 value.toNat := by
  unfold written
  split_ifs with stored zero
  · rw [zero]
    decide
  · exact Nat.le_max_right _ _
  · exact Nat.zero_le _

theorem get_weight_whole (isLive : objectExists world obj = true) :
    getWeight world obj (getAttribute world obj .amount).toInt32 = Int32.ofNat (weightOf world obj) := by
  rw [← get_weight_eq isLive, getWeight, getWeight]
  by_cases sentinel : (getAttribute world obj .amount).toInt32 = -1
  · rw [if_pos sentinel, sentinel, if_pos rfl]
  · rw [if_neg sentinel, if_pos rfl]

theorem get_weight_count (isLive : objectExists world obj = true)
    (taken : (getObjectType world obj).getFlag .take = true)
    (stack : (getObjectType world obj).getFlag .cumulative = true) (some : 0 < count) :
    getWeight world obj count =
      Int32.ofNat (partWeight (getObjectType world obj) * count.toUInt32.toNat) := by
  have notAll : count ≠ -1 := by
    intro same
    rw [same] at some
    exact absurd some (by decide)
  have number : count.toUInt32.toInt32 = Int32.ofNat count.toUInt32.toNat := to_int_of_nat _
  rw [Int32.toInt32_toUInt32] at number
  rw [get_weight_parts isLive taken stack notAll, partWeight, if_pos taken, Int32.ofNat_mul,
    ← to_int_of_nat, ← number]

theorem load_empty (sound : Sound world kids) (isLive : objectExists world obj = true)
    (empty : getFirstContainerObject world obj = NONE) :
    load kids (weightOf world) obj = weightOf world obj := by
  rw [load_eq sound.described.forest isLive, carriedWeight, empty]
  have none : rowNumber world walkLimit NONE = 0 := by
    rw [show walkLimit = 2 ^ 34 - 1 + 1 from rfl, rowNumber, if_pos rfl]
  rw [none, Nat.add_zero]

section Steps

/-- The loads of the body, when one object in it may have another weight. -/
theorem load_within {weights newWeights : Object → Nat}
    (others : ∀ node, Below kids carrier node → node ≠ obj → newWeights node = weights node) :
    load kids newWeights carrier + within kids carrier obj (weights obj) =
      load kids weights carrier + within kids carrier obj (newWeights obj) := by
  by_cases inside : Below kids carrier obj
  · rw [within_inside inside, within_inside inside]
    exact load_change inside others
  rw [within_outside inside, within_outside inside, Nat.add_zero, Nat.add_zero]
  apply load_congr (fun _ => Iff.rfl)
  intro node under
  apply others node under
  intro same
  rw [same] at under
  exact inside under

theorem beside_carried (sound : Sound world kids) (newSound : Sound after kids)
    (isLive : objectExists world carrier = true) (stillLive : objectExists after carrier = true)
    (apart : obj ≠ carrier) (beside : Beside stackView obj world after) :
    carriedWeight after carrier + within kids carrier obj (weightOf world obj) =
      carriedWeight world carrier + within kids carrier obj (weightOf after obj) := by
  have before := load_eq sound.described.forest isLive
  have now := load_eq newSound.described.forest stillLive
  have changed : load kids (weightOf after) carrier + within kids carrier obj (weightOf world obj) =
      load kids (weightOf world) carrier + within kids carrier obj (weightOf after obj) :=
    load_within fun node _ different => weight_of_stack (beside node different)
  have own : weightOf after carrier = weightOf world carrier := weight_of_stack (beside carrier apart.symm)
  omega

variable (sound : Sound world kids) (isLive : objectExists world carrier = true)
include sound isLive

/-- A new object adds its weight where it is born; one that was there may have another weight. -/
theorem born_carried (born : Born world after kids newKids piece con type) (apart : obj ≠ carrier)
    (others : ∀ node, Below kids carrier node → node ≠ obj → weightOf after node = weightOf world node) :
    carriedWeight after carrier + within kids carrier obj (weightOf world obj) =
      carriedWeight world carrier + within kids carrier obj (weightOf after obj) +
        within kids carrier con (weightOf after piece) := by
  have before := load_eq sound.described.forest isLive
  have now := load_eq born.sound.described.forest (born.other isLive).2.1
  rcases born_load sound isLive born (weightOf after) with ⟨grown, alone⟩
  have changed := load_within others
  have own := others carrier (below_refl kids carrier) apart.symm
  have added : part kids (weightOf after) carrier con piece =
      within kids carrier con (weightOf after piece) := by
    rw [part, alone]
    rfl
  omega

theorem unborn_outside (dead : objectExists world obj = false) : ¬ Below kids carrier obj := by
  intro under
  cases under with
  | refl =>
    rw [isLive] at dead
    cases dead
  | tail _ edge => exact unborn_orphan sound.described.forest dead _ edge

theorem inside_weight_le (inside : Below kids carrier obj) (apart : obj ≠ carrier) :
    weightOf world obj ≤ carriedWeight world carrier := by
  have forest := sound.described.forest
  have before := load_eq forest isLive
  have without : load kids (update (weightOf world) obj 0) carrier + weightOf world obj =
      load kids (weightOf world) carrier + update (weightOf world) obj 0 obj :=
    load_change inside fun node _ different => update_of_ne different _ _
  have own : load kids (update (weightOf world) obj 0) carrier = _ :=
    load_children forest.single forest.ranked (forest.nodup carrier)
  rw [update_of_ne apart.symm] at own
  rw [update_self] at without
  omega

end Steps

theorem split_carried (sound : Sound world kids) (isLive : objectExists world carrier = true)
    (objLive : objectExists world obj = true)
    (lies : objectExists world (getContainer world obj) = true) (apart : obj ≠ carrier)
    (taken : (getObjectType world obj).getFlag .take = true) (parted : Parted world obj count)
    (cut : splitObject world obj count = .ok (piece, middle)) (same : SameView stackView middle after)
    (born : Born world after kids newKids piece con type) :
    Gains kids carrier obj con (carriedWeight world carrier) (carriedWeight after carrier)
      (partWeight (getObjectType world obj) * count.toUInt32.toNat) := by
  have halves := split_stacks sound.described.agreement.permanent objLive lies parted cut
  have less : count.toUInt32.toNat < (getAttribute world obj .amount).toNat := parted.less
  have remain := UInt32.toNat_sub_of_le _ _ (UInt32.le_of_lt parted.less)
  have dead : objectExists world piece = false := born.dead
  have sum := born_carried sound isLive born apart (by
    intro node under different
    apply weight_of_stack
    rw [stackOf, same]
    apply halves.others node different
    intro isPiece
    rw [isPiece] at under
    exact unborn_outside sound isLive dead under)
  have whole := weight_of_found (stack_of_live objLive)
  have left := weight_of_found ((same obj).trans halves.old)
  have new := weight_of_found ((same piece).trans halves.new)
  have rest : restWeight (getObjectType world obj) = 0 := if_pos taken
  rw [unit_weight_stack parted.stack, rest, Nat.add_zero] at whole left new
  have parts : partWeight (getObjectType world obj) * (getAttribute world obj .amount).toNat =
      weightOf after obj + partWeight (getObjectType world obj) * count.toUInt32.toNat := by
    rw [left, remain, ← Nat.mul_add, Nat.sub_add_cancel (Nat.le_of_lt less)]
  apply gains_of_sum
  rw [whole, new, parts, within_add] at sum
  omega

theorem written_weight_le (isLive : objectExists world obj = true)
    (stack : (getObjectType world obj).getFlag .cumulative = true) :
    weightOf (changeAttribute world obj .amount value) obj ≤
      partWeight (getObjectType world obj) * max 1 value.toNat + restWeight (getObjectType world obj) := by
  rw [weight_of_found (change_amount_stack isLive), unit_weight_stack stack]
  exact Nat.add_le_add_right (Nat.mul_le_mul_left _ written_le) _

theorem parts_moved_numbers {amount destAmount : UInt32} (some : 0 < count) (less : count < amount.toInt32) :
    max 1 (amount.toInt32 - count).toUInt32.toNat + count.toUInt32.toNat = amount.toNat ∧
      max 1 (destAmount.toInt32 + count).toUInt32.toNat ≤ destAmount.toNat + count.toUInt32.toNat := by
  have fewer := count_less some less
  have difference : (amount.toInt32 - count).toUInt32 = amount - count.toUInt32 := by
    rw [Int32.toUInt32_sub]
    rfl
  have sum : (destAmount.toInt32 + count).toUInt32 = destAmount + count.toUInt32 := by
    rfl
  have left := UInt32.toNat_sub_of_le _ _ (UInt32.le_of_lt fewer)
  have notZero : count.toUInt32.toNat ≠ 0 := by
    intro zero
    exact positive_count some (UInt32.toNat_inj.mp zero)
  rw [UInt32.lt_iff_toNat_lt] at fewer
  rw [difference, sum, left, UInt32.toNat_add]
  omega

theorem merge_part_carried (sound : Sound world kids) (isLive : objectExists world carrier = true)
    (apart : obj ≠ carrier) (destApart : dest ≠ carrier) (mergeable : Mergeable world obj dest count)
    (some : 0 < mergeCount world obj count)
    (less : mergeCount world obj count < (getAttribute world obj .amount).toInt32) :
    Gains kids carrier obj dest (carriedWeight world carrier)
      (carriedWeight (partsMoved world obj dest count) carrier)
      (partWeight (getObjectType world obj) * (mergeCount world obj count).toUInt32.toNat) := by
  have taken : Kept world (partsTaken world obj count) kids :=
    change_attribute_kept sound (by decide) _
  have moved : Kept (partsTaken world obj count) (partsMoved world obj dest count) kids :=
    change_attribute_kept taken.sound (by decide) _
  have alive : ∀ node, objectExists (partsTaken world obj count) node = objectExists world node :=
    kept_live taken.types
  have first : Beside stackView obj world (partsTaken world obj count) := change_attribute_beside
  have second : Beside stackView dest (partsTaken world obj count) (partsMoved world obj dest count) :=
    change_attribute_beside
  have takenLive : objectExists (partsTaken world obj count) carrier = true := by
    rw [alive]
    exact isLive
  have movedLive : objectExists (partsMoved world obj dest count) carrier = true := by
    rw [kept_live moved.types]
    exact takenLive
  have loses := beside_carried sound taken.sound isLive takenLive apart first
  have gets := beside_carried taken.sound moved.sound takenLive movedLive destApart second
  have destBefore : weightOf (partsTaken world obj count) dest = weightOf world dest :=
    weight_of_stack (first dest mergeable.apart.symm)
  have numbers := @parts_moved_numbers _ _ (getAttribute world dest .amount) some less
  have destLive : objectExists (partsTaken world obj count) dest = true := by
    rw [alive]
    exact mergeable.destLive
  have destType : getObjectType (partsTaken world obj count) dest = getObjectType world obj := by
    rw [mergeable.type]
    apply object_type_of
    rw [taken.types]
    exact type_of_exists mergeable.destLive
  have destStack : (getObjectType (partsTaken world obj count) dest).getFlag .cumulative = true := by
    rw [destType]
    exact mergeable.stack
  have objAfter : weightOf (partsTaken world obj count) obj ≤ _ :=
    written_weight_le mergeable.live mergeable.stack
  have destAfter : weightOf (partsMoved world obj dest count) dest ≤ _ :=
    written_weight_le destLive destStack
  have objWeight := weight_of_found (stack_of_live mergeable.live)
  have destWeight := weight_of_found (mergeable_dest_stack mergeable)
  rw [unit_weight_stack mergeable.stack] at objWeight destWeight
  rw [destType] at destAfter
  have objParts := congrArg (partWeight (getObjectType world obj) * ·) numbers.1
  have destParts := Nat.mul_le_mul_left (partWeight (getObjectType world obj)) numbers.2
  simp only [Nat.mul_add] at objParts destParts
  have lost : weightOf (partsTaken world obj count) obj +
      partWeight (getObjectType world obj) * (mergeCount world obj count).toUInt32.toNat ≤
        weightOf world obj := by omega
  have won : weightOf (partsMoved world obj dest count) dest ≤ weightOf world dest +
      partWeight (getObjectType world obj) * (mergeCount world obj count).toUInt32.toNat := by omega
  rw [destBefore] at gets
  have fewer := @within_mono kids carrier obj _ _ lost
  have more := @within_mono kids carrier dest _ _ won
  rw [within_add] at fewer more
  apply gains_of_sum
  omega

theorem joined_parts_le (objSome : getAttribute world obj .amount ≠ 0)
    (destSome : getAttribute world dest .amount ≠ 0) :
    max 1 (if 100 < mergedParts world dest + mergedParts world obj then (100 : UInt32)
      else mergedParts world dest + mergedParts world obj).toNat ≤
        (getAttribute world dest .amount).toNat + (getAttribute world obj .amount).toNat := by
  have objParts : mergedParts world obj = getAttribute world obj .amount := if_neg objSome
  have destParts : mergedParts world dest = getAttribute world dest .amount := if_neg destSome
  have objNumber : (getAttribute world obj .amount).toNat ≠ 0 :=
    fun zero => objSome (UInt32.toNat_inj.mp zero)
  have notMore := Nat.mod_le ((getAttribute world dest .amount).toNat +
    (getAttribute world obj .amount).toNat) (2 ^ 32)
  rw [objParts, destParts]
  split_ifs with most
  · rw [UInt32.lt_iff_toNat_lt, UInt32.toNat_add] at most
    have hundred : (100 : UInt32).toNat = 100 := rfl
    omega
  · rw [UInt32.toNat_add]
    omega

theorem merge_whole_carried (sound : Sound world kids) (isLive : objectExists world carrier = true)
    (edge : obj ∈ kids con) (outside : ¬ Below kids obj carrier) (destApart : dest ≠ carrier)
    (mergeable : Mergeable world obj dest count)
    (some : Below kids carrier dest →
      getAttribute world obj .amount ≠ 0 ∧ getAttribute world dest .amount ≠ 0)
    (joined : mergeObjects world obj dest = .ok after) :
    Gains kids carrier obj dest (carriedWeight world carrier) (carriedWeight after carrier)
      (partWeight (getObjectType world obj) * (getAttribute world obj .amount).toNat) := by
  have sameType : ¬ getObjectType world obj ≠ getObjectType world dest := not_not.mpr mergeable.type
  simp only [mergeObjects, mergeable.live, mergeable.destLive, mergeable.stack, if_neg sameType,
    Bool.not_true, Bool.false_eq_true, if_false] at joined
  have parts := fun into => joined_parts_le (some into).1 (some into).2
  generalize (if 100 < mergedParts world dest + mergedParts world obj then (100 : UInt32)
    else mergedParts world dest + mergedParts world obj) = total at joined parts
  have written : setAttribute world dest .amount total = changeAttribute world dest .amount total := by
    rw [changeAttribute, mergeable.destLive]
    rfl
  rw [written] at joined
  have kept : Kept world (changeAttribute world dest .amount total) kids :=
    change_attribute_kept sound (by decide) _
  have stillLive : objectExists (changeAttribute world dest .amount total) carrier = true := by
    rw [kept_live kept.types]
    exact isLive
  have objLive : objectExists (changeAttribute world dest .amount total) obj = true := by
    rw [kept_live kept.types]
    exact mergeable.live
  have beside : Beside stackView dest world (changeAttribute world dest .amount total) :=
    change_attribute_beside
  have gets := beside_carried sound kept.sound isLive stillLive destApart beside
  have gone := gone_carried kept.sound stillLive (delete_gone kept.sound edge joined)
    (deletion_view stack_unlinked joined) outside
  have leaves : carriedWeight after carrier +
      within kids carrier obj (load kids (weightOf (changeAttribute world dest .amount total)) obj) =
        carriedWeight (changeAttribute world dest .amount total) carrier := gone
  by_cases into : Below kids carrier dest
  · have destStack : (getObjectType world dest).getFlag .cumulative = true := by
      rw [← mergeable.type]
      exact mergeable.stack
    have destAfter : weightOf (changeAttribute world dest .amount total) dest ≤ _ :=
      written_weight_le mergeable.destLive destStack
    have objWeight := weight_of_found (stack_of_live mergeable.live)
    have destWeight := weight_of_found (stack_of_live mergeable.destLive)
    rw [unit_weight_stack mergeable.stack] at objWeight
    rw [unit_weight_stack destStack, ← mergeable.type] at destWeight
    rw [← mergeable.type] at destAfter
    have objSame : weightOf (changeAttribute world dest .amount total) obj = weightOf world obj :=
      weight_of_stack (beside obj mergeable.apart)
    have objLoad := load_eq kept.sound.described.forest objLive
    have sum := Nat.mul_le_mul_left (partWeight (getObjectType world obj)) (parts into)
    rw [Nat.mul_add] at sum
    have won : weightOf (changeAttribute world dest .amount total) dest ≤ weightOf world dest +
        partWeight (getObjectType world obj) * (getAttribute world obj .amount).toNat := by omega
    have lost : partWeight (getObjectType world obj) * (getAttribute world obj .amount).toNat ≤
        load kids (weightOf (changeAttribute world dest .amount total)) obj := by omega
    have more := @within_mono kids carrier dest _ _ won
    have fewer := @within_mono kids carrier obj _ _ lost
    rw [within_add] at more
    apply gains_of_sum
    omega
  left
  rw [within_outside into, within_outside into] at gets
  omega

/-- A whole object comes with all it holds, or goes, or moves about in the body. -/
theorem comes_gains (sound : Sound world kids) (isLive : objectExists world carrier = true)
    (comes : Comes world after kids newKids obj con) (same : SameView stackView world after)
    (apart : ¬ Below kids obj con) :
    Gains kids carrier obj con (carriedWeight world carrier) (carriedWeight after carrier)
      (load kids (weightOf world) obj) := by
  by_cases above : Below kids obj carrier
  · left
    rw [comes_carried_along sound isLive comes same apart above]
  have sum := comes_carried sound isLive comes same apart above
  apply gains_of_sum
  exact Nat.le_of_eq sum

/-- Nothing that happens apart from the body changes what it weighs. -/
theorem apart_carried (sound : Sound world kids) (apart : Apart world after kids newKids carrier)
    (isLive : objectExists world carrier = true)
    (same : ∀ node, Below kids carrier node → weightOf after node = weightOf world node) :
    carriedWeight after carrier = carriedWeight world carrier := by
  have before := load_eq sound.described.forest isLive
  have now := load_eq apart.sound.described.forest (apart.live isLive)
  have loads : load newKids (weightOf after) carrier = load kids (weightOf world) carrier :=
    load_congr apart.below same
  have own := same carrier (below_refl kids carrier)
  omega

/-- The object is turned into one of another type, and the others weigh what they did. -/
theorem turned_carried (sound : Sound world kids) (isLive : objectExists world carrier = true)
    (turned : Turned world after kids obj type) (apart : obj ≠ carrier)
    (beside : Beside stackView obj world after) :
    carriedWeight after carrier + within kids carrier obj (weightOf world obj) =
      carriedWeight world carrier + within kids carrier obj (weightOf after obj) := by
  have stillLive : objectExists after carrier = true := by
    rw [exists_iff_type, turned.types, if_neg apart.symm, ← exists_iff_type]
    exact isLive
  exact beside_carried sound turned.sound isLive stillLive apart beside

end TibiaGame.CarriedSteps
