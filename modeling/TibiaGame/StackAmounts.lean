import TibiaGame.ObjectPayload
import TibiaGame.OperateFrames

/-!
# How many parts the stacks have

Moving parts from one stack to another, joining two stacks and cutting one in two all
concern two objects: every other object keeps its type and its `AMOUNT`, and the two
have as many parts of each type as before.
-/

namespace TibiaGame.StackAmounts

open GameTypes ObjectStore ObjectOperations ObjectKinds ContentForest ForestSteps
open ForestDeletion ObjectPayload OperateModel OperateSteps
open Library.Outcome

variable {cfg : GameConfig} {world after : World cfg} {obj dest con : Object}
  {type : ObjectType cfg} {amount : UInt32} {count : Int32}

def stackView (record : MapObject cfg) : ObjectType cfg × UInt32 :=
  (record.type, record.getAttribute .amount)

/-- The type and the `AMOUNT` of an object that exists. -/
def stackOf (world : World cfg) (obj : Object) : Option (ObjectType cfg × UInt32) :=
  viewOf stackView world obj

def partsFrom (type : ObjectType cfg) : Option (ObjectType cfg × UInt32) → Nat
  | none => 0
  | some (found, amount) => if found = type then amount.toNat else 0

noncomputable def totalAmount (world : World cfg) (type : ObjectType cfg) : Nat :=
  ∑ᶠ obj, partsFrom type (stackOf world obj)

def InRange : Option (ObjectType cfg × UInt32) → Prop
  | none => True
  | some (type, amount) => type.getFlag .cumulative = true → 1 ≤ amount.toNat ∧ amount.toNat ≤ 100

def StacksInRange (world : World cfg) : Prop := ∀ obj, InRange (stackOf world obj)

/-- Two objects share their parts in another way, and nothing else changes. -/
structure Reshared (before after : World cfg) (left right : Object) : Prop where
  apart : left ≠ right
  others : ∀ node, node ≠ left → node ≠ right → stackOf after node = stackOf before node
  parts : ∀ type, partsFrom type (stackOf after left) + partsFrom type (stackOf after right) =
    partsFrom type (stackOf before left) + partsFrom type (stackOf before right)
  leftRange : InRange (stackOf after left)
  rightRange : InRange (stackOf after right)

/-- A sum stays when two of its terms change and their sum does not. -/
theorem finsum_two {Index : Type} [Finite Index] {before after : Index → Nat} {left right : Index}
    (apart : left ≠ right)
    (others : ∀ index, index ≠ left → index ≠ right → after index = before index)
    (two : after left + after right = before left + before right) :
    ∑ᶠ index, after index = ∑ᶠ index, before index := by
  classical
  have := Fintype.ofFinite Index
  have split : ∀ values : Index → Nat, ∑ᶠ index, values index =
      values left + values right + ∑ index ∈ (Finset.univ.erase left).erase right, values index := by
    intro values
    have rightIn : right ∈ Finset.univ.erase left := Finset.mem_erase.mpr ⟨apart.symm, Finset.mem_univ _⟩
    rw [finsum_eq_sum_of_fintype, ← Finset.add_sum_erase _ _ (Finset.mem_univ left),
      ← Finset.add_sum_erase _ _ rightIn, add_assoc]
  rw [split after, split before, two]
  congr 1
  apply Finset.sum_congr rfl
  intro index member
  rcases Finset.mem_erase.mp member with ⟨notRight, rest⟩
  exact others index (Finset.mem_erase.mp rest).1 notRight

theorem Reshared.total {left right : Object} (reshared : Reshared world after left right)
    (type : ObjectType cfg) : totalAmount after type = totalAmount world type := by
  apply finsum_two reshared.apart
  · intro node notLeft notRight
    rw [reshared.others node notLeft notRight]
  · exact reshared.parts type

theorem Reshared.range {left right : Object} (reshared : Reshared world after left right)
    (range : StacksInRange world) : StacksInRange after := by
  intro node
  by_cases isLeft : node = left
  · rw [isLeft]
    exact reshared.leftRange
  by_cases isRight : node = right
  · rw [isRight]
    exact reshared.rightRange
  rw [reshared.others node isLeft isRight]
  exact range node

theorem stack_unlinked : Unlinked (stackView : MapObject cfg → _) where
  next := fun _ _ => rfl
  container := fun _ _ => rfl
  content := by
    intro record value
    rw [stackView, record_set_attribute_type, get_attribute_set, if_neg (nofun ∘ And.left)]
    rfl

theorem stack_of_live (isLive : objectExists world obj = true) :
    stackOf world obj = some (getObjectType world obj, getAttribute world obj .amount) := by
  rcases object_exists_iff.mp isLive with ⟨record, live⟩
  rw [stackOf, viewOf, live, getObjectType, getAttribute, access_live live]
  rfl

theorem amount_stored (found : stackOf world obj = some (type, amount)) (some : amount ≠ 0) :
    stores type .amount = true := by
  by_contra absent
  rw [Bool.not_eq_true] at absent
  rcases Option.map_eq_some_iff.mp found with ⟨record, _, same⟩
  cases same
  exact some (get_attribute_absent record absent rfl)

/-- A stack gets as many parts as are assigned to it, when they are not zero. -/
theorem set_amount_stack {value : UInt32} (found : stackOf world obj = some (type, amount))
    (stored : stores type .amount = true) (notZero : value ≠ 0) (node : Object) :
    stackOf (setAttribute world obj .amount value) node =
      if node = obj then some (type, value) else stackOf world node := by
  rcases Option.map_eq_some_iff.mp found with ⟨record, live, same⟩
  cases same
  rw [stackOf, viewOf, live_set_attribute, updateRecord, live]
  split_ifs with here
  · rw [Option.map_some, Option.map_some, stackView, record_set_attribute_type, get_attribute_set,
      if_pos ⟨rfl, stored⟩, MapObject.normalize, if_neg notZero]
  · rfl

theorem content_of_first (isLive : objectExists world obj = true)
    (empty : getFirstContainerObject world obj = NONE) :
    contentOf (liveRecord world) obj = some NONE := by
  rcases object_exists_iff.mp isLive with ⟨record, live⟩
  rw [contentOf, live, Option.map_some, MapObject.content]
  unfold getFirstContainerObject at empty
  rw [if_neg (live_ne_none live), getObjectType, getAttribute, access_live live] at empty
  cases holds : record.type.holdsObjects with
  | true =>
    rw [if_pos holds] at empty
    rw [empty]
  | false =>
    rw [MapObject.getAttribute, content_offset_none _ holds]
    rfl

theorem content_set_next (world : World cfg) (node next : Object) :
    contentOf (liveRecord (setNextObject world node next)) = contentOf (liveRecord world) := by
  funext other
  rw [live_set_next]
  exact view_update_keep fun _ => rfl

theorem content_set_container (world : World cfg) (node con : Object) :
    contentOf (liveRecord (setContainer world node con)) = contentOf (liveRecord world) := by
  funext other
  rw [live_set_container]
  exact view_update_keep fun _ => rfl

theorem cut_keeps_empty (empty : contentOf (liveRecord world) obj = some NONE)
    (wasCut : cutObject world obj = .ok after) : contentOf (liveRecord after) obj = some NONE := by
  unfold cutObject at wasCut
  split_ifs at wasCut
  · cases wasCut
    exact empty
  rcases bind_ok.mp wasCut with ⟨middle, unlinked, ended⟩
  cases ended
  rw [content_set_container, content_set_next]
  simp only [unlinkObject] at unlinked
  split_ifs at unlinked with first
  · cases unlinked
    have elsewhere : obj ≠ getContainer world obj := by
      intro itself
      rw [← itself] at first
      rcases Option.map_eq_some_iff.mp empty with ⟨record, live, none⟩
      unfold getFirstContainerObject at first
      rw [if_neg (live_ne_none live)] at first
      split_ifs at first
      · rw [getAttribute, access_live live] at first
        exact live_ne_none live (first.symm.trans none)
      · exact live_ne_none live first.symm
    rw [contentOf, live_set_attribute, updateRecord, if_neg elsewhere]
    exact empty
  rcases bind_ok.mp unlinked with ⟨prev, _, ended⟩
  cases ended
  rw [content_set_next]
  exact empty

theorem empty_content_idle {fuel : Nat} (empty : contentOf (liveRecord world) obj = some NONE)
    (emptied : emptyContent fuel world obj = .ok after) : after = world := by
  rcases Option.map_eq_some_iff.mp empty with ⟨record, live, none⟩
  rcases fuel with _ | less
  · cases emptied
  have here : Object.mk (getAttribute world obj .content) = NONE := by
    rw [getAttribute, access_live live]
    exact none
  rw [emptyContent, if_pos here] at emptied
  cases emptied
  rfl

theorem delete_empty_stacks (isLive : objectExists world obj = true)
    (empty : getFirstContainerObject world obj = NONE)
    (deleted : deleteObject world obj = .ok after) (node : Object) :
    stackOf after node = if node = obj then none else stackOf world node := by
  rcases delete_cases deleted with ⟨dead, _⟩ | ⟨less, cut, _, _, wasCut, destroyed⟩
  · rw [isLive] at dead
    cases dead
  have cutEmpty := cut_keeps_empty (content_of_first isLive empty) wasCut
  have cutStacks := cut_view stack_unlinked wasCut
  rcases Option.map_eq_some_iff.mp cutEmpty with ⟨record, live, _⟩
  rcases destroy_cases destroyed with ⟨dead, _⟩ |
    ⟨fuel, first, emptied, remaining, stopped, _, _, ⟨strings, same⟩, content, timer, ended⟩
  · rw [objectExists, live] at dead
    cases dead
  have firstTable : liveRecord first = liveRecord cut := by
    rw [same]
    rfl
  have emptiedSame : emptied = first := by
    rcases content with walked | idle
    · rw [← firstTable] at cutEmpty
      exact empty_content_idle cutEmpty walked
    · exact idle
  have stoppedTable : liveRecord stopped = liveRecord cut := by
    rw [← firstTable, ← emptiedSame]
    split_ifs at timer
    · rcases cron_stop_frame timer with ⟨cron, frame⟩
      rw [frame]
      rfl
    · cases timer
      rfl
  rw [← stoppedTable] at live
  rw [ended, stackOf, viewOf, release_live live]
  split_ifs
  · rfl
  · rw [stoppedTable]
    exact cutStacks node

section Splitting

/-- The two stacks of `split_object`. -/
structure SplitStacks (before after : World cfg) (obj part : Object) (count : Int32) : Prop where
  apart : obj ≠ part
  dead : liveRecord before part = none
  others : ∀ node, node ≠ obj → node ≠ part → stackOf after node = stackOf before node
  old : stackOf after obj =
    some (getObjectType before obj, getAttribute before obj .amount - count.toUInt32)
  new : stackOf after part = some (getObjectType before obj, count.toUInt32)
  permanent : kinds after 0 = .permanent

theorem ne_zero_of_pos {value : UInt32} (positive : 1 ≤ value.toNat) : value ≠ 0 := by
  intro zero
  rw [zero] at positive
  exact absurd positive (by decide)

theorem positive_count (some : 0 < count) : count.toUInt32 ≠ 0 := by
  intro zero
  rw [← Int32.toInt32_toUInt32 count, zero] at some
  exact absurd some (by decide)

variable (permanent : kinds world 0 = .permanent) (isLive : objectExists world obj = true)
    (conLive : objectExists world (getContainer world obj) = true)
include permanent isLive conLive

theorem split_stacks {part : Object} (parted : Parted world obj count)
    (split : splitObject world obj count = .ok (part, after)) :
    SplitStacks world after obj part count := by
  have positive : ¬ count ≤ 0 := Int32.not_le.mpr parted.some
  have less : (count.toUInt32).toNat < (getAttribute world obj .amount).toNat := parted.less
  have within : ¬ getAttribute world obj .amount < count.toUInt32 := UInt32.lt_asymm parted.less
  have notAll : count.toUInt32 ≠ getAttribute world obj .amount := UInt32.ne_of_lt parted.less
  simp only [splitObject, isLive, parted.stack, Bool.not_true, Bool.false_eq_true, if_false,
    if_neg (not_or.mpr ⟨positive, within⟩), if_neg notAll] at split
  rcases bind_ok.mp split with ⟨⟨new, made⟩, copied, ended⟩
  cases ended
  have fresh := copy_object_fresh stack_unlinked permanent isLive conLive
    (stack_is_item parted.stack) copied
  have beside : ∀ node, node ≠ new → stackOf made node = stackOf world node := fresh.beside
  have copy := stack_of_live fresh.live
  rw [object_type_of fresh.typed] at copy
  have found := stack_of_live isLive
  have some := positive_count parted.some
  have difference := UInt32.toNat_sub_of_le _ _ (UInt32.le_of_lt parted.less)
  have remain : getAttribute world obj .amount - count.toUInt32 ≠ 0 := by
    apply ne_zero_of_pos
    omega
  have apart : obj ≠ new := by
    intro same
    rcases object_exists_iff.mp isLive with ⟨record, live⟩
    rw [same, fresh.dead] at live
    cases live
  have notZero : getAttribute world obj .amount ≠ 0 := by
    apply ne_zero_of_pos
    omega
  have stored := amount_stored found notZero
  have foundMade : stackOf made obj = .some (getObjectType world obj, getAttribute world obj .amount) := by
    rw [beside obj apart, found]
  have first := set_amount_stack copy stored some
  have foundFirst : stackOf (setAttribute made new .amount count.toUInt32) obj =
      .some (getObjectType world obj, getAttribute world obj .amount) := by
    rw [first, if_neg apart, foundMade]
  have second := set_amount_stack foundFirst stored remain
  constructor
  · exact apart
  · exact fresh.dead
  · intro node notObj notPart
    rw [second, if_neg notObj, first, if_neg notPart, beside node notPart]
  · rw [second, if_pos rfl]
  · rw [second, if_neg apart.symm, first, if_pos rfl]
  · rw [(set_attribute_quiet _ _ _ _).table, (set_attribute_quiet _ _ _ _).table]
    exact fresh.permanent

theorem split_reshared {part : Object} (range : InRange (stackOf world obj))
    (parted : Parted world obj count) (split : splitObject world obj count = .ok (part, after)) :
    Reshared world after obj part ∧ objectExists after part = true ∧ kinds after 0 = .permanent := by
  have cut := split_stacks permanent isLive conLive parted split
  have less : (count.toUInt32).toNat < (getAttribute world obj .amount).toNat := parted.less
  have found := stack_of_live isLive
  rw [found] at range
  have bounds := range parted.stack
  have difference := UInt32.toNat_sub_of_le _ _ (UInt32.le_of_lt parted.less)
  constructor
  · constructor
    · exact cut.apart
    · exact cut.others
    · intro type
      rw [cut.new, cut.old, found, stackOf, viewOf, cut.dead]
      simp only [partsFrom, Option.map_none]
      split_ifs
      · omega
      · rfl
    · rw [cut.old]
      intro _
      omega
    · rw [cut.new]
      intro _
      have : (count.toUInt32).toNat ≠ 0 :=
        fun zero => positive_count parted.some (UInt32.toNat_inj.mp zero)
      omega
  constructor
  · have partStack := cut.new
    rw [stackOf] at partStack
    rcases Option.map_eq_some_iff.mp partStack with ⟨record, live, _⟩
    exact object_exists_iff.mpr ⟨record, live⟩
  · exact cut.permanent

end Splitting

theorem to_int_small {value : UInt32} (small : value.toNat < 2 ^ 31) :
    value.toInt32.toInt = value.toNat := by
  have cond := BitVec.toInt_eq_toNat_cond value.toBitVec
  have same : value.toInt32.toInt = value.toBitVec.toInt := rfl
  have number : value.toBitVec.toNat = value.toNat := rfl
  rw [same, cond, number, if_pos (by omega)]

theorem to_int_amount {value : UInt32} (small : value.toNat ≤ 100) :
    value.toInt32.toInt = value.toNat := to_int_small (by omega)

theorem to_nat_count {value : Int32} (nonneg : 0 ≤ value.toInt) :
    (value.toUInt32.toNat : Int) = value.toInt := by
  have cond := BitVec.toInt_eq_toNat_cond value.toBitVec
  have same : value.toInt = value.toBitVec.toInt := rfl
  have number : value.toBitVec.toNat = value.toUInt32.toNat := rfl
  rw [number] at cond
  split_ifs at cond with small
  · exact cond.symm
  · omega

/-- The two stacks that `merge` deals with stay within their bounds, as they do for -1
and for every count that is not negative; and a stack that is given up holds nothing. -/
structure FairMerge (world : World cfg) (obj dest : Object) (count : Int32) : Prop where
  share : count = -1 ∨ ((getAttribute world obj .amount).toNat : Int) - count.toInt ≤ 100 ∧
    1 ≤ ((getAttribute world dest .amount).toNat : Int) + count.toInt
  hollow : count = -1 ∨ count = (getAttribute world obj .amount).toInt32 →
    getFirstContainerObject world obj = NONE

section

variable (mergeable : Mergeable world obj dest count)
include mergeable

theorem mergeable_ranges (range : StacksInRange world) :
    (1 ≤ (getAttribute world obj .amount).toNat ∧ (getAttribute world obj .amount).toNat ≤ 100) ∧
      1 ≤ (getAttribute world dest .amount).toNat ∧ (getAttribute world dest .amount).toNat ≤ 100 := by
  have ofObj := range obj
  have ofDest := range dest
  rw [stack_of_live mergeable.live] at ofObj
  rw [stack_of_live mergeable.destLive, ← mergeable.type] at ofDest
  exact ⟨ofObj mergeable.stack, ofDest mergeable.stack⟩

theorem mergeable_dest_stack :
    stackOf world dest = some (getObjectType world obj, getAttribute world dest .amount) := by
  rw [mergeable.type]
  exact stack_of_live mergeable.destLive

theorem two_stacks {left right : UInt32} (stored : stores (getObjectType world obj) .amount = true)
    (leftSome : left ≠ 0) (rightSome : right ≠ 0) (node : Object) :
    stackOf (setAttribute (setAttribute world obj .amount left) dest .amount right) node =
      if node = dest then some (getObjectType world obj, right)
      else if node = obj then some (getObjectType world obj, left)
      else stackOf world node := by
  have first := set_amount_stack (stack_of_live mergeable.live) stored leftSome
  have destFirst := first dest
  rw [if_neg mergeable.apart.symm, mergeable_dest_stack mergeable] at destFirst
  rw [set_amount_stack destFirst stored rightSome, first]

/-- Two stacks of one type that have other amounts with the same sum. -/
theorem two_reshared {left right : UInt32} (range : StacksInRange world)
    (leftBounds : 1 ≤ left.toNat ∧ left.toNat ≤ 100)
    (rightBounds : 1 ≤ right.toNat ∧ right.toNat ≤ 100) (sum : left.toNat + right.toNat =
      (getAttribute world obj .amount).toNat + (getAttribute world dest .amount).toNat) :
    Reshared world (setAttribute (setAttribute world obj .amount left) dest .amount right)
      obj dest := by
  have found := stack_of_live mergeable.live
  have stored := amount_stored found (ne_zero_of_pos (mergeable_ranges mergeable range).1.1)
  have two := two_stacks mergeable stored (ne_zero_of_pos leftBounds.1)
    (ne_zero_of_pos rightBounds.1)
  have objStack := two obj
  have destStack := two dest
  rw [if_neg mergeable.apart, if_pos rfl] at objStack
  rw [if_pos rfl] at destStack
  constructor
  · exact mergeable.apart
  · intro node notObj notDest
    rw [two, if_neg notDest, if_neg notObj]
  · intro type
    rw [objStack, destStack, found, mergeable_dest_stack mergeable]
    simp only [partsFrom]
    split_ifs
    · exact sum
    · rfl
  · rw [objStack]
    exact fun _ => leftBounds
  · rw [destStack]
    exact fun _ => rightBounds

theorem parts_moved_eq :
    partsMoved world obj dest count = setAttribute (setAttribute world obj .amount
      ((getAttribute world obj .amount).toInt32 - mergeCount world obj count).toUInt32) dest .amount
        ((getAttribute world dest .amount).toInt32 + mergeCount world obj count).toUInt32 := by
  have destLive : objectExists (setAttribute world obj .amount
      ((getAttribute world obj .amount).toInt32 - mergeCount world obj count).toUInt32) dest = true := by
    rw [exists_iff_type, (set_attribute_quiet _ _ _ _).table, ← exists_iff_type]
    exact mergeable.destLive
  rw [partsMoved, partsTaken, changeAttribute, changeAttribute, mergeable.live]
  simp only [Bool.not_true, Bool.false_eq_true, if_false, destLive]

theorem part_reshared (less : mergeCount world obj count < (getAttribute world obj .amount).toInt32)
    (fair : FairMerge world obj dest count) (range : StacksInRange world) :
    Reshared world (partsMoved world obj dest count) obj dest := by
  rcases mergeable_ranges mergeable range with ⟨objBounds, destBounds⟩
  have notAll : count ≠ -1 := by
    intro all
    rw [mergeCount, if_pos all] at less
    exact absurd less Int32.lt_irrefl
  have share := fair.share.resolve_left notAll
  have fits := mergeable.fits
  have sameCount : mergeCount world obj count = count := if_neg notAll
  rw [sameCount, Int32.lt_iff_toInt_lt, to_int_amount objBounds.2] at less
  rw [sameCount, Int32.lt_iff_toInt_lt, Int32.toInt_add, to_int_amount destBounds.2] at fits
  have hundred : (100 : Int32).toInt = 100 := rfl
  have sumInt : (count.toInt + (getAttribute world dest .amount).toNat).bmod (2 ^ 32) =
      count.toInt + (getAttribute world dest .amount).toNat := by
    apply Int.bmod_eq_of_le <;> omega
  rw [sumInt, hundred] at fits
  have taken : ((getAttribute world obj .amount).toInt32 - count).toInt =
      (getAttribute world obj .amount).toNat - count.toInt := by
    rw [Int32.toInt_sub, to_int_amount objBounds.2]
    apply Int.bmod_eq_of_le <;> omega
  have given : ((getAttribute world dest .amount).toInt32 + count).toInt =
      (getAttribute world dest .amount).toNat + count.toInt := by
    rw [Int32.toInt_add, to_int_amount destBounds.2]
    apply Int.bmod_eq_of_le <;> omega
  have takenNat := @to_nat_count ((getAttribute world obj .amount).toInt32 - count) (by omega)
  have givenNat := @to_nat_count ((getAttribute world dest .amount).toInt32 + count) (by omega)
  rw [parts_moved_eq mergeable, sameCount]
  apply two_reshared mergeable range
  all_goals omega

theorem merge_count_whole
    (all : ¬ mergeCount world obj count < (getAttribute world obj .amount).toInt32) :
    mergeCount world obj count = (getAttribute world obj .amount).toInt32 ∧
      (count = -1 ∨ count = (getAttribute world obj .amount).toInt32) := by
  by_cases sentinel : count = -1
  · exact ⟨if_pos sentinel, .inl sentinel⟩
  have counted := mergeable.counted
  rw [countRefused, mergeable.stack, Bool.true_and, Bool.or_eq_false_iff] at counted
  have sameCount : mergeCount world obj count = count := if_neg sentinel
  rw [sameCount] at all ⊢
  have same := Int32.le_antisymm (Int32.not_lt.mp (of_decide_eq_false counted.2))
    (Int32.not_lt.mp all)
  exact ⟨same, .inr same⟩

theorem merged_parts_fit
    (all : ¬ mergeCount world obj count < (getAttribute world obj .amount).toInt32)
    (range : StacksInRange world) :
    mergedParts world dest + mergedParts world obj =
        getAttribute world dest .amount + getAttribute world obj .amount ∧
      (getAttribute world dest .amount + getAttribute world obj .amount).toNat =
        (getAttribute world dest .amount).toNat + (getAttribute world obj .amount).toNat ∧
      (getAttribute world dest .amount).toNat + (getAttribute world obj .amount).toNat ≤ 100 := by
  rcases mergeable_ranges mergeable range with ⟨objBounds, destBounds⟩
  have fits := mergeable.fits
  rw [(merge_count_whole mergeable all).1, Int32.lt_iff_toInt_lt, Int32.toInt_add,
    to_int_amount objBounds.2, to_int_amount destBounds.2] at fits
  have hundred : (100 : Int32).toInt = 100 := rfl
  have sumInt : (((getAttribute world obj .amount).toNat : Int) +
      (getAttribute world dest .amount).toNat).bmod (2 ^ 32) =
        (getAttribute world obj .amount).toNat + (getAttribute world dest .amount).toNat := by
    apply Int.bmod_eq_of_le <;> omega
  rw [sumInt, hundred] at fits
  constructor
  · rw [mergedParts, mergedParts, if_neg (ne_zero_of_pos objBounds.1),
      if_neg (ne_zero_of_pos destBounds.1)]
  constructor
  · rw [UInt32.toNat_add, Nat.mod_eq_of_lt (by omega)]
  · omega

end

theorem first_of_record {record : MapObject cfg} (live : liveRecord world obj = some record) :
    getFirstContainerObject world obj =
      if record.type.holdsObjects then ⟨record.getAttribute .content⟩ else NONE := by
  rw [getFirstContainerObject, if_neg (live_ne_none live), getObjectType, getAttribute,
    access_live live]

theorem whole_reshared (mergeable : Mergeable world obj dest count)
    (all : ¬ mergeCount world obj count < (getAttribute world obj .amount).toInt32)
    (fair : FairMerge world obj dest count) (range : StacksInRange world)
    (joined : mergeObjects world obj dest = .ok after) : Reshared world after obj dest := by
  rcases mergeable_ranges mergeable range with ⟨objBounds, destBounds⟩
  rcases merged_parts_fit mergeable all range with ⟨parts, sum, within⟩
  have noClamp : ¬ (100 : UInt32) < mergedParts world dest + mergedParts world obj := by
    rw [parts, UInt32.lt_iff_toNat_lt, sum]
    exact Nat.not_lt.mpr within
  have sameType : ¬ getObjectType world obj ≠ getObjectType world dest := not_not.mpr mergeable.type
  simp only [mergeObjects, mergeable.live, mergeable.destLive, mergeable.stack, if_neg sameType,
    Bool.not_true, Bool.false_eq_true, if_false, if_neg noClamp] at joined
  rw [parts] at joined
  have found := stack_of_live mergeable.live
  have stored := amount_stored found (ne_zero_of_pos objBounds.1)
  have sumNotZero : getAttribute world dest .amount + getAttribute world obj .amount ≠ 0 := by
    apply ne_zero_of_pos
    omega
  have first := set_amount_stack (mergeable_dest_stack mergeable) stored sumNotZero
  have untouched : liveRecord (setAttribute world dest .amount
      (getAttribute world dest .amount + getAttribute world obj .amount)) obj =
        liveRecord world obj := by
    rw [live_set_attribute, updateRecord, if_neg mergeable.apart]
  rcases object_exists_iff.mp mergeable.live with ⟨record, live⟩
  have stillLive := untouched.trans live
  have empty : getFirstContainerObject (setAttribute world dest .amount
      (getAttribute world dest .amount + getAttribute world obj .amount)) obj = NONE := by
    rw [first_of_record stillLive, ← first_of_record live]
    exact fair.hollow (merge_count_whole mergeable all).2
  have gone := delete_empty_stacks (object_exists_iff.mpr ⟨record, stillLive⟩) empty joined
  have objStack := gone obj
  have destStack := gone dest
  rw [if_pos rfl] at objStack
  rw [if_neg mergeable.apart.symm, first, if_pos rfl] at destStack
  constructor
  · exact mergeable.apart
  · intro node notObj notDest
    rw [gone, if_neg notObj, first, if_neg notDest]
  · intro type
    rw [objStack, destStack, found, mergeable_dest_stack mergeable]
    simp only [partsFrom]
    split_ifs
    · omega
    · rfl
  · rw [objStack]
    exact trivial
  · rw [destStack]
    intro _
    omega

end TibiaGame.StackAmounts
