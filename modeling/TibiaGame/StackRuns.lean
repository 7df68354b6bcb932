import TibiaGame.MoveForest
import TibiaGame.StackAmounts

/-!
# Runs of `move` and `merge` conserve the stacks

Any state may be the first, as long as all its stacks are in range; nothing is assumed
of the content lists. A call is fair when no stack is left with parts that it must not
have, nothing lies in a stack that is given up, and a stack that is cut in two lies in
a container that exists.
-/

namespace TibiaGame.StackRuns

open GameTypes ObjectStore ObjectOperations ObjectKinds ForestRuns ObjectPayload InfoModel
open OperateModel OperateSteps OperateFrames StackAmounts FurnishedWorlds MoveForest
open Library.ThrowingState

variable {cfg : GameConfig} {world : World cfg} {start state after : GameState cfg}
  {join otherJoin : World cfg → Object → Object → Except Halt (World cfg)}
  {surroundings : Surroundings cfg} {creatureID : UInt32} {obj con dest ignore : Object}
  {count : Int32} {split noMerge : Bool}

inductive StackCall (cfg : GameConfig) where
  | merge (surroundings : Surroundings cfg) (creatureID : UInt32) (obj dest : Object)
      (count : Int32) (ignore : Object)
  | move (surroundings : Surroundings cfg) (creatureID : UInt32) (obj con : Object)
      (count : Int32) (noMerge : Bool) (ignore : Object)

def callStack (join : World cfg → Object → Object → Except Halt (World cfg)) :
    StackCall cfg → Operate cfg Unit
  | .merge surroundings creatureID obj dest count ignore =>
      mergeUsing join surroundings creatureID obj dest count ignore
  | .move surroundings creatureID obj con count noMerge ignore =>
      moveUsing join surroundings creatureID obj con count noMerge ignore

/-- Whatever `merge` would do with the two objects is fair to both. -/
def MergesFairly (world : World cfg) (obj dest : Object) (count : Int32) : Prop :=
  obj ≠ dest → getObjectType world obj = getObjectType world dest → FairMerge world obj dest count

def Fair (state : GameState cfg) : StackCall cfg → Prop
  | .merge _ _ obj dest count _ => MergesFairly state.world obj dest count
  | .move _ _ obj con count noMerge _ =>
      (∀ top, triesMerge state.world obj con noMerge = true → topOn state.world con = .ok top →
        MergesFairly state.world obj top count) ∧
      (Parted state.world obj (moveCount state.world obj count) →
        objectExists state.world (getContainer state.world obj) = true)

/-- The states that a sequence of calls leads to; a call that throws ends too. -/
inductive RunFrom (allowed : GameState cfg → StackCall cfg → Prop) (start : GameState cfg) :
    GameState cfg → Prop
  | start : RunFrom allowed start start
  | step {middle after : GameState cfg} {call : StackCall cfg} {result : Except Result Unit}
      (run : RunFrom allowed start middle) (permitted : allowed middle call)
      (ended : finish (callStack mergeObjects call) middle = .ok (result, after)) :
      RunFrom allowed start after

/-- `merge_objects`, but it does not come back when the sum of the parts is cut down. -/
def mergeUncut (world : World cfg) (obj dest : Object) : Except Halt (World cfg) :=
  if 100 < mergedParts world dest + mergedParts world obj then .error (.exception "AMOUNT")
  else mergeObjects world obj dest

structure Conserved (before after : World cfg) : Prop where
  permanent : kinds after 0 = .permanent
  range : StacksInRange after
  total : ∀ type, totalAmount after type = totalAmount before type

theorem reshared_conserved {before after : World cfg} {left right : Object}
    (permanent : kinds after 0 = .permanent) (range : StacksInRange before)
    (reshared : Reshared before after left right) : Conserved before after :=
  ⟨permanent, reshared.range range, reshared.total⟩

theorem same_stacks_conserved {before after : World cfg} (permanent : kinds after 0 = .permanent)
    (range : StacksInRange before) (same : SameView stackView before after) : Conserved before after := by
  constructor
  · exact permanent
  · intro node
    rw [stackOf, same node, ← stackOf]
    exact range node
  · intro type
    apply finsum_congr
    intro node
    rw [stackOf, same node, ← stackOf]

theorem Conserved.trans {first second third : World cfg} (left : Conserved first second)
    (right : Conserved second third) : Conserved first third :=
  ⟨right.permanent, right.range, fun type => (right.total type).trans (left.total type)⟩

theorem shrunk_permanent {before after : World cfg} (shrunk : Shrunk before after)
    (permanent : kinds before 0 = .permanent) : kinds after 0 = .permanent := by
  rcases shrunk.table 0 with gone | kept
  · exact (gone.2 permanent).elim
  · rw [kept, permanent]

theorem change_attribute_quiet (world : World cfg) (obj : Object) (attr : InstanceAttribute)
    (value : UInt32) : Quiet world (changeAttribute world obj attr value) := by
  unfold changeAttribute
  split_ifs
  · exact .refl world
  · exact set_attribute_quiet _ _ _ _

section

variable (permanent : kinds state.world 0 = .permanent) (range : StacksInRange state.world)
include permanent range

theorem merge_step_conserved (fair : MergesFairly state.world obj dest count)
    (step : MergeStep mergeObjects state creatureID obj dest count after) :
    Conserved state.world after.world := by
  cases step with
  | itself same => exact ⟨permanent, range, fun _ => rfl⟩
  | part mergeable less =>
    have quiet : Quiet state.world (partsMoved state.world obj dest count) :=
      (change_attribute_quiet _ _ _ _).trans (change_attribute_quiet _ _ _ _)
    exact reshared_conserved (shrunk_permanent quiet.shrunk permanent) range
      (part_reshared mergeable less (fair mergeable.apart mergeable.type) range)
  | whole mergeable all joined =>
    exact reshared_conserved (shrunk_permanent (merge_shrinks joined) permanent) range
      (whole_reshared mergeable all (fair mergeable.apart mergeable.type) range joined)

theorem carry_step_conserved (isLive : objectExists state.world obj = true)
    (lies : Parted state.world obj count →
      objectExists state.world (getContainer state.world obj) = true)
    (step : CarryStep state creatureID obj con count split after) :
    Conserved state.world after.world := by
  cases step with
  | @carried part parted moved cut placed =>
    rw [noted_objects_world]
    have cutConserved : Conserved state.world parted := by
      rcases split with _ | _
      · rw [cut.2]
        exact ⟨permanent, range, fun _ => rfl⟩
      rw [if_pos rfl] at cut
      by_cases separates : Parted state.world obj count
      · rcases split_reshared permanent isLive (lies separates) (range obj) separates cut with
          ⟨reshared, _, stillPermanent⟩
        exact reshared_conserved stillPermanent range reshared
      rw [split_whole separates isLive] at cut
      cases cut
      exact ⟨permanent, range, fun _ => rfl⟩
    have quiet := move_object_quiet placed
    exact cutConserved.trans (same_stacks_conserved
      (shrunk_permanent quiet.shrunk cutConserved.permanent) cutConserved.range
      (move_view stack_unlinked placed))

/-- A fair call that comes back conserves the stacks; when it throws, nothing changes. -/
theorem fair_call_conserves {call : StackCall cfg} (fair : Fair state call) :
    Meets (callStack mergeObjects call) state (fun _ after => Conserved state.world after.world)
      (fun _ after => after = state) fun _ => True := by
  cases call with
  | merge surroundings creatureID obj dest count ignore =>
    apply merge_outcome.imp
    · intro _ after step
      exact merge_step_conserved permanent range fair step
    · intro _ _ same
      exact same
    · intro _ held
      exact held
  | move surroundings creatureID obj con count noMerge ignore =>
    apply (move_outcome _).imp
    · intro _ after outcome
      rcases outcome with merged | carried
      · rcases merged with ⟨top, tried, found, step⟩
        exact merge_step_conserved permanent range (fair.1 top tried found) step
      · exact carry_step_conserved permanent range carried.1 fair.2 carried.2
    · intro _ _ same
      exact same
    · intro _ held
      exact held
    · intro _ isLive part parted cut
      by_cases separates : Parted state.world obj (moveCount state.world obj count)
      · exact (split_reshared permanent isLive (fair.2 separates) (range obj) separates cut).2.1
      rw [split_whole separates isLive] at cut
      cases cut
      exact isLive

end

theorem fair_run_conserves (permanent : kinds start.world 0 = .permanent)
    (range : StacksInRange start.world) (run : RunFrom Fair start state) :
    Conserved start.world state.world := by
  induction run with
  | start => exact ⟨permanent, range, fun _ => rfl⟩
  | step run permitted ended ih =>
    have meets := fair_call_conserves ih.permanent ih.range permitted
    unfold Meets at meets
    rw [ended] at meets
    split at meets
    · rename_i failed
      cases failed
    · rename_i returned
      cases returned
      rw [meets]
      exact ih
    · rename_i returned
      cases returned
      exact ih.trans meets

/-- Only a merge of two whole stacks that has passed its checks calls the function. -/
theorem merge_alike (same : Mergeable state.world obj dest count →
      ¬ mergeCount state.world obj count < (getAttribute state.world obj .amount).toInt32 →
      join state.world obj dest = otherJoin state.world obj dest) :
    Alike (mergeUsing join surroundings creatureID obj dest count ignore)
      (mergeUsing otherJoin surroundings creatureID obj dest count ignore) state := by
  apply alike_get
  dsimp only
  apply alike_refuse
  intro live
  apply alike_refuse
  intro destLive
  apply alike_refuse
  intro counted
  have isLive : objectExists state.world obj = true := by simpa using live
  by_cases itself : obj = dest
  · rw [if_pos itself, if_pos itself]
    rfl
  rw [if_neg itself, if_neg itself]
  apply alike_refuse
  intro sameType
  apply alike_refuse
  intro stack
  apply alike_refuse
  intro fits
  apply alike_after check_merge_keeps
  intro _
  by_cases less : mergeCount state.world obj count < (getAttribute state.world obj .amount).toInt32
  · rw [mergeCount] at less
    rw [if_pos less, if_pos less]
    rfl
  have all := less
  rw [mergeCount] at less
  rw [if_neg less, if_neg less]
  apply Alike.bind rfl (notify_depot_outcome isLive)
  intro _ after noted
  have mergeable : Mergeable state.world obj dest count := by
    constructor
    · exact isLive
    · simpa using destLive
    · exact counted
    · exact itself
    · simpa using sameType
    · simpa using stack
    · exact of_decide_eq_false fits
  have joins := same mergeable all
  rw [noted]
  unfold Alike finish changeMap onMap perform
  simp only [ExceptT.run_mk, StateT.run, noted_depot_world, joins]

theorem move_alike (same : ∀ top, Mergeable state.world obj top count →
      ¬ mergeCount state.world obj count < (getAttribute state.world obj .amount).toInt32 →
      join state.world obj top = otherJoin state.world obj top) :
    Alike (moveUsing join surroundings creatureID obj con count noMerge ignore)
      (moveUsing otherJoin surroundings creatureID obj con count noMerge ignore) state := by
  apply alike_get
  apply alike_refuse
  intro _
  apply alike_refuse
  intro _
  apply alike_refuse
  intro _
  apply alike_refuse
  intro _
  have tops : Alike (mergeOnTop join surroundings creatureID obj con count noMerge ignore)
      (mergeOnTop otherJoin surroundings creatureID obj con count noMerge ignore) state := by
    apply alike_get
    split_ifs
    · apply alike_after keeps_attempt
      intro place
      apply alike_after keeps_attempt
      intro top
      split_ifs
      · rfl
      apply Alike.catch
      apply Alike.bind (merge_alike (same top)) (merge_outcome.imp (fun _ _ _ => trivial)
        (fun _ _ _ => trivial) fun _ held => held)
      intro _ after _
      rfl
    · rfl
  apply Alike.bind tops (merge_on_top_outcome.imp (fun _ _ _ => trivial)
    (fun _ _ _ => trivial) fun _ held => held)
  intro _ after _
  rfl

/-- With all stacks in range the sum of the parts is never cut down. -/
theorem calls_without_clamp (range : StacksInRange state.world) (call : StackCall cfg) :
    finish (callStack mergeUncut call) state = finish (callStack mergeObjects call) state := by
  have uncut : ∀ obj dest count, Mergeable state.world obj dest count →
      ¬ mergeCount state.world obj count < (getAttribute state.world obj .amount).toInt32 →
      mergeUncut state.world obj dest = mergeObjects state.world obj dest := by
    intro obj dest count mergeable all
    rcases merged_parts_fit mergeable all range with ⟨parts, sum, within⟩
    have noClamp : ¬ (100 : UInt32) < mergedParts state.world dest + mergedParts state.world obj := by
      rw [parts, UInt32.lt_iff_toNat_lt, sum]
      exact Nat.not_lt.mpr within
    exact if_neg noClamp
  cases call with
  | merge surroundings creatureID obj dest count ignore =>
    exact merge_alike fun mergeable all => uncut obj dest count mergeable all
  | move surroundings creatureID obj con count noMerge ignore =>
    exact move_alike fun top mergeable all => uncut obj top count mergeable all

/-- The entries of the hash table hold no stack that is out of range. -/
def tableInRange (world : World cfg) : Bool :=
  (List.range cfg.hashTableSize).all fun index => match world.hashTable index with
    | .loaded record => !record.type.getFlag .cumulative ||
        (decide (1 ≤ (record.getAttribute .amount).toNat) &&
          decide ((record.getAttribute .amount).toNat ≤ 100))
    | _ => true

theorem table_in_range (passes : tableInRange world = true) : StacksInRange world := by
  intro obj
  rw [stackOf, viewOf]
  rcases live : liveRecord world obj with _ | record
  · exact trivial
  intro stack
  rcases live_cell.mp live with ⟨_, cell, _⟩
  have index : entryIndex cfg obj.objectID ∈ List.range cfg.hashTableSize :=
    List.mem_range.mpr (Nat.mod_lt _ (hash_table_size_pos cfg))
  have entry := List.all_eq_true.mp passes _ index
  rw [cell] at entry
  simpa [stack] using entry

def twoPiles : List (Furniture smallTypes) :=
  [⟨⟨1⟩, setTypeID smallTypes 102, 0, 50⟩, ⟨⟨1⟩, setTypeID smallTypes 102, 0, 3⟩]

end TibiaGame.StackRuns
