import TibiaGame.OperateChecks

/-!
# What a call of `merge` or `move` does

A call that throws leaves the state as it was. One that returns has done one of a few
things, each a sequence of calls of the map functions with a note for the depot before
or after, and the guards that let it happen held in the state before.
-/

namespace TibiaGame.OperateSteps

open GameTypes ObjectStore ObjectOperations ObjectKinds InfoModel OperateModel ContentForest
open ForestSteps ForestOperations ForestRuns ContainerWalks OperateChecks
open Library.OrderedForest Library.Outcome Library.ThrowingState

variable {cfg : GameConfig} {state after : GameState cfg} {kids : Object → List Object}
  {join : World cfg → Object → Object → Except Halt (World cfg)}
  {surroundings : Surroundings cfg} {creatureID : UInt32} {obj con dest ignore : Object}
  {count : Int32} {split noMerge : Bool}

section Notes

/-- The state after `notify_depot`. -/
def notedDepot (state : GameState cfg) (creatureID : UInt32) (obj : Object) (count : Int32) :
    GameState cfg :=
  if creatureID = 0 then state
  else match state.creatures creatureID with
    | none => state
    | some creature => match creature.player with
      | none => state
      | some player =>
          if player.depot = NONE then state
          else match isHeldByContainer state.world obj player.depot with
            | .ok true => addDepotSpace state creatureID creature player count
            | _ => state

def objectCount (world : World cfg) (obj : Object) : Nat :=
  match countObjects world obj with
  | .ok objects => objects
  | .error _ => 0

/-- The state after `notify_depot` with the number of objects, where it is called. -/
def notedObjects (silent : Bool) (creatureID : UInt32) (obj : Object) (sign : Int32)
    (state : GameState cfg) : GameState cfg :=
  if silent then state
  else notedDepot state creatureID obj (sign * Int32.ofNat (objectCount state.world obj))

@[simp] theorem noted_depot_world (state : GameState cfg) (creatureID : UInt32) (obj : Object)
    (count : Int32) : (notedDepot state creatureID obj count).world = state.world := by
  unfold notedDepot
  split
  · rfl
  split
  · rfl
  split
  · rfl
  · split
    · rfl
    · split <;> rfl

@[simp] theorem noted_objects_world (silent : Bool) (creatureID : UInt32) (obj : Object)
    (sign : Int32) (state : GameState cfg) :
    (notedObjects silent creatureID obj sign state).world = state.world := by
  unfold notedObjects
  split_ifs
  · rfl
  · exact noted_depot_world _ _ _ _

variable (forest : Forest (liveRecord state.world) kids)
include forest

theorem object_count_eq (isLive : objectExists state.world obj = true) :
    countObjects state.world obj = .ok (objectCount state.world obj) := by
  rw [objectCount, count_objects_spec forest isLive]

theorem notify_depot_spec {throws : Result → GameState cfg → Prop} {halts : Halt → Prop}
    (isLive : objectExists state.world obj = true) :
    Meets (notifyDepot creatureID obj count : Operate cfg Unit) state
      (fun _ after => after = notedDepot state creatureID obj count) throws halts := by
  apply meets_get
  unfold notedDepot
  by_cases nobody : creatureID = 0
  · rw [if_pos nobody, if_pos nobody]
    exact meets_pure rfl
  rw [if_neg nobody, if_neg nobody]
  rcases found : state.creatures creatureID with _ | creature
  · exact meets_pure rfl
  simp only [isLive, Bool.not_true]
  apply meets_bind (meets_pure rfl :
    Meets (refuse false Result.error) state (fun _ after => after = state) _ _)
  intro _ after same
  rw [same]
  rcases creature.player with _ | player
  · exact meets_pure rfl
  simp only
  by_cases closed : player.depot = NONE
  · rw [if_pos closed, if_pos closed]
    exact meets_pure rfl
  rw [if_neg closed, if_neg closed]
  rcases held_returns forest player.depot isLive with ⟨held, returned, _⟩
  rw [returned]
  apply meets_bind (meets_attempt rfl ⟨rfl, rfl⟩ : Meets (attempt (.ok held)) state
    (fun seen middle => seen = held ∧ middle = state) _ _)
  intro seen middle both
  rw [both.1, both.2]
  cases held with
  | true => exact meets_set rfl
  | false => exact meets_pure rfl

theorem notify_objects_spec {throws : Result → GameState cfg → Prop} {halts : Halt → Prop}
    (isLive : objectExists state.world obj = true) (silent : Bool) (sign : Int32) :
    Meets (whenever (!silent) (notifyDepotOf creatureID obj sign) : Operate cfg Unit) state
      (fun _ after => after = notedObjects silent creatureID obj sign state) throws halts := by
  cases silent with
  | true => exact meets_pure rfl
  | false =>
    apply meets_get
    rw [object_count_eq forest isLive]
    exact notify_depot_spec forest isLive

end Notes

section Merging

variable {Value : Type} {halts : Halt → Prop}

/-- `Count` of `merge` after the sentinel for all parts. -/
def mergeCount (world : World cfg) (obj : Object) (count : Int32) : Int32 :=
  if count = -1 then (getAttribute world obj .amount).toInt32 else count

/-- What has been checked when `merge` begins to change the state. -/
structure Mergeable (world : World cfg) (obj dest : Object) (count : Int32) : Prop where
  live : objectExists world obj = true
  destLive : objectExists world dest = true
  counted : countRefused world obj count = false
  apart : obj ≠ dest
  type : getObjectType world obj = getObjectType world dest
  stack : (getObjectType world obj).getFlag .cumulative = true
  fits : ¬ 100 < mergeCount world obj count + (getAttribute world dest .amount).toInt32

def partsTaken (world : World cfg) (obj : Object) (count : Int32) : World cfg :=
  changeAttribute world obj .amount
    ((getAttribute world obj .amount).toInt32 - mergeCount world obj count).toUInt32

def partsMoved (world : World cfg) (obj dest : Object) (count : Int32) : World cfg :=
  changeAttribute (partsTaken world obj count) dest .amount
    ((getAttribute world dest .amount).toInt32 + mergeCount world obj count).toUInt32

/-- What a call of `merge` that returns has done. -/
inductive MergeStep (join : World cfg → Object → Object → Except Halt (World cfg))
    (state : GameState cfg) (creatureID : UInt32) (obj dest : Object) (count : Int32) :
    GameState cfg → Prop
  | itself (same : obj = dest) : MergeStep join state creatureID obj dest count state
  | part (mergeable : Mergeable state.world obj dest count)
      (less : mergeCount state.world obj count < (getAttribute state.world obj .amount).toInt32) :
      MergeStep join state creatureID obj dest count
        { state with world := partsMoved state.world obj dest count }
  | whole {world : World cfg} (mergeable : Mergeable state.world obj dest count)
      (all : ¬ mergeCount state.world obj count < (getAttribute state.world obj .amount).toInt32)
      (joined : join state.world obj dest = .ok world) :
      MergeStep join state creatureID obj dest count
        { notedDepot state creatureID obj 1 with world := world }

def JoinHalts (join : World cfg → Object → Object → Except Halt (World cfg))
    (world : World cfg) (obj : Object) (halt : Halt) : Prop :=
  ∃ dest, objectExists world dest = true ∧ join world obj dest = .error halt

theorem on_map_meets {call : World cfg → Except Halt (Value × World cfg)}
    {returns : Value → GameState cfg → Prop} {throws : Result → GameState cfg → Prop}
    (stopped : ∀ halt, call state.world = .error halt → halts halt)
    (returned : ∀ value world, call state.world = .ok (value, world) →
      returns value { state with world := world }) :
    Meets (onMap call) state returns throws halts := by
  apply meets_perform
  · intro halt failed
    rcases called : call state.world with reason | ended
    · simp only [called, Except.map, Except.error.injEq] at failed
      rw [← failed]
      exact stopped reason called
    simp only [called, Except.map] at failed
    cases failed
  intro result after ended
  rcases called : call state.world with reason | pair
  · simp only [called, Except.map] at ended
    cases ended
  simp only [called, Except.map, Except.ok.injEq, Prod.mk.injEq] at ended
  rw [← ended.1, ← ended.2]
  exact returned pair.1 pair.2 called

theorem change_map_meets {call : World cfg → Except Halt (World cfg)}
    {returns : Unit → GameState cfg → Prop} {throws : Result → GameState cfg → Prop}
    (stopped : ∀ halt, call state.world = .error halt → halts halt)
    (returned : ∀ world, call state.world = .ok world → returns () { state with world := world }) :
    Meets (changeMap call) state returns throws halts := by
  apply on_map_meets
  · intro halt failed
    rcases called : call state.world with reason | world
    · simp only [called, Except.map, Except.error.injEq] at failed
      rw [← failed]
      exact stopped reason called
    simp only [called, Except.map] at failed
    cases failed
  intro value world ended
  apply returned
  rcases map_ok.mp ended with ⟨after, called, same⟩
  cases same
  exact called

/-- `Reads` for a program that ends in the state it began in, before the rest. -/
theorem checked_then {first : Operate cfg Unit} {rest : Operate cfg Value} {guard : Unit → Prop}
    {returns : Value → GameState cfg → Prop} (reads : Reads first state guard)
    (meets : guard () → Meets rest state returns (fun _ after => after = state) halts) :
    Meets (first >>= fun _ => rest) state returns (fun _ after => after = state) halts :=
  reads.bind (fun _ => rfl) fun _ passed => meets passed

theorem refused_then {refused : Bool} {result : Result} {rest : Operate cfg Value}
    {returns : Value → GameState cfg → Prop}
    (meets : refused = false → Meets rest state returns (fun _ after => after = state) halts) :
    Meets (refuse refused result >>= fun _ => rest) state returns (fun _ after => after = state)
      halts := by
  have passes : Reads (refuse refused result : Operate cfg Unit) state
      fun _ => refused = false := reads_refuse fun passed => passed
  exact checked_then passes meets

/-- The course of `merge`, whatever its checks and its note need to come back. -/
theorem merge_course
    (checks : objectExists state.world obj = true → objectExists state.world dest = true →
      ∀ parts, Meets (checkMerge surroundings creatureID obj dest parts ignore) state
        (fun _ after => after = state) (fun _ after => after = state) halts)
    (note : objectExists state.world obj = true →
      Meets (notifyDepot creatureID obj 1 : Operate cfg Unit) state
        (fun _ after => after = notedDepot state creatureID obj 1) (fun _ after => after = state)
        halts)
    (joins : objectExists state.world dest = true → ∀ halt,
      join state.world obj dest = .error halt → halts halt) :
    Meets (mergeUsing join surroundings creatureID obj dest count ignore) state
      (fun _ after => MergeStep join state creatureID obj dest count after)
      (fun _ after => after = state) halts := by
  apply meets_get
  apply refused_then
  intro live
  apply refused_then
  intro destLive
  apply refused_then
  intro counted
  have isLive : objectExists state.world obj = true := by simpa using live
  have destIsLive : objectExists state.world dest = true := by simpa using destLive
  by_cases same : obj = dest
  · rw [if_pos same]
    exact meets_pure (.itself same)
  rw [if_neg same]
  apply refused_then
  intro sameType
  apply refused_then
  intro stack
  apply refused_then
  intro fits
  have mergeable : Mergeable state.world obj dest count := by
    constructor
    · exact isLive
    · exact destIsLive
    · exact counted
    · exact same
    · simpa using sameType
    · simpa using stack
    · exact of_decide_eq_false fits
  apply meets_bind (checks isLive destIsLive _)
  intro _ middle unchanged
  rw [unchanged]
  by_cases less : mergeCount state.world obj count < (getAttribute state.world obj .amount).toInt32
  · rw [mergeCount] at less
    rw [if_pos less]
    apply meets_bind (change_map_meets _ _ : Meets _ state (fun _ after => after =
      { state with world := partsTaken state.world obj count }) _ _)
    · intro _ middle reached
      rw [reached]
      apply change_map_meets
      · nofun
      · intro world changed
        cases changed
        exact .part mergeable less
    · nofun
    · intro world changed
      cases changed
      rfl
  rw [mergeCount] at less
  rw [if_neg less]
  apply meets_bind (note isLive)
  intro _ middle noted
  rw [noted]
  apply change_map_meets
  · intro halt failed
    rw [noted_depot_world] at failed
    exact joins destIsLive halt failed
  · intro world joined
    rw [noted_depot_world] at joined
    exact .whole mergeable less joined

/-- A call of `merge` leaves the state as it was, or takes one of the steps. -/
theorem merge_steps (forest : Forest (liveRecord state.world) kids) :
    Meets (mergeUsing join surroundings creatureID obj dest count ignore) state
      (fun _ after => MergeStep join state creatureID obj dest count after)
      (fun _ after => after = state) (JoinHalts join state.world obj) := by
  apply merge_course
  · intro isLive destLive parts
    exact (check_merge_reads forest isLive destLive).silent.imp (fun _ _ held => held.1)
      (fun _ _ same => same) fun _ held => held
  · exact notify_depot_spec forest
  · intro destLive halt failed
    exact ⟨dest, destLive, failed⟩

end Merging

section Splitting

variable {world : World cfg} {old : Object}

/-- A part of a stack, with at least one part and not all, comes off. -/
structure Parted (world : World cfg) (obj : Object) (count : Int32) : Prop where
  stack : (getObjectType world obj).getFlag .cumulative = true
  some : 0 < count
  less : count.toUInt32 < getAttribute world obj .amount

/-- The new stack of `split_object` beside the old one. -/
def splitWorld (made : World cfg) (part obj : Object) (amount : UInt32) (count : Int32) :
    World cfg :=
  setAttribute (setAttribute made part .amount count.toUInt32) obj .amount
    (amount - count.toUInt32)

theorem split_whole (whole : ¬ Parted world obj count) (isLive : objectExists world obj = true) :
    splitObject world obj count = .ok (obj, world) := by
  simp only [splitObject, isLive, Bool.not_true, Bool.false_eq_true, if_false]
  split_ifs with plain outside exact
  · rfl
  · rfl
  · rfl
  · exfalso
    apply whole
    rcases not_or.mp outside with ⟨positive, within⟩
    constructor
    · simpa using plain
    · exact Int32.not_le.mp positive
    · exact UInt32.lt_of_le_of_ne (UInt32.not_lt.mp within) exact

theorem stack_is_item (stack : (getObjectType world obj).getFlag .cumulative = true) :
    (getObjectType world obj).isCreatureContainer = false := by
  apply Bool.eq_false_iff.mpr
  intro creature
  have number : (getObjectType world obj).typeID = 99 := by
    simpa [ObjectType.isCreatureContainer] using creature
  rw [ObjectType.getFlag, number, cfg.creature_single] at stack
  cases stack

theorem split_part (described : Described world kids) (edge : obj ∈ kids old)
    (parted : Parted world obj count) :
    (∃ halt, splitObject world obj count = .error halt ∧ (halt = .abort ∨ halt = .assertion)) ∨
      ∃ part made, copyObject world old obj = .ok (part, made) ∧
        splitObject world obj count =
          .ok (part, splitWorld made part obj (getAttribute world obj .amount) count) ∧
        Created world kids old (getObjectType world obj) false part
          (splitWorld made part obj (getAttribute world obj .amount) count) := by
  rcases member_container described.forest edge with ⟨isLive, inOld⟩
  have isHolder := described.forest.parent_holds edge
  have refused : ¬ (count ≤ 0 ∨ getAttribute world obj .amount < count.toUInt32) := by
    intro either
    rcases either with none | more
    · exact absurd parted.some (Int32.not_lt.mpr none)
    · exact absurd parted.less (UInt32.not_lt.mpr (UInt32.le_of_lt more))
  have less : count.toUInt32 ≠ getAttribute world obj .amount := UInt32.ne_of_lt parted.less
  have unfolded : splitObject world obj count = (copyObject world old obj >>= fun made =>
      .ok (made.1, splitWorld made.2 made.1 obj (getAttribute world obj .amount) count)) := by
    simp only [splitObject, isLive, parted.stack, inOld, Bool.not_true, Bool.false_eq_true,
      if_false, if_neg refused, if_neg less]
    rfl
  rw [unfolded]
  rcases copy_object_spec described.agreement described.forest isHolder isLive
    (stack_is_item parted.stack) with ⟨halt, full, failed⟩ | ⟨part, made, returned, created⟩
  · left
    exists halt
    rw [failed]
    exact ⟨rfl, create_error full⟩
  right
  exists part, made
  constructor
  · exact returned
  constructor
  · rw [returned]
    rfl
  have first : Forest (liveRecord (setAttribute made part .amount count.toUInt32))
      (placed made kids part old false) := set_attribute_forest created.forest (by decide)
  apply created.later ((set_attribute_quiet _ _ _ _).trans (set_attribute_quiet _ _ _ _))
    (created.other_live (holder_exists isHolder)).2
  exact set_attribute_forest first (show InstanceAttribute.amount ≠ .content by decide)

end Splitting

/-- What `move` has done after its checks. -/
inductive CarryStep (state : GameState cfg) (creatureID : UInt32) (obj con : Object)
    (count : Int32) (split : Bool) : GameState cfg → Prop
  | carried {part : Object} {parted moved : World cfg}
      (cut : if split then splitObject state.world obj count = .ok (part, parted)
        else part = obj ∧ parted = state.world)
      (placed : moveObject parted part con = .ok moved) :
      CarryStep state creatureID obj con count split
        (notedObjects (getObjectType state.world obj).isCreatureContainer creatureID part (-1)
          { notedObjects ((getObjectType state.world obj).isCreatureContainer || split)
              creatureID part 1 { state with world := parted } with world := moved })

/-- `Count` of `move` after the sentinel for the whole object. -/
def moveCount (world : World cfg) (obj : Object) (count : Int32) : Int32 :=
  if count = -1 then partsOf world obj else count

def splits (world : World cfg) (obj : Object) (count : Int32) : Bool :=
  decide (moveCount world obj count < partsOf world obj)

/-- What has been checked when `move` begins to change the state by itself. -/
structure Carriable (state : GameState cfg) (creatureID : UInt32) (obj con : Object)
    (count : Int32) : Prop where
  live : objectExists state.world obj = true
  conLive : objectExists state.world con = true
  container : (getObjectType state.world con).getFlag .container = true
  counted : countRefused state.world obj count = false
  allowed : MoveAllowed state creatureID obj con (splits state.world obj count)

/-- `move` begins with the attempt to merge with the top object of a field. -/
def triesMerge (world : World cfg) (obj con : Object) (noMerge : Bool) : Bool :=
  !noMerge && (getObjectType world con).isMapContainer &&
    (getObjectType world obj).getFlag .cumulative && decide (getContainer world obj ≠ con)

/-- `Top` of `move`. -/
def topOn (world : World cfg) (con : Object) : Except Halt Object := do
  let place ← getObjectCoordinates world con
  getTopObject world place.1 place.2.1 place.2.2 true

/-- What a call of `move` that returns has done. -/
inductive MoveStep (join : World cfg → Object → Object → Except Halt (World cfg))
    (state : GameState cfg) (creatureID : UInt32) (obj con : Object) (count : Int32)
    (noMerge : Bool) : GameState cfg → Prop
  | merged {top : Object} {after : GameState cfg} (live : objectExists state.world obj = true)
      (conLive : objectExists state.world con = true)
      (tried : triesMerge state.world obj con noMerge = true)
      (found : topOn state.world con = .ok top)
      (step : MergeStep join state creatureID obj top count after) :
      MoveStep join state creatureID obj con count noMerge after
  | carried {after : GameState cfg} (carriable : Carriable state creatureID obj con count)
      (step : CarryStep state creatureID obj con (moveCount state.world obj count)
        (splits state.world obj count) after) :
      MoveStep join state creatureID obj con count noMerge after

/-- The hash table has no room, or the function that joins whole stacks does not come back. -/
def MoveHalts (join : World cfg → Object → Object → Except Halt (World cfg))
    (world : World cfg) (obj : Object) (halt : Halt) : Prop :=
  halt = .abort ∨ halt = .assertion ∨ JoinHalts join world obj halt

theorem tries_merge_field {world : World cfg} (tries : triesMerge world obj con noMerge = true) :
    (getObjectType world con).isMapContainer = true := by
  simp only [triesMerge, Bool.and_eq_true] at tries
  exact tries.1.1.2

theorem coordinates_of_field {world : World cfg} (isLive : objectExists world con = true)
    (field : (getObjectType world con).isMapContainer = true) :
    ∃ place, getObjectCoordinates world con = .ok place := by
  have here : fieldWalk world walkLimit con = .ok con := by
    rw [show walkLimit = 2 ^ 34 - 1 + 1 from rfl, fieldWalk, if_pos field]
  rw [getObjectCoordinates, if_pos isLive, here]
  exact ⟨_, rfl⟩

theorem merge_on_top_steps (forest : Forest (liveRecord state.world) kids)
    (grounded : Grounded state.world) (conLive : objectExists state.world con = true) :
    Meets (mergeOnTop join surroundings creatureID obj con count noMerge ignore) state
      (fun merged after => merged = false ∧ after = state ∨
        merged = true ∧ triesMerge state.world obj con noMerge = true ∧
          ∃ top, topOn state.world con = .ok top ∧
            MergeStep join state creatureID obj top count after)
      (fun _ after => after = state) (JoinHalts join state.world obj) := by
  apply meets_get
  split_ifs with tries
  · have field := tries_merge_field tries
    rcases coordinates_of_field conLive field with ⟨place, located⟩
    rcases top_object_returns forest grounded place.1 place.2.1 place.2.2 true with
      ⟨top, found, _⟩
    have foundTop : topOn state.world con = .ok top := by
      rw [topOn, located]
      exact found
    rw [located]
    apply meets_bind (meets_attempt rfl ⟨rfl, rfl⟩ : Meets (attempt (.ok place)) state
      (fun seen middle => seen = place ∧ middle = state) _ _)
    intro seen middle both
    rw [both.1, both.2, found]
    apply meets_bind (meets_attempt rfl ⟨rfl, rfl⟩ : Meets (attempt (.ok top)) state
      (fun seen middle => seen = top ∧ middle = state) _ _)
    intro seen middle both
    rw [both.1, both.2]
    split_ifs
    · exact meets_pure (.inl ⟨rfl, rfl⟩)
    apply meets_catch
    · apply meets_bind (merge_steps forest)
      intro _ after step
      exact meets_pure (.inr ⟨rfl, tries, top, foundTop, step⟩)
    intro result after same
    rw [same]
    split_ifs
    · exact meets_throw rfl
    · exact meets_pure (.inl ⟨rfl, rfl⟩)
  · exact meets_pure (.inl ⟨rfl, rfl⟩)

/-- What `move_object` finds: its object lies somewhere, and the container takes it. -/
structure Ready (world : World cfg) (kids : Object → List Object) (obj con old : Object) :
    Prop where
  described : Described world kids
  edge : obj ∈ kids old
  holder : IsHolder world con
  outside : ¬ Below kids obj con

theorem split_ready {old part : Object} {parted : World cfg}
    (ready : Ready state.world kids obj con old)
    (cut : if split then splitObject state.world obj count = .ok (part, parted)
      else part = obj ∧ parted = state.world) : ∃ newKids, Ready parted newKids part con old := by
  have unchanged : part = obj → parted = state.world → ∃ newKids, Ready parted newKids part con old := by
    intro samePart sameWorld
    rw [samePart, sameWorld]
    exact ⟨kids, ready⟩
  rcases split with _ | _
  · exact unchanged cut.1 cut.2
  have isLive := (member_container ready.described.forest ready.edge).1
  by_cases separates : Parted state.world obj count
  · rcases split_part ready.described ready.edge separates with
      ⟨halt, failed, _⟩ | ⟨new, made, _, returned, created⟩
    · rw [failed] at cut
      cases cut
    · rw [returned] at cut
      cases cut
      have conLive := created.other_live ready.holder.1
      have oldLive := created.other_live
        (holder_exists (ready.described.forest.parent_holds ready.edge))
      have empty : placed (splitWorld made part obj
          (getAttribute state.world obj .amount) count) kids part old false part = [] := by
        rw [placed_elsewhere false oldLive.1.symm]
        apply ready.described.forest.barren
        simp [holdsOf, created.fresh]
      refine ⟨_, ⟨created.agreement, created.forest⟩, ?_, ?_, ?_⟩
      · rw [placed, Function.update_self]
        simp
      · apply holder_iff.mpr
        rw [holds_of_type, created.types, if_neg conLive.1, ← holds_of_type]
        exact holder_iff.mp ready.holder
      · rw [below_leaf empty]
        exact conLive.1
  rw [split_whole separates isLive] at cut
  cases cut
  exact unchanged rfl rfl

/-- The course of `move` after its checks. A part that is cut off has to exist, or the
notes throw when it has been cut off already. -/
theorem carry_course {throws : Result → GameState cfg → Prop} {halts : Halt → Prop}
    (cuts : ∀ halt, splitObject state.world obj count = .error halt → halts halt)
    (partLive : ∀ part parted, (if split then splitObject state.world obj count = .ok (part, parted)
      else part = obj ∧ parted = state.world) → objectExists parted part = true ∧
        (∀ halt, moveObject parted part con = .error halt → halts halt) ∧
        ∀ (seen : GameState cfg) (silent : Bool) (sign : Int32),
          seen.world = parted ∨ moveObject parted part con = .ok seen.world →
          Meets (whenever (!silent) (notifyDepotOf creatureID part sign) : Operate cfg Unit) seen
            (fun _ after => after = notedObjects silent creatureID part sign seen) throws halts) :
    Meets (carryOver creatureID obj con count split) state
      (fun _ after => CarryStep state creatureID obj con count split after) throws halts := by
  apply meets_get
  have cutting : Meets (if split then onMap fun world => splitObject world obj count else pure obj :
      Operate cfg Object) state (fun part middle => ∃ parted,
        middle = { state with world := parted } ∧
          if split then splitObject state.world obj count = .ok (part, parted)
          else part = obj ∧ parted = state.world) throws halts := by
    rcases split with _ | _
    · exact meets_pure ⟨state.world, rfl, rfl, rfl⟩
    rw [if_pos rfl]
    apply on_map_meets
    · exact cuts
    · intro part parted returned
      exact ⟨parted, rfl, (if_pos rfl).mpr returned⟩
  apply meets_bind cutting
  intro part middle cut
  rcases cut with ⟨parted, here, cut⟩
  rcases partLive part parted cut with ⟨isLive, moves, notes⟩
  rw [here]
  have noted : (!(getObjectType state.world obj).isCreatureContainer && !split) =
      !((getObjectType state.world obj).isCreatureContainer || split) := by
    rw [Bool.not_or]
  rw [noted]
  apply meets_bind (notes _ _ 1 (.inl rfl))
  intro _ middle departed
  rw [departed]
  apply meets_bind (change_map_meets _ _ : Meets _ _ (fun _ after => ∃ moved,
    moveObject parted part con = .ok moved ∧ after =
      { notedObjects ((getObjectType state.world obj).isCreatureContainer || split) creatureID part 1
        { state with world := parted } with world := moved }) _ _)
  · intro _ middle arrived
    rcases arrived with ⟨moved, placed, there⟩
    rw [there]
    apply (notes _ _ (-1) (.inr placed)).imp
    · intro _ after same
      rw [same]
      exact .carried cut placed
    · intro _ _ held
      exact held
    · intro _ held
      exact held
  · intro halt failed
    rw [noted_objects_world] at failed
    exact moves halt failed
  · intro world returned
    rw [noted_objects_world] at returned
    exact ⟨world, returned, rfl⟩

theorem carry_over_steps {old : Object} {throws : Result → GameState cfg → Prop}
    (ready : Ready state.world kids obj con old) :
    Meets (carryOver creatureID obj con count split) state
      (fun _ after => CarryStep state creatureID obj con count split after) throws
      (fun halt => halt = .abort ∨ halt = .assertion) := by
  have isLive := (member_container ready.described.forest ready.edge).1
  apply carry_course
  · intro halt failed
    by_cases separates : Parted state.world obj count
    · rcases split_part ready.described ready.edge separates with
        ⟨reason, stopped, full⟩ | ⟨new, made, _, returned, _⟩
      · rw [stopped] at failed
        cases failed
        exact full
      · rw [returned] at failed
        cases failed
    rw [split_whole separates isLive] at failed
    cases failed
  intro part parted cut
  rcases split_ready ready cut with ⟨newKids, partReady⟩
  have partLive := (member_container partReady.described.forest partReady.edge).1
  rcases move_object_spec partReady.described.forest partReady.edge (holder_iff.mp partReady.holder)
    partReady.outside with ⟨moved, placed, quiet, movedForest⟩
  constructor
  · exact partLive
  constructor
  · intro halt failed
    rw [placed] at failed
    cases failed
  intro seen silent sign world
  rcases world with before | after
  · rw [← before] at partReady partLive
    exact notify_objects_spec partReady.described.forest partLive silent sign
  rw [placed] at after
  cases after
  have stillLive : objectExists seen.world part = true := by
    rw [exists_iff_type, quiet.table, ← exists_iff_type]
    exact partLive
  exact notify_objects_spec movedForest stillLive silent sign

/-- A call of `move` leaves the state as it was, or takes one of the steps. The caller
has to know that what the checks allow is not a move into the object itself. -/
theorem move_steps (described : Described state.world kids) (grounded : Grounded state.world)
    (ready : Carriable state creatureID obj con count → ∃ old, Ready state.world kids obj con old) :
    Meets (moveUsing join surroundings creatureID obj con count noMerge ignore) state
      (fun _ after => MoveStep join state creatureID obj con count noMerge after)
      (fun _ after => after = state) (MoveHalts join state.world obj) := by
  apply meets_get
  apply refused_then
  intro live
  apply refused_then
  intro conLive
  apply refused_then
  intro container
  apply refused_then
  intro counted
  have isLive : objectExists state.world obj = true := by simpa using live
  have conIsLive : objectExists state.world con = true := by simpa using conLive
  have merging : Meets (mergeOnTop join surroundings creatureID obj con count noMerge ignore) state
      _ _ _ := merge_on_top_steps described.forest grounded conIsLive
  apply meets_bind (merging.imp (fun _ _ held => held) (fun _ _ held => held)
    fun halt stopped => .inr (.inr stopped))
  intro merged middle ended
  rcases ended with ⟨failed, same⟩ | ⟨succeeded, tried, top, found, step⟩
  · rw [failed, same]
    apply meets_get
    apply checked_then (check_move_reads described.forest isLive conIsLive)
    intro allowed
    have carriable : Carriable state creatureID obj con count := by
      constructor
      · exact isLive
      · exact conIsLive
      · simpa using container
      · exact counted
      · exact allowed
    rcases ready carriable with ⟨old, isReady⟩
    apply (carry_over_steps isReady).imp
    · intro _ after step
      exact .carried carriable step
    · intro _ _ held
      exact held
    · intro halt full
      rcases full with abort | assertion
      · exact .inl abort
      · exact .inr (.inl assertion)
  rw [succeeded]
  exact meets_pure (.merged isLive conIsLive tried found step)

end TibiaGame.OperateSteps
