import TibiaGame.OperateFrames
import TibiaGame.DepotSpace
import TibiaGame.Weights

/-!
# The weight has been checked

An operation that returns has passed the checks on its way. What they say about the
weight of an object that comes into the body of a creature is kept apart from the
course of the operations.
-/

namespace TibiaGame.WeightChecks

open GameTypes ObjectStore ObjectOperations ContentForest InfoModel
open OperateModel OperateChanges OperateSteps OperateFrames
open ChangeEffects Weights Library.ThrowingState

variable {cfg : GameConfig} {state : GameState cfg} {kids : Object → List Object}
  {surroundings : Surroundings cfg} {creatureID : UInt32} {obj con dest ignore : Object}
  {type newType : ObjectType cfg} {count : Int32} {value oldValue : UInt32} {oldWeight : Int32}
  {noMerge split : Bool} {join : World cfg → Object → Object → Except Halt (World cfg)}
  {attr : InstanceAttribute} {capacities : Capacities}

/-- The owner of the destination already has the object, or can carry the parts of it. -/
def Weighed (surroundings : Surroundings cfg) (state : GameState cfg) (obj con : Object)
    (count : Int32) : Prop :=
  ∀ owner, owner ≠ 0 → getObjectCreatureID state.world con = .ok owner →
    getObjectCreatureID state.world obj = .ok owner ∨
      surroundings.weightRefused state owner obj count = none

def TypeWeighed (surroundings : Surroundings cfg) (state : GameState cfg) (con : Object)
    (type : ObjectType cfg) (value : UInt32) (oldWeight : Int32) : Prop :=
  ∀ owner, owner ≠ 0 → getObjectCreatureID state.world con = .ok owner →
    surroundings.typeWeightRefused state owner type value oldWeight = none

theorem answer_shows (result : Option Result) :
    Shows (result = none) (answer result : Operate cfg Unit) state := by
  cases result with
  | none => exact shows_of rfl
  | some thrown => exact shows_throw

theorem whenever_shows {needed : Bool} {program : Operate cfg Unit} {fact : Prop}
    (shows : needed = true → Shows fact program state) (skipped : needed = false → fact) :
    Shows fact (whenever needed program) state := by
  cases needed with
  | true => exact shows rfl
  | false => exact shows_of (skipped rfl)

theorem check_weight_shows : Shows (getObjectCreatureID state.world obj = .ok creatureID ∨
      surroundings.weightRefused state creatureID obj count = none)
    (checkWeight surroundings creatureID obj count) state := by
  apply shows_get
  apply shows_attempt
  intro owner owned
  split_ifs with same
  · rw [same] at owned
    exact shows_of (.inl owned)
  · exact (answer_shows _).imp .inr

theorem owner_check_shows {owner : UInt32} (owned : getObjectCreatureID state.world con = .ok owner) :
    Shows (Weighed surroundings state obj con count)
      (whenever (owner != 0) (checkWeight surroundings owner obj count)) state := by
  apply whenever_shows
  · intro _
    apply check_weight_shows.imp
    intro weighed other _ same
    rw [owned, Except.ok.injEq] at same
    rw [← same]
    exact weighed
  intro nobody other somebody same
  rw [owned, Except.ok.injEq] at same
  rw [← same] at somebody
  exact (somebody (by simpa using nobody)).elim

theorem check_move_shows : Shows ((getObjectType state.world con).isMapContainer = false →
      Weighed surroundings state obj con count)
    (checkMove surroundings creatureID obj con count split ignore) state := by
  apply shows_get
  apply shows_attempt
  intro owner owned
  apply check_top_move_keeps.shows
  intro _
  cases isMap : (getObjectType state.world con).isMapContainer with
  | true =>
    apply shows_of
    nofun
  | false =>
    apply check_move_object_keeps.shows
    intro _
    apply check_destination_keeps.shows
    intro _
    apply check_depot_room_keeps.shows
    intro _
    exact (owner_check_shows owned).imp fun weighed _ => weighed

theorem check_merge_shows : Shows
    ((getObjectType state.world (getContainer state.world dest)).isMapContainer = false →
      Weighed surroundings state obj dest count)
    (checkMerge surroundings creatureID obj dest count ignore) state := by
  apply shows_get
  apply shows_attempt
  intro owner owned
  apply check_top_move_keeps.shows
  intro _
  cases isMap : (getObjectType state.world (getContainer state.world dest)).isMapContainer with
  | true =>
    apply shows_of
    nofun
  | false =>
    apply check_move_object_keeps.shows
    intro _
    apply check_depot_space_keeps.shows
    intro _
    exact (owner_check_shows owned).imp fun weighed _ => weighed

theorem type_check_shows {owner : UInt32} {more : Bool}
    (owned : getObjectCreatureID state.world con = .ok owner) :
    Shows (more = true → TypeWeighed surroundings state con type value oldWeight)
      (whenever (owner != 0 && more) (checkTypeWeight surroundings owner type value oldWeight))
      state := by
  apply whenever_shows
  · intro _
    apply shows_get
    apply (answer_shows _).imp
    intro weighed _ other _ same
    rw [owned, Except.ok.injEq] at same
    rw [← same]
    exact weighed
  intro nobody needed other somebody same
  rw [owned, Except.ok.injEq] at same
  rw [← same] at somebody
  rw [needed, Bool.and_true] at nobody
  exact (somebody (by simpa using nobody)).elim

/-- A call of `move` that returns has merged on top of a field, or has been weighed. -/
theorem move_shows : Shows (triesMerge state.world obj con noMerge = true ∨
      ((getObjectType state.world con).isMapContainer = false →
        Weighed surroundings state obj con (moveCount state.world obj count)))
    (moveUsing join surroundings creatureID obj con count noMerge ignore) state := by
  apply shows_get
  apply shows_refused
  intro _
  apply shows_refused
  intro _
  apply shows_refused
  intro _
  apply shows_refused
  intro _
  apply meets_bind (merge_on_top_outcome.imp (fun _ _ held => held) (fun _ _ _ => trivial)
    fun _ held => held)
  intro merged middle ended
  rcases ended with ⟨failed, same⟩ | ⟨succeeded, tried, _⟩
  · rw [failed, same]
    apply shows_get
    exact (check_move_shows.imp .inr).bind
  · exact shows_of (.inl tried)

/-- A call of `merge` that returns has done nothing, or has been weighed. -/
theorem merge_shows : Shows (obj = dest ∨
      ((getObjectType state.world (getContainer state.world dest)).isMapContainer = false →
        Weighed surroundings state obj dest (mergeCount state.world obj count)))
    (mergeUsing join surroundings creatureID obj dest count ignore) state := by
  apply shows_get
  apply shows_refused
  intro _
  apply shows_refused
  intro _
  apply shows_refused
  intro _
  by_cases same : obj = dest
  · exact shows_of (.inl same)
  rw [if_neg same]
  apply shows_refused
  intro _
  apply shows_refused
  intro _
  apply shows_refused
  intro _
  apply Shows.bind
  exact check_merge_shows.imp .inr

theorem check_create_shows (forest : Forest (liveRecord state.world) kids)
    (conLive : objectExists state.world con = true) :
    Shows (TypeWeighed surroundings state con type value 0)
      (checkCreate surroundings con type value) state := by
  apply shows_get
  have place : Keeps (if (getObjectType state.world con).isMapContainer = true then
        checkMapPlace surroundings 0 type con
      else if (getObjectType state.world con).isBodyContainer = true then
        checkInventoryPlace type con NONE
      else checkContainerPlace surroundings type con NONE) state := by
    split_ifs
    · apply keeps_get
      exact answer_keeps _
    · exact (check_place_reads forest).keeps
    · exact (check_container_place_reads forest conLive).keeps
  apply place.shows
  intro _
  apply shows_attempt
  intro owner owned
  have checked : Shows (true = true → TypeWeighed surroundings state con type value 0)
      (whenever (owner != 0 && true) (checkTypeWeight surroundings owner type value 0)) state :=
    type_check_shows owned
  rw [Bool.and_true] at checked
  exact checked.imp fun weighed => weighed rfl

theorem create_shows (forest : Forest (liveRecord state.world) kids) :
    Shows (TypeWeighed surroundings state con type value 0)
      (create surroundings con type value) state := by
  apply shows_get
  apply shows_refused
  intro live
  apply shows_refused
  intro _
  apply shows_refused
  intro _
  have isLive : objectExists state.world con = true := by simpa using live
  exact (check_create_shows forest isLive).bind

/-- A call of `change` with an attribute that returns has written it. -/
theorem change_value_outcome : Meets (changeValue surroundings obj attr value) state
    (fun _ after => after = { state with world := changeAttribute state.world obj attr value } ∧
      isFixed attr = false ∧ ((attr == .amount &&
        decide (getAttribute state.world obj .amount < value)) = true →
          TypeWeighed surroundings state obj (getObjectType state.world obj) value
            (surroundings.weight state obj))) (fun _ after => after = state) fun _ => True := by
  apply meets_get
  apply refused_then
  intro _
  apply refused_then
  intro loose
  apply Library.ThrowingState.attempt_then
  intro owner owned
  rw [Bool.and_assoc]
  have checked : Keeps (whenever (owner != 0 && (attr == .amount &&
      decide (getAttribute state.world obj .amount < value)))
      (checkTypeWeight surroundings owner (getObjectType state.world obj) value
        (surroundings.weight state obj))) state :=
    keeps_whenever (keeps_get (answer_keeps _))
  apply meets_bind (checked.also (type_check_shows owned))
  intro _ middle both
  rw [both.1]
  apply change_map_meets
  · intro _ _
    trivial
  · intro world changed
    cases changed
    exact ⟨rfl, loose, both.2⟩

end TibiaGame.WeightChecks
