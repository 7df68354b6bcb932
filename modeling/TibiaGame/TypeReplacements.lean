import TibiaGame.AmountChanges

/-!
# What a change of type does

A call of `change` with a new type that returns has passed its checks. The object turns
into one of the new type and keeps its list, or it is deleted where the new type is the
one of fields.
-/

namespace TibiaGame.TypeReplacements

open GameTypes ObjectStore ObjectOperations
open ForestOperations ForestRuns GroundedMap ObjectPayload InfoModel ContainerWalks OperateModel
open OperateSteps OperateChanges OperateFrames OperateEffects ChangeEffects FurnishedWorlds
open StackAmounts WeightChecks AmountChanges Library.ThrowingState

variable {cfg : GameConfig} {state : GameState cfg} {world after : World cfg}
  {kids : Object → List Object} {surroundings : Surroundings cfg} {obj con : Object}
  {newType : ObjectType cfg} {value : UInt32}

/-- What has been checked when `change` begins to turn the object into the new type. -/
structure Replaceable (surroundings : Surroundings cfg) (state : GameState cfg) (obj : Object)
    (newType : ObjectType cfg) : Prop where
  live : objectExists state.world obj = true
  noCreature : (getObjectType state.world obj).isCreatureContainer = false
  item : newType.isMapContainer = false
  emptied : newType.holdsObjects = false → getFirstContainerObject state.world obj = NONE
  few : (getObjectType state.world obj).getFlag .cumulative = true →
    getObjectType state.world obj ≠ newType → getAttribute state.world obj .amount ≤ 1
  weighed : getObjectType state.world obj ≠ newType →
    TypeWeighed surroundings state obj newType
      (if (getObjectType state.world obj).getFlag .cumulative then
        getAttribute state.world obj .amount else 1) (surroundings.weight state obj)

/-- The object has the new type, and the attributes that have been assigned to it. -/
def Replaced (state : GameState cfg) (obj : Object) (newType : ObjectType cfg) (value : UInt32)
    (after : GameState cfg) : Prop :=
  ∃ changed, changeObject state.world obj newType = .ok changed ∧
    after = { state with
      world := assignValue (getObjectType state.world obj).getFlag newType obj value changed }

theorem plain_first (plain : (getObjectType world obj).holdsObjects = false) :
    getFirstContainerObject world obj = NONE := by
  unfold getFirstContainerObject
  rw [plain]
  simp

theorem check_content_meets :
    Meets (whenever ((getObjectType state.world obj).getFlag .container) (do
        refuse (!newType.getFlag .container &&
          decide (getFirstContainerObject state.world obj ≠ NONE)) Result.emptyContainer
        whenever (newType.getFlag .container) do
          let objectCount ← attempt (countObjectsInContainer state.world obj)
          refuse (decide ((newType.getAttribute .capacity).toInt32 < Int32.ofNat objectCount))
            Result.emptyContainer) : Operate cfg Unit) state
      (fun _ after => after = state ∧ ((getObjectType state.world obj).getFlag .container = true →
        newType.getFlag .container = false → getFirstContainerObject state.world obj = NONE))
      (fun _ after => after = state) fun _ => True := by
  have sized : Keeps (whenever (newType.getFlag .container) (do
      let objectCount ← attempt (countObjectsInContainer state.world obj)
      refuse (decide ((newType.getAttribute .capacity).toInt32 < Int32.ofNat objectCount))
        Result.emptyContainer) : Operate cfg Unit) state :=
    keeps_whenever (keeps_attempt.bind fun _ => keeps_refuse)
  unfold whenever
  rcases isContainer : (getObjectType state.world obj).getFlag .container with _ | _
  · exact meets_pure ⟨rfl, fun other => by cases other⟩
  rw [if_pos rfl]
  apply refused_then
  intro empty
  have held : newType.getFlag .container = false →
      getFirstContainerObject state.world obj = NONE := by
    intro plain
    rw [plain] at empty
    simpa using empty
  exact sized.imp (fun _ _ same => ⟨same, fun _ => held⟩) (fun _ _ same => same) fun _ stop => stop

theorem check_retype_shows :
    Shows ((newType.holdsObjects = false → getFirstContainerObject state.world obj = NONE) ∧
      ((getObjectType state.world obj).getFlag .cumulative = true →
        getObjectType state.world obj ≠ newType → getAttribute state.world obj .amount ≤ 1))
      (checkRetype obj newType) state := by
  apply shows_get
  apply meets_bind (check_content_meets.imp (fun _ _ held => held) (fun _ _ _ => trivial)
    fun _ held => held)
  intro _ middle checked
  apply shows_refused
  intro noChest
  apply shows_refuse
  intro single
  constructor
  · intro plain
    have both : newType.getFlag .container = false ∧ newType.getFlag .chest = false := by
      simpa [ObjectType.holdsObjects] using plain
    cases isContainer : (getObjectType state.world obj).getFlag .container with
    | true => exact checked.2 isContainer both.1
    | false =>
      apply plain_first
      rw [ObjectType.holdsObjects, isContainer]
      simpa [both.2] using noChest
  · intro stack different
    simpa [stack, different] using single

theorem check_retype_keeps : Keeps (checkRetype obj newType) state := by
  apply keeps_get
  apply Keeps.bind _ fun _ => keeps_refuse.bind fun _ => keeps_refuse
  exact check_content_meets.imp (fun _ _ held => held.1) (fun _ _ same => same) fun _ held => held

theorem check_place_keeps {oldObj : Object} : Keeps (checkInventoryPlace newType con oldObj :
    Operate cfg Unit) state := by
  have others : ∀ creatureID hand,
      Keeps (checkOtherPlace state creatureID newType oldObj hand : Operate cfg Unit) state := by
    intro creatureID hand
    unfold checkOtherPlace
    dsimp only
    split_ifs
    · exact keeps_pure
    · exact keeps_refuse.bind fun _ => keeps_refuse
  apply keeps_get
  apply keeps_attempt.bind
  intro position
  apply (keeps_whenever check_clothes_keeps).bind
  intro _
  apply keeps_attempt.bind
  intro owner
  split_ifs
  · exact check_hands_free_keeps
  apply keeps_refuse.bind
  intro _
  apply keeps_whenever
  exact (others _ _).bind fun _ => others _ _

theorem check_container_place_keeps {oldObj : Object} :
    Keeps (checkContainerPlace surroundings newType con oldObj) state := by
  apply keeps_get
  dsimp only
  split_ifs
  · exact keeps_pure
  · exact keeps_pure
  · exact keeps_refuse.bind fun _ => keeps_refuse.bind fun _ => keeps_attempt.bind fun _ => keeps_refuse
  · exact keeps_refuse.bind fun _ => keeps_refuse.bind fun _ => keeps_pure

theorem check_replace_meets : Meets (checkReplace surroundings obj newType) state
    (fun _ after => after = state ∧ (getObjectType state.world obj ≠ newType →
      TypeWeighed surroundings state obj newType
        (if (getObjectType state.world obj).getFlag .cumulative then
          getAttribute state.world obj .amount else 1) (surroundings.weight state obj)))
    (fun _ after => after = state) fun _ => True := by
  apply meets_get
  apply Library.ThrowingState.attempt_then
  intro owner owned
  have place : Keeps (if (getObjectType state.world (getContainer state.world obj)).isBodyContainer then
      checkInventoryPlace newType (getContainer state.world obj) obj
    else checkContainerPlace surroundings newType (getContainer state.world obj) obj :
      Operate cfg Unit) state := by
    split_ifs
    · exact check_place_keeps
    · exact check_container_place_keeps
  unfold whenever
  by_cases needed : (owner != 0 && decide (getObjectType state.world obj ≠ newType)) = true
  · rw [if_pos needed]
    apply place.then
    intro _
    have keeps : Keeps (checkTypeWeight surroundings owner newType
        (if (getObjectType state.world obj).getFlag .cumulative then
          getAttribute state.world obj .amount else 1) (surroundings.weight state obj)) state :=
      keeps_get (answer_keeps _)
    apply (keeps.also _).imp
    · intro _ after held
      exact ⟨held.1, fun _ => held.2⟩
    · intro _ _ same
      exact same
    · intro _ held
      exact held
    · apply shows_get
      apply (answer_shows _).imp
      intro weighed other _ same
      rw [owned, Except.ok.injEq] at same
      rw [← same]
      exact weighed
  rw [if_neg needed]
  apply meets_pure
  refine ⟨rfl, ?_⟩
  intro different other somebody same
  rw [owned, Except.ok.injEq] at same
  rw [← same] at somebody
  exact (needed (by simp [somebody, different])).elim

/-- A call of `change` deletes the object, or turns it into the new type. -/
theorem change_course {deleted : GameState cfg → Prop}
    (deletes : newType.isMapContainer = true → Meets (deleteOp obj (-1)) state
      (fun _ after => deleted after) (fun _ after => after = state) fun _ => True) :
    Meets (change surroundings obj newType value) state
      (fun _ after => objectExists state.world obj = true ∧
        (getObjectType state.world obj).isCreatureContainer = false ∧ deleted after ∨
        Replaceable surroundings state obj newType ∧ Replaced state obj newType value after)
      (fun _ after => after = state) fun _ => True := by
  apply meets_get
  apply refused_then
  intro live
  apply refused_then
  intro noCreature
  have isLive : objectExists state.world obj = true := by simpa using live
  rw [Bool.or_eq_false_iff] at noCreature
  cases isMap : newType.isMapContainer with
  | true =>
    rw [if_pos rfl]
    exact (deletes isMap).imp (fun _ _ gone => .inl ⟨isLive, noCreature.1, gone⟩) (fun _ _ same => same)
      fun _ held => held
  | false =>
    apply meets_bind (check_retype_keeps.also check_retype_shows)
    intro _ middle retype
    rw [retype.1]
    apply meets_bind check_replace_meets
    intro _ middle replace
    rw [replace.1]
    have replaceable : Replaceable surroundings state obj newType :=
      ⟨isLive, noCreature.1, isMap, retype.2.1, retype.2.2, replace.2⟩
    have turns : Meets (changeMap fun world => changeObject world obj newType : Operate cfg Unit)
        state (fun _ => Ends state fun world => changeObject state.world obj newType = .ok world)
        (fun _ after => after = state) fun _ => True := by
      apply change_map_meets
      · intro _ _
        trivial
      · intro world changed
        exact ⟨world, rfl, changed⟩
    apply meets_bind turns
    intro _ middle ended
    rcases ended with ⟨changed, here, turned⟩
    rw [here]
    apply change_map_meets
    · intro _ _
      trivial
    · intro world assigned
      cases assigned
      exact .inr ⟨replaceable, changed, turned, rfl⟩

theorem no_content (isLive : objectExists world obj = true)
    (empty : getFirstContainerObject world obj = NONE) : getAttribute world obj .content = 0 := by
  rcases Option.map_eq_some_iff.mp (content_of_first isLive empty) with ⟨record, live, none⟩
  rw [getAttribute, access_live live]
  exact congrArg Object.objectID none

/-- The object keeps its list, and the rest of the objects their types. -/
theorem replaced_turned {after : GameState cfg} (sound : Sound state.world kids)
    (edge : obj ∈ kids con) (replaceable : Replaceable surroundings state obj newType)
    (fits : newType.holdsObjects = true → (getObjectType state.world obj).holdsObjects = true ∨
      (accessObject state.world obj).attributes 0 = 0)
    (replaced : Replaced state obj newType value after) :
    Turned state.world after.world kids obj newType := by
  have forest := sound.described.forest
  rcases replaced with ⟨changed, turned, ended⟩
  have isPlaced : IsPlaced state.world obj := by
    constructor
    · exact replaceable.live
    · rw [(member_container forest edge).2]
      exact live_ne_none forest (holder_exists (forest.parent_holds edge))
  have retypable : Retypable state.world obj newType := by
    constructor
    · exact fits
    · intro plain
      exact no_content replaceable.live (replaceable.emptied plain)
  rcases change_object_outcome sound.described isPlaced retypable with
    ⟨halt, failed, _⟩ | ⟨result, newKids, returned, described, same, types⟩
  · rw [turned] at failed
    cases failed
  · rw [turned, Except.ok.injEq] at returned
    rw [← returned] at described types
    rw [same] at described
    have unmoved : ∀ field, IsField state.world field → field ≠ obj := by
      intro field isField same
      rw [same] at isField
      exact Grounded.orphan sound.grounded forest isField con edge
    have fields : ∀ field, IsField changed field ↔ field ≠ obj ∧ IsField state.world field := by
      intro field
      rw [field_iff_type, field_iff_type, types]
      by_cases here : field = obj
      · rw [if_pos here]
        constructor
        · intro typed
          have isMap := replaceable.item
          rw [Option.some.inj typed] at isMap
          cases isMap
        · intro both
          exact (both.1 here).elim
      rw [if_neg here]
      exact (and_iff_right here).symm
    have grounded : Grounded changed := by
      apply grounded_after sound.grounded (change_object_sectors turned) described.forest
      · intro field isField
        exact (fields field).mpr ⟨unmoved field isField, isField⟩
      · intro field holder isField inner
        exact Grounded.orphan sound.grounded forest ((fields field).mp isField).2 holder inner
    have kept : Kept changed (assignValue (getObjectType state.world obj).getFlag newType obj value
        changed) kids := assign_value_kept ⟨described, grounded⟩ _
    rw [ended]
    constructor
    · exact kept.sound
    · intro node
      exact (kept.types node).trans (types node)

/-- No other object changes, and this one has no more parts than it had, or one. -/
theorem replaced_stacks {after : GameState cfg} (isLive : objectExists state.world obj = true)
    (stays : newType.getFlag .cumulative = true →
      (getObjectType state.world obj).getFlag .cumulative = true)
    (replaced : Replaced state obj newType value after) :
    Beside stackView obj state.world after.world ∧
      ∃ amount, stackOf after.world obj = some (newType, amount) ∧
        (amount = 0 ∨ amount = 1 ∨ (getObjectType state.world obj).getFlag .cumulative = true ∧
          amount = getAttribute state.world obj .amount) := by
  rcases replaced with ⟨changed, turned, ended⟩
  rcases change_object_amount isLive turned with ⟨beside, amount, found, bounds⟩
  have unassigned : (newType.getFlag .cumulative &&
      !(getObjectType state.world obj).getFlag .cumulative) = false := by
    cases stack : newType.getFlag .cumulative with
    | true => simp [stays stack]
    | false => rfl
  have same : stackOf (assignValue (getObjectType state.world obj).getFlag newType obj value changed) =
      stackOf changed := by
    rw [assign_value_stack, unassigned, if_neg (by decide)]
  rw [ended]
  constructor
  · exact beside.trans assign_value_beside
  · refine ⟨amount, ?_, bounds⟩
    rw [same]
    exact found


end TibiaGame.TypeReplacements
