import TibiaGame.CarryLimits

/-!
# Moves and merges into the body

What comes into the body of a creature by a call of `move` or `merge` has been weighed,
and weighs as much as the check has found.
-/

namespace TibiaGame.CarryMoves

open GameTypes ObjectStore ObjectOperations ForestOperations
open ForestRuns ObjectPayload InfoModel ContainerWalks OperateModel OperateChanges
open OperateSteps OperateEffects FurnishedWorlds MoveForest StackAmounts DepotSpace
open WeightChecks Weights CarriedSteps
open CarryLimits Library.OrderedForest Library.ForestSums Library.ThrowingState

variable {cfg : GameConfig} {start state after : GameState cfg} {world : World cfg}
  {kids newKids : Object → List Object} {surroundings : Surroundings cfg} {capacities : Capacities}
  {creatureID mover : UInt32} {carrier obj con dest ignore : Object} {type newType : ObjectType cfg}
  {value : UInt32} {attr : InstanceAttribute} {count oldWeight inventory added : Int32} {noMerge : Bool}

section Merging

theorem merge_count_some (counts : count = -1 ∨ 0 < count)
    (less : mergeCount world obj count < (getAttribute world obj .amount).toInt32) :
    0 < mergeCount world obj count := by
  unfold mergeCount at less ⊢
  split_ifs at less ⊢ with all
  · exact (Int32.lt_irrefl less).elim
  · exact counts.resolve_left all

theorem part_weight_le (isLive : objectExists world obj = true)
    (stack : (getObjectType world obj).getFlag .cumulative = true) {parts : Nat}
    (most : parts ≤ (getAttribute world obj .amount).toNat) :
    partWeight (getObjectType world obj) * parts ≤ weightOf world obj := by
  have whole := weight_of_found (stack_of_live isLive)
  have least := Nat.mul_le_mul_left (partWeight (getObjectType world obj)) most
  rw [unit_weight_stack stack] at whole
  omega

theorem merge_step_borne (sound : Sound state.world kids)
    (laden : Laden capacities state creatureID carrier) (counts : count = -1 ∨ 0 < count)
    (placed : objectExists state.world obj = true → getContainer state.world obj ≠ NONE)
    (some : Below kids carrier dest →
      getAttribute state.world obj .amount ≠ 0 ∧ getAttribute state.world dest .amount ≠ 0)
    (light : Below kids carrier dest → Light state.world carrier (weightOf state.world obj))
    (weighed : Below kids carrier dest →
      Weighed (weighing capacities surroundings) state obj dest (mergeCount state.world obj count))
    (step : MergeStep mergeObjects state mover obj dest count after) :
    Borne capacities creatureID carrier state after := by
  have forest := sound.described.forest
  have carrying := laden.carrying
  rcases carrying.known with ⟨player, known⟩
  have stillKnown := known_body (merge_step_bodies step) known
  cases step with
  | itself same => exact unchanged_borne sound laden
  | part mergeable less =>
    have parts := merge_count_some counts less
    have fewer : (mergeCount state.world obj count).toUInt32.toNat ≤
        (getAttribute state.world obj .amount).toNat :=
      Nat.le_of_lt (UInt32.lt_iff_toNat_lt.mp (count_less parts less))
    have destStack : (getObjectType state.world dest).getFlag .cumulative = true := by
      rw [← mergeable.type]
      exact mergeable.stack
    have kept := @parts_moved_kept cfg state.world kids obj dest count sound
    have gains := merge_part_carried sound carrying.live (laden.no_stack mergeable.stack)
      (laden.no_stack destStack) mergeable parts less
    constructor
    · exact ⟨kids, kept.sound⟩
    · change objectExists (partsMoved state.world obj dest count) carrier = true
      rw [kept_live kept.types]
      exact carrying.live
    · exact stillKnown
    · apply gains_bear gains
      · intro into
        exact (light into).less (part_weight_le mergeable.live mergeable.stack fewer)
      intro into outside
      have limit := weighed_limit sound laden mergeable.live mergeable.destLive
        (weighed into) into outside
      apply limit.2
      rw [if_pos mergeable.stack, get_weight_count mergeable.live limit.1 mergeable.stack parts]
  | @whole world mergeable all joined =>
    have edge := (placed_edge forest).mp ⟨mergeable.live, placed mergeable.live⟩
    have outside : ¬ Below kids obj carrier := by
      intro under
      exact laden.no_stack mergeable.stack (laden.enclosed sound edge under)
    have destStack : (getObjectType state.world dest).getFlag .cumulative = true := by
      rw [← mergeable.type]
      exact mergeable.stack
    have gone := merge_gone sound edge mergeable joined
    have gains := merge_whole_carried sound carrying.live edge outside (laden.no_stack destStack)
      mergeable some joined
    constructor
    · exact ⟨_, gone.sound⟩
    · exact (gone.survivors carrier).mpr ⟨carrying.live, outside⟩
    · exact stillKnown
    · apply gains_bear gains
      · intro into
        exact (light into).less (part_weight_le mergeable.live mergeable.stack (Nat.le_refl _))
      intro into elsewhere
      have limit := weighed_limit sound laden mergeable.live mergeable.destLive
        (weighed into) into elsewhere
      have whole := weight_of_found (stack_of_live mergeable.live)
      have rest : restWeight (getObjectType state.world obj) = 0 := if_pos limit.1
      rw [unit_weight_stack mergeable.stack, rest, Nat.add_zero] at whole
      apply limit.2
      rw [if_pos mergeable.stack, (merge_count_whole mergeable all).1,
        get_weight_whole mergeable.live, whole]

/-- A call of `merge` that returns has found two stacks of one type, or done nothing. -/
theorem merge_step_cases (step : MergeStep mergeObjects state mover obj dest count after) :
    after = state ∨ Mergeable state.world obj dest count ∧
      (getObjectType state.world dest).getFlag .cumulative = true := by
  have stack : ∀ mergeable : Mergeable state.world obj dest count,
      (getObjectType state.world dest).getFlag .cumulative = true := by
    intro mergeable
    rw [← mergeable.type]
    exact mergeable.stack
  cases step with
  | itself same => exact .inl rfl
  | part mergeable less => exact .inr ⟨mergeable, stack mergeable⟩
  | whole mergeable all joined => exact .inr ⟨mergeable, stack mergeable⟩

variable (sound : Sound state.world kids) (laden : Laden capacities state creatureID carrier)
include sound laden

/-- Where a stack in the body is the destination, its container is in the body too. -/
theorem inner_container (stack : (getObjectType state.world dest).getFlag .cumulative = true)
    (into : Below kids carrier dest) :
    (getObjectType state.world (getContainer state.world dest)).isMapContainer = false := by
  cases into with
  | refl => exact (laden.no_stack stack rfl).elim
  | tail above edge =>
    rw [(member_container sound.described.forest edge).2]
    exact laden.item sound above

theorem merge_borne
    (fair : Fair carrier creatureID state (.merge surroundings mover obj dest count ignore)) :
    Meets (merge (weighing capacities surroundings) mover obj dest count ignore) state
      (fun _ => Borne capacities creatureID carrier state)
      (fun _ => Borne capacities creatureID carrier state) fun _ => True := by
  rcases fair with ⟨counts, placed, stocked, destStocked, light⟩
  have course : Meets (merge (weighing capacities surroundings) mover obj dest count ignore) state
      _ _ _ := (merge_steps sound.described.forest).also merge_shows
  apply course.imp
  · intro _ after both
    have step : MergeStep mergeObjects state mover obj dest count after := both.1
    rcases merge_step_cases step with same | mergeable
    · rw [same]
      exact unchanged_borne sound laden
    have weighed : Below kids carrier dest →
        Weighed (weighing capacities surroundings) state obj dest
          (mergeCount state.world obj count) := by
      intro into
      exact (both.2.resolve_left mergeable.1.apart) (inner_container sound laden mergeable.2 into)
    exact merge_step_borne sound laden counts placed
      (fun _ => ⟨stocked mergeable.1.stack, destStocked mergeable.2⟩) (fun _ => light) weighed step
  · intro _ after same
    rw [same]
    exact unchanged_borne sound laden
  · intro _ _
    trivial

end Merging

section Moving

theorem top_outside (sound : Sound state.world kids)
    (laden : Laden capacities state creatureID carrier)
    (stack : (getObjectType state.world dest).getFlag .cumulative = true)
    (found : topOn state.world con = .ok dest) : ¬ Below kids carrier dest := by
  have forest := sound.described.forest
  unfold topOn at found
  rcases located : getObjectCoordinates state.world con with halt | place
  · rw [located] at found
    cases found
  rw [located] at found
  have top : getTopObject state.world place.1 place.2.1 place.2.2 true = .ok dest := found
  rcases top_object_on_field forest sound.grounded place.1 place.2.1 place.2.2 true with
    ⟨other, sameTop, onField⟩
  rw [top, Except.ok.injEq] at sameTop
  rw [← sameTop] at onField
  rcases onField with none | onField
  · intro into
    cases into with
    | refl => exact laden.no_stack stack rfl
    | tail _ edge => exact forest.kid_ne_none edge none
  rcases onField with ⟨field, isField, edge⟩
  exact laden.field_outside sound stack isField edge

theorem whole_count (carriable : Carriable state mover obj con count)
    (stack : (getObjectType state.world obj).getFlag .cumulative = true)
    (whole : splits state.world obj count = false) :
    moveCount state.world obj count = (getAttribute state.world obj .amount).toInt32 := by
  have parts : partsOf state.world obj = (getAttribute state.world obj .amount).toInt32 := if_pos stack
  unfold splits at whole
  rw [decide_eq_false_iff_not, parts] at whole
  by_cases all : count = -1
  · rw [moveCount, if_pos all, parts]
  have counted := carriable.counted
  have given : moveCount state.world obj count = count := if_neg all
  rw [given] at whole ⊢
  rw [countRefused, stack, Bool.true_and, Bool.or_eq_false_iff, decide_eq_false_iff_not] at counted
  exact Int32.le_antisymm (Int32.not_lt.mp counted.2) (Int32.not_lt.mp whole)

variable (sound : Sound state.world kids) (laden : Laden capacities state creatureID carrier)
    (fair : Fair carrier creatureID state (.move surroundings mover obj con count noMerge ignore))
include sound laden fair

/-- `move` gives a creature no more than `check_weight` has let through. -/
theorem carry_borne (carriable : Carriable state mover obj con count)
    (weighed : (getObjectType state.world con).isMapContainer = false →
      Weighed (weighing capacities surroundings) state obj con (moveCount state.world obj count))
    (step : CarryStep state mover obj con (moveCount state.world obj count)
      (splits state.world obj count) after) : Borne capacities creatureID carrier state after := by
  rcases fair with ⟨counts, movable, plain, light⟩
  have forest := sound.described.forest
  have carrying := laden.carrying
  have ready := carriable_ready sound movable carriable
  rcases carrying.known with ⟨player, known⟩
  have stillKnown := known_body (carry_step_bodies step) known
  have limit := fun into => weighed_limit sound laden carriable.live carriable.conLive
    (weighed (laden.item sound into)) into
  cases step with
  | @carried piece parted moved cut placed =>
    have sameViews : SameView stackView parted moved := move_view stack_unlinked placed
    rcases carried_effect sound ready cut placed with
      ⟨notParted, samePiece, sameWorld, newKids, comes⟩ | ⟨splitting, cutOff, newKids, born⟩
    · rw [sameWorld] at sameViews
      have whole : splits state.world obj count = false := by
        rw [← Bool.not_eq_true]
        intro splitting
        exact notParted ⟨splitting, split_parted counts splitting⟩
      have gains := comes_gains sound carrying.live comes sameViews ready.outside
      have total := load_eq forest carriable.live
      constructor
      · rw [noted_objects_world]
        exact ⟨newKids, comes.sound⟩
      · rw [noted_objects_world]
        change objectExists moved carrier = true
        rw [kept_live comes.types]
        exact carrying.live
      · exact stillKnown
      · rw [noted_objects_world]
        apply gains_bear gains
        · intro _
          rw [total]
          exact light
        intro into outside
        have can := limit into outside
        apply can.2
        cases stack : (getObjectType state.world obj).getFlag .cumulative with
        | true =>
          rw [if_pos rfl, whole_count carriable stack whole, get_weight_whole carriable.live,
            load_empty sound carriable.live (plain stack).2]
        | false =>
          rw [if_neg (by decide)]
          exact complete_weight_spec forest carriable.live
    · rw [if_pos splitting] at cut
      have lies : objectExists state.world (getContainer state.world obj) = true :=
        holder_exists (forest.parent_holds ready.edge)
      have gains := split_carried sound carrying.live carriable.live lies
        (laden.no_stack cutOff.stack) (plain cutOff.stack).1 cutOff cut sameViews born
      constructor
      · rw [noted_objects_world]
        exact ⟨newKids, born.sound⟩
      · rw [noted_objects_world]
        exact (born.other carrying.live).2.1
      · exact stillKnown
      · rw [noted_objects_world]
        apply gains_bear gains
        · intro _
          have fewer : (moveCount state.world obj count).toUInt32.toNat ≤
              (getAttribute state.world obj .amount).toNat :=
            Nat.le_of_lt (UInt32.lt_iff_toNat_lt.mp cutOff.less)
          have least := part_weight_le carriable.live cutOff.stack fewer
          exact light.less (by omega)
        intro into outside
        have can := limit into outside
        apply can.2
        rw [if_pos cutOff.stack, get_weight_count carriable.live can.1 cutOff.stack cutOff.some]

theorem move_borne :
    Meets (move (weighing capacities surroundings) mover obj con count noMerge ignore) state
      (fun _ => Borne capacities creatureID carrier state)
      (fun _ => Borne capacities creatureID carrier state) fun _ => True := by
  have movable := fair.2.1
  have course : Meets (move (weighing capacities surroundings) mover obj con count noMerge ignore)
      state _ _ _ := (move_steps sound.described sound.grounded fun carriable =>
        ⟨_, carriable_ready sound movable carriable⟩).also move_shows
  apply course.imp
  · intro _ after both
    have step : MoveStep mergeObjects state mover obj con count noMerge after := both.1
    cases step with
    | @merged top _ isLive conLive tried found step =>
      rcases merge_step_cases step with same | mergeable
      · rw [same]
        exact unchanged_borne sound laden
      have away := top_outside sound laden mergeable.2 found
      have weighed : Below kids carrier top →
          Weighed (weighing capacities surroundings) state obj top
            (mergeCount state.world obj count) := fun into => (away into).elim
      exact merge_step_borne sound laden fair.1 movable.placed (fun into => (away into).elim)
        (fun into => (away into).elim) weighed step
    | carried carriable step =>
      apply carry_borne sound laden fair carriable _ step
      intro item
      rcases both.2 with tried | weighed
      · rw [tries_merge_field tried] at item
        cases item
      · exact weighed item
  · intro _ after same
    rw [same]
    exact unchanged_borne sound laden
  · intro _ _
    trivial

end Moving

end TibiaGame.CarryMoves
