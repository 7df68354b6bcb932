import TibiaGame.CarryMoves

/-!
# The capacity of a creature

`check_weight` is asked before anything comes into the body of a creature. In a run of
calls whose counts are numbers of parts, a creature with limited capacity never gets
more to carry than its strength allows; a count below -1 gets past the checks.
-/

namespace TibiaGame.CarryCapacity

open GameTypes ObjectStore ObjectOperations ObjectKinds ForestOperations
open ForestRuns ObjectPayload InfoModel OperateModel OperateChanges
open OperateSteps OperateEffects ChangeEffects FurnishedWorlds MoveForest StackAmounts
open DepotCounts WeightChecks AmountChanges TypeReplacements Weights InventoryWeights CarriedSteps
open CarryLimits CarryMoves Library.OrderedForest Library.ForestSums Library.ThrowingState

variable {cfg : GameConfig} {start state after : GameState cfg} {world : World cfg}
  {kids newKids : Object → List Object} {surroundings : Surroundings cfg} {capacities : Capacities}
  {creatureID mover : UInt32} {carrier obj con dest ignore : Object} {type newType : ObjectType cfg}
  {value : UInt32} {attr : InstanceAttribute} {count oldWeight inventory added : Int32} {noMerge : Bool}

section Creating

theorem type_weight_eq (taken : type.getFlag .take = true)
    (small : partWeight type * max 1 value.toNat < 2 ^ 31) :
    typeWeight type value = Int32.ofNat
      (partWeight type * if type.getFlag .cumulative then max 1 value.toNat else 1) := by
  have part : partWeight type = (type.getAttribute .weight).toNat := if_pos taken
  have weight : (type.getAttribute .weight).toInt32 = Int32.ofNat (partWeight type) := by
    rw [part]
    exact to_int_of_nat _
  unfold typeWeight
  rw [weight]
  rcases type.getFlag .cumulative with _ | _
  · simp
  rw [Bool.true_and, if_pos rfl, to_int_of_nat]
  by_cases nothing : partWeight type = 0
  · rw [nothing, Nat.zero_mul]
    split_ifs
    · exact Int32.zero_mul
    · rfl
  have bound : max 1 value.toNat < 2 ^ 31 := by
    have least := Nat.le_mul_of_pos_left (max 1 value.toNat) (Nat.pos_of_ne_zero nothing)
    omega
  have number : (Int32.ofNat value.toNat).toInt = value.toNat :=
    Int32.toInt_ofNat_of_lt (by omega)
  have one : (1 : Int32).toInt = 1 := rfl
  by_cases some : 1 < value.toNat
  · have positive : (1 : Int32) < Int32.ofNat value.toNat := by
      rw [Int32.lt_iff_toInt_lt, number, one]
      omega
    rw [if_pos (decide_eq_true positive), Nat.max_eq_right (by omega), Int32.ofNat_mul]
  have few : ¬ (1 : Int32) < Int32.ofNat value.toNat := by
    rw [Int32.lt_iff_toInt_lt, number, one]
    omega
  rw [if_neg (by simpa using few), Nat.max_eq_left (by omega), Nat.mul_one]

theorem single_type_weight (taken : type.getFlag .take = true) (few : value.toNat ≤ 1)
    (small : partWeight type < 2 ^ 31) : typeWeight type value = Int32.ofNat (partWeight type) := by
  have one : max 1 value.toNat = 1 := Nat.max_eq_left few
  rw [type_weight_eq taken (by rw [one, Nat.mul_one]; exact small), one, ite_self, Nat.mul_one]

section

variable (sound : Sound state.world kids)
include sound

theorem type_weighed_bears {more heavy : Nat} {newWorld : World cfg}
    (laden : Laden capacities state creatureID carrier)
    (conLive : objectExists state.world con = true)
    (weighed : TypeWeighed (weighing capacities surroundings) state con type value (Int32.ofNat heavy))
    (into : Below kids carrier con) (weighs : typeWeight type value = Int32.ofNat more)
    (light : Light state.world carrier more) (small : heavy < 2 ^ 31)
    (sum : carriedWeight newWorld carrier + heavy ≤ carriedWeight state.world carrier + more)
    (most : carriedWeight newWorld carrier ≤ carriedWeight state.world carrier + more) :
    Bears capacities creatureID carrier state.world newWorld := by
  have limit := type_weighed_limit sound laden conLive weighed into
  by_cases heavier : Int32.ofNat heavy < Int32.ofNat more
  · exact .inr (can_carry_less (limit.2 more weighs heavier) most light)
  unfold Light at light
  rw [Int32.lt_iff_toInt_lt, Int32.toInt_ofNat_of_lt small,
    Int32.toInt_ofNat_of_lt (by omega)] at heavier
  left
  omega

/-- What is there after a call weighs the same, if it is as it was or gone. -/
theorem same_weights {newWorld : World cfg} (isLive : objectExists state.world carrier = true)
    (same : ∀ node, objectExists state.world node = true →
      stackOf newWorld node = stackOf state.world node) :
    ∀ node, Below kids carrier node → weightOf newWorld node = weightOf state.world node := by
  intro node under
  apply weight_of_stack
  apply same
  cases under with
  | refl => exact isLive
  | tail _ edge => exact (member_container sound.described.forest edge).1

theorem apart_borne {newWorld : World cfg} (laden : Laden capacities state creatureID carrier)
    (apart : Apart state.world newWorld kids newKids carrier)
    (same : ∀ node, objectExists state.world node = true →
      stackOf newWorld node = stackOf state.world node) (world : after.world = newWorld)
    (known : ∃ player, after.creatures creatureID = some ⟨carrier, player⟩) :
    Borne capacities creatureID carrier state after := by
  have carrying := laden.carrying
  constructor
  · rw [world]
    exact ⟨newKids, apart.sound⟩
  · rw [world]
    exact apart.live carrying.live
  · exact known
  · left
    rw [world, apart_carried sound apart carrying.live (same_weights sound carrying.live same)]

theorem topped_borne (laden : Laden capacities state creatureID carrier)
    (topped : Topped state kids obj after) : Borne capacities creatureID carrier state after := by
  rcases topped with ⟨field, amount, isField, edge, stack, here⟩
  have carrying := laden.carrying
  have outside := laden.field_outside sound stack isField edge
  have kept : Kept state.world (changeAttribute state.world obj .amount amount) kids :=
    change_attribute_kept sound (by decide) amount
  have apart : Apart state.world (changeAttribute state.world obj .amount amount) kids kids carrier :=
    kept_apart kept
  have beside : Beside stackView obj state.world (changeAttribute state.world obj .amount amount) :=
    change_attribute_beside
  have stillLive := apart.live carrying.live
  have sum := beside_carried sound kept.sound carrying.live stillLive (laden.no_stack stack) beside
  rw [within_outside outside, within_outside outside] at sum
  rw [here]
  constructor
  · exact ⟨kids, kept.sound⟩
  · exact stillLive
  · exact carrying.known
  · exact .inl (Nat.le_of_eq sum)

end

theorem new_weight_le {newWorld : World cfg} (isNew : IsNew newWorld obj type value)
    (taken : type.getFlag .take = true) :
    weightOf newWorld obj ≤
      partWeight type * if type.getFlag .cumulative then max 1 value.toNat else 1 := by
  rcases isNew with ⟨amount, found, assigned⟩
  have rest : restWeight type = 0 := if_pos taken
  rw [weight_of_found found]
  cases stack : type.getFlag .cumulative with
  | true =>
    rw [unit_weight_stack stack, rest, Nat.add_zero, assigned stack, if_pos rfl]
    exact Nat.mul_le_mul_left _ written_le
  | false =>
    rw [unit_weight_single stack, rest, if_neg (by decide), Nat.mul_one, Nat.add_zero]

variable (sound : Sound state.world kids) (laden : Laden capacities state creatureID carrier)
include sound laden

theorem grown_borne (fair : Fair carrier creatureID state (.create surroundings con type value))
    (conLive : objectExists state.world con = true)
    (weighed : TypeWeighed (weighing capacities surroundings) state con type value 0)
    (undisturbed : Undisturbed state.world after.world)
    (isNew : type.isCreatureContainer = false → IsNew after.world obj type value)
    (grown : Grown state kids con type value obj after) :
    Borne capacities creatureID carrier state after := by
  have carrying := laden.carrying
  have taken := fun into => (type_weighed_limit sound laden conLive weighed into).1
  cases grown with
  | @item world newKids isItem born =>
    have new := isNew isItem
    have carrierOther := born.other carrying.live
    have away : ¬ Below kids carrier obj := unborn_outside sound carrying.live born.dead
    have sum := born_carried sound carrying.live born carrierOther.1.symm
      fun node under _ => same_weights sound carrying.live undisturbed node under
    rw [within_outside away, within_outside away, Nat.add_zero, Nat.add_zero] at sum
    constructor
    · exact ⟨newKids, born.sound⟩
    · exact carrierOther.2.1
    · exact carrying.known
    · change Bears capacities creatureID carrier state.world world
      by_cases into : Below kids carrier con
      · rw [within_inside into] at sum
        have most : weightOf world obj ≤ _ := new_weight_le new (taken into)
        have least : partWeight type * (if type.getFlag .cumulative then max 1 value.toNat else 1) ≤
            partWeight type * max 1 value.toNat := by
          apply Nat.mul_le_mul_left
          split_ifs
          · exact Nat.le_refl _
          · exact Nat.le_max_left _ _
        have small : partWeight type * max 1 value.toNat < 2 ^ 31 := by
          have light := fair.2
          unfold Light at light
          omega
        have weighs := type_weight_eq (taken into) small
        have heavy : TypeWeighed (weighing capacities surroundings) state con type value
            (Int32.ofNat 0) := weighed
        apply type_weighed_bears sound laden conLive heavy into weighs (fair.2.less least) (by decide)
        · omega
        · omega
      rw [within_outside into] at sum
      exact .inl (Nat.le_of_eq sum)
  | @creature middle world middleKids newKids creature isCreature known born embodied =>
    rcases fair.1 isCreature with ⟨_, fixed, other⟩
    have away : ¬ Below kids carrier con := by
      intro into
      rw [taken into] at fixed
      cases fixed
    have first := born_apart sound born carrying.live away
    have outside : ¬ Below middleKids carrier obj := by
      rw [first.below]
      exact unborn_outside sound carrying.live born.dead
    have second := embodied_apart born.sound embodied (first.live carrying.live) outside
    apply apart_borne sound laden (first.trans second) undisturbed rfl
    rcases carrying.known with ⟨player, found⟩
    exact ⟨player, (Function.update_of_ne (Ne.symm other) _ _).trans found⟩

/-- What has been thrown behind a creation leaves the objects as they were. -/
theorem kept_borne (ends : Ends state (fun world => Kept state.world world kids) after)
    (diminished : Diminished state.world after.world) :
    Borne capacities creatureID carrier state after := by
  rcases ends with ⟨world, here, kept⟩
  have same : ∀ node, objectExists state.world node = true →
      stackOf world node = stackOf state.world node := by
    intro node isLive
    rw [here] at diminished
    rcases diminished node isLive with gone | same
    · rw [← kept_live kept.types, live_of_stack, gone] at isLive
      cases isLive
    · exact same
  have world : after.world = world := by rw [here]
  apply apart_borne sound laden (kept_apart kept) same world
  rw [here]
  exact laden.carrying.known

theorem create_borne (fair : Fair carrier creatureID state (.create surroundings con type value)) :
    Meets (create (weighing capacities surroundings) con type value) state
      (fun _ => Borne capacities creatureID carrier state)
      (fun _ => Borne capacities creatureID carrier state) fun _ => True := by
  have course : Meets (create (weighing capacities surroundings) con type value) state _ _ _ :=
    ((create_steps sound fun isCreature => (fair.1 isCreature).1).both (create_stacks sound)).also
      (create_shows sound.described.forest)
  apply course.imp
  · intro obj after ended
    rcases ended with ⟨⟨⟨isHolder, _, outcome⟩, amounts⟩, weighed⟩
    rcases amounts with topped | new
    · exact topped_borne sound laden topped
    rcases outcome with kept | grown
    · exact kept_borne sound laden kept fun node isLive => .inr (new.1 node isLive)
    · exact grown_borne sound laden fair isHolder.1 weighed new.1 new.2 grown
  · intro _ after ended
    exact kept_borne sound laden ended.1 ended.2
  · intro _ held
    exact held

end Creating

section Changing

/-- An object in the body may weigh more, where `check_weight` has let it. -/
theorem changed_bears {heavy : Nat} {newWorld : World cfg} (sound : Sound state.world kids)
    (laden : Laden capacities state creatureID carrier)
    (isLive : objectExists state.world obj = true) (apart : obj ≠ carrier)
    (sum : carriedWeight newWorld carrier + within kids carrier obj (weightOf state.world obj) =
      carriedWeight state.world carrier + within kids carrier obj (weightOf newWorld obj))
    (light : Light state.world carrier heavy)
    (checked : Below kids carrier obj →
      weightOf newWorld obj ≤ weightOf state.world obj ∨ weightOf newWorld obj ≤ heavy ∧
        typeWeight type value = Int32.ofNat heavy ∧
        TypeWeighed (weighing capacities surroundings) state obj type value
          (Int32.ofNat (weightOf state.world obj))) :
    Bears capacities creatureID carrier state.world newWorld := by
  by_cases inside : Below kids carrier obj
  · rw [within_inside inside, within_inside inside] at sum
    rcases checked inside with lighter | weighed
    · left
      omega
    have within := inside_weight_le sound laden.carrying.live inside apart
    have small : weightOf state.world obj < 2 ^ 31 := by
      unfold Light at light
      omega
    apply type_weighed_bears sound laden isLive weighed.2.2 inside weighed.2.1 light small
    · omega
    · omega
  rw [within_outside inside, within_outside inside] at sum
  exact .inl (Nat.le_of_eq sum)

theorem single_amount_weight (isLive : objectExists world obj = true)
    (single : (getObjectType world obj).getFlag .cumulative = false) :
    weightOf (changeAttribute world obj .amount value) obj = weightOf world obj := by
  rw [weight_of_found (change_amount_stack isLive), weight_of_found (stack_of_live isLive),
    unit_weight_single single, unit_weight_single single]

section

variable (sound : Sound state.world kids) (laden : Laden capacities state creatureID carrier)
include sound laden

theorem change_amount_bears
    (fair : Fair carrier creatureID state (.changeValue surroundings obj .amount value))
    (isLive : objectExists state.world obj = true)
    (weighed : getAttribute state.world obj .amount < value →
      TypeWeighed (weighing capacities surroundings) state obj (getObjectType state.world obj) value
        (getWeight state.world obj (-1))) :
    Bears capacities creatureID carrier state.world
      (changeAttribute state.world obj .amount value) := by
  have carrying := laden.carrying
  have kept : Kept state.world (changeAttribute state.world obj .amount value) kids :=
    change_attribute_kept sound (by decide) value
  have beside : Beside stackView obj state.world (changeAttribute state.world obj .amount value) :=
    change_attribute_beside
  have apart : Apart state.world (changeAttribute state.world obj .amount value) kids kids carrier :=
    kept_apart kept
  rcases stack : (getObjectType state.world obj).getFlag .cumulative with _ | _
  · left
    rw [apart_carried sound apart carrying.live]
    intro node _
    by_cases here : node = obj
    · rw [here]
      exact single_amount_weight isLive stack
    · exact weight_of_stack (beside node here)
  have notCarrier := laden.no_stack stack
  have sum := beside_carried sound kept.sound carrying.live (apart.live carrying.live) notCarrier
    beside
  have heavier : weightOf (changeAttribute state.world obj .amount value) obj ≤ _ :=
    written_weight_le isLive stack
  have whole := weight_of_found (stack_of_live isLive)
  rw [unit_weight_stack stack] at whole
  apply changed_bears sound laden isLive notCarrier sum fair.2
  intro inside
  by_cases more : getAttribute state.world obj .amount < value
  · right
    have taken := (type_weighed_limit sound laden isLive (weighed more) inside).1
    have rest : restWeight (getObjectType state.world obj) = 0 := if_pos taken
    have small : partWeight (getObjectType state.world obj) * max 1 value.toNat < 2 ^ 31 := by
      have light := fair.2
      unfold Light at light
      omega
    have weighs := type_weight_eq taken small
    rw [if_pos stack] at weighs
    rw [rest, Nat.add_zero] at heavier
    have check := weighed more
    rw [get_weight_eq isLive] at check
    exact ⟨heavier, weighs, check⟩
  left
  have some : (getAttribute state.world obj .amount).toNat ≠ 0 := by
    intro zero
    exact fair.1 stack (UInt32.toNat_inj.mp zero)
  have fewer : max 1 value.toNat ≤ (getAttribute state.world obj .amount).toNat := by
    rw [UInt32.lt_iff_toNat_lt] at more
    omega
  have least := Nat.mul_le_mul_left (partWeight (getObjectType state.world obj)) fewer
  omega

theorem change_value_borne
    (fair : Fair carrier creatureID state (.changeValue surroundings obj attr value)) :
    Meets (changeValue (weighing capacities surroundings) obj attr value) state
      (fun _ => Borne capacities creatureID carrier state)
      (fun _ => Borne capacities creatureID carrier state) fun _ => True := by
  apply change_value_outcome.imp
  · intro _ after changed
    rcases changed with ⟨here, loose, weighed⟩
    have different : attr ≠ .content := by
      intro same
      rw [same] at loose
      cases loose
    have kept : Kept state.world (changeAttribute state.world obj attr value) kids :=
      change_attribute_kept sound different value
    have apart : Apart state.world (changeAttribute state.world obj attr value) kids kids carrier :=
      kept_apart kept
    rw [here]
    by_cases seen : attr = .amount ∧ objectExists state.world obj = true
    · rw [seen.1] at weighed fair kept apart ⊢
      constructor
      · exact ⟨kids, kept.sound⟩
      · exact apart.live laden.carrying.live
      · exact laden.carrying.known
      · apply change_amount_bears sound laden fair seen.2
        intro more
        exact weighed (by simpa using more)
    have same : ∀ node, objectExists state.world node = true →
        stackOf (changeAttribute state.world obj attr value) node = stackOf state.world node := by
      intro node _
      by_cases isLive : objectExists state.world obj = true
      · rw [change_attribute_stack fun same => seen ⟨same, isLive⟩]
      rw [changeAttribute, Bool.eq_false_iff.mpr isLive]
      rfl
    exact apart_borne sound laden apart same rfl laden.carrying.known
  · intro _ after same
    rw [same]
    exact unchanged_borne sound laden
  · intro _ held
    exact held

theorem gone_borne {newWorld : World cfg} (edge : obj ∈ kids con)
    (noCreature : (getObjectType state.world obj).isCreatureContainer = false)
    (gone : Gone state.world newWorld kids newKids obj)
    (views : FewerViews stackView state.world newWorld) :
    Borne capacities creatureID carrier state { state with world := newWorld } := by
  have carrying := laden.carrying
  have outside : ¬ Below kids obj carrier := by
    intro under
    rw [laden.enclosed sound edge under, carrying.body] at noCreature
    cases noCreature
  have sum := gone_carried sound carrying.live gone views outside
  constructor
  · exact ⟨newKids, gone.sound⟩
  · exact (gone.survivors carrier).mpr ⟨carrying.live, outside⟩
  · exact carrying.known
  · left
    change carriedWeight newWorld carrier ≤ carriedWeight state.world carrier
    omega

end

/-- What weight the object has in its new type: no more than before, or what was checked. -/
theorem replaced_weight {newWorld : World cfg} (isLive : objectExists state.world obj = true)
    (stocked : Stocked state.world obj)
    (stays : newType.getFlag .cumulative = true →
      (getObjectType state.world obj).getFlag .cumulative = true)
    (few : (getObjectType state.world obj).getFlag .cumulative = true →
      getObjectType state.world obj ≠ newType → getAttribute state.world obj .amount ≤ 1)
    {amount : UInt32} (found : stackOf newWorld obj = some (newType, amount))
    (bounds : amount = 0 ∨ amount = 1 ∨ (getObjectType state.world obj).getFlag .cumulative = true ∧
      amount = getAttribute state.world obj .amount) :
    getObjectType state.world obj = newType ∧ weightOf newWorld obj ≤ weightOf state.world obj ∨
      getObjectType state.world obj ≠ newType ∧
        weightOf newWorld obj ≤ partWeight newType + restWeight newType := by
  have before := weight_of_found (stack_of_live isLive)
  have now := weight_of_found found
  rcases stack : newType.getFlag .cumulative with _ | _
  · rw [unit_weight_single stack] at now
    by_cases same : getObjectType state.world obj = newType
    · rw [same, unit_weight_single stack] at before
      exact .inl ⟨same, Nat.le_of_eq (now.trans before.symm)⟩
    · exact .inr ⟨same, Nat.le_of_eq now⟩
  have oldStack := stays stack
  rw [unit_weight_stack stack] at now
  have some : (getAttribute state.world obj .amount).toNat ≠ 0 := by
    intro zero
    exact stocked oldStack (UInt32.toNat_inj.mp zero)
  have most : amount.toNat ≤ (getAttribute state.world obj .amount).toNat := by
    rcases bounds with zero | one | inherited
    · rw [zero]
      exact Nat.zero_le _
    · rw [one]
      have number : (1 : UInt32).toNat = 1 := rfl
      omega
    · rw [inherited.2]
  have least := Nat.mul_le_mul_left (partWeight newType) most
  by_cases same : getObjectType state.world obj = newType
  · rw [same, unit_weight_stack stack] at before
    exact .inl ⟨same, by omega⟩
  have single := UInt32.le_iff_toNat_le.mp (few oldStack same)
  have one : (1 : UInt32).toNat = 1 := rfl
  have exact : (getAttribute state.world obj .amount).toNat = 1 := by omega
  rw [exact, Nat.mul_one] at least
  exact .inr ⟨same, by omega⟩

variable (sound : Sound state.world kids) (laden : Laden capacities state creatureID carrier)
    (fair : Fair carrier creatureID state (.change surroundings obj newType value))
include sound laden fair

theorem replaced_borne (edge : obj ∈ kids con)
    (replaceable : Replaceable (weighing capacities surroundings) state obj newType)
    (replaced : Replaced state obj newType value after) :
    Borne capacities creatureID carrier state after := by
  rcases fair with ⟨_, fits, stays, stocked, light⟩
  have carrying := laden.carrying
  have isLive := replaceable.live
  have turned := replaced_turned sound edge replaceable fits replaced
  rcases replaced_stacks isLive stays replaced with ⟨beside, amount, found, bounds⟩
  have apart : obj ≠ carrier := by
    intro same
    have noCreature := replaceable.noCreature
    rw [same, carrying.body] at noCreature
    cases noCreature
  have sum := turned_carried sound carrying.live turned apart beside
  have weighs := replaced_weight isLive stocked stays replaceable.few found bounds
  have known : ∃ player, after.creatures creatureID = some ⟨carrier, player⟩ := by
    rcases replaced with ⟨changed, _, here⟩
    rw [here]
    exact carrying.known
  constructor
  · exact ⟨kids, turned.sound⟩
  · rw [exists_iff_type, turned.types, if_neg apart.symm, ← exists_iff_type]
    exact carrying.live
  · exact known
  · apply changed_bears sound laden isLive apart sum light
    · intro inside
      rcases weighs with same | other
      · exact .inl same.2
      right
      have check := replaceable.weighed other.1
      have taken := (type_weighed_limit sound laden isLive check inside).1
      have rest : restWeight newType = 0 := if_pos taken
      rw [rest, Nat.add_zero] at other
      have old : (weighing capacities surroundings).weight state obj =
          Int32.ofNat (weightOf state.world obj) := get_weight_eq isLive
      rw [old] at check
      have small : partWeight newType < 2 ^ 31 := by
        unfold Light at light
        omega
      have single : (if (getObjectType state.world obj).getFlag .cumulative then
          getAttribute state.world obj .amount else 1).toNat ≤ 1 := by
        split_ifs with stack
        · exact UInt32.le_iff_toNat_le.mp (replaceable.few stack other.1)
        · decide
      exact ⟨other.2, single_type_weight taken single small, check⟩

theorem change_borne :
    Meets (change (weighing capacities surroundings) obj newType value) state
      (fun _ => Borne capacities creatureID carrier state)
      (fun _ => Borne capacities creatureID carrier state) fun _ => True := by
  have unchanged := unchanged_borne sound laden
  rcases isLive : objectExists state.world obj with _ | _
  · apply meets_get
    rw [isLive]
    exact meets_throw unchanged
  have edge := (placed_edge sound.described.forest).mp ⟨isLive, fair.1 isLive⟩
  have whole : ¬ Parted state.world obj (-1) := by
    intro parted
    exact absurd parted.some (by decide)
  have deletes : Meets (deleteOp obj (-1)) state
      (fun _ => Ends state fun world => Gone state.world world kids (prune kids obj) obj ∧
        FewerViews stackView state.world world) (fun _ after => after = state) fun _ => True := by
    apply ((delete_op_spec sound edge).both (delete_op_views stack_unlinked)).imp
    · intro _ after both
      rcases both with ⟨⟨world, here, outcome⟩, views, _⟩
      rw [here] at views
      exact ⟨world, here, (outcome.resolve_left fun parted => whole parted.1).2, views⟩
    · intro _ _ same
      exact same.1
    · intro _ held
      exact held
  apply (change_course fun _ => deletes).imp
  · intro _ after outcome
    rcases outcome with deleted | replaced
    · rcases deleted with ⟨_, noCreature, world, here, gone, views⟩
      rw [here]
      exact gone_borne sound laden edge noCreature gone views
    · exact replaced_borne sound laden fair edge replaced.1 replaced.2
  · intro _ after same
    rw [same]
    exact unchanged
  · intro _ held
    exact held

end Changing

/-- The creature is one whose capacity counts, and the call is a fair one. -/
def Allowed (capacities : Capacities) (creatureID : UInt32) (state : GameState cfg)
    (call : CarryCall cfg) : Prop :=
  ∃ carrier, Laden capacities state creatureID carrier ∧ Fair carrier creatureID state call

theorem fair_light {call : CarryCall cfg} (fair : Fair carrier creatureID state call) :
    carriedWeight state.world carrier < 2 ^ 31 := by
  have least : ∀ more, Light state.world carrier more → carriedWeight state.world carrier < 2 ^ 31 := by
    intro more light
    unfold Light at light
    omega
  cases call with
  | move surroundings mover obj con count noMerge ignore => exact least _ fair.2.2.2
  | merge surroundings mover obj dest count ignore => exact least _ fair.2.2.2.2
  | create surroundings con type value => exact least _ fair.2
  | changeValue surroundings obj attr value => exact least _ fair.2
  | change surroundings obj newType value => exact least _ fair.2.2.2.2

theorem call_borne (sound : Sound state.world kids)
    (laden : Laden capacities state creatureID carrier) {call : CarryCall cfg}
    (fair : Fair carrier creatureID state call) :
    Meets (callCarry capacities call) state (fun _ => Borne capacities creatureID carrier state)
      (fun _ => Borne capacities creatureID carrier state) fun _ => True := by
  cases call with
  | move surroundings mover obj con count noMerge ignore => exact move_borne sound laden fair
  | merge surroundings mover obj dest count ignore => exact merge_borne sound laden fair
  | create surroundings con type value =>
    apply meets_bind (create_borne sound laden fair)
    intro _ after borne
    exact meets_pure borne
  | changeValue surroundings obj attr value => exact change_value_borne sound laden fair
  | change surroundings obj newType value => exact change_borne sound laden fair

def Ordered (state : GameState cfg) : Prop := ∃ kids, Sound state.world kids

theorem run_ordered (ordered : Ordered start)
    (run : Runs (callCarry capacities) (Allowed capacities creatureID) start state) :
    Ordered state := by
  apply run.keeps ordered
  intro middle call before allowed
  rcases before with ⟨middleKids, middleSound⟩
  rcases allowed with ⟨carrier, laden, fair⟩
  exact (call_borne middleSound laden fair).imp (fun _ _ borne => borne.sound)
    (fun _ _ borne => borne.sound) fun _ held => held

/-- In a run of fair calls no call lets a creature carry more than its capacity. -/
theorem capacity_is_kept (sound : Sound start.world kids)
    (run : Runs (callCarry capacities) (Allowed capacities creatureID) start state)
    {call : CarryCall cfg} {result : Except Result Unit} (allowed : Allowed capacities creatureID state call)
    (ended : finish (callCarry capacities call) state = .ok (result, after)) :
    WithinCapacity capacities creatureID state after := by
  rcases run_ordered ⟨kids, sound⟩ run with ⟨newKids, newSound⟩
  rcases allowed with ⟨carrier, laden, fair⟩
  have borne : Borne capacities creatureID carrier state after :=
    (call_borne newSound laden fair).after ended
  exact borne.within newSound laden (fair_light fair)

def heavyTypes : GameConfig :=
  { smallTypes with
    typeAttributes := fun type attr => match attr with
      | .weight => if type == 102 then 10 else 0
      | _ => smallTypes.typeAttributes type attr }

/-- A creature with eight coins in its right hand, and three coins on the other field. -/
def coinBearer : List (Furniture heavyTypes) :=
  ⟨⟨1⟩, setTypeID heavyTypes 99, 5, 0⟩ ::
    (([10, 9, 8, 7, 6, 5, 4, 3, 2, 1] : List Int).map fun position =>
      ⟨⟨3⟩, setTypeID heavyTypes position, 0, 0⟩) ++
    [⟨⟨9⟩, setTypeID heavyTypes 102, 0, 8⟩, ⟨⟨2⟩, setTypeID heavyTypes 102, 0, 3⟩]

def bearing (world : World heavyTypes) : GameState heavyTypes :=
  ⟨world, fun creatureID => if creatureID = 5 then some ⟨⟨3⟩, none⟩ else none⟩

def weak : Capacities := ⟨fun _ => some 1, fun _ => false, fun _ => false⟩

def loneCreature (world : World cfg) (carrier : Object) : Bool :=
  (List.range cfg.hashTableSize).all fun index => match world.hashTable index with
    | .loaded record => !record.type.isCreatureContainer || record.objectID == carrier.objectID
    | _ => true

theorem lone_creature (passes : loneCreature world carrier = true)
    (isLive : objectExists world obj = true)
    (isCreature : (getObjectType world obj).isCreatureContainer = true) : obj = carrier := by
  rcases object_exists_iff.mp isLive with ⟨record, live⟩
  rcases live_cell.mp live with ⟨_, cell, number⟩
  have index : entryIndex cfg obj.objectID ∈ List.range cfg.hashTableSize :=
    List.mem_range.mpr (Nat.mod_lt _ (hash_table_size_pos cfg))
  have entry := List.all_eq_true.mp passes _ index
  rw [getObjectType, access_live live] at isCreature
  rw [cell] at entry
  simp only [isCreature, Bool.not_true, Bool.false_or, beq_iff_eq] at entry
  exact congrArg Object.mk (number.symm.trans entry)

def ladenSuch (state : GameState heavyTypes) : Bool :=
  decide (state.creatures 5 = some ⟨⟨3⟩, none⟩) && objectExists state.world ⟨3⟩ &&
    (getObjectType state.world ⟨3⟩).isCreatureContainer && getCreatureID state.world ⟨3⟩ == 5 &&
    loneCreature state.world ⟨3⟩ && objectExists state.world (getContainer state.world ⟨3⟩) &&
    (getObjectType state.world (getContainer state.world ⟨3⟩)).isMapContainer

theorem laden_such {state : GameState heavyTypes} (passes : ladenSuch state = true) :
    Laden weak state 5 ⟨3⟩ := by
  simp only [ladenSuch, Bool.and_eq_true, decide_eq_true_eq, beq_iff_eq] at passes
  rcases passes with ⟨⟨⟨⟨⟨⟨known, isLive⟩, body⟩, number⟩, alone⟩, fieldLive⟩, isField⟩
  constructor
  · constructor
    · decide
    · exact ⟨none, known⟩
    · exact isLive
    · exact body
    · exact number
    · intro obj objLive isCreature _
      exact lone_creature alone objLive isCreature
  · exact ⟨fieldLive, isField⟩
  · exact Bool.and_false _

def coinsSuch (state : GameState heavyTypes) : Bool :=
  decide (getContainer state.world ⟨15⟩ ≠ NONE) &&
    decide (getAttribute state.world ⟨15⟩ .amount ≠ 0) &&
    decide (getAttribute state.world ⟨14⟩ .amount ≠ 0) &&
    decide (carriedWeight state.world ⟨3⟩ + weightOf state.world ⟨15⟩ < 2 ^ 31)

theorem coins_such {state : GameState heavyTypes} (passes : coinsSuch state = true) :
    Fair ⟨3⟩ 5 state (.merge idle 0 ⟨15⟩ ⟨14⟩ 1 NONE) := by
  simp only [coinsSuch, Bool.and_eq_true, decide_eq_true_eq] at passes
  rcases passes with ⟨⟨⟨lies, some⟩, destSome⟩, light⟩
  exact ⟨.inr (by decide), fun _ => lies, fun _ => some, fun _ => destSome, light⟩

/-- Two coins are picked up, one after the other. -/
theorem coins_are_picked_up : ∃ start state after : GameState heavyTypes,
    Runs (callCarry weak) (Allowed weak 5) start state ∧
      finish (callCarry weak (.merge idle 0 ⟨15⟩ ⟨14⟩ 1 NONE)) state = .ok (.ok (), after) ∧
      getAttribute after.world ⟨14⟩ .amount = 10 ∧ WithinCapacity weak 5 state after := by
  have passes : furnishedSuch coinBearer (fun world => ladenSuch (bearing world) &&
      coinsSuch (bearing world) &&
      returnsSuch (callCarry weak (.merge idle 0 ⟨15⟩ ⟨14⟩ 1 NONE)) (bearing world) fun state =>
        ladenSuch state && coinsSuch state &&
        returnsSuch (callCarry weak (.merge idle 0 ⟨15⟩ ⟨14⟩ 1 NONE)) state fun after =>
          getAttribute after.world ⟨14⟩ .amount == 10) = true := by
    decide +kernel
  rcases furnished_such passes with ⟨world, kids, sound, test⟩
  simp only [Bool.and_eq_true] at test
  rcases test with ⟨⟨laden, coins⟩, first⟩
  rcases returns_such first with ⟨state, firstEnded, later⟩
  simp only [Bool.and_eq_true] at later
  rcases later with ⟨⟨stillLaden, stillCoins⟩, second⟩
  rcases returns_such second with ⟨after, secondEnded, ten⟩
  have run : Runs (callCarry weak) (Allowed weak 5) (bearing world) state :=
    .step .start ⟨⟨3⟩, laden_such laden, coins_such coins⟩ firstEnded
  have allowed : Allowed weak 5 state (.merge idle 0 ⟨15⟩ ⟨14⟩ 1 NONE) :=
    ⟨⟨3⟩, laden_such stillLaden, coins_such stillCoins⟩
  exact ⟨bearing world, state, after, run, secondEnded, by simpa using ten,
    capacity_is_kept sound run allowed secondEnded⟩

/-- With a count of -5 the eight coins in the hand become 13, and nothing is weighed. -/
theorem negative_count_exceeds_capacity : ∃ (state after : GameState heavyTypes)
    (kids : Object → List Object), Sound state.world kids ∧ Laden weak state 5 ⟨3⟩ ∧
      StacksInRange state.world ∧ Light state.world ⟨3⟩ (weightOf state.world ⟨14⟩) ∧
      finish (callCarry weak (.merge idle 0 ⟨14⟩ ⟨15⟩ (-5) NONE)) state = .ok (.ok (), after) ∧
      getInventoryWeight state 5 = .ok 80 ∧ getInventoryWeight after 5 = .ok 130 ∧
      ¬ WithinCapacity weak 5 state after := by
  have passes : furnishedSuch coinBearer (fun world => ladenSuch (bearing world) &&
      StackRuns.tableInRange world &&
      decide (carriedWeight world ⟨3⟩ + weightOf world ⟨14⟩ < 2 ^ 31) &&
      decide (getInventoryWeight (bearing world) 5 = .ok 80) &&
      returnsSuch (callCarry weak (.merge idle 0 ⟨14⟩ ⟨15⟩ (-5) NONE)) (bearing world) fun after =>
        decide (getInventoryWeight after 5 = .ok 130)) = true := by
    decide +kernel
  rcases furnished_such passes with ⟨world, kids, sound, test⟩
  simp only [Bool.and_eq_true, decide_eq_true_eq] at test
  rcases test with ⟨⟨⟨⟨laden, range⟩, light⟩, before⟩, returned⟩
  rcases returns_such returned with ⟨after, ended, heavier⟩
  have now : getInventoryWeight after 5 = .ok 130 := by simpa using heavier
  refine ⟨bearing world, after, kids, sound, laden_such laden, StackRuns.table_in_range range, light,
    ended, before, now, ?_⟩
  intro within
  rcases within with ⟨old, new, wasOld, isNew, limit⟩
  rw [before, Except.ok.injEq] at wasOld
  rw [now, Except.ok.injEq] at isNew
  rw [← wasOld, ← isNew] at limit
  rcases limit (by decide) with ⟨strength, strong, fits⟩
  rw [weak, Option.some.injEq] at strong
  rw [← strong] at fits
  exact absurd fits (by decide)

end TibiaGame.CarryCapacity
