import TibiaGame.StackRuns
import TibiaGame.ChangeEffects
import TibiaGame.TypeChanges
import TibiaGame.WeightChecks

/-!
# What the operations do to the amounts

An operation writes the `AMOUNT` of the objects that it is called for and of no others.
Objects that are created or deleted leave the type and the amount of the rest alone.
-/

namespace TibiaGame.AmountChanges

open GameTypes ObjectStore ObjectOperations ObjectKinds ForestSteps ForestOperations
open ObjectPayload InfoModel OperateModel OperateSteps OperateChanges ChangeEffects
open StackAmounts StackRuns TypeChanges GroundedMap FurnishedWorlds ContainerWalks
open WeightChecks Library.Outcome Library.ThrowingState

variable {cfg : GameConfig} {state : GameState cfg} {world middle after : World cfg}
  {obj con node : Object} {type newType : ObjectType cfg} {amount value : UInt32}
  {attr : InstanceAttribute} {oldFlags : Flag → Bool}

def Undisturbed (before after : World cfg) : Prop :=
  ∀ node, objectExists before node = true → stackOf after node = stackOf before node

def Diminished (before after : World cfg) : Prop :=
  ∀ node, objectExists before node = true →
    stackOf after node = none ∨ stackOf after node = stackOf before node

/-- The `AMOUNT` that a stack has when `value` has been assigned. -/
def written (type : ObjectType cfg) (value : UInt32) : UInt32 :=
  if stores type .amount then (if value = 0 then 1 else value) else 0

theorem live_of_stack : objectExists world node = true ↔ (stackOf world node).isSome = true := by
  rw [objectExists, stackOf, viewOf, Option.isSome_map]

theorem Undisturbed.live (undisturbed : Undisturbed world after)
    (isLive : objectExists world node = true) : objectExists after node = true := by
  rw [live_of_stack, undisturbed node isLive, ← live_of_stack]
  exact isLive

theorem Undisturbed.trans (first : Undisturbed world middle) (second : Undisturbed middle after) :
    Undisturbed world after :=
  fun node isLive => (second node (first.live isLive)).trans (first node isLive)

theorem Undisturbed.fewer (first : Undisturbed world middle)
    (second : FewerViews stackView middle after) : Diminished world after := by
  intro node isLive
  rcases second node with gone | same
  · exact .inl gone
  · exact .inr (same.trans (first node isLive))

theorem fresh_undisturbed (fresh : Fresh stackView world after obj type) :
    Undisturbed world after := by
  intro node isLive
  apply fresh.beside
  intro same
  rw [same, objectExists, fresh.dead] at isLive
  cases isLive

/-- What happens to one object that was not there does not concern the others. -/
theorem beside_undisturbed (dead : objectExists world obj = false)
    (first : Undisturbed world middle) (beside : Beside stackView obj middle after) :
    Undisturbed world after := by
  intro node isLive
  rw [← first node isLive]
  apply beside
  intro same
  rw [same, dead] at isLive
  cases isLive

theorem change_attribute_beside : Beside stackView obj world (changeAttribute world obj attr value) := by
  unfold changeAttribute
  split_ifs
  · exact fun _ _ => rfl
  · exact set_attribute_beside _ _ _ _

theorem change_attribute_stack (different : attr ≠ .amount) :
    stackOf (changeAttribute world obj attr value) = stackOf world := by
  funext node
  unfold changeAttribute
  split_ifs
  · rfl
  apply write_view (fun record => record_set_attribute_number record attr value)
  intro record
  rw [stackView, record_set_attribute_type, get_attribute_set,
    if_neg fun both => different both.1.symm]
  rfl

theorem change_amount_stack (isLive : objectExists world obj = true) :
    stackOf (changeAttribute world obj .amount value) obj =
      some (getObjectType world obj, written (getObjectType world obj) value) := by
  rcases object_exists_iff.mp isLive with ⟨record, live⟩
  have found := get_attribute_set record .amount .amount value
  rw [changeAttribute, isLive, stackOf, viewOf]
  simp only [Bool.not_true, Bool.false_eq_true, if_false]
  rw [live_set_attribute, updateRecord, if_pos rfl, live, Option.map_some, Option.map_some,
    stackView, record_set_attribute_type, found, getObjectType, access_live live, written,
    MapObject.normalize]
  cases stored : stores record.type .amount with
  | true => simp
  | false =>
    simp only [Bool.false_eq_true, and_false, if_false]
    rw [get_attribute_absent record stored rfl]

theorem assign_value_beside : Beside stackView obj world (assignValue oldFlags type obj value world) := by
  have folded : ∀ (entries : List (Flag × InstanceAttribute)) (start : World cfg),
      Beside stackView obj start (entries.foldl (fun world entry =>
        if type.getFlag entry.1 && !oldFlags entry.1 then changeAttribute world obj entry.2 value
        else world) start) := by
    intro entries
    induction entries with
    | nil => exact fun _ _ _ => rfl
    | cons entry rest ih =>
      intro start
      rw [List.foldl_cons]
      apply Beside.trans _ (ih _)
      split_ifs
      · exact change_attribute_beside
      · exact fun _ _ => rfl
  exact folded valueAttributes world

theorem assign_value_stack : stackOf (assignValue oldFlags type obj value world) =
    stackOf (if type.getFlag .cumulative && !oldFlags .cumulative then
      changeAttribute world obj .amount value else world) := by
  have folded : ∀ (entries : List (Flag × InstanceAttribute)) (start : World cfg),
      (∀ entry ∈ entries, entry.2 ≠ .amount) →
      stackOf (entries.foldl (fun world entry =>
        if type.getFlag entry.1 && !oldFlags entry.1 then changeAttribute world obj entry.2 value
        else world) start) = stackOf start := by
    intro entries
    induction entries with
    | nil =>
      intro start _
      rfl
    | cons entry rest ih =>
      intro start others
      rw [List.foldl_cons, ih _ fun later member => others later (List.mem_cons_of_mem entry member)]
      split_ifs
      · exact change_attribute_stack (others entry List.mem_cons_self)
      · rfl
  exact folded valueAttributes.tail _ (by decide)

/-- A change of type leaves no part, one, or as many as there were. -/
theorem change_object_amount (isLive : objectExists world obj = true)
    (changed : changeObject world obj newType = .ok after) :
    Beside stackView obj world after ∧ ∃ amount, stackOf after obj = some (newType, amount) ∧
      (amount = 0 ∨ amount = 1 ∨ (getObjectType world obj).getFlag .cumulative = true ∧
        amount = getAttribute world obj .amount) := by
  rcases object_exists_iff.mp isLive with ⟨record, live⟩
  rcases change_records live changed with ⟨newRecord, retyped⟩
  constructor
  · intro node different
    rw [viewOf, retyped.others node different]
    rfl
  simp only [changeObject, isLive, Bool.not_true, Bool.false_eq_true, if_false] at changed
  rcases bind_ok.mp changed with ⟨⟨carried, left⟩, wasLeft, ended⟩
  rw [getObjectType, access_live live] at wasLeft ⊢
  rcases leave_type_record live wasLeft with ⟨leftLive, handed, _⟩
  cases ended
  have newLive : liveRecord (cronExpire (enterType left obj newType carried) obj carried.delay) obj =
      some (enterRecord newType carried (leftRecord record newType)) := by
    rw [live_congr (expire_table _ _ _) obj, enterType,
      live_write_update left obj (enter_record_number newType carried), updateRecord, if_pos rfl,
      leftLive]
    rfl
  refine ⟨_, by rw [stackOf, viewOf, newLive, Option.map_some, stackView, enter_record_type], ?_⟩
  rcases stored : stores newType .amount with _ | _
  · left
    exact get_attribute_absent _ stored (enter_record_type newType carried _)
  right
  rw [enter_record_get carried _ stored, entered, if_pos rfl]
  split_ifs with none_left
  · exact .inl rfl
  rcases handed with zero | one | inherited
  · rw [zero] at none_left
    exact absurd (by decide) none_left
  · exact .inl one
  · right
    rw [getAttribute, access_live live]
    constructor
    · have has := inherited.1
      simpa [ObjectType.hasAttribute, instanceAttributeFlag] using has
    · exact inherited.2

theorem create_body_undisturbed {positions : List Nat} (permanent : kinds world 0 = .permanent)
    (isLive : objectExists world obj = true) (made : createBody obj positions world = .ok after) :
    Undisturbed world after := by
  induction positions generalizing world with
  | nil =>
    cases made
    exact fun _ _ => rfl
  | cons position rest ih =>
    rcases bind_ok.mp made with ⟨⟨part, next⟩, created, others⟩
    have fresh := set_object_fresh stack_unlinked permanent isLive created
    have first := fresh_undisturbed fresh
    exact first.trans (ih fresh.permanent (first.live isLive) others)

theorem delete_row_views {Value : Type} {view : MapObject cfg → Value} (unlinked : Unlinked view)
    {fuel : Nat} (deleted : deleteRow fuel world obj = .ok after) : FewerViews view world after := by
  induction fuel generalizing world obj with
  | zero => cases deleted
  | succ fuel ih =>
    rw [deleteRow] at deleted
    split_ifs at deleted
    · cases deleted
      exact (same_view_of_table rfl).fewer
    · rcases bind_ok.mp deleted with ⟨next, first, others⟩
      exact (deletion_view unlinked first).trans (ih others)

theorem delete_op_views {Value : Type} {view : MapObject cfg → Value} (unlinked : Unlinked view) :
    Meets (deleteOp obj (-1)) state
      (fun _ after => FewerViews view state.world after.world ∧ after.creatures = state.creatures)
      (fun _ after => after = state) fun _ => True := by
  apply meets_get
  apply refused_then
  intro _
  apply refused_then
  intro _
  have whole : ((getObjectType state.world obj).getFlag .cumulative && (-1 : Int32) != -1 &&
      decide ((-1 : Int32) < (getAttribute state.world obj .amount).toInt32)) = false := by
    simp
  rw [if_neg (by rw [whole]; decide)]
  have rows : Meets (whenever (getObjectType state.world obj).holdsObjects (changeMap fun world =>
      deleteRow walkLimit world (getFirstContainerObject world obj)) : Operate cfg Unit) state
      (fun _ after => FewerViews view state.world after.world ∧
        after.creatures = state.creatures) (fun _ after => after = state) fun _ => True := by
    unfold whenever
    split_ifs
    · apply change_map_meets
      · intro _ _
        trivial
      · intro world deleted
        exact ⟨delete_row_views unlinked deleted, rfl⟩
    · exact meets_pure ⟨(same_view_of_table rfl).fewer, rfl⟩
  apply meets_bind (meets_pure ⟨rfl, rfl⟩ : Meets (pure obj : Operate cfg Object) state
    (fun seen middle => seen = obj ∧ middle = state) _ _)
  intro seen middle both
  rw [both.1, both.2]
  apply meets_bind rows
  intro _ middle fewer
  apply meets_get
  unfold whenever
  split_ifs
  · apply change_map_meets
    · intro _ _
      trivial
    · intro world deleted
      exact ⟨fewer.1.trans (deletion_view unlinked deleted), fewer.2⟩
  · exact meets_pure fewer

theorem assign_value_quiet : Quiet world (assignValue oldFlags type obj value world) := by
  unfold assignValue
  induction valueAttributes generalizing world with
  | nil => exact .refl world
  | cons entry rest ih =>
    rw [List.foldl_cons]
    apply Quiet.trans _ ih
    split_ifs
    · exact change_attribute_quiet _ _ _ _
    · exact .refl world

def IsNew (world : World cfg) (obj : Object) (type : ObjectType cfg) (value : UInt32) : Prop :=
  ∃ amount, stackOf world obj = some (type, amount) ∧
    (type.getFlag .cumulative = true → amount = written type value)

theorem assigned_new (fresh : Fresh stackView world middle obj type) :
    IsNew (assignValue (fun _ => false) type obj value middle) obj type value := by
  have typed := object_type_of fresh.typed
  unfold IsNew
  rw [assign_value_stack]
  cases stack : type.getFlag .cumulative with
  | true =>
    refine ⟨written type value, ?_, fun _ => rfl⟩
    have changed : stackOf (changeAttribute middle obj .amount value) obj = _ :=
      change_amount_stack fresh.live
    rw [typed] at changed
    exact changed
  | false =>
    have found := stack_of_live fresh.live
    rw [typed] at found
    refine ⟨_, found, ?_⟩
    nofun

theorem enter_creature_stacks {creatureID : UInt32} (permanent : kinds world 0 = .permanent)
    (isLive : objectExists world obj = true) (undisturbed : Undisturbed state.world world) :
    Meets (enterCreature obj creatureID : Operate cfg Unit) { state with world := world }
      (fun _ after => Undisturbed state.world after.world)
      (fun _ after => Diminished state.world after.world) fun _ => True := by
  apply meets_get
  rcases state.creatures creatureID with _ | creature
  · apply meets_bind ((delete_op_views stack_unlinked).imp
      (fun _ after fewer => (undisturbed.fewer fewer.1 : Diminished state.world after.world))
      (fun _ after same => by
        rw [same]
        exact fun node nodeLive => .inr (undisturbed node nodeLive))
      fun _ held => held)
    intro _ after fewer
    exact meets_throw fewer
  have bodies : Meets (changeMap (createBody obj inventoryPositions) : Operate cfg Unit)
      { state with world := world } (fun _ after => Undisturbed state.world after.world)
      (fun _ after => Diminished state.world after.world) fun _ => True := by
    apply change_map_meets
    · intro _ _
      trivial
    · intro last made
      exact undisturbed.trans (create_body_undisturbed permanent isLive made)
  apply meets_bind bodies
  intro _ after same
  exact same

theorem create_new_stacks (permanent : kinds state.world 0 = .permanent)
    (conLive : objectExists state.world con = true) :
    Meets (createNew con type value) state
      (fun obj after => Undisturbed state.world after.world ∧
        (type.isCreatureContainer = false → IsNew after.world obj type value))
      (fun _ after => Diminished state.world after.world) fun _ => True := by
  have births : Meets (onMap fun world => setObject world con type
      (if type.isCreatureContainer then value else 0) : Operate cfg Object) state
      (fun obj => Ends state fun world => Fresh stackView state.world world obj type)
      (fun _ after => Diminished state.world after.world) fun _ => True := by
    apply on_map_meets
    · intro _ _
      trivial
    · intro obj world created
      exact ⟨world, rfl, set_object_fresh stack_unlinked permanent conLive created⟩
  apply meets_bind births
  intro obj middle ended
  rcases ended with ⟨world, here, fresh⟩
  have dead : objectExists state.world obj = false := by
    rw [objectExists, fresh.dead]
    rfl
  have undisturbed : Undisturbed state.world (assignValue (fun _ => false) type obj value world) :=
    beside_undisturbed dead (fresh_undisturbed fresh) assign_value_beside
  have isNew : IsNew (assignValue (fun _ => false) type obj value world) obj type value :=
    assigned_new fresh
  have stillPermanent : kinds (assignValue (fun _ => false) type obj value world) 0 = .permanent := by
    rw [assign_value_quiet.table]
    exact fresh.permanent
  have isLive : objectExists (assignValue (fun _ => false) type obj value world) obj = true := by
    rcases isNew with ⟨amount, found, _⟩
    rw [live_of_stack, found]
    rfl
  rw [here]
  apply meets_bind (change_map_meets (fun _ _ => trivial) fun last assigned => by
    cases assigned
    exact rfl : Meets _ _ (fun _ after => after =
      { state with world := assignValue (fun _ => false) type obj value world }) _ _)
  intro _ after same
  rw [same]
  rcases isCreature : type.isCreatureContainer with _ | _
  · exact ⟨undisturbed, fun _ => isNew⟩
  apply meets_bind (enter_creature_stacks stillPermanent isLive undisturbed)
  intro _ last stays
  apply meets_pure
  constructor
  · exact stays
  · rintro ⟨⟩

def Topped (state : GameState cfg) (kids : Object → List Object) (obj : Object)
    (after : GameState cfg) : Prop :=
  ∃ field amount, IsField state.world field ∧ obj ∈ kids field ∧
    (getObjectType state.world obj).getFlag .cumulative = true ∧
    after = { state with world := changeAttribute state.world obj .amount amount }

theorem create_on_top_stacks {surroundings : Surroundings cfg} {kids : Object → List Object}
    (sound : Sound state.world kids) :
    Meets (createOnTop surroundings con type value) state
      (fun top after => match top with
        | none => after = state
        | some top => Topped state kids top after) (fun _ after => after = state) fun _ => True := by
  apply meets_get
  by_cases stackable : ((getObjectType state.world con).isMapContainer && type.getFlag .cumulative) = true
  · rw [if_pos stackable]
    apply Library.ThrowingState.attempt_then
    intro place _
    apply Library.ThrowingState.attempt_then
    intro top found
    by_cases fits : top ≠ NONE ∧ getObjectType state.world top = type ∧
        getAttribute state.world top .amount + (if value ≠ 0 then value else 1) ≤ 100
    · rw [if_pos fits]
      rcases top_object_on_field sound.described.forest sound.grounded place.1 place.2.1 place.2.2
        true with ⟨other, sameFound, onField⟩
      rw [found, Except.ok.injEq] at sameFound
      rw [← sameFound] at onField
      rcases onField.resolve_left fits.1 with ⟨field, isField, member⟩
      apply meets_bind change_value_outcome
      intro _ after changed
      apply meets_pure
      have stack : (getObjectType state.world top).getFlag .cumulative = true := by
        rw [fits.2.1]
        exact (Bool.and_eq_true_iff.mp stackable).2
      exact ⟨field, _, isField, member, stack, changed.1⟩
    rw [if_neg fits]
    exact meets_pure rfl
  rw [if_neg stackable]
  exact meets_pure rfl

/-- `create` adds to a stack on a field, or leaves every stack that there was as it is. -/
theorem create_stacks {surroundings : Surroundings cfg} {kids : Object → List Object}
    (sound : Sound state.world kids) :
    Meets (create surroundings con type value) state
      (fun obj after => Topped state kids obj after ∨ Undisturbed state.world after.world ∧
        (type.isCreatureContainer = false → IsNew after.world obj type value))
      (fun _ after => Diminished state.world after.world) fun _ => True := by
  have forest := sound.described.forest
  have idle : ∀ after, after = state → Diminished state.world after.world := by
    intro after same
    rw [same]
    exact fun _ _ => .inr rfl
  have passes : ∀ (refused : Bool) (result : Result),
      Reads (refuse refused result : Operate cfg Unit) state fun _ => refused = false :=
    fun _ _ => reads_refuse fun passed => passed
  apply meets_get
  apply (passes _ _).bind fun _ => idle state rfl
  intro _ conLive
  apply (passes _ _).bind fun _ => idle state rfl
  intro _ holds
  apply (passes _ _).bind fun _ => idle state rfl
  intro _ item
  have isLive : objectExists state.world con = true := by simpa using conLive
  apply (check_create_reads forest isLive).bind fun _ => idle state rfl
  intro _ _
  apply meets_bind ((create_on_top_stacks sound).imp (fun _ _ held => held)
    (fun _ after same => idle after same) fun _ held => held)
  intro top middle ended
  cases top with
  | some top => exact meets_pure (.inl ended)
  | none =>
    have same : middle = state := ended
    rw [same]
    exact (create_new_stacks sound.described.agreement.permanent isLive).imp
      (fun _ _ new => .inr new) (fun _ _ held => held) fun _ held => held

end TibiaGame.AmountChanges
