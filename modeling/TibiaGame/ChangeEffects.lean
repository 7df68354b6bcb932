import TibiaGame.OperateChanges
import TibiaGame.OperateEffects

/-!
# What creating, changing and deleting do

The checks of `create` and `change` leave the state as it was, and so does a call that
they refuse. A deletion goes through the content list of its object first, and takes
what is left afterwards.
-/

namespace TibiaGame.ChangeEffects

open GameTypes ObjectStore ObjectOperations ObjectKinds ContentForest ForestSteps ForestDeletion
open ForestOperations ForestRuns InfoModel ContainerWalks OperateModel OperateChecks OperateSteps
open OperateChanges FurnishedWorlds OperateEffects Library.LinkedList
open Library.OrderedForest Library.ForestChanges Library.Outcome Library.ThrowingState

variable {cfg : GameConfig} {state : GameState cfg} {world after : World cfg}
  {kids newKids : Object → List Object} {surroundings : Surroundings cfg} {obj con oldObj : Object}
  {type newType : ObjectType cfg} {value : UInt32} {count : Int32}

/-- The call has come to an end with this about the objects, and with the same creatures. -/
def Ends (state : GameState cfg) (holds : World cfg → Prop) (ended : GameState cfg) : Prop :=
  ∃ world, ended = { state with world := world } ∧ holds world

/-- What is left when the content list of an object has been deleted. -/
structure Drained (before after : World cfg) (kids newKids : Object → List Object)
    (obj : Object) : Prop where
  sound : Sound after newKids
  empty : newKids obj = []
  pruned : prune newKids obj = prune kids obj
  edges : ∀ holder, obj ∈ kids holder → obj ∈ newKids holder
  survivors : ∀ node, objectExists after node = true ↔
    objectExists before node = true ∧ (node = obj ∨ ¬ Below kids obj node)
  types : ∀ node, objectExists after node = true →
    typeOf (kinds after) node = typeOf (kinds before) node

theorem leaf_drained (sound : Sound world kids) (empty : kids obj = []) :
    Drained world world kids kids obj where
  sound := sound
  empty := empty
  pruned := rfl
  edges := fun _ edge => edge
  survivors := by
    intro node
    rw [below_leaf empty]
    tauto
  types := fun _ _ => rfl

/-- Without the first member the rest of the list is drained in the same way. -/
theorem Drained.after_child {middle : World cfg} {child : Object} (sound : Sound world kids)
    (edge : child ∈ kids obj) (gone : Gone world middle kids (prune kids child) child)
    (drained : Drained middle after (prune kids child) newKids obj) :
    Drained world after kids newKids obj := by
  have forest := sound.described.forest
  have notInside : ¬ Below kids child obj := forest.ranked.parent_not_below edge
  constructor
  · exact drained.sound
  · exact drained.empty
  · rw [drained.pruned, prune_child forest.single edge]
  · intro holder here
    exact drained.edges holder (prune_member notInside here)
  · intro node
    rw [drained.survivors, gone.survivors]
    constructor
    · intro held
      constructor
      · exact held.1.1
      by_cases here : node = obj
      · exact .inl here
      right
      intro under
      have parts : Below (prune kids child) obj node ∨ Below kids child node :=
        below_prune_or under
      rcases parts with rest | inside
      · exact (held.2.resolve_left here) rest
      · exact held.1.2 inside
    intro held
    rcases held.2 with here | outside
    · rw [here]
      rw [here] at held
      exact ⟨⟨held.1, notInside⟩, .inl rfl⟩
    constructor
    · constructor
      · exact held.1
      · intro inside
        exact outside (below_trans (below_child edge) inside)
    · right
      intro rest
      exact outside (below_of_prune rest)
  · intro node isLive
    have middleLive : objectExists middle node = true := ((drained.survivors node).mp isLive).1
    exact (drained.types node isLive).trans (gone.types node middleLive)

theorem delete_row_drains {fuel : Nat} (sound : Sound world kids)
    (deleted : deleteRow fuel world (headOf NONE (kids obj)) = .ok after) :
    ∃ newKids, Drained world after kids newKids obj := by
  induction fuel generalizing world kids with
  | zero => cases deleted
  | succ fuel ih =>
    have forest := sound.described.forest
    rcases members : kids obj with _ | ⟨child, rest⟩
    · rw [members] at deleted
      cases deleted
      exact ⟨kids, leaf_drained sound members⟩
    have edge : child ∈ kids obj := by
      rw [members]
      exact List.mem_cons_self
    have chain := row_chain forest (holder_exists (forest.parent_holds edge))
    rw [members] at deleted chain
    rw [head_of_cons, deleteRow, if_neg (forest.kid_ne_none edge),
      chain_start chain.2.2] at deleted
    rcases bind_ok.mp deleted with ⟨middle, first, others⟩
    have gone := delete_gone sound edge first
    have left : prune kids child obj = rest := by
      rw [prune_outside (forest.ranked.parent_not_below edge), members,
        List.erase_cons_head]
    rw [← left] at others
    rcases ih gone.sound others with ⟨newKids, drained⟩
    exact ⟨newKids, drained.after_child sound edge gone⟩

theorem delete_row_returns {fuel : Nat} (sound : Sound world kids)
    (enough : (kids obj).length < fuel) :
    ∃ after, deleteRow fuel world (headOf NONE (kids obj)) = .ok after := by
  induction fuel generalizing world kids with
  | zero => exact (Nat.not_lt_zero _ enough).elim
  | succ fuel ih =>
    have forest := sound.described.forest
    rcases members : kids obj with _ | ⟨child, rest⟩
    · exact ⟨world, rfl⟩
    have edge : child ∈ kids obj := by
      rw [members]
      exact List.mem_cons_self
    have chain := row_chain forest (holder_exists (forest.parent_holds edge))
    rcases delete_object_spec sound.described.agreement forest edge with ⟨middle, first, _⟩
    have gone := delete_gone sound edge first
    have left : prune kids child obj = rest := by
      rw [prune_outside (forest.ranked.parent_not_below edge), members,
        List.erase_cons_head]
    rw [members] at enough chain
    have fewer : (prune kids child obj).length < fuel := by
      rw [left]
      exact Nat.lt_of_succ_lt_succ enough
    rcases ih gone.sound fewer with ⟨after, ended⟩
    rw [left] at ended
    rw [head_of_cons, deleteRow, if_neg (forest.kid_ne_none edge), chain_start chain.2.2, first]
    exact ⟨after, ended⟩

theorem Drained.gone {middle : World cfg} (drained : Drained world middle kids newKids obj)
    (forest : Forest (liveRecord world) kids)
    (gone : Gone middle after newKids (prune newKids obj) obj) :
    Gone world after kids (prune kids obj) obj := by
  have survivors : ∀ node, objectExists after node = true ↔
      objectExists world node = true ∧ ¬ Below kids obj node := by
    intro node
    rw [gone.survivors, drained.survivors, below_leaf drained.empty]
    constructor
    · intro held
      exact ⟨held.1.1, held.1.2.resolve_left held.2⟩
    intro held
    refine ⟨⟨held.1, .inr held.2⟩, ?_⟩
    intro here
    rw [here] at held
    exact held.2 (below_refl kids obj)
  constructor
  · rw [← drained.pruned]
    exact gone.sound
  · exact prune_departs forest.nodup
  · exact survivors
  · intro node isLive
    have middleLive : objectExists middle node = true := ((gone.survivors node).mp isLive).1
    exact (gone.types node isLive).trans (drained.types node middleLive)

/-- The end of `delete_op`, for an object or for the part that was cut off. -/
theorem delete_rest_spec {throws : Result → GameState cfg → Prop} {halts : Halt → Prop}
    (sound : Sound state.world kids) (edge : obj ∈ kids con) {holds : Bool}
    (typed : holds = (getObjectType state.world obj).holdsObjects) :
    Meets (do
        whenever holds (changeMap fun world =>
          deleteRow walkLimit world (getFirstContainerObject world obj))
        let state ← get
        whenever (objectExists state.world obj) (changeMap fun world => deleteObject world obj) :
      Operate cfg Unit) state
      (fun _ => Ends state fun world => Gone state.world world kids (prune kids obj) obj)
      throws halts := by
  have forest := sound.described.forest
  have isLive := (member_container forest edge).1
  have drains : Meets (whenever holds (changeMap fun world =>
      deleteRow walkLimit world (getFirstContainerObject world obj)) : Operate cfg Unit) state
      (fun _ => Ends state fun world => ∃ newKids, Drained state.world world kids newKids obj)
      throws halts := by
    rcases holds with _ | _
    · apply meets_pure
      refine ⟨state.world, rfl, kids, leaf_drained sound ?_⟩
      apply forest.barren
      intro isHolder
      rw [← holder_iff, IsHolder, ← typed] at isHolder
      cases isHolder.2
    rw [whenever, if_pos rfl]
    apply change_map_meets
    · intro halt stopped
      rcases delete_row_returns sound (kids_length forest obj) with ⟨after, ended⟩
      rw [chain_start (row_chain forest isLive)] at stopped
      rw [stopped] at ended
      cases ended
    · intro world deleted
      rw [chain_start (row_chain forest isLive)] at deleted
      exact ⟨world, rfl, delete_row_drains sound deleted⟩
  apply meets_bind drains
  intro _ middle ended
  rcases ended with ⟨world, here, newKids, drained⟩
  rw [here]
  apply meets_get
  have stillLive : objectExists world obj = true := (drained.survivors obj).mpr ⟨isLive, .inl rfl⟩
  rw [whenever, if_pos stillLive]
  apply change_map_meets
  · intro halt stopped
    have still := drained.sound.described
    rcases delete_object_spec still.agreement still.forest (drained.edges con edge) with
      ⟨after, ended, _⟩
    rw [stopped] at ended
    cases ended
  · intro after deleted
    have gone := delete_gone drained.sound (drained.edges con edge) deleted
    exact ⟨after, rfl, drained.gone forest gone⟩

theorem parted_cuts (parted : Parted world obj count)
    (enough : ((getObjectType world obj).getFlag .cumulative &&
      decide ((getAttribute world obj .amount).toInt32 < count)) = false) :
    ((getObjectType world obj).getFlag .cumulative && count != -1 &&
      decide (count < (getAttribute world obj .amount).toInt32)) = true := by
  have notAll : count ≠ -1 := by
    intro same
    have some := parted.some
    rw [same] at some
    exact absurd some (by decide)
  rw [parted.stack, Bool.true_and, decide_eq_false_iff_not, Int32.not_lt] at enough
  have less : count < (getAttribute world obj .amount).toInt32 := by
    apply Int32.lt_of_le_of_ne enough
    intro same
    have fewer := parted.less
    rw [same] at fewer
    exact UInt32.lt_irrefl _ fewer
  rw [parted.stack, Bool.true_and, bne_iff_ne.mpr notAll, Bool.true_and]
  exact decide_eq_true less

/-- `delete_op` takes a part off a stack, or its object is gone with all it holds. -/
theorem delete_op_spec (sound : Sound state.world kids) (edge : obj ∈ kids con) :
    Meets (deleteOp obj count) state
      (fun _ => Ends state fun world => Parted state.world obj count ∧ Kept state.world world kids ∨
        ¬ Parted state.world obj count ∧ Gone state.world world kids (prune kids obj) obj)
      (fun _ after => after = state) fun _ => True := by
  have forest := sound.described.forest
  have isLive := (member_container forest edge).1
  apply meets_get
  apply refused_then
  intro _
  apply refused_then
  intro enough
  have cuts : Meets (if (getObjectType state.world obj).getFlag .cumulative && count != -1 &&
      decide (count < (getAttribute state.world obj .amount).toInt32) then
        onMap fun world => splitObject world obj count else pure obj : Operate cfg Object) state
      (fun part middle => (¬ Parted state.world obj count ∧ part = obj ∧ middle = state) ∨
        Parted state.world obj count ∧
        Ends state (fun world => ∃ newKids, Born state.world world kids newKids part con
          (getObjectType state.world obj)) middle)
      (fun _ after => after = state) fun _ => True := by
    split_ifs with part
    · apply on_map_meets
      · intro _ _
        trivial
      intro part world cut
      by_cases separates : Parted state.world obj count
      · exact .inr ⟨separates, world, rfl, split_born sound edge separates cut⟩
      rw [split_whole separates isLive] at cut
      cases cut
      exact .inl ⟨separates, rfl, rfl⟩
    apply meets_pure
    left
    constructor
    · intro parted
      exact part (parted_cuts parted enough)
    · exact ⟨rfl, rfl⟩
  apply meets_bind cuts
  intro part middle cut
  rcases cut with whole | split
  · rw [whole.2.1, whole.2.2]
    apply (delete_rest_spec sound edge rfl).imp
    · intro _ _ ended
      rcases ended with ⟨world, here, gone⟩
      exact ⟨world, here, .inr ⟨whole.1, gone⟩⟩
    · intro _ _ same
      exact same
    · intro _ held
      exact held
  rcases split with ⟨parted, world, here, newKids, born⟩
  have typed : getObjectType world part = getObjectType state.world obj := by
    apply object_type_of
    rw [born.types, if_pos rfl]
  let middle : GameState cfg := { state with world := world }
  have middleSound : Sound middle.world newKids := born.sound
  have middleTyped : (getObjectType state.world obj).holdsObjects =
      (getObjectType middle.world part).holdsObjects :=
    congrArg ObjectType.holdsObjects typed.symm
  rw [here]
  apply (delete_rest_spec middleSound born.edge middleTyped).imp
  · intro _ _ ended
    rcases ended with ⟨last, there, gone⟩
    exact ⟨last, there, .inl ⟨parted, born.gone forest gone⟩⟩
  · intro _ _ same
    exact same
  · intro _ held
    exact held

/-- The slot takes an object of the type, in the place of `oldObj` if there is one. -/
structure PlaceAllows (state : GameState cfg) (type : ObjectType cfg) (con oldObj : Object)
    (position : Nat) (creatureID : UInt32) : Prop where
  slot : getObjectBodyPosition state.world con = .ok position
  owner : getObjectCreatureID state.world con = .ok creatureID
  worn : isHand position = false → position ≠ inventoryAmmo → WornAt type position
  hands : isHand position = true → type.isTwoHanded = true → HandsFree state creatureID oldObj
  free : (isHand position && type.isTwoHanded) = false →
    getBodyObject state creatureID position ≠ NONE →
      getBodyObject state creatureID position = oldObj
  others : isHand position = true → type.isTwoHanded = false → ∀ hand, isHand hand = true →
    getBodyObject state creatureID hand ≠ NONE → getBodyObject state creatureID hand ≠ oldObj →
      (getObjectType state.world (getBodyObject state creatureID hand)).isTwoHanded = false ∧
        ((getObjectType state.world (getBodyObject state creatureID hand)).isWeapon &&
          type.isWeapon) = false

theorem check_other_place_reads {creatureID : UInt32} (hand : Nat) :
    Reads (checkOtherPlace state creatureID type oldObj hand) state fun _ =>
      getBodyObject state creatureID hand ≠ NONE → getBodyObject state creatureID hand ≠ oldObj →
      (getObjectType state.world (getBodyObject state creatureID hand)).isTwoHanded = false ∧
        ((getObjectType state.world (getBodyObject state creatureID hand)).isWeapon &&
          type.isWeapon) = false := by
  unfold checkOtherPlace
  simp only
  split_ifs with exempt
  · apply reads_pure
    intro occupied different
    rcases exempt with empty | same
    · exact (occupied empty).elim
    · exact (different same).elim
  apply refuse_then
  intro single
  apply reads_refuse
  intro weapons _ _
  exact ⟨single, weapons⟩

theorem check_place_reads (forest : Forest (liveRecord state.world) kids) :
    Reads (checkInventoryPlace type con oldObj : Operate cfg Unit) state
      fun _ => ∃ position owner, PlaceAllows state type con oldObj position owner := by
  apply state_reads
  rcases body_position_returns forest con with ⟨position, slot⟩
  rcases creature_id_returns forest con with ⟨owner, owned⟩
  apply OperateChecks.attempt_then slot
  apply (slot_reads (fun creatureID => decide (getBodyObject state creatureID position ≠ NONE ∧
    getBodyObject state creatureID position ≠ oldObj)) (checkOtherPlace state · type oldObj) owned
      check_other_place_reads).imp
  intro _ fits
  refine ⟨position, owner, slot, owned, fits.worn, fits.hands, ?_, fits.others⟩
  intro single
  simpa using fits.free single

theorem check_container_place_reads (forest : Forest (liveRecord state.world) kids)
    (conLive : objectExists state.world con = true) :
    Free (checkContainerPlace surroundings type con oldObj) state := by
  apply state_reads
  by_cases locker : type = surroundings.depotChest
  · rw [if_pos locker]
    exact reads_pure trivial
  rw [if_neg locker]
  by_cases chest : (getObjectType state.world con).getFlag .chest = true
  · rw [if_pos chest]
    exact reads_pure trivial
  rw [if_neg chest]
  apply refuse_then
  intro _
  apply refuse_then
  intro _
  by_cases new : oldObj = NONE
  · rw [if_pos new]
    apply OperateChecks.attempt_then (row_count_spec forest conLive)
    exact reads_refuse fun _ => trivial
  rw [if_neg new]
  exact reads_pure trivial

theorem check_type_weight_reads {creatureID : UInt32} {oldWeight : Int32} :
    Free (checkTypeWeight surroundings creatureID type value oldWeight) state := by
  apply state_reads
  exact answer_reads _

/-- What has been checked of the slot when an object of the type comes to be in `con`. -/
def SlotChecked (state : GameState cfg) (type : ObjectType cfg) (con oldObj : Object) : Prop :=
  (getObjectType state.world con).isMapContainer = false →
    (getObjectType state.world con).isBodyContainer = true →
      ∃ position owner, PlaceAllows state type con oldObj position owner

theorem check_create_reads (forest : Forest (liveRecord state.world) kids)
    (conLive : objectExists state.world con = true) :
    Reads (checkCreate surroundings con type value) state
      fun _ => SlotChecked state type con NONE := by
  apply state_reads
  have place : Reads (if (getObjectType state.world con).isMapContainer = true then
        checkMapPlace surroundings 0 type con
      else if (getObjectType state.world con).isBodyContainer = true then
        checkInventoryPlace type con NONE
      else checkContainerPlace surroundings type con NONE) state
        fun _ => SlotChecked state type con NONE := by
    split_ifs with field body
    · apply state_reads
      apply (answer_reads _).imp
      intro _ _ item
      rw [field] at item
      cases item
    · apply (check_place_reads forest).imp
      intro _ allows _ _
      exact allows
    · apply (check_container_place_reads forest conLive).imp
      intro _ _ _ isBody
      exact (body isBody).elim
  apply place.then
  intro _ checked
  rcases creature_id_returns forest con with ⟨owner, owned⟩
  apply OperateChecks.attempt_then owned
  apply whenever_reads
  · intro _
    exact check_type_weight_reads.imp fun _ _ => checked
  · intro _
    exact checked

theorem assign_value_kept (sound : Sound world kids) (oldFlags : Flag → Bool) :
    Kept world (assignValue oldFlags type obj value world) kids := by
  have folded : ∀ (entries : List (Flag × InstanceAttribute)) (middle : World cfg),
      (∀ entry ∈ entries, entry.2 ≠ .content) → Kept world middle kids →
      Kept world (entries.foldl (fun world entry =>
        if type.getFlag entry.1 && !oldFlags entry.1 then changeAttribute world obj entry.2 value
        else world) middle) kids := by
    intro entries
    induction entries with
    | nil =>
      intro middle _ kept
      exact kept
    | cons entry rest ih =>
      intro middle different kept
      rw [List.foldl_cons]
      apply ih
      · intro later member
        exact different later (List.mem_cons_of_mem entry member)
      · split_ifs
        · exact kept.trans (change_attribute_kept kept.sound (different entry List.mem_cons_self) value)
        · exact kept
  exact folded valueAttributes world (by decide) (Kept.refl sound)

theorem change_value_spec (sound : Sound state.world kids) {attr : InstanceAttribute} :
    Meets (changeValue surroundings obj attr value) state
      (fun _ => Ends state fun world => Kept state.world world kids) (fun _ after => after = state)
      fun _ => True := by
  apply meets_get
  apply refused_then
  intro _
  apply refused_then
  intro loose
  have different : attr ≠ .content := by
    intro same
    rw [same] at loose
    cases loose
  apply Library.ThrowingState.attempt_then
  intro owner _
  apply checked_then (whenever_reads (fun _ => check_type_weight_reads) fun _ => trivial)
  intro _
  apply change_map_meets
  · intro _ _
    trivial
  · intro world changed
    cases changed
    exact ⟨_, rfl, change_attribute_kept sound different value⟩

theorem create_on_top_spec (sound : Sound state.world kids) :
    Meets (createOnTop surroundings con type value) state
      (fun top after => (top = none → after = state) ∧
        Ends state (fun world => Kept state.world world kids) after)
      (fun _ after => after = state) fun _ => True := by
  have same : Ends state (fun world => Kept state.world world kids) state :=
    ⟨state.world, rfl, Kept.refl sound⟩
  apply meets_get
  by_cases stackable : ((getObjectType state.world con).isMapContainer && type.getFlag .cumulative) = true
  · rw [if_pos stackable]
    apply Library.ThrowingState.attempt_then
    intro place _
    apply Library.ThrowingState.attempt_then
    intro top _
    by_cases fits : top ≠ NONE ∧ getObjectType state.world top = type ∧
        getAttribute state.world top .amount + (if value ≠ 0 then value else 1) ≤ 100
    · rw [if_pos fits]
      apply meets_bind (change_value_spec sound)
      intro _ after changed
      apply meets_pure
      constructor
      · nofun
      · exact changed
    rw [if_neg fits]
    exact meets_pure ⟨fun _ => rfl, same⟩
  rw [if_neg stackable]
  exact meets_pure ⟨fun _ => rfl, same⟩

/-- Body containers are born in an object, one for each position. -/
inductive Embodied (obj : Object) : List Nat → World cfg → (Object → List Object) → World cfg →
    (Object → List Object) → Prop
  | done {world : World cfg} {kids : Object → List Object} : Embodied obj [] world kids world kids
  | next {position : Nat} {rest : List Nat} {world middle after : World cfg}
      {kids middleKids newKids : Object → List Object} {part : Object}
      (born : Born world middle kids middleKids part obj (setTypeID cfg position))
      (others : Embodied obj rest middle middleKids after newKids) :
      Embodied obj (position :: rest) world kids after newKids

theorem create_body_spec {positions : List Nat} (sound : Sound world kids)
    (isHolder : IsHolder world obj)
    (body : ∀ position ∈ positions, (setTypeID cfg position).isMapContainer = false)
    (made : createBody obj positions world = .ok after) :
    ∃ newKids, Embodied obj positions world kids after newKids := by
  induction positions generalizing world kids with
  | nil =>
    cases made
    exact ⟨kids, .done⟩
  | cons position rest ih =>
    rcases bind_ok.mp made with ⟨⟨part, middle⟩, created, others⟩
    rcases set_object_born sound isHolder (body position List.mem_cons_self) created with
      ⟨middleKids, born⟩
    have other := born.other isHolder.1
    have stillHolder : IsHolder middle obj := by
      constructor
      · exact other.2.1
      · rw [other.2.2]
        exact isHolder.2
    rcases ih born.sound stillHolder
      (fun later member => body later (List.mem_cons_of_mem position member)) others with
      ⟨newKids, embodied⟩
    exact ⟨newKids, .next born embodied⟩

theorem body_types_items (isCreature : type.isCreatureContainer = true) :
    ∀ position ∈ inventoryPositions, (setTypeID cfg (position : Nat)).isMapContainer = false := by
  have number : type.typeID = 99 := by simpa [ObjectType.isCreatureContainer] using isCreature
  have known := type.known
  intro position member
  have range : 1 ≤ position ∧ position ≤ 10 := by
    simp only [inventoryPositions, List.mem_cons, List.not_mem_nil, or_false] at member
    omega
  rw [setTypeID, dif_pos (by omega), ObjectType.isMapContainer]
  apply beq_false_of_ne
  simp only [Int.toNat_natCast]
  omega

/-- An object is born where `create` puts it, and a creature with its body. -/
inductive Grown (state : GameState cfg) (kids : Object → List Object) (con : Object)
    (type : ObjectType cfg) (value : UInt32) (obj : Object) : GameState cfg → Prop
  | item {world : World cfg} {newKids : Object → List Object}
      (isItem : type.isCreatureContainer = false)
      (born : Born state.world world kids newKids obj con type) :
      Grown state kids con type value obj { state with world := world }
  | creature {middle world : World cfg} {middleKids newKids : Object → List Object}
      {creature : Creature} (isCreature : type.isCreatureContainer = true)
      (known : state.creatures value = some creature)
      (born : Born state.world middle kids middleKids obj con type)
      (embodied : Embodied obj inventoryPositions middle middleKids world newKids) :
      Grown state kids con type value obj
        { world := world
          creatures := Function.update state.creatures value (some { creature with crObject := obj }) }

theorem delete_whole_spec {throws : Result → GameState cfg → Prop} (sound : Sound state.world kids)
    (edge : obj ∈ kids con) (single : (getObjectType state.world obj).getFlag .cumulative = false) :
    Meets (deleteOp obj count) state
      (fun _ => Ends state fun world => Gone state.world world kids (prune kids obj) obj) throws
      fun _ => True := by
  have isLive := (member_container sound.described.forest edge).1
  apply meets_get
  dsimp only
  rw [isLive, single]
  exact delete_rest_spec sound edge rfl

theorem enter_creature_spec {start : GameState cfg} {startKids : Object → List Object}
    {creatureID : UInt32} (sound : Sound start.world startKids)
    (isCreature : type.isCreatureContainer = true) (holds : type.holdsObjects = true)
    (born : Born start.world world startKids kids obj con type) :
    Meets (enterCreature obj creatureID : Operate cfg Unit) { start with world := world }
      (fun _ => Grown start startKids con type creatureID obj)
      (fun _ => Ends start fun world => Kept start.world world startKids) fun _ => True := by
  have isLive := (member_container born.sound.described.forest born.edge).1
  have typed : getObjectType world obj = type := by
    apply object_type_of
    rw [born.types, if_pos rfl]
  apply meets_get
  dsimp only
  rcases known : start.creatures creatureID with _ | creature
  · have number : type.typeID = 99 := by simpa [ObjectType.isCreatureContainer] using isCreature
    have single : (getObjectType world obj).getFlag .cumulative = false := by
      rw [typed, ObjectType.getFlag, number, cfg.creature_single]
    have deletes : Meets (deleteOp obj (-1) : Operate cfg Unit) { start with world := world }
        (fun _ => Ends { start with world := world } fun last => Gone world last kids (prune kids obj) obj)
        (fun _ => Ends start fun world => Kept start.world world startKids) fun _ => True :=
      delete_whole_spec born.sound born.edge single
    apply meets_bind deletes
    intro _ after ended
    rcases ended with ⟨last, there, gone⟩
    apply meets_throw
    rw [there]
    exact ⟨last, rfl, born.gone sound.described.forest gone⟩
  have isHolder : IsHolder world obj := by
    constructor
    · exact isLive
    · rw [typed]
      exact holds
  have bodies : Meets (changeMap (createBody obj inventoryPositions) : Operate cfg Unit)
      { start with world := world }
      (fun _ => Ends { start with world := world } fun last =>
        ∃ newKids, Embodied obj inventoryPositions world kids last newKids)
      (fun _ => Ends start fun world => Kept start.world world startKids) fun _ => True := by
    apply change_map_meets
    · intro _ _
      trivial
    · intro last made
      exact ⟨last, rfl, create_body_spec born.sound isHolder (body_types_items isCreature) made⟩
  apply meets_bind bodies
  intro _ after ended
  rcases ended with ⟨last, there, newKids, embodied⟩
  rw [there]
  exact .creature isCreature known born embodied

theorem create_new_spec (sound : Sound state.world kids) (isHolder : IsHolder state.world con)
    (item : type.isMapContainer = false)
    (bodied : type.isCreatureContainer = true → type.holdsObjects = true) :
    Meets (createNew con type value) state (fun obj => Grown state kids con type value obj)
      (fun _ => Ends state fun world => Kept state.world world kids) fun _ => True := by
  have births : Meets (onMap fun world => setObject world con type
      (if type.isCreatureContainer then value else 0) : Operate cfg Object) state
      (fun obj => Ends state fun world => ∃ newKids, Born state.world world kids newKids obj con type)
      (fun _ => Ends state fun world => Kept state.world world kids) fun _ => True := by
    apply on_map_meets
    · intro _ _
      trivial
    · intro obj world created
      exact ⟨world, rfl, set_object_born sound isHolder item created⟩
  apply meets_bind births
  intro obj middle ended
  rcases ended with ⟨world, here, newKids, born⟩
  rw [here]
  have assigns : Meets (changeMap fun world => .ok (assignValue (fun _ => false) type obj value world) :
      Operate cfg Unit) { state with world := world }
      (fun _ => Ends state fun last => Born state.world last kids newKids obj con type)
      (fun _ => Ends state fun world => Kept state.world world kids) fun _ => True := by
    apply change_map_meets
    · intro _ _
      trivial
    · intro last assigned
      cases assigned
      exact ⟨_, rfl, born.kept (assign_value_kept born.sound _)⟩
  apply meets_bind assigns
  intro _ after ended
  rcases ended with ⟨last, there, lastBorn⟩
  rw [there]
  rcases isCreature : type.isCreatureContainer with _ | _
  · exact .item isCreature lastBorn
  apply meets_bind (enter_creature_spec sound isCreature (bodied isCreature) lastBorn)
  intro _ after grown
  exact meets_pure grown

/-- `create` adds to the object on top of a field, or makes a new one where its checks let it. -/
theorem create_steps (sound : Sound state.world kids)
    (bodied : type.isCreatureContainer = true → type.holdsObjects = true) :
    Meets (create surroundings con type value) state
      (fun obj after => IsHolder state.world con ∧ SlotChecked state type con NONE ∧
        (Ends state (fun world => Kept state.world world kids) after ∨
          Grown state kids con type value obj after))
      (fun _ => Ends state fun world => Kept state.world world kids) fun _ => True := by
  have idle : ∀ after, after = state → Ends state (fun world => Kept state.world world kids) after := by
    intro after same
    exact ⟨state.world, same, Kept.refl sound⟩
  have passes : ∀ (refused : Bool) (result : Result),
      Reads (refuse refused result : Operate cfg Unit) state fun _ => refused = false :=
    fun _ _ => reads_refuse fun passed => passed
  apply meets_get
  apply (passes _ _).bind fun _ => idle state rfl
  intro _ conLive
  apply (passes _ _).bind fun _ => idle state rfl
  intro _ holds
  apply (passes _ _).bind fun _ => idle state rfl
  intro _ item
  have isHolder : IsHolder state.world con := ⟨by simpa using conLive, by simpa using holds⟩
  apply (check_create_reads sound.described.forest isHolder.1).bind fun _ => idle state rfl
  intro _ checked
  apply meets_bind ((create_on_top_spec sound).imp (fun _ _ held => held)
    (fun _ after same => idle after same) fun _ held => held)
  intro top middle ended
  cases top with
  | some top => exact meets_pure ⟨isHolder, checked, .inl ended.2⟩
  | none =>
    rw [ended.1 rfl]
    apply (create_new_spec sound isHolder item bodied).imp
    · intro obj after grown
      exact ⟨isHolder, checked, .inr grown⟩
    · intro _ _ kept
      exact kept
    · intro _ held
      exact held

end TibiaGame.ChangeEffects
