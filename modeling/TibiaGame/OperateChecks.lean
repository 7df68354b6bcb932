import TibiaGame.ContainerWalks

/-!
# What the checks of `move` and `merge` let through

No check changes the state and each one ends, with a throw or without. When it ends
without, its guard holds; the guards that later results need are stated here.
-/

namespace TibiaGame.OperateChecks

open GameTypes ObjectStore InfoModel OperateModel ContentForest
open ContainerWalks Library.ThrowingState

variable {cfg : GameConfig} {state : GameState cfg} {kids : Object → List Object}
  {surroundings : Surroundings cfg} {creatureID : UInt32} {obj con dest ignore source : Object}
  {count : Int32} {split : Bool}

/-- A container is not inside the object it is to take, and has room for one more. -/
structure ContainerAllows (state : GameState cfg) (obj con : Object) : Prop where
  outside : isHeldByContainer state.world con obj = .ok false
  room : (getObjectType state.world con).getFlag .chest = false → ∃ conObjects,
    countObjectsInContainer state.world con = .ok conObjects ∧
      Int32.ofNat conObjects < ((getObjectType state.world con).getAttribute .capacity).toInt32

/-- What comes into the depot of a player from elsewhere has room there. -/
def DepotAllows (state : GameState cfg) (creatureID : UInt32) (source destination : Object)
    (count : Int32) : Prop :=
  ∀ creature player, creatureID ≠ 0 → state.creatures creatureID = some creature →
    creature.player = some player → player.depot ≠ NONE → count ≤ player.depotSpace ∨
      isHeldByContainer state.world source player.depot = .ok true ∨
      isHeldByContainer state.world destination player.depot = .ok false

def WornAt (type : ObjectType cfg) (position : Nat) : Prop :=
  type.getFlag .clothes = true ∧ type.getAttribute .bodyPosition ≠ 0 ∧
    type.getAttribute .bodyPosition = UInt32.ofNat position

def HandsFree (state : GameState cfg) (creatureID : UInt32) (except : Object) : Prop :=
  ∀ hand, isHand hand = true → getBodyObject state creatureID hand ≠ NONE →
    getBodyObject state creatureID hand = except

/-- What `check_inventory_destination` asks of one hand. -/
def OtherHandAllows (state : GameState cfg) (creatureID : UInt32) (obj : Object) (split : Bool)
    (hand : Nat) : Prop :=
  getBodyObject state creatureID hand ≠ NONE →
    (getObjectType state.world (getBodyObject state creatureID hand)).isTwoHanded = false ∧
      (split = true ∨ getBodyObject state creatureID hand ≠ obj →
        ((getObjectType state.world (getBodyObject state creatureID hand)).isWeapon &&
          (getObjectType state.world obj).isWeapon) = false)

structure SlotAllows (state : GameState cfg) (obj con : Object) (split : Bool) (position : Nat)
    (creatureID : UInt32) : Prop where
  slot : getObjectBodyPosition state.world con = .ok position
  owner : getObjectCreatureID state.world con = .ok creatureID
  worn : isHand position = false → position ≠ inventoryAmmo →
    WornAt (getObjectType state.world obj) position
  hands : isHand position = true → (getObjectType state.world obj).isTwoHanded = true →
    HandsFree state creatureID obj
  free : (isHand position && (getObjectType state.world obj).isTwoHanded) = false →
    getBodyObject state creatureID position = NONE
  others : isHand position = true → (getObjectType state.world obj).isTwoHanded = false →
    ∀ hand, isHand hand = true → OtherHandAllows state creatureID obj split hand

/-- What has been checked when `move` begins to change the state. -/
structure MoveAllowed (state : GameState cfg) (creatureID : UInt32) (obj con : Object)
    (split : Bool) : Prop where
  container : (getObjectType state.world con).isMapContainer = false →
    (getObjectType state.world con).isBodyContainer = false → ContainerAllows state obj con
  inventory : (getObjectType state.world con).isMapContainer = false →
    (getObjectType state.world con).isBodyContainer = true →
    ∃ position owner, SlotAllows state obj con split position owner
  depot : (getObjectType state.world con).isMapContainer = false →
    if split then DepotAllows state creatureID NONE con 1
    else ∃ objects, countObjects state.world obj = .ok objects ∧
      DepotAllows state creatureID obj con (Int32.ofNat objects)

theorem is_hand_cases {position : Nat} (hand : isHand position = true) :
    position = inventoryRightHand ∨ position = inventoryLeftHand := by
  simpa [isHand] using hand

section Checks

abbrev Free {Value : Type} (program : Operate cfg Value) (state : GameState cfg) : Prop :=
  Reads program state fun _ => True

theorem answer_reads (result : Option Result) : Free (answer result : Operate cfg Unit) state := by
  cases result with
  | none => exact reads_pure trivial
  | some result => exact reads_throw

theorem state_reads {Value : Type} {rest : GameState cfg → Operate cfg Value}
    {guard : Value → Prop} (reads : Reads (rest state) state guard) :
    Reads (get >>= rest) state guard := by
  apply (reads_get rfl : Reads get state fun seen => seen = state).then
  intro seen same
  rw [same]
  exact reads

theorem refuse_then {Value : Type} {refused : Bool} {result : Result} {rest : Operate cfg Value}
    {guard : Value → Prop} (reads : refused = false → Reads rest state guard) :
    Reads (refuse refused result >>= fun _ => rest) state guard := by
  apply (reads_refuse fun passed => passed :
    Reads (refuse refused result) state fun _ => refused = false).then
  intro _ passed
  exact reads passed

theorem free_then {Value : Type} {first : Operate cfg Unit} {rest : Operate cfg Value}
    {guard : Value → Prop} (free : Free first state) (reads : Reads rest state guard) :
    Reads (first >>= fun _ => rest) state guard :=
  free.then fun _ _ => reads

theorem attempt_then {Value Final : Type} {ended : Except Halt Value} {result : Value}
    {rest : Value → Operate cfg Final} {guard : Final → Prop} (returned : ended = .ok result)
    (reads : Reads (rest result) state guard) : Reads (attempt ended >>= rest) state guard := by
  apply (reads_attempt returned rfl : Reads (attempt ended) state fun seen => seen = result).then
  intro seen same
  rw [same]
  exact reads

theorem whenever_reads {needed : Bool} {program : Operate cfg Unit} {guard : Unit → Prop}
    (reads : needed = true → Reads program state guard) (skipped : needed = false → guard ()) :
    Reads (whenever needed program) state guard := by
  cases needed with
  | true => exact reads rfl
  | false => exact reads_pure (skipped rfl)

theorem check_map_destination_reads (mapCon : Object) :
    Free (checkMapDestination surroundings creatureID obj mapCon) state := by
  apply state_reads
  split_ifs
  · exact reads_pure trivial
  · exact answer_reads _

theorem check_weight_reads (forest : Forest (liveRecord state.world) kids) :
    Free (checkWeight surroundings creatureID obj count) state := by
  apply state_reads
  rcases creature_id_returns forest obj with ⟨owner, returned⟩
  apply attempt_then returned
  split_ifs
  · exact reads_pure trivial
  · exact answer_reads _

theorem check_top_move_reads (forest : Forest (liveRecord state.world) kids)
    (isLive : objectExists state.world obj = true) :
    Free (checkTopMoveObject creatureID obj ignore : Operate cfg Unit) state := by
  apply state_reads
  apply refuse_then
  intro _
  split_ifs
  · exact reads_pure trivial
  · exact reads_pure trivial
  · exact reads_pure trivial
  · rcases top_move_returns forest isLive ignore with ⟨top, returned⟩
    apply attempt_then returned
    exact reads_refuse fun _ => trivial

theorem check_move_object_reads (take : Bool) :
    Free (checkMoveObject surroundings creatureID obj take) state := by
  apply state_reads
  split_ifs
  · exact reads_pure trivial
  apply refuse_then
  intro _
  apply refuse_then
  intro _
  apply free_then
  · apply whenever_reads
    · intro _
      apply refuse_then
      intro _
      exact reads_refuse fun _ => trivial
    · intro _
      trivial
  · exact reads_refuse fun _ => trivial

theorem check_container_reads (forest : Forest (liveRecord state.world) kids)
    (conLive : objectExists state.world con = true) :
    Reads (checkContainerDestination obj con : Operate cfg Unit) state
      fun _ => ContainerAllows state obj con := by
  apply state_reads
  rcases held_returns forest obj conLive with ⟨held, returned, _⟩
  apply attempt_then returned
  apply refuse_then
  intro outside
  rw [outside] at returned
  have counted := row_count_spec forest conLive
  dsimp only
  split_ifs with chest
  · apply reads_pure
    constructor
    · exact returned
    · intro plain
      rw [chest] at plain
      cases plain
  apply attempt_then counted
  apply reads_refuse
  intro passed
  constructor
  · exact returned
  · intro _
    refine ⟨_, counted, ?_⟩
    simpa using passed

def Known (world : World cfg) (obj : Object) : Prop := obj = NONE ∨ objectExists world obj = true

theorem known_held (forest : Forest (liveRecord state.world) kids)
    (known : Known state.world obj) (con : Object) :
    ∃ held, isHeldByContainer state.world obj con = .ok held := by
  rcases known with none | isLive
  · rw [none]
    exact ⟨false, held_none con⟩
  rcases held_returns forest con isLive with ⟨held, returned, _⟩
  exact ⟨held, returned⟩

theorem check_depot_reads (forest : Forest (liveRecord state.world) kids)
    (sourceKnown : Known state.world source) (conKnown : Known state.world con) :
    Reads (checkDepotSpace creatureID source con count : Operate cfg Unit) state
      fun _ => DepotAllows state creatureID source con count := by
  apply state_reads
  by_cases nobody : creatureID = 0
  · rw [if_pos nobody]
    apply reads_pure
    intro _ _ somebody
    exact (somebody nobody).elim
  rw [if_neg nobody]
  rcases found : state.creatures creatureID with _ | creature
  · exact reads_throw
  apply refuse_then
  intro _
  rcases isPlayer : creature.player with _ | player
  · apply reads_pure
    intro other player _ same playing
    rw [found] at same
    cases same
    rw [isPlayer] at playing
    cases playing
  have held := known_held forest sourceKnown player.depot
  have into := known_held forest conKnown player.depot
  rcases held with ⟨inside, sourceHeld⟩
  rcases into with ⟨into, conHeld⟩
  have decided : (player.depot = NONE ∨ count ≤ player.depotSpace ∨ inside = true ∨
      into = false) → DepotAllows state creatureID source con count := by
    intro either other otherPlayer _ same playing opened
    rw [found] at same
    cases same
    rw [isPlayer] at playing
    cases playing
    rcases either with closed | room | wasInside | staysOut
    · exact (opened closed).elim
    · exact .inl room
    · rw [wasInside] at sourceHeld
      exact .inr (.inl sourceHeld)
    · rw [staysOut] at conHeld
      exact .inr (.inr conHeld)
  simp only
  split_ifs with easy
  · apply reads_pure
    apply decided
    simp only [Bool.or_eq_true, decide_eq_true_eq] at easy
    rcases easy with closed | room
    · exact .inl closed
    · exact .inr (.inl room)
  apply attempt_then sourceHeld
  apply attempt_then conHeld
  apply reads_refuse
  intro passed
  apply decided
  right
  right
  revert passed
  cases inside <;> cases into <;> simp

theorem check_clothes_reads (type : ObjectType cfg) (position : Nat) :
    Reads (checkClothes type position : Operate cfg Unit) state fun _ => WornAt type position := by
  apply refuse_then
  intro clothes
  apply refuse_then
  intro placed
  apply reads_refuse
  intro fits
  constructor
  · simpa using clothes
  constructor
  · simpa using placed
  · simpa using fits

theorem check_hands_reads (except : Object) :
    Reads (checkHandsFree state creatureID except) state
      fun _ => HandsFree state creatureID except := by
  apply refuse_then
  intro right
  apply reads_refuse
  intro left hand isHand occupied
  rcases is_hand_cases isHand with rfl | rfl
  · by_contra other
    simp [occupied, other] at right
  by_contra other
  simp [occupied, other] at left

theorem check_other_hand_reads (hand : Nat) :
    Reads (checkOtherHand state creatureID obj split hand) state
      fun _ => OtherHandAllows state creatureID obj split hand := by
  unfold checkOtherHand
  simp only
  split_ifs with empty
  · apply reads_pure
    intro occupied
    exact (occupied empty).elim
  apply refuse_then
  intro single
  apply reads_refuse
  intro weapons _
  constructor
  · exact single
  intro counts
  have relevant : (split || decide (getBodyObject state creatureID hand ≠ obj)) = true := by
    simpa using counts
  rw [relevant, Bool.true_and] at weapons
  exact weapons

/-- What both checks of a slot ask of a type, when the slot may hold `except`. -/
structure TypeFits (state : GameState cfg) (type : ObjectType cfg) (except : Object) (taken : Bool)
    (allows : Nat → Prop) (position : Nat) (creatureID : UInt32) : Prop where
  worn : isHand position = false → position ≠ inventoryAmmo → WornAt type position
  hands : isHand position = true → type.isTwoHanded = true → HandsFree state creatureID except
  free : (isHand position && type.isTwoHanded) = false → taken = false
  others : isHand position = true → type.isTwoHanded = false →
    ∀ hand, isHand hand = true → allows hand

theorem slot_reads {type : ObjectType cfg} {except : Object} {position : Nat} {message : Result}
    {allows : Nat → Prop} (taken : UInt32 → Bool) (check : UInt32 → Nat → Operate cfg Unit)
    (owned : getObjectCreatureID state.world con = .ok creatureID)
    (each : ∀ hand, Reads (check creatureID hand) state fun _ => allows hand) :
    Reads (do
      whenever (!isHand position && position != inventoryAmmo) (checkClothes type position)
      let owner ← attempt (getObjectCreatureID state.world con)
      if isHand position && type.isTwoHanded then checkHandsFree state owner except
      else
        refuse (taken owner) message
        whenever (isHand position) do
          check owner inventoryRightHand
          check owner inventoryLeftHand : Operate cfg Unit) state
      fun _ => TypeFits state type except (taken creatureID) allows position creatureID := by
  have clothes : Reads (whenever (!isHand position && position != inventoryAmmo)
      (checkClothes type position) : Operate cfg Unit) state
        fun _ => isHand position = false → position ≠ inventoryAmmo → WornAt type position := by
    apply whenever_reads
    · intro _
      exact (check_clothes_reads _ position).imp fun _ worn _ _ => worn
    · intro exempt notHand notAmmo
      simp [notHand, notAmmo] at exempt
  apply clothes.then
  intro _ worn
  apply attempt_then owned
  by_cases both : (isHand position && type.isTwoHanded) = true
  · rw [if_pos both]
    have isBoth := Bool.and_eq_true_iff.mp both
    apply (check_hands_reads except).imp
    intro _ hands
    refine ⟨worn, fun _ _ => hands, ?_, ?_⟩
    · intro single
      rw [both] at single
      cases single
    · intro _ single
      rw [isBoth.2] at single
      cases single
  rw [if_neg both]
  apply refuse_then
  intro free
  have others : Reads (whenever (isHand position) (do
      check creatureID inventoryRightHand
      check creatureID inventoryLeftHand) : Operate cfg Unit) state
        fun _ => isHand position = true → ∀ hand, isHand hand = true → allows hand := by
    apply whenever_reads
    · intro _
      apply (each inventoryRightHand).then
      intro _ right
      apply (each inventoryLeftHand).imp
      intro _ left _ hand isHand
      rcases is_hand_cases isHand with rfl | rfl
      · exact right
      · exact left
    · intro notHand isHand
      rw [notHand] at isHand
      cases isHand
  apply others.imp
  intro _ allowed
  refine ⟨worn, ?_, fun _ => free, fun hand _ => allowed hand⟩
  intro hand twoHanded
  exact (both (by rw [hand, twoHanded]; rfl)).elim

theorem check_inventory_reads (forest : Forest (liveRecord state.world) kids) :
    Reads (checkInventoryDestination obj con split : Operate cfg Unit) state
      fun _ => ∃ position owner, SlotAllows state obj con split position owner := by
  apply state_reads
  rcases body_position_returns forest con with ⟨position, slot⟩
  rcases creature_id_returns forest con with ⟨owner, owned⟩
  apply attempt_then slot
  apply (slot_reads (fun creatureID => decide (getBodyObject state creatureID position ≠ NONE))
    (checkOtherHand state · obj split) owned check_other_hand_reads).imp
  intro _ fits
  refine ⟨position, owner, slot, owned, fits.worn, fits.hands, ?_, fits.others⟩
  intro single
  simpa using fits.free single

variable (forest : Forest (liveRecord state.world) kids)
    (isLive : objectExists state.world obj = true)
include forest isLive

theorem check_depot_room_reads (conLive : objectExists state.world con = true) :
    Reads (checkDepotRoom creatureID obj con split : Operate cfg Unit) state fun _ =>
      if split then DepotAllows state creatureID NONE con 1
      else ∃ objects, countObjects state.world obj = .ok objects ∧
        DepotAllows state creatureID obj con (Int32.ofNat objects) := by
  apply state_reads
  cases split with
  | true => exact check_depot_reads forest (.inl rfl) (.inr conLive)
  | false =>
    have counted := count_objects_spec forest isLive
    apply attempt_then counted
    apply (check_depot_reads forest (.inr isLive) (.inr conLive)).imp
    intro _ allows
    exact ⟨_, counted, allows⟩

/-- The checks of `move` end, and what they let through is allowed. -/
theorem check_move_reads (conLive : objectExists state.world con = true) :
    Reads (checkMove surroundings creatureID obj con count split ignore) state
      fun _ => MoveAllowed state creatureID obj con split := by
  apply state_reads
  rcases creature_id_returns forest con with ⟨owner, owned⟩
  apply attempt_then owned
  apply free_then (check_top_move_reads forest isLive)
  by_cases field : (getObjectType state.world con).isMapContainer = true
  · rw [if_pos field]
    apply free_then (check_move_object_reads false)
    apply (check_map_destination_reads con).imp
    intro _ _
    constructor
    all_goals
      intro item
      rw [field] at item
      cases item
  rw [if_neg field]
  apply free_then (check_move_object_reads true)
  have place : Reads (if (getObjectType state.world con).isBodyContainer = true then
      checkInventoryDestination obj con split else checkContainerDestination obj con)
        state fun _ =>
          ((getObjectType state.world con).isBodyContainer = false →
            ContainerAllows state obj con) ∧
          ((getObjectType state.world con).isBodyContainer = true →
            ∃ position owner, SlotAllows state obj con split position owner) := by
    split_ifs with body
    · apply (check_inventory_reads forest).imp
      intro _ allows
      exact ⟨fun plain => (Bool.false_ne_true (plain.symm.trans body)).elim, fun _ => allows⟩
    · apply (check_container_reads forest conLive).imp
      intro _ allows
      exact ⟨fun _ => allows, fun isBody => (body isBody).elim⟩
  apply place.then
  intro _ placeAllows
  apply (check_depot_room_reads forest isLive conLive).then
  intro _ depotAllows
  apply whenever_reads
  · intro _
    apply (check_weight_reads forest).imp
    intro _ _
    exact ⟨fun _ => placeAllows.1, fun _ => placeAllows.2, fun _ => depotAllows⟩
  · intro _
    exact ⟨fun _ => placeAllows.1, fun _ => placeAllows.2, fun _ => depotAllows⟩

theorem container_known : Known state.world (getContainer state.world obj) := by
  rcases container_cases forest isLive with loose | inside
  · exact .inl loose.1
  · exact .inr inside.2

theorem check_merge_reads (destLive : objectExists state.world dest = true) :
    Free (checkMerge surroundings creatureID obj dest count ignore) state := by
  apply state_reads
  rcases creature_id_returns forest dest with ⟨owner, owned⟩
  apply attempt_then owned
  apply free_then (check_top_move_reads forest isLive)
  split_ifs
  · apply free_then (check_move_object_reads false)
    exact check_map_destination_reads _
  apply free_then (check_move_object_reads true)
  apply (check_depot_reads forest (.inr isLive) (container_known forest destLive)).then
  intro _ _
  apply whenever_reads
  · intro _
    exact check_weight_reads forest
  · intro _
    trivial

end Checks

end TibiaGame.OperateChecks
