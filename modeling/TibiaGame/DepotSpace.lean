import TibiaGame.DepotCounts
import TibiaGame.StackRuns

/-!
# The space of an open depot

`DepotSpace` of a player is changed by notes before and after a move or a merge. What
it says together with the number of objects in the depot stays the same while the calls
are ones that the notes account for; a creation in the depot and a deletion there leave
no note.
-/

namespace TibiaGame.DepotSpace

open GameTypes ObjectStore ObjectOperations ObjectKinds
open ForestDeletion ForestOperations ForestRuns InfoModel ContainerWalks OperateModel OperateChecks
open OperateSteps OperateChanges GroundedMap FurnishedWorlds OperateEffects ChangeEffects MoveForest
open StackAmounts DepotCounts Library.OrderedForest Library.ForestChanges Library.ThrowingState

variable {cfg : GameConfig} {start state middle after : GameState cfg} {world newWorld : World cfg}
  {kids newKids : Object → List Object} {surroundings : Surroundings cfg} {creatureID : UInt32}
  {obj con dest depot part ignore : Object} {type : ObjectType cfg} {value : UInt32}
  {count space left : Int32} {noMerge split : Bool}

structure Open (state : GameState cfg) (creatureID : UInt32) (depot : Object) (space : Int32) :
    Prop where
  somebody : creatureID ≠ 0
  player : ∃ crObject, state.creatures creatureID = some ⟨crObject, some ⟨depot, space⟩⟩
  live : objectExists state.world depot = true
  item : (getObjectType state.world depot).isMapContainer = false

def Holds (world : World cfg) (depot obj : Object) : Prop :=
  isHeldByContainer world obj depot = .ok true

/-- What the depot holds lies in containers, and not in a chest that is none. -/
def AllCounted (world : World cfg) (depot : Object) : Prop :=
  ∀ obj, objectExists world obj = true → Holds world depot obj → obj ≠ depot →
    (getObjectType world (getContainer world obj)).getFlag .container = true

/-- If the stack is merged as a whole, it counts as one object in the depot, and does not
hold the depot. -/
def MergesSingle (world : World cfg) (depot obj : Object) (count : Int32) : Prop :=
  ¬ mergeCount world obj count < (getAttribute world obj .amount).toInt32 →
    ¬ Encloses world obj depot ∧ (Holds world depot obj → objectCount world obj = 1)

inductive DepotCall (cfg : GameConfig) where
  | move (surroundings : Surroundings cfg) (obj con : Object) (count : Int32) (noMerge : Bool)
      (ignore : Object)
  | merge (surroundings : Surroundings cfg) (obj dest : Object) (count : Int32) (ignore : Object)
  | create (surroundings : Surroundings cfg) (con : Object) (type : ObjectType cfg) (value : UInt32)
  | deleteOp (obj : Object) (count : Int32)

def callDepot (creatureID : UInt32) : DepotCall cfg → Operate cfg Unit
  | .move surroundings obj con count noMerge ignore =>
      move surroundings creatureID obj con count noMerge ignore
  | .merge surroundings obj dest count ignore => merge surroundings creatureID obj dest count ignore
  | .create surroundings con type value => do
      let _ ← create surroundings con type value
      pure ()
  | .deleteOp obj count => deleteOp obj count

def Accounted (depot : Object) (state : GameState cfg) : DepotCall cfg → Prop
  | .move _ obj con count noMerge _ =>
      Movable state.world obj con ∧ AllCounted state.world depot ∧
        (Holds state.world depot obj ∨ Holds state.world depot con → count = -1 ∨ 0 < count) ∧
        ((getObjectType state.world obj).isCreatureContainer = true →
          (Holds state.world depot obj ↔ Holds state.world depot con)) ∧
        (triesMerge state.world obj con noMerge = true → MergesSingle state.world depot obj count)
  | .merge _ obj _ count _ =>
      (objectExists state.world obj = true → getContainer state.world obj ≠ NONE) ∧
        AllCounted state.world depot ∧ MergesSingle state.world depot obj count
  | .create _ con type _ =>
      ¬ Holds state.world depot con ∧ (type.isCreatureContainer = true → type.holdsObjects = true)
  | .deleteOp obj count =>
      (objectExists state.world obj = true → getContainer state.world obj ≠ NONE) ∧
        (Parted state.world obj count ∨
          ¬ Holds state.world depot obj ∧ ¬ Encloses state.world obj depot)

/-- The depot has changed by as much as the space that is left, and as much as there was. -/
def Balanced (before after : GameState cfg) (creatureID : UInt32) (depot : Object) (space : Int32) :
    Prop :=
  ∃ left, Open after creatureID depot left ∧
    left + Int32.ofNat (objectCount after.world depot) =
      space + Int32.ofNat (objectCount before.world depot) ∧
    (0 ≤ space → space.toInt + objectCount before.world depot < 2 ^ 31 → 0 ≤ left)

theorem sum_to_int {objects : Nat} (few : objects < 2 ^ 31)
    (fits : space.toInt + objects < 2 ^ 31) :
    (space + Int32.ofNat objects).toInt = space.toInt + objects := by
  have lower := Int32.le_toInt space
  rw [Int32.toInt_add, Int32.toInt_ofNat_of_lt few]
  apply Int.bmod_eq_of_le
  · omega
  · omega

theorem balanced_same (opened : Open after creatureID depot space)
    (same : objectCount after.world depot = objectCount state.world depot) :
    Balanced state after creatureID depot space := by
  refine ⟨space, opened, ?_, fun positive _ => positive⟩
  rw [same]

theorem balanced_rise {objects : Nat} (opened : Open after creatureID depot (space + Int32.ofNat objects))
    (fewer : objectCount after.world depot + objects = objectCount state.world depot)
    (few : objectCount state.world depot < 2 ^ 31) :
    Balanced state after creatureID depot space := by
  refine ⟨_, opened, ?_, ?_⟩
  · rw [← fewer, Int32.ofNat_add]
    grind
  intro positive fits
  have few' : objects < 2 ^ 31 := by omega
  have fits' : space.toInt + objects < 2 ^ 31 := by omega
  have sum := sum_to_int few' fits'
  rw [Int32.le_iff_toInt_le] at positive ⊢
  omega

theorem balanced_fall {objects : Nat}
    (opened : Open after creatureID depot (space + -1 * Int32.ofNat objects))
    (more : objectCount after.world depot = objectCount state.world depot + objects)
    (few : objects < 2 ^ 31) (room : Int32.ofNat objects ≤ space) :
    Balanced state after creatureID depot space := by
  refine ⟨_, opened, ?_, ?_⟩
  · rw [more, Int32.ofNat_add]
    grind
  intro positive _
  have minus : space + -1 * Int32.ofNat objects = space - Int32.ofNat objects := by grind
  rw [Int32.le_iff_toInt_le] at positive room ⊢
  rw [Int32.toInt_ofNat_of_lt few] at room
  have zero : (0 : Int32).toInt = 0 := rfl
  rw [minus, Int32.toInt_sub, Int32.toInt_ofNat_of_lt few, Int.bmod_eq_of_le (by omega) (by omega)]
  omega

theorem count_less {amount : UInt32} (some : 0 < count) (less : count < amount.toInt32) :
    count.toUInt32 < amount := by
  have zero : (0 : Int32).toInt = 0 := rfl
  rw [Int32.lt_iff_toInt_lt] at some less
  have number := to_nat_count (show 0 ≤ count.toInt by omega)
  have positive : 0 ≤ amount.toInt32.toInt := by omega
  have whole := to_nat_count positive
  rw [UInt32.lt_iff_toNat_lt]
  have same : amount.toInt32.toUInt32 = amount := rfl
  rw [same] at whole
  omega

section Notes

theorem held_iff (sound : Sound world kids)
    (item : (getObjectType world depot).isMapContainer = false)
    (isLive : objectExists world obj = true) : Holds world depot obj ↔ Below kids depot obj := by
  rcases held_returns sound.described.forest depot isLive with ⟨held, returned, inside, complete⟩
  unfold Holds
  rw [returned, Except.ok.injEq]
  exact ⟨inside, complete sound.grounded item⟩

theorem holds_iff (sound : Sound state.world kids) (opened : Open state creatureID depot space)
    (isLive : objectExists state.world obj = true) :
    Holds state.world depot obj ↔ Below kids depot obj := held_iff sound opened.item isLive

theorem count_eq (sound : Sound world kids) (isLive : objectExists world obj = true) :
    objectCount world obj = counted world kids obj := by
  rw [objectCount, count_objects_spec sound.described.forest isLive]

theorem below_counted (sound : Sound state.world kids) (opened : Open state creatureID depot space)
    (all : AllCounted state.world depot) (under : Below kids depot obj) :
    Below (countedKids state.world kids) depot obj := by
  have forest := sound.described.forest
  induction under with
  | refl => exact below_refl _ depot
  | @tail holder child above edge ih =>
    have inHolder := member_container forest edge
    have inside : Holds state.world depot child :=
      (holds_iff sound opened inHolder.1).mpr (below_step above edge)
    have different : child ≠ depot := by
      intro same
      rw [same] at edge
      exact forest.ranked.parent_not_below edge above
    have flag := all child inHolder.1 inside different
    rw [inHolder.2] at flag
    apply below_step ih
    rw [countedKids, if_pos flag]
    exact edge

theorem Open.later (opened : Open state creatureID depot space)
    (typed : typeOf (kinds newWorld) depot = typeOf (kinds state.world) depot) :
    Open { state with world := newWorld } creatureID depot space where
  somebody := opened.somebody
  player := opened.player
  live := by
    rw [exists_iff_type, typed, ← exists_iff_type]
    exact opened.live
  item := by
    have before := type_of_exists opened.live
    rw [← typed] at before
    rw [object_type_of before]
    exact opened.item

variable (sound : Sound state.world kids) (opened : Open state creatureID depot space)
    (isLive : objectExists state.world obj = true)
include sound opened isLive

theorem noted_inside (under : Below kids depot obj) :
    Open (notedDepot state creatureID obj count) creatureID depot (space + count) := by
  have held : isHeldByContainer state.world obj depot = .ok true := (holds_iff sound opened isLive).mpr under
  rcases opened with ⟨somebody, ⟨crObject, known⟩, live, item⟩
  have notNone : depot ≠ NONE := live_ne_none sound.described.forest live
  have noted : notedDepot state creatureID obj count =
      addDepotSpace state creatureID ⟨crObject, some ⟨depot, space⟩⟩ ⟨depot, space⟩ count := by
    simp only [notedDepot, if_neg somebody, known, if_neg notNone, held]
  rw [noted]
  exact ⟨somebody, ⟨crObject, Function.update_self _ _ _⟩, live, item⟩

theorem noted_outside (outside : ¬ Below kids depot obj) :
    notedDepot state creatureID obj count = state := by
  rcases held_returns sound.described.forest depot isLive with ⟨held, returned, inside, _⟩
  have notHeld : isHeldByContainer state.world obj depot = .ok false := by
    cases held with
    | true => exact (outside (inside rfl)).elim
    | false => exact returned
  rcases opened with ⟨somebody, ⟨crObject, known⟩, live, item⟩
  have notNone : depot ≠ NONE := live_ne_none sound.described.forest live
  simp only [notedDepot, if_neg somebody, known, if_neg notNone, notHeld]

end Notes

section Steps

/-- The objects still form a forest, and the space is balanced with the state before. -/
def Settles (before : GameState cfg) (creatureID : UInt32) (depot : Object) (space : Int32)
    (after : GameState cfg) : Prop :=
  (∃ newKids, Sound after.world newKids) ∧ Balanced before after creatureID depot space

variable (sound : Sound state.world kids) (opened : Open state creatureID depot space)
include sound opened

theorem apart_settles (apart : Apart state.world newWorld kids newKids depot) :
    Settles state creatureID depot space { state with world := newWorld } := by
  constructor
  · exact ⟨newKids, apart.sound⟩
  · apply balanced_same (opened.later (apart.types depot (below_refl kids depot)))
    rw [count_eq apart.sound (apart.live opened.live), count_eq sound opened.live]
    exact apart.count

theorem merge_settles
    (placed : objectExists state.world obj = true → getContainer state.world obj ≠ NONE)
    (all : AllCounted state.world depot) (single : MergesSingle state.world depot obj count)
    (step : MergeStep mergeObjects state creatureID obj dest count after) :
    Settles state creatureID depot space after := by
  have forest := sound.described.forest
  cases step with
  | itself same => exact ⟨⟨kids, sound⟩, balanced_same opened rfl⟩
  | part mergeable less => exact apart_settles sound opened (kept_apart (parts_moved_kept sound))
  | @whole world mergeable whole joined =>
    have edge := (placed_edge forest).mp ⟨mergeable.live, placed mergeable.live⟩
    have gone := merge_gone sound edge mergeable joined
    rcases single whole with ⟨notEnclosing, alone⟩
    rw [encloses_iff forest (live_ne_none forest mergeable.live)] at notEnclosing
    by_cases under : Below kids depot obj
    · have survives : objectExists world depot = true :=
        (gone.survivors depot).mpr ⟨opened.live, notEnclosing⟩
      have noted : Open (notedDepot state creatureID obj 1) creatureID depot (space + 1) :=
        noted_inside sound opened mergeable.live under
      have later : Open { notedDepot state creatureID obj 1 with world := world } creatureID depot
          (space + Int32.ofNat 1) := by
        apply noted.later
        rw [noted_depot_world]
        exact gone.types depot survives
      constructor
      · exact ⟨_, gone.sound⟩
      apply balanced_rise later
      · change objectCount world depot + 1 = _
        rw [count_eq gone.sound survives, count_eq sound opened.live]
        apply gone_count sound gone notEnclosing (below_counted sound opened all under)
        rw [← count_eq sound mergeable.live]
        exact alone ((holds_iff sound opened mergeable.live).mpr under)
      · rw [count_eq sound opened.live]
        exact counted_few sound opened.live
    rw [noted_outside sound opened mergeable.live under]
    exact apart_settles sound opened (gone_apart sound gone opened.live under notEnclosing)

end Steps

theorem share_held (sound : Sound state.world kids) (opened : Open state creatureID depot space)
    (all : AllCounted state.world depot) {node : Object} (under : Below kids depot node) :
    share (countedKids state.world kids) depot node obj = counted state.world kids obj := by
  rw [share, if_pos (below_counted sound opened all under)]
  rfl

theorem share_away {node : Object} (away : ¬ Below kids depot node) :
    share (countedKids world kids) depot node obj = 0 := by
  apply if_neg
  intro under
  exact away (counted_below under)

theorem held_item (sound : Sound state.world kids) (opened : Open state creatureID depot space)
    (under : Below kids depot obj) : (getObjectType state.world obj).isMapContainer = false := by
  cases under with
  | refl => exact opened.item
  | tail _ edge => exact Grounded.item sound.grounded sound.described.forest edge

theorem depot_room (sound : Sound state.world kids) (opened : Open state creatureID depot space)
    (conLive : objectExists state.world con = true) {source : Object}
    (allows : DepotAllows state creatureID source con count)
    (elsewhere : isHeldByContainer state.world source depot ≠ .ok true)
    (into : Below kids depot con) : count ≤ space := by
  have held : isHeldByContainer state.world con depot = .ok true :=
    (holds_iff sound opened conLive).mpr into
  rcases opened.player with ⟨crObject, known⟩
  have notNone : depot ≠ NONE := live_ne_none sound.described.forest opened.live
  rcases allows _ _ opened.somebody known rfl notNone with room | inside | outside
  · exact room
  · exact (elsewhere inside).elim
  · rw [held] at outside
    cases outside

section Whole

variable (sound : Sound state.world kids) (opened : Open state creatureID depot space)
  (comes : Comes state.world world kids newKids obj con) (apart : ¬ Below kids obj con)
include sound comes

section Apart

include apart

theorem comes_counts_same (isLive : objectExists state.world obj = true) :
    objectExists world obj = true ∧ objectCount world obj = objectCount state.world obj := by
  have stillLive : objectExists world obj = true := by
    rw [kept_live comes.types]
    exact isLive
  constructor
  · exact stillLive
  · rw [count_eq comes.sound stillLive, count_eq sound isLive]
    exact comes_count_inside sound comes apart (below_refl kids obj)

/-- The object is in the depot afterwards if the container is, or if the depot is the object. -/
theorem comes_below : Below newKids depot obj ↔
    Below kids depot con ∨ Below kids obj depot ∧ Below kids depot obj := by
  have forest := sound.described.forest
  by_cases above : Below kids obj depot
  · rw [comes.arrives.below_inside forest.ranked apart above]
    constructor
    · intro under
      exact .inr ⟨above, under⟩
    intro either
    rcases either with into | both
    · exact (apart (below_trans above into)).elim
    · exact both.2
  rw [comes.arrives.below_outside forest.single forest.ranked apart above]
  constructor
  · intro either
    rcases either with stays | goes
    · exact (stays.1 (below_refl kids obj)).elim
    · exact .inl goes.2
  intro either
  rcases either with into | both
  · exact .inr ⟨below_refl kids obj, into⟩
  · exact (above both.1).elim

/-- The depot goes along with the object, or has nothing to do with the move. -/
theorem comes_apart (away : Below kids obj depot ∨ ¬ Below kids depot obj ∧ ¬ Below kids depot con) :
    Apart state.world world kids newKids depot := by
  constructor
  · exact comes.sound
  · intro node under
    rcases away with above | neither
    · exact arrives_rows sound.described.forest.ranked comes.arrives apart (below_trans above under)
    apply comes.arrives.elsewhere
    · intro same
      rw [same] at under
      exact neither.2 under
    · intro edge
      exact neither.1 (below_step under edge)
  · intro node _
    exact comes.types node

end Apart

include opened

theorem leaves_open (isLive : objectExists state.world obj = true) (held : Below kids depot obj) :
    Open { notedObjects false creatureID obj 1 state with world := world } creatureID depot
      (space + Int32.ofNat (objectCount state.world obj)) := by
  have noted : Open (notedObjects false creatureID obj 1 state) creatureID depot
      (space + 1 * Int32.ofNat (objectCount state.world obj)) :=
    noted_inside sound opened isLive held
  rw [Int32.one_mul] at noted
  apply noted.later
  rw [noted_objects_world]
  exact comes.types depot

include apart

section

variable (isLive : objectExists state.world obj = true)
include isLive

theorem away_settles {silent quiet : Bool} (notHeld : ¬ Below kids depot obj)
    (notInto : ¬ Below kids depot con) :
    Settles state creatureID depot space (notedObjects quiet creatureID obj (-1)
      { notedObjects silent creatureID obj 1 state with world := world }) := by
  have first : notedObjects silent creatureID obj 1 state = state := by
    unfold notedObjects
    split_ifs
    · rfl
    · exact noted_outside sound opened isLive notHeld
  have isApart : Apart state.world world kids newKids depot := comes_apart sound comes apart
    (.inr ⟨notHeld, notInto⟩)
  have settled := apart_settles sound opened isApart
  have later : Open { state with world := world } creatureID depot space :=
    opened.later (isApart.types depot (below_refl kids depot))
  have stillOut : ¬ Below newKids depot obj := by
    rw [comes_below sound comes apart]
    intro either
    rcases either with into | both
    · exact notInto into
    · exact notHeld both.2
  have second : notedObjects quiet creatureID obj (-1) { state with world := world } =
      { state with world := world } := by
    unfold notedObjects
    split_ifs
    · rfl
    · exact noted_outside comes.sound later (comes_counts_same sound comes apart isLive).1 stillOut
  rw [first, second]
  exact settled

theorem passes_open (held : Below kids depot obj) (stillHeld : Below newKids depot obj) :
    Open (notedObjects false creatureID obj (-1)
      { notedObjects false creatureID obj 1 state with world := world }) creatureID depot space := by
  have sameCount := comes_counts_same sound comes apart isLive
  have later := leaves_open sound opened comes isLive held
  have settled : Open (notedObjects false creatureID obj (-1)
      { notedObjects false creatureID obj 1 state with world := world }) creatureID depot
      (space + Int32.ofNat (objectCount state.world obj) +
        -1 * Int32.ofNat (objectCount world obj)) :=
    noted_inside comes.sound later sameCount.1 stillHeld
  have back : space + Int32.ofNat (objectCount state.world obj) +
      -1 * Int32.ofNat (objectCount state.world obj) = space := by
    grind
  rw [sameCount.2, back] at settled
  exact settled

theorem along_settles (above : Below kids obj depot) :
    Settles state creatureID depot space (notedObjects false creatureID obj (-1)
      { notedObjects false creatureID obj 1 state with world := world }) := by
  by_cases held : Below kids depot obj
  · have isApart : Apart state.world world kids newKids depot := comes_apart sound comes apart
      (.inl above)
    have stillHeld : Below newKids depot obj :=
      (comes_below sound comes apart).mpr (.inr ⟨above, held⟩)
    have settled := passes_open sound opened comes apart isLive held stillHeld
    constructor
    · rw [noted_objects_world]
      exact ⟨newKids, comes.sound⟩
    apply balanced_same settled
    rw [noted_objects_world]
    rw [count_eq isApart.sound (isApart.live opened.live), count_eq sound opened.live]
    exact isApart.count
  · exact away_settles sound opened comes apart isLive held fun into => apart (below_trans above into)

/-- The notes before and after the move are about what leaves the depot and what comes. -/
theorem carried_settles (all : AllCounted state.world depot) (takes : opens state.world con = true)
    (outside : ¬ Below kids obj depot) (room : ¬ Below kids depot obj → Below kids depot con →
      Int32.ofNat (objectCount state.world obj) ≤ space) :
    Settles state creatureID depot space (notedObjects false creatureID obj (-1)
      { notedObjects false creatureID obj 1 state with world := world }) := by
  have sameCount := comes_counts_same sound comes apart isLive
  have counts := arrives_count sound (comes_counted_kids comes) comes.arrives takes apart outside
  have depotLive : objectExists world depot = true := by
    rw [kept_live comes.types]
    exact opened.live
  have few : objectCount state.world obj < 2 ^ 31 := by
    rw [count_eq sound isLive]
    exact counted_few sound isLive
  have goes : Below newKids depot obj ↔ Below kids depot con := by
    rw [comes_below sound comes apart]
    constructor
    · intro either
      rcases either with into | both
      · exact into
      · exact (outside both.1).elim
    · exact .inl
  have before := count_eq sound opened.live
  have after := count_eq comes.sound depotLive
  have whole := count_eq sound isLive
  rw [← before, ← after] at counts
  constructor
  · rw [noted_objects_world]
    exact ⟨newKids, comes.sound⟩
  by_cases held : Below kids depot obj
  · rw [share_held sound opened all held] at counts
    by_cases into : Below kids depot con
    · have settled := passes_open sound opened comes apart isLive held (goes.mpr into)
      rw [share_held sound opened all into] at counts
      apply balanced_same settled
      rw [noted_objects_world]
      change objectCount world depot = _
      omega
    have later := leaves_open sound opened comes isLive held
    have silent : notedObjects false creatureID obj (-1)
        { notedObjects false creatureID obj 1 state with world := world } =
        { notedObjects false creatureID obj 1 state with world := world } :=
      noted_outside comes.sound later sameCount.1 fun under => into (goes.mp under)
    rw [silent]
    rw [share_away into] at counts
    apply balanced_rise later
    · change objectCount world depot + objectCount state.world obj = _
      omega
    · rw [before]
      exact counted_few sound opened.live
  have silent : notedObjects false creatureID obj 1 state = state :=
    noted_outside sound opened isLive held
  rw [silent]
  have later : Open { state with world := world } creatureID depot space :=
    opened.later (comes.types depot)
  rw [share_away held] at counts
  by_cases into : Below kids depot con
  · have settled : Open (notedObjects false creatureID obj (-1) { state with world := world })
        creatureID depot (space + -1 * Int32.ofNat (objectCount world obj)) :=
      noted_inside comes.sound later sameCount.1 (goes.mpr into)
    rw [sameCount.2] at settled
    rw [share_held sound opened all into] at counts
    apply balanced_fall settled
    · rw [noted_objects_world]
      change objectCount world depot = _
      omega
    · exact few
    · exact room held into
  have stays : notedObjects false creatureID obj (-1) { state with world := world } =
      { state with world := world } :=
    noted_outside comes.sound later sameCount.1 fun under => into (goes.mp under)
  rw [stays]
  rw [share_away into] at counts
  apply balanced_same later
  omega

end

theorem silent_settles (all : AllCounted state.world depot) (takes : opens state.world con = true)
    (both : Below kids depot obj ↔ Below kids depot con) :
    Settles state creatureID depot space { state with world := world } := by
  have depotLive : objectExists world depot = true := by
    rw [kept_live comes.types]
    exact opened.live
  constructor
  · exact ⟨newKids, comes.sound⟩
  apply balanced_same (opened.later (comes.types depot))
  change objectCount world depot = _
  rw [count_eq comes.sound depotLive, count_eq sound opened.live]
  by_cases above : Below kids obj depot
  · exact comes_count_inside sound comes apart above
  have counts := arrives_count sound (comes_counted_kids comes) comes.arrives takes apart above
  by_cases held : Below kids depot obj
  · rw [share_held sound opened all held, share_held sound opened all (both.mp held)] at counts
    omega
  rw [share_away held, share_away fun into => held (both.mpr into)] at counts
  omega

end Whole

theorem parted_settles (sound : Sound state.world kids) (opened : Open state creatureID depot space)
    (born : Born state.world world kids newKids part con type)
    (all : AllCounted state.world depot) (takes : opens state.world con = true)
    (room : Below kids depot con → 1 ≤ space) :
    Settles state creatureID depot space
      (notedObjects false creatureID part (-1) { state with world := world }) := by
  have forest := sound.described.forest
  have partLive := (member_container born.sound.described.forest born.edge).1
  have depotOther := born.other opened.live
  have empty := unborn_empty forest born.dead
  have goes : Below newKids depot part ↔ Below kids depot con := by
    have notInPart : ∀ node, node ≠ part → ¬ Below kids part node := by
      intro node away
      rw [below_leaf empty]
      exact away
    rw [born.arrives.below_outside forest.single forest.ranked (notInPart con born.apart)
      (notInPart depot depotOther.1)]
    constructor
    · intro either
      rcases either with stays | goes
      · exact (stays.1 (below_refl kids part)).elim
      · exact goes.2
    · intro into
      exact .inr ⟨below_refl kids part, into⟩
  have alone : objectCount world part = 1 := by
    have leaf : countedKids world newKids part = [] := by
      rw [countedKids, born.leaf forest, ite_self]
    have single : inside (countedKids world newKids) part = {part} := by
      ext node
      exact below_leaf leaf
    rw [count_eq born.sound partLive, counted, single, Set.ncard_singleton]
  have later : Open { state with world := world } creatureID depot space := by
    apply opened.later
    rw [born.types, if_neg depotOther.1]
  by_cases into : Below kids depot con
  · have settled : Open (notedObjects false creatureID part (-1) { state with world := world })
        creatureID depot (space + -1 * Int32.ofNat (objectCount world part)) :=
      noted_inside born.sound later partLive (goes.mpr into)
    rw [alone] at settled
    constructor
    · rw [noted_objects_world]
      exact ⟨newKids, born.sound⟩
    apply balanced_fall settled
    · rw [noted_objects_world]
      change objectCount world depot = _
      rw [count_eq born.sound depotOther.2.1, count_eq sound opened.live]
      exact born_count sound born takes depotOther.1.symm (below_counted sound opened all into)
    · decide
    · exact room into
  have stays : notedObjects false creatureID part (-1) { state with world := world } =
      { state with world := world } :=
    noted_outside born.sound later partLive fun under => into (goes.mp under)
  rw [stays]
  exact apart_settles sound opened (born_apart sound born opened.live into)

theorem split_parted (counts : count = -1 ∨ 0 < count)
    (splitting : splits state.world obj count = true) :
    Parted state.world obj (moveCount state.world obj count) := by
  rw [splits, decide_eq_true_eq] at splitting
  have given : moveCount state.world obj count = count ∧ 0 < count := by
    rw [moveCount] at splitting ⊢
    rcases counts with all | some
    · rw [if_pos all] at splitting
      exact (Int32.lt_irrefl splitting).elim
    have notAll : count ≠ -1 := by
      intro same
      rw [same] at some
      exact absurd some (by decide)
    rw [if_neg notAll]
    exact ⟨rfl, some⟩
  rw [given.1] at splitting ⊢
  rw [partsOf] at splitting
  rcases stack : (getObjectType state.world obj).getFlag .cumulative with _ | _
  · rw [stack] at splitting
    have one : count < 1 := splitting
    have zero := Int32.lt_iff_toInt_lt.mp given.2
    rw [Int32.lt_iff_toInt_lt] at one
    have left : (0 : Int32).toInt = 0 := rfl
    have right : (1 : Int32).toInt = 1 := rfl
    omega
  rw [stack] at splitting
  exact ⟨stack, given.2, count_less given.2 splitting⟩

theorem carry_settles (sound : Sound state.world kids) (opened : Open state creatureID depot space)
    (accounted : Accounted depot state (.move surroundings obj con count noMerge ignore))
    (carriable : Carriable state creatureID obj con count)
    (step : CarryStep state creatureID obj con (moveCount state.world obj count)
      (splits state.world obj count) after) : Settles state creatureID depot space after := by
  rcases accounted with ⟨movable, all, counts, creatures, _⟩
  have ready := carriable_ready sound movable carriable
  have isLive := carriable.live
  have conLive := carriable.conLive
  have takes : opens state.world con = true := carriable.container
  have heldIff := holds_iff sound opened isLive
  have intoIff := holds_iff sound opened conLive
  cases step with
  | @carried part parted moved cut placed =>
    rcases carried_effect sound ready cut placed with
      ⟨notParted, samePart, sameWorld, newKids, comes⟩ | ⟨splitting, cutOff, newKids, born⟩
    · rw [samePart, sameWorld]
      by_cases neither : ¬ Below kids depot obj ∧ ¬ Below kids depot con
      · exact away_settles sound opened comes ready.outside isLive neither.1 neither.2
      have touches : Holds state.world depot obj ∨ Holds state.world depot con := by
        rw [heldIff, intoIff]
        by_contra none
        rw [not_or] at none
        exact neither none
      have whole : splits state.world obj count = false := by
        rw [← Bool.not_eq_true]
        intro splitting
        exact notParted ⟨splitting, split_parted (counts touches) splitting⟩
      rw [whole, Bool.or_false]
      cases isCreature : (getObjectType state.world obj).isCreatureContainer with
      | true =>
        have both := creatures isCreature
        rw [heldIff, intoIff] at both
        exact silent_settles sound opened comes ready.outside all takes both
      | false =>
        by_cases above : Below kids obj depot
        · exact along_settles sound opened comes ready.outside isLive above
        apply carried_settles sound opened comes ready.outside isLive all takes above
        intro notHeld into
        have allows := carriable.allowed.depot (held_item sound opened into)
        rw [whole] at allows
        rcases allows with ⟨objects, returned, allows⟩
        have sameCount : objects = objectCount state.world obj := by
          rw [objectCount, returned]
        rw [← sameCount]
        exact depot_room sound opened conLive allows (fun held => notHeld (heldIff.mp held)) into
    · have single : (getObjectType state.world obj).isCreatureContainer = false := by
        rw [← Bool.not_eq_true]
        intro isCreature
        have number : (getObjectType state.world obj).typeID = 99 := by
          simpa [ObjectType.isCreatureContainer] using isCreature
        have stack := cutOff.stack
        rw [ObjectType.getFlag, number, cfg.creature_single] at stack
        cases stack
      rw [single, splitting]
      apply parted_settles sound opened born all takes
      intro into
      have allows := carriable.allowed.depot (held_item sound opened into)
      rw [splitting] at allows
      apply depot_room sound opened conLive allows _ into
      rw [held_none]
      decide

section Calls

section

variable (sound : Sound state.world kids) (opened : Open state creatureID depot space)
include sound opened

theorem unchanged_settles :
    Settles state creatureID depot space state := ⟨⟨kids, sound⟩, balanced_same opened rfl⟩

theorem move_settles
    (accounted : Accounted depot state (.move surroundings obj con count noMerge ignore)) :
    Meets (move surroundings creatureID obj con count noMerge ignore) state
      (fun _ => Settles state creatureID depot space)
      (fun _ => Settles state creatureID depot space) fun _ => True := by
  have movable := accounted.1
  apply (move_steps sound.described sound.grounded fun carriable =>
    ⟨_, carriable_ready sound movable carriable⟩).imp
  · intro _ after step
    cases step with
    | merged isLive conLive tried found step =>
      have single := accounted.2.2.2.2 tried
      exact merge_settles sound opened movable.placed accounted.2.1 single step
    | carried carriable step => exact carry_settles sound opened accounted carriable step
  · intro _ after same
    rw [same]
    exact unchanged_settles sound opened
  · intro _ _
    trivial

theorem merge_call_settles
    (accounted : Accounted depot state (.merge surroundings obj dest count ignore)) :
    Meets (merge surroundings creatureID obj dest count ignore) state
      (fun _ => Settles state creatureID depot space)
      (fun _ => Settles state creatureID depot space) fun _ => True := by
  rcases accounted with ⟨placed, all, single⟩
  apply (merge_steps sound.described.forest).imp
  · intro _ after step
    exact merge_settles sound opened placed all single step
  · intro _ after same
    rw [same]
    exact unchanged_settles sound opened
  · intro _ _
    trivial

theorem kept_settles (ends : Ends state (fun world => Kept state.world world kids) after) :
    Settles state creatureID depot space after := by
  rcases ends with ⟨world, here, kept⟩
  rw [here]
  exact apart_settles sound opened (kept_apart kept)

end

theorem entered_settles {creature : Creature} (settled : Settles state creatureID depot space
      { state with world := world }) (known : state.creatures value = some creature) :
    Settles state creatureID depot space
      { world := world
        creatures := Function.update state.creatures value (some { creature with crObject := obj }) } := by
  rcases settled with ⟨sound, left, opened, sum, positive⟩
  refine ⟨sound, left, ⟨opened.somebody, ?_, opened.live, opened.item⟩, sum, positive⟩
  rcases opened.player with ⟨crObject, player⟩
  by_cases own : creatureID = value
  · have same : creature = ⟨crObject, some ⟨depot, left⟩⟩ := by
      rw [own] at player
      exact Option.some.inj (known.symm.trans player)
    rw [own, same]
    exact ⟨obj, Function.update_self _ _ _⟩
  · exact ⟨crObject, (Function.update_of_ne own _ _).trans player⟩

variable (sound : Sound state.world kids) (opened : Open state creatureID depot space)
include sound opened

theorem grown_settles (away : ¬ Below kids depot con)
    (grown : Grown state kids con type value obj after) :
    Settles state creatureID depot space after := by
  cases grown with
  | item isItem born => exact apart_settles sound opened (born_apart sound born opened.live away)
  | @creature middle world middleKids newKids creature isCreature known born embodied =>
    have first := born_apart sound born opened.live away
    have stillAway : ¬ Below middleKids depot obj := by
      rw [first.below]
      intro under
      cases under with
      | refl => exact (born.other opened.live).1 rfl
      | tail _ edge => exact unborn_orphan sound.described.forest born.dead _ edge
    have second := embodied_apart born.sound embodied (first.live opened.live) stillAway
    exact entered_settles (apart_settles sound opened (first.trans second)) known

theorem create_settles (accounted : Accounted depot state (.create surroundings con type value)) :
    Meets (create surroundings con type value) state
      (fun _ => Settles state creatureID depot space)
      (fun _ => Settles state creatureID depot space) fun _ => True := by
  apply (create_steps sound accounted.2).imp
  · intro obj after ended
    rcases ended with ⟨isHolder, _, kept | grown⟩
    · exact kept_settles sound opened kept
    apply grown_settles sound opened _ grown
    rw [← holds_iff sound opened isHolder.1]
    exact accounted.1
  · intro _ after kept
    exact kept_settles sound opened kept
  · intro _ held
    exact held

theorem delete_settles (accounted : Accounted depot state (.deleteOp obj count)) :
    Meets (deleteOp obj count) state (fun _ => Settles state creatureID depot space)
      (fun _ => Settles state creatureID depot space) fun _ => True := by
  have forest := sound.described.forest
  have unchanged := unchanged_settles sound opened
  rcases isLive : objectExists state.world obj with _ | _
  · apply meets_get
    rw [isLive]
    exact meets_throw unchanged
  have edge := (placed_edge forest).mp ⟨isLive, accounted.1 isLive⟩
  apply (delete_op_spec sound edge).imp
  · intro _ after ended
    rcases ended with ⟨world, here, parted | gone⟩
    · exact kept_settles sound opened ⟨world, here, parted.2⟩
    rcases accounted.2 with parted | away
    · exact (gone.1 parted).elim
    rw [holds_iff sound opened isLive, encloses_iff forest (live_ne_none forest isLive)] at away
    rw [here]
    exact apart_settles sound opened (gone_apart sound gone.2 opened.live away.1 away.2)
  · intro _ after same
    rw [same]
    exact unchanged
  · intro _ held
    exact held

end Calls

theorem sums_agree {objects first : Nat} (same : left + Int32.ofNat objects = space + Int32.ofNat first)
    (few : objects < 2 ^ 31) (fewFirst : first < 2 ^ 31) (nonneg : 0 ≤ left)
    (room : 0 ≤ space) (fits : space.toInt + first < 2 ^ 31) : left.toInt + objects = space.toInt + first := by
  have whole := congrArg Int32.toInt same
  have upper := Int32.toInt_lt left
  rw [Int32.le_iff_toInt_le] at nonneg room
  have zero : (0 : Int32).toInt = 0 := rfl
  rw [sum_to_int fewFirst fits, Int32.toInt_add, Int32.toInt_ofNat_of_lt few] at whole
  rw [Int.bmod_def] at whole
  split_ifs at whole
  · omega
  · omega

/-- Of two balanced steps the second begins with what the first has left. -/
theorem Settles.trans (sound : Sound state.world kids) (opened : Open state creatureID depot left)
    (startFew : objectCount start.world depot < 2 ^ 31)
    (sum : left + Int32.ofNat (objectCount state.world depot) =
      space + Int32.ofNat (objectCount start.world depot))
    (positive : 0 ≤ space → space.toInt + objectCount start.world depot < 2 ^ 31 → 0 ≤ left)
    (next : Settles state creatureID depot left after) :
    Settles start creatureID depot space after := by
  rcases next with ⟨stillSound, last, lastOpened, lastSum, lastPositive⟩
  refine ⟨stillSound, last, lastOpened, lastSum.trans sum, ?_⟩
  intro nonneg fits
  have leftNonneg := positive nonneg fits
  apply lastPositive leftNonneg
  have few : objectCount state.world depot < 2 ^ 31 := by
    rw [count_eq sound opened.live]
    exact counted_few sound opened.live
  rw [sums_agree sum few startFew leftNonneg nonneg fits]
  exact fits

theorem call_settles (sound : Sound state.world kids) (opened : Open state creatureID depot space)
    {call : DepotCall cfg} (accounted : Accounted depot state call) :
    Meets (callDepot creatureID call) state (fun _ => Settles state creatureID depot space)
      (fun _ => Settles state creatureID depot space) fun _ => True := by
  cases call with
  | move surroundings obj con count noMerge ignore => exact move_settles sound opened accounted
  | merge surroundings obj dest count ignore => exact merge_call_settles sound opened accounted
  | create surroundings con type value =>
    apply meets_bind (create_settles sound opened accounted)
    intro _ after settled
    exact meets_pure settled
  | deleteOp obj count => exact delete_settles sound opened accounted

/-- While the notes account for every call, the space that is left and the objects in the
depot add up to the same, and with room at first there are never more than fit. -/
theorem depot_space_accounted (sound : Sound start.world kids)
    (opened : Open start creatureID depot space)
    (run : Runs (callDepot creatureID) (Accounted depot) start state) :
    ∃ left, Open state creatureID depot left ∧
      left + Int32.ofNat (objectCount state.world depot) =
        space + Int32.ofNat (objectCount start.world depot) ∧
      (0 ≤ space → space.toInt + objectCount start.world depot < 2 ^ 31 → 0 ≤ left ∧
        left.toInt + objectCount state.world depot = space.toInt + objectCount start.world depot) := by
  have startFew : objectCount start.world depot < 2 ^ 31 := by
    rw [count_eq sound opened.live]
    exact counted_few sound opened.live
  have settled : Settles start creatureID depot space state := by
    apply run.keeps (unchanged_settles sound opened)
    intro middle call before accounted
    rcases before with ⟨⟨middleKids, middleSound⟩, left, stillOpen, sum, positive⟩
    have next := call_settles middleSound stillOpen accounted
    apply next.imp
    · intro _ _ settled
      exact Settles.trans middleSound stillOpen startFew sum positive settled
    · intro _ _ settled
      exact Settles.trans middleSound stillOpen startFew sum positive settled
    · intro _ held
      exact held
  rcases settled with ⟨⟨newKids, newSound⟩, left, stillOpen, sum, positive⟩
  refine ⟨left, stillOpen, sum, ?_⟩
  intro nonneg fits
  have leftNonneg := positive nonneg fits
  have few : objectCount state.world depot < 2 ^ 31 := by
    rw [count_eq newSound stillOpen.live]
    exact counted_few newSound stillOpen.live
  exact ⟨leftNonneg, sums_agree sum few startFew leftNonneg nonneg fits⟩

def depotOpen (world : World smallTypes) : GameState smallTypes :=
  ⟨world, fun creatureID => if creatureID = 5 then some ⟨⟨2⟩, some ⟨⟨3⟩, 10⟩⟩ else none⟩

def depotBag : List (Furniture smallTypes) := [⟨⟨1⟩, setTypeID smallTypes 101, 0, 0⟩]

theorem depot_opened {world : World smallTypes}
    (live : objectExists world ⟨3⟩ = true) (item : (getObjectType world ⟨3⟩).isMapContainer = false) :
    Open (depotOpen world) 5 ⟨3⟩ 10 := by
  constructor
  · decide
  · exact ⟨⟨2⟩, rfl⟩
  · exact live
  · exact item

/-- A sword comes onto a field beside the depot. -/
theorem sword_beside_the_depot : ∃ (start state : GameState smallTypes) (left : Int32),
    Open start 5 ⟨3⟩ 10 ∧ objectExists start.world ⟨4⟩ = false ∧
      objectExists state.world ⟨4⟩ = true ∧ Open state 5 ⟨3⟩ left ∧
      left + Int32.ofNat (objectCount state.world ⟨3⟩) =
        10 + Int32.ofNat (objectCount start.world ⟨3⟩) ∧
      ((0 : Int32) ≤ 10 → (10 : Int32).toInt + objectCount start.world ⟨3⟩ < 2 ^ 31 → 0 ≤ left ∧
        left.toInt + objectCount state.world ⟨3⟩ =
          (10 : Int32).toInt + objectCount start.world ⟨3⟩) := by
  have passes : furnishedSuch depotBag (fun world => objectExists world ⟨3⟩ &&
      !(getObjectType world ⟨3⟩).isMapContainer && !objectExists world ⟨4⟩ &&
      decide (isHeldByContainer world ⟨2⟩ ⟨3⟩ ≠ .ok true) &&
      returnsSuch (callDepot 5 (.create idle ⟨2⟩ (setTypeID smallTypes 103) 0)) (depotOpen world)
        fun after => objectExists after.world ⟨4⟩) = true := by
    decide +kernel
  rcases furnished_such passes with ⟨world, kids, sound, test⟩
  simp only [Bool.and_eq_true, Bool.not_eq_true', decide_eq_true_eq] at test
  rcases test with ⟨⟨⟨⟨live, item⟩, unborn⟩, away⟩, returned⟩
  rcases returns_such returned with ⟨after, ended, born⟩
  have opened : Open (depotOpen world) 5 ⟨3⟩ 10 := depot_opened live item
  have accounted : Accounted ⟨3⟩ (depotOpen world)
      (.create idle ⟨2⟩ (setTypeID smallTypes 103) 0) := by
    constructor
    · exact away
    · decide
  have run : Runs (callDepot 5) (Accounted ⟨3⟩) (depotOpen world) after :=
    .step .start accounted ended
  rcases depot_space_accounted sound opened run with ⟨left, later, balanced⟩
  exact ⟨_, after, left, opened, unborn, born, later, balanced⟩

/-- A sword is created in the depot without a note. -/
theorem sword_in_the_depot : ∃ (start after : GameState smallTypes) (kids : Object → List Object),
    Sound start.world kids ∧ Open start 5 ⟨3⟩ 10 ∧
      finish (callDepot 5 (.create idle ⟨3⟩ (setTypeID smallTypes 103) 0)) start =
        .ok (.ok (), after) ∧ Open after 5 ⟨3⟩ 10 ∧
      objectCount start.world ⟨3⟩ = 1 ∧ objectCount after.world ⟨3⟩ = 2 := by
  have passes : furnishedSuch depotBag (fun world => objectExists world ⟨3⟩ &&
      !(getObjectType world ⟨3⟩).isMapContainer && objectCount world ⟨3⟩ == 1 &&
      returnsSuch (callDepot 5 (.create idle ⟨3⟩ (setTypeID smallTypes 103) 0)) (depotOpen world)
        fun after => objectExists after.world ⟨3⟩ &&
          !(getObjectType after.world ⟨3⟩).isMapContainer && objectCount after.world ⟨3⟩ == 2 &&
          decide (after.creatures 5 = some ⟨⟨2⟩, some ⟨⟨3⟩, 10⟩⟩)) = true := by
    decide +kernel
  rcases furnished_such passes with ⟨world, kids, sound, test⟩
  simp only [Bool.and_eq_true, Bool.not_eq_true', beq_iff_eq] at test
  rcases test with ⟨⟨⟨live, item⟩, one⟩, returned⟩
  rcases returns_such returned with ⟨after, ended, tested⟩
  simp only [Bool.and_eq_true, Bool.not_eq_true', beq_iff_eq, decide_eq_true_eq] at tested
  rcases tested with ⟨⟨⟨stillLive, stillItem⟩, two⟩, known⟩
  have later : Open after 5 ⟨3⟩ 10 := by
    constructor
    · decide
    · exact ⟨⟨2⟩, known⟩
    · exact stillLive
    · exact stillItem
  exact ⟨depotOpen world, after, kids, sound, depot_opened live item, ended, later, one, two⟩

end TibiaGame.DepotSpace
