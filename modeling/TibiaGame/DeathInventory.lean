import TibiaGame.ObjectLoading
import TibiaGame.OperateModel

/-!
# What a dead player leaves

`~TPlayer` deletes the saved inventory of a dead player. `~TCreature` moves objects into the corpse
and saves what the player still wears, all in one block whose exceptions are caught, and then deletes
the creature with all it wears.
-/

namespace TibiaGame.DeathInventory

open GameTypes ObjectStore ForestRuns ObjectStreams ObjectText ObjectLoading List Function
open Library.LittleEndian Library.Outcome Library.ThrowingState
open OperateModel (Result)

variable {cfg : GameConfig}

structure Thing (cfg : GameConfig) where
  type : ObjectType cfg
  attributes : List Attribute
  content : Objects cfg

def Thing.objects : Thing cfg → Objects cfg
  | ⟨type, attributes, .nil⟩ => .plain type attributes .nil
  | ⟨type, attributes, content⟩ => .holder type attributes content .nil

inductive LoseInventory where
  | none | some | all
  deriving DecidableEq

/-- What `~TPlayer` reads of a dead player. -/
structure Deceased where
  hasProfession : Bool
  level : Int
  maxHitpoints : Int
  playerkillerEnd : Int
  keepInventory : Bool
  loseInventory : LoseInventory

/-- `ResetCharacter`. -/
def Deceased.isReset (dead : Deceased) : Bool :=
  (dead.hasProfession && decide (dead.level ≤ 5)) || decide (dead.maxHitpoints ≤ 0)

/-- `LoseInventory` when `~TPlayer` is done. -/
def Deceased.loss (dead : Deceased) : LoseInventory :=
  if dead.keepInventory then .none
  else if dead.playerkillerEnd ≠ 0 then .all
  else if dead.isReset then .all
  else dead.loseInventory

/-- How a `::move` into the corpse ends. It may throw before the object is moved, or after. -/
inductive Passage where
  | moved
  | refused (result : Result)
  | late (result : Result)

/-- What the map answers to the burial, and what `random` gives for each slot. -/
structure Burial where
  created : Option Result
  recognized : Option Result
  lucky : Nat → Bool
  passage : Nat → Passage

/-- The objects in the slots of the body and in the corpse, and `PlayerData->Inventory`. -/
structure Remains (cfg : GameConfig) where
  body : Nat → Option (Thing cfg)
  corpse : List (Thing cfg)
  inventory : Option (List UInt8)

abbrev Dying (cfg : GameConfig) : Type := Program Empty Result (Remains cfg) Unit

def answer : Option Result → Dying cfg
  | none => pure ()
  | some result => throw result

def Remains.bury (remains : Remains cfg) (position : Nat) (item : Thing cfg) : Remains cfg :=
  { remains with
    body := Function.update remains.body position none
    corpse := item :: remains.corpse }

def moveToCorpse (burial : Burial) (position : Nat) (item : Thing cfg) : Dying cfg :=
  match burial.passage position with
  | .moved => modify fun remains => remains.bury position item
  | .refused result => throw result
  | .late result => do
      modify fun remains => remains.bury position item
      throw result

def isLost (loss : LoseInventory) (burial : Burial) (position : Nat) (item : Thing cfg) : Bool :=
  decide (loss = .all) || item.type.getFlag .container || burial.lucky position

def dropItem (loss : LoseInventory) (burial : Burial) (position : Nat) : Dying cfg := do
  let remains ← get
  match remains.body position with
  | none => pure ()
  | some item => whenever (isLost loss burial position item) (moveToCorpse burial position item)

def dropInventory (loss : LoseInventory) (burial : Burial) : List Nat → Dying cfg
  | [] => pure ()
  | position :: rest => do
      dropItem loss burial position
      dropInventory loss burial rest

def slots : List Nat := [1, 2, 3, 4, 5, 6, 7, 8, 9, 10]

/-- What `SaveInventory` writes for a slot. -/
def savedSlot (slot : Nat × Thing cfg) : List UInt8 :=
  UInt8.ofNat slot.1 :: (slot.2.objects.bytes ++ wordBytes 0xFFFF)

def worn (body : Nat → Option (Thing cfg)) : List (Nat × Thing cfg) :=
  slots.filterMap fun position => (body position).map fun item => (position, item)

def inventoryOf (slots : List (Nat × Thing cfg)) : Option (List UInt8) :=
  if slots = [] then none else some (slots.flatMap savedSlot ++ [0xFF])

def saveInventory (remains : Remains cfg) : Remains cfg :=
  { remains with inventory := inventoryOf (worn remains.body) }

/-- The block of `~TCreature` whose exceptions are caught. -/
def leaveCorpse (loss : LoseInventory) (burial : Burial) : Dying cfg := do
  answer burial.created
  answer burial.recognized
  whenever (decide (loss ≠ .none)) (dropInventory loss burial slots)
  whenever (decide (loss ≠ .all)) (modify saveInventory)

/-- `~TPlayer` and `~TCreature` of a dead player. -/
def destroyPlayer (dead : Deceased) (burial : Burial) (remains : Remains cfg) : Remains cfg :=
  let opened := { remains with inventory := none }
  let left := ended (tryCatch (leaveCorpse dead.loss burial) fun _ => pure ()) opened
  { left.2 with body := fun _ => none }

section Moves

variable {loss : LoseInventory} {burial : Burial} {start after last : Remains cfg} {position : Nat}
  {item : Thing cfg} {positions : List Nat}

theorem worn_without {body : Nat → Option (Thing cfg)}
    (apart : positions.Nodup) (member : position ∈ positions) (full : body position = some item) :
    (positions.filterMap fun place => (body place).map fun item => (place, item)).Perm
      ((position, item) :: positions.filterMap fun place =>
        (update body position none place).map fun item => (place, item)) := by
  induction positions with
  | nil => cases member
  | cons place rest ih =>
    rcases nodup_cons.mp apart with ⟨absent, restApart⟩
    by_cases here : place = position
    · have others : rest.filterMap (fun place => (body place).map fun item => (place, item)) =
          rest.filterMap fun place =>
            (update body position none place).map fun item => (place, item) := by
        apply filterMap_congr
        intro other inside
        rw [update_of_ne]
        intro same
        rw [same, ← here] at inside
        exact absent inside
      rw [here, filterMap_cons_some (by rw [full]; rfl),
        filterMap_cons_none (by rw [update_self]; rfl), others]
    have later := ih restApart ((mem_cons.mp member).resolve_left fun same => here same.symm)
    rw [filterMap_cons, filterMap_cons, update_of_ne here]
    cases body place with
    | none => exact later
    | some other => exact (later.cons (place, other)).trans (List.Perm.swap _ _ _)

structure Moving (start after : Remains cfg) : Prop where
  each : ((worn start.body).map Prod.snd ++ start.corpse).Perm
    ((worn after.body).map Prod.snd ++ after.corpse)
  inventory : after.inventory = start.inventory

theorem Moving.refl (start : Remains cfg) : Moving start start := ⟨List.Perm.refl _, rfl⟩

theorem Moving.trans (early : Moving start after) (later : Moving after last) :
    Moving start last := ⟨early.each.trans later.each, later.inventory.trans early.inventory⟩

theorem bury_moving (member : position ∈ slots) (full : start.body position = some item) :
    Moving start (start.bury position item) where
  each := by
    have taken := (worn_without (by decide : slots.Nodup) member full).map Prod.snd
    exact (taken.append_right start.corpse).trans perm_middle.symm
  inventory := rfl

/-- The objects that are lost have left these slots, the others are in their slots. -/
def Stays (loss : LoseInventory) (burial : Burial) (positions : List Nat) (start after : Remains cfg) :
    Prop :=
  ∀ place item, after.body place = some item ↔ start.body place = some item ∧
    ¬(place ∈ positions ∧ isLost loss burial place item = true)

theorem stays_here (spared : ∀ place item, place ∈ positions → start.body place = some item →
      isLost loss burial place item = false) : Stays loss burial positions start start := by
  intro place item
  constructor
  · intro full
    refine ⟨full, ?_⟩
    rintro ⟨inside, lost⟩
    rw [spared place item inside full] at lost
    cases lost
  · intro both
    exact both.1

theorem stays_buried (full : start.body position = some item)
    (lost : isLost loss burial position item = true) :
    Stays loss burial [position] start (start.bury position item) := by
  intro place other
  have body : (start.bury position item).body = update start.body position none := rfl
  rw [mem_singleton, body]
  by_cases here : place = position
  · rw [here, update_self, full]
    constructor
    · nofun
    · rintro ⟨same, kept⟩
      cases same
      exact absurd ⟨rfl, lost⟩ kept
  rw [update_of_ne here]
  exact (and_iff_left fun both => here both.1).symm

theorem Stays.trans {rest : List Nat} (first : Stays loss burial [position] start after)
    (others : Stays loss burial rest after last) :
    Stays loss burial (position :: rest) start last := by
  intro place item
  rw [others, first, and_assoc, ← not_or, mem_singleton, mem_cons, ← or_and_right]

theorem drop_item_spec (member : position ∈ slots) :
    Meets (dropItem loss burial position) start
      (fun _ after => Moving start after ∧ Stays loss burial [position] start after)
      (fun _ after => Moving start after ∧ ∃ place, burial.passage place ≠ .moved)
      fun _ => False := by
  apply meets_get
  rcases full : start.body position with _ | item
  · apply meets_pure
    refine ⟨Moving.refl start, stays_here ?_⟩
    intro place item inside there
    rw [mem_singleton.mp inside, full] at there
    cases there
  have moving := bury_moving member full
  dsimp only
  unfold whenever
  split_ifs with lost
  · unfold moveToCorpse
    cases passage : burial.passage position with
    | moved => exact ⟨moving, stays_buried full lost⟩
    | refused result =>
      exact ⟨Moving.refl start, position, by rw [passage]; exact Passage.noConfusion⟩
    | late result => exact ⟨moving, position, by rw [passage]; exact Passage.noConfusion⟩
  apply meets_pure
  refine ⟨Moving.refl start, stays_here ?_⟩
  intro place other inside there
  rw [mem_singleton.mp inside, full] at there
  cases there
  rw [mem_singleton.mp inside]
  exact Bool.eq_false_iff.mpr lost

theorem drop_inventory_spec (inside : ∀ place ∈ positions, place ∈ slots) :
    Meets (dropInventory loss burial positions) start
      (fun _ after => Moving start after ∧ Stays loss burial positions start after)
      (fun _ after => Moving start after ∧ ∃ place, burial.passage place ≠ .moved)
      fun _ => False := by
  induction positions generalizing start with
  | nil => exact ⟨Moving.refl start, stays_here fun _ _ member => absurd member not_mem_nil⟩
  | cons position rest ih =>
    apply meets_bind (drop_item_spec (inside position mem_cons_self))
    intro _ after first
    apply (ih fun place member => inside place (mem_cons_of_mem position member)).imp
    · intro _ last others
      exact ⟨first.1.trans others.1, first.2.trans others.2⟩
    · intro _ last thrown
      exact ⟨first.1.trans thrown.1, thrown.2⟩
    · intro _ never
      exact never

def Burial.Undisturbed (burial : Burial) : Prop :=
  burial.created = none ∧ burial.recognized = none ∧ ∀ place, burial.passage place = .moved

/-- The objects that come into the corpse when nothing is thrown. -/
def goes (loss : LoseInventory) (burial : Burial) (slot : Nat × Thing cfg) : Bool :=
  decide (loss ≠ .none) && isLost loss burial slot.1 slot.2

theorem worn_staying (stays : Stays loss burial slots start after) :
    worn after.body = (worn start.body).filter fun slot => !isLost loss burial slot.1 slot.2 := by
  rw [worn, worn, filter_filterMap]
  apply filterMap_congr
  intro place inside
  cases now : after.body place with
  | some item =>
    rcases (stays place item).mp now with ⟨full, kept⟩
    have spared : isLost loss burial place item = false :=
      Bool.eq_false_iff.mpr fun lost => kept ⟨inside, lost⟩
    rw [full, Option.map_some, Option.filter_some, spared]
    rfl
  | none =>
    rcases full : start.body place with _ | item
    · rfl
    have lost : isLost loss burial place item = true := by
      by_contra spared
      have still := (stays place item).mpr ⟨full, fun both => spared both.2⟩
      rw [now] at still
      cases still
    rw [Option.map_some, Option.filter_some, lost]
    rfl

theorem answer_spec {refused : Option Result} (disturbs : refused ≠ none → ¬burial.Undisturbed) :
    Meets (answer refused) start (fun _ after => after = start)
      (fun _ after => Moving start after ∧ ¬burial.Undisturbed) fun _ => False := by
  cases refused with
  | none => exact rfl
  | some result => exact ⟨Moving.refl start, disturbs (Option.some_ne_none result)⟩

/-- When nothing is thrown, what is not in the corpse is still worn. -/
theorem drop_all_spec :
    Meets (whenever (decide (loss ≠ .none)) (dropInventory loss burial slots)) start
      (fun _ after => Moving start after ∧
        worn after.body = (worn start.body).filter fun slot => !goes loss burial slot)
      (fun _ after => Moving start after ∧ ¬burial.Undisturbed) fun _ => False := by
  unfold whenever goes
  split_ifs with drops
  · rw [drops]
    apply (drop_inventory_spec fun _ member => member).imp
    · intro _ after ended
      exact ⟨ended.1, worn_staying ended.2⟩
    · rintro _ after ⟨moving, place, thrown⟩
      exact ⟨moving, fun undisturbed => thrown (undisturbed.2.2 place)⟩
    · intro _ never
      exact never
  · apply meets_pure
    rw [Bool.eq_false_iff.mpr drops]
    exact ⟨Moving.refl start, (filter_eq_self.mpr fun _ _ => rfl).symm⟩

theorem all_gone (slot : Nat × Thing cfg) : goes .all burial slot = true := rfl

theorem leave_corpse_spec (empty : start.inventory = none) :
    Meets (leaveCorpse loss burial) start
      (fun _ after => Moving start { after with inventory := none } ∧
        after.inventory = inventoryOf (worn after.body) ∧
        worn after.body = (worn start.body).filter fun slot => !goes loss burial slot)
      (fun _ after => Moving start after ∧ ¬burial.Undisturbed) fun _ => False := by
  apply meets_bind (answer_spec fun refused undisturbed => refused undisturbed.1)
  rintro _ _ rfl
  apply meets_bind (answer_spec fun refused undisturbed => refused undisturbed.2.1)
  rintro _ _ rfl
  apply meets_bind drop_all_spec
  intro _ after dropped
  unfold whenever
  split_ifs with saves
  · exact ⟨⟨dropped.1.each, empty.symm⟩, rfl, dropped.2⟩
  apply meets_pure
  have all : loss = .all := by simpa using saves
  have nothing : worn after.body = [] := by
    rw [dropped.2, all]
    exact filter_eq_nil_iff.mpr fun slot _ => by rw [all_gone]; exact Bool.false_ne_true
  refine ⟨⟨dropped.1.each, empty.symm⟩, ?_, dropped.2⟩
  rw [nothing, dropped.1.inventory, empty]
  rfl

end Moves

section Reading

variable {bodyContainer : Nat → Object}

/-- `LoadInventory`; the container of a slot does not change while it runs. -/
def loadInventory (fuel : Nat) (bodyContainer : Nat → Object) :
    Nat → World cfg → List UInt8 → Except Halt (World cfg)
  | 0, _, _ => .error .hang
  | turns + 1, world, stream => do
      let position ← readByte stream
      if position.1 = 0xFF then .ok world
      else
        let loaded ← loadObjects fuel world position.2 (bodyContainer position.1.toNat)
        loadInventory fuel bodyContainer turns loaded.1 loaded.2

def wear (bodyContainer : Nat → Object) : List (Nat × Thing cfg) → World cfg → Except Halt (World cfg)
  | [], world => .ok world
  | slot :: rest, world => do
      let world ← build slot.2.objects world (bodyContainer slot.1)
      wear bodyContainer rest world

/-- A slot of the body with an object that can be saved, and fuel to load it. -/
def Loadable (fuel : Nat) (slot : Nat × Thing cfg) : Prop :=
  slot.1 ∈ slots ∧ slot.2.objects.Storable ∧ slot.2.objects.items.length < fuel

theorem inventory_loads {fuel turns : Nat} {world : World cfg} {kids : Object → List Object}
    {kept : List (Nat × Thing cfg)} (described : Described world kids)
    (holders : ∀ place ∈ slots, Holder world (bodyContainer place))
    (loadable : ∀ slot ∈ kept, Loadable fuel slot) (enough : kept.length < turns) :
    loadInventory fuel bodyContainer turns world (kept.flatMap savedSlot ++ [0xFF]) =
      wear bodyContainer kept world := by
  induction kept generalizing turns world kids with
  | nil =>
    cases turns with
    | zero => exact absurd enough (Nat.not_lt_zero _)
    | succ turns => rfl
  | cons slot rest ih =>
    rcases turns with _ | turns
    · exact absurd enough (Nat.not_lt_zero _)
    rcases loadable slot mem_cons_self with ⟨member, storable, short⟩
    have small : slot.1 ≤ 10 := (by decide : ∀ place ∈ slots, place ≤ 10) slot.1 member
    have number : (UInt8.ofNat slot.1).toNat = slot.1 :=
      UInt8.toNat_ofNat_of_lt (show slot.1 < 256 by omega)
    have inside : UInt8.ofNat slot.1 ≠ 0xFF := by
      intro last
      rw [last] at number
      have marker : (0xFF : UInt8).toNat = 255 := rfl
      omega
    have whole : (slot :: rest).flatMap savedSlot ++ [0xFF] = UInt8.ofNat slot.1 ::
        (slot.2.objects.bytes ++ (wordBytes 0xFFFF ++ (rest.flatMap savedSlot ++ [0xFF]))) := by
      rw [flatMap_cons, savedSlot]
      simp only [cons_append, append_assoc]
    have holder := holders slot.1 member
    rw [whole, loadInventory, read_byte, ok_bind, if_neg inside, number,
      load_objects_builds described holder storable short, wear]
    rcases built : build slot.2.objects world (bodyContainer slot.1) with halt | after
    · rfl
    rcases build_built described holder storable built with ⟨newKids, roots, more⟩
    exact ih more.described (fun place there => more.keeps.holder (holders place there))
      (fun other there => loadable other (mem_cons_of_mem slot there))
      (Nat.lt_of_succ_lt_succ enough)

end Reading

/-- The saved inventory holds these objects, each once: `LoadInventory` puts them into their slots. -/
def Saves (inventory : Option (List UInt8)) (kept : List (Nat × Thing cfg)) : Prop :=
  (inventory = none ↔ kept = []) ∧ ∀ bytes, inventory = some bytes →
    ∀ (fuel turns : Nat) (world : World cfg) (kids : Object → List Object)
      (bodyContainer : Nat → Object), Described world kids →
      (∀ place ∈ slots, Holder world (bodyContainer place)) →
      (∀ slot ∈ kept, Loadable fuel slot) → kept.length < turns →
      loadInventory fuel bodyContainer turns world bytes = wear bodyContainer kept world

theorem inventory_saves (kept : List (Nat × Thing cfg)) : Saves (inventoryOf kept) kept := by
  unfold inventoryOf
  split_ifs with empty
  · refine ⟨iff_of_true rfl empty, ?_⟩
    nofun
  refine ⟨iff_of_false (Option.some_ne_none _) empty, ?_⟩
  intro bytes same fuel turns world kids bodyContainer described holders loadable enough
  cases same
  exact inventory_loads described holders loadable enough

/-- What has become of the objects: the kept ones are in the saved inventory, and when no exception
was caught, the corpse has exactly those that were to be lost. -/
def Divided (loss : LoseInventory) (burial : Burial) (start after : Remains cfg) : Prop :=
  ∃ kept lost, Saves after.inventory kept ∧
    ((worn start.body).map Prod.snd ++ start.corpse).Perm
      (after.corpse ++ (kept.map Prod.snd ++ lost)) ∧
    (burial.Undisturbed → lost = [] ∧
      kept = (worn start.body).filter (fun slot => !goes loss burial slot) ∧
      after.corpse.Perm (((worn start.body).filter (goes loss burial)).map Prod.snd ++ start.corpse))

theorem left_divided {loss : LoseInventory} {burial : Burial} {start after : Remains cfg}
    (moving : Moving start { after with inventory := none })
    (saved : after.inventory = inventoryOf (worn after.body))
    (same : worn after.body = (worn start.body).filter fun slot => !goes loss burial slot) :
    Divided loss burial start after := by
  refine ⟨worn after.body, [], ?_, ?_, fun _ => ⟨rfl, same, ?_⟩⟩
  · rw [saved]
    exact inventory_saves _
  · rw [append_nil]
    exact moving.each.trans perm_append_comm
  · have split := (filter_append_perm (goes loss burial) (worn start.body)).map Prod.snd
    rw [map_append, ← same] at split
    have both := (split.append_right start.corpse).trans moving.each
    rw [append_assoc] at both
    have swapped := (perm_append_comm_assoc _ _ _).symm.trans both
    exact ((perm_append_left_iff _).mp swapped).symm

theorem thrown_divided {loss : LoseInventory} {burial : Burial} {start after : Remains cfg}
    (moving : Moving start after) (empty : start.inventory = none)
    (disturbed : ¬burial.Undisturbed) : Divided loss burial start after := by
  refine ⟨[], (worn after.body).map Prod.snd, ?_, ?_, fun undisturbed => absurd undisturbed disturbed⟩
  · rw [moving.inventory, empty]
    exact inventory_saves []
  · exact moving.each.trans perm_append_comm

def bagWorn : Remains scrollTypes where
  body := fun place => if place = 3 then some ⟨⟨100, bag_known⟩, [], .nil⟩ else none
  corpse := []
  inventory := none

end TibiaGame.DeathInventory
