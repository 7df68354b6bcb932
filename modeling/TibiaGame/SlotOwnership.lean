import TibiaGame.SlotWrites

/-!
# Who may write to a slot

A thread that has locked a slot keeps it, and what it holds, against all other threads. As long
as no dead player keeps an inventory, all data are written by the thread that has the lock.
-/

namespace TibiaGame.SlotOwnership

open PlayerPool PlayerSessions StickyBalance StickyRuns SlotWrites Function

def fills : Local → Option (UInt32 × Nat)
  | .loading characterID index => some (characterID, index)
  | .failed characterID index => some (characterID, index)
  | _ => none

/-- The inventory that `~TCreature` is going to save. -/
def lateOf : Local → Option Inventory
  | .leaving _ _ late => late
  | .releasing _ _ late => late
  | .dropping _ _ inventory => some inventory
  | _ => none

/-- The steps that leave the data of a slot to the thread that has locked it: nobody takes an
empty slot that is locked, and a dead player loses all it has. -/
def meets (size : Nat) (world : World) (thread : Nat) (call : Call) : Bool :=
  match world.threads thread, call with
  | .idle, .login characterID => fits size world.pool characterID
  | .idle, .takeOrder =>
      match world.orders with
      | [] => true
      | characterID :: _ => fits size world.pool characterID
  | .retrying characterID, .next _ _ => fits size world.pool characterID
  | .idle, .leave _ fate => fate.late.isNone
  | _, _ => true

structure Ruled (size : Nat) (slots : Nat → Slot) (thread : Nat) (now : Local) : Prop where
  locked : ∀ index, locks now = some index → thread ≠ 0 ∧ (slots index).locked = thread
  filling : ∀ characterID index, fills now = some (characterID, index) →
    index < size ∧ characterID ≠ 0 ∧ (slots index).characterID = characterID ∧
      (slots index).dirty = false
  failing : ∀ characterID index, now = .failed characterID index → (slots index).stored = nothing
  saving : ∀ index, now = .saving index → index < size
  spared : lateOf now = none
  game : ofGame now = true → thread = gameThread
  crew : thread = gameThread → now = .idle ∨ ofGame now = true

/-- A slot that need not be saved has the data of the file, once they are loaded. -/
def Clean (size : Nat) (world : World) : Prop :=
  ∀ index, index < size → (world.pool.slots index).characterID ≠ 0 →
    (world.pool.slots index).dirty = false →
    (∀ thread characterID, fills (world.threads thread) ≠ some (characterID, index)) →
    (world.pool.slots index).stored = world.pool.files (world.pool.slots index).characterID

structure Guarded (size : Nat) (world : World) : Prop where
  unique : Unique size world.pool.slots
  ruled : ∀ thread, Ruled size world.pool.slots thread (world.threads thread)
  playing : ∀ characterID index, world.online characterID = some index →
    index < size ∧ characterID ≠ 0 ∧ (world.pool.slots index).characterID = characterID ∧
      (world.pool.slots index).locked = gameThread
  apart : ∀ index, locks (world.threads gameThread) = some index →
    ∀ characterID, world.online characterID ≠ some index
  leaving : ∀ characterID index late,
    world.threads gameThread = .leaving characterID index late →
      world.online characterID = some index
  clean : Clean size world

structure Same (old new : Slot) : Prop where
  character : new.characterID = old.characterID
  stored : new.stored = old.stored
  dirty : new.dirty = old.dirty

def Respects (thread : Nat) (before after : Nat → Slot) : Prop :=
  ∀ index, (before index).locked ≠ 0 → (before index).locked ≠ thread →
    Same (before index) (after index) ∧ (after index).locked = (before index).locked

variable {size thread index place : Nat} {world after : World} {characterID : UInt32}
  {pool : Pool} {now old : Local} {slots later : Nat → Slot} {write : Option Write}

theorem same_refl (slot : Slot) : Same slot slot := ⟨rfl, rfl, rfl⟩

/-- A thread may do what it likes with a slot that is free or its own. -/
theorem respects_own (others : ∀ other, other ≠ place → later other = slots other)
    (own : (slots place).locked = 0 ∨ (slots place).locked = thread) :
    Respects thread slots later := by
  intro index locked foreign
  by_cases here : index = place
  · rw [here] at locked foreign
    rcases own with free | mine
    · exact absurd free locked
    · exact absurd mine foreign
  rw [others index here]
  exact ⟨same_refl _, rfl⟩

theorem respects_same (others : ∀ other, other ≠ place → later other = slots other)
    (same : Same (slots place) (later place))
    (lock : (later place).locked = (slots place).locked) : Respects thread slots later := by
  intro index _ _
  by_cases here : index = place
  · rw [here]
    exact ⟨same, lock⟩
  rw [others index here]
  exact ⟨same_refl _, rfl⟩

theorem fills_locks (filling : fills now = some (characterID, index)) : locks now = some index := by
  cases now with
  | loading _ _ | failed _ _ =>
    cases filling
    rfl
  | _ => cases filling

theorem ruled_other (guarded : Guarded size world)
    (respects : Respects thread world.pool.slots later) {other : Nat} (different : other ≠ thread) :
    Ruled size later other (world.threads other) := by
  have ruled := guarded.ruled other
  have kept : ∀ index, locks (world.threads other) = some index →
      Same (world.pool.slots index) (later index) ∧
        (later index).locked = (world.pool.slots index).locked := by
    intro index isLocked
    have own := ruled.locked index isLocked
    apply respects index
    · omega
    · omega
  constructor
  · intro index isLocked
    have own := ruled.locked index isLocked
    exact ⟨own.1, (kept index isLocked).2.trans own.2⟩
  · intro characterID index filling
    have here := ruled.filling characterID index filling
    have same := (kept index (fills_locks filling)).1
    exact ⟨here.1, here.2.1, same.character.trans here.2.2.1, same.dirty.trans here.2.2.2⟩
  · intro characterID index failed
    have isLocked : locks (world.threads other) = some index := by
      rw [failed]
      rfl
    exact (kept index isLocked).1.stored.trans (ruled.failing characterID index failed)
  · exact ruled.saving
  · exact ruled.spared
  · exact ruled.game
  · exact ruled.crew

/-- A thread that neither loads nor saves, and does nothing of the game thread. -/
def isCalm : Local → Bool
  | .idle | .emptied _ | .checking _ _ _ | .retrying _ | .holding _ _ | .raised _ _ => true
  | .waiting _ _ | .sending _ _ | .saved _ => true
  | _ => false

theorem ruled_crew (foreign : thread ≠ gameThread) (calm : isCalm now = true)
    (locked : ∀ index, locks now = some index → thread ≠ 0 ∧ (later index).locked = thread) :
    Ruled size later thread now := by
  have spared : ofGame now = false ∧ fills now = none ∧ lateOf now = none := by
    cases now <;> first | exact ⟨rfl, rfl, rfl⟩ | cases calm
  constructor
  · exact locked
  · intro characterID index filling
    rw [spared.2.1] at filling
    cases filling
  · intro characterID index failed
    rw [failed] at calm
    cases calm
  · intro index saving
    rw [saving] at calm
    cases calm
  · exact spared.2.2
  · intro isGame
    rw [spared.1] at isGame
    cases isGame
  · omega

theorem ruled_loose (foreign : thread ≠ gameThread) (calm : isCalm now = true)
    (loose : locks now = none) : Ruled size later thread now := by
  apply ruled_crew foreign calm
  intro index isLocked
  rw [loose] at isLocked
  cases isLocked

theorem ruled_game (role : now = .idle ∨ ofGame now = true) (notLate : lateOf now = none)
    (locked : ∀ index, locks now = some index → (later index).locked = gameThread) :
    Ruled size later gameThread now := by
  have notFills : fills now = none := by
    rcases role with idle | isGame
    · rw [idle]
      rfl
    cases now with
    | loading _ _ | failed _ _ => cases isGame
    | _ => rfl
  constructor
  · intro index isLocked
    exact ⟨by decide, locked index isLocked⟩
  · intro characterID index filling
    rw [notFills] at filling
    cases filling
  · intro characterID index failed
    rw [failed] at notFills
    cases notFills
  · intro index saving
    rw [saving] at role
    rcases role with idle | isGame
    · cases idle
    · cases isGame
  · exact notLate
  · intro _
    rfl
  · intro _
    exact role

theorem guarded_crew (guarded : Guarded size world) (foreign : thread ≠ gameThread)
    (threads : after.threads = update world.threads thread now)
    (online : after.online = world.online)
    (respects : Respects thread world.pool.slots after.pool.slots)
    (unique : Unique size after.pool.slots) (own : Ruled size after.pool.slots thread now)
    (clean : Clean size after) : Guarded size after := by
  have game : after.threads gameThread = world.threads gameThread := by
    rw [threads]
    exact update_of_ne foreign.symm _ _
  constructor
  · exact unique
  · intro other
    rw [threads]
    by_cases moved : other = thread
    · rw [moved, update_self]
      exact own
    rw [update_of_ne moved]
    exact ruled_other guarded respects moved
  · intro characterID index playing
    rw [online] at playing
    rcases guarded.playing characterID index playing with ⟨inside, someone, holds, locked⟩
    have isLocked : (world.pool.slots index).locked ≠ 0 ∧
        (world.pool.slots index).locked ≠ thread := by
      rw [locked]
      exact ⟨by decide, foreign.symm⟩
    have kept := respects index isLocked.1 isLocked.2
    exact ⟨inside, someone, kept.1.character.trans holds, kept.2.trans locked⟩
  · rw [game, online]
    exact guarded.apart
  · rw [game, online]
    exact guarded.leaving
  · exact clean

/-- The slots of the players in the game, and a state of the game thread. -/
structure Played (size : Nat) (slots : Nat → Slot) (online : UInt32 → Option Nat) (now : Local) :
    Prop where
  playing : ∀ characterID index, online characterID = some index →
    index < size ∧ characterID ≠ 0 ∧ (slots index).characterID = characterID ∧
      (slots index).locked = gameThread
  apart : ∀ index, locks now = some index → ∀ characterID, online characterID ≠ some index
  leaving : ∀ characterID index late, now = .leaving characterID index late →
    online characterID = some index

theorem guarded_game (guarded : Guarded size world)
    (threads : after.threads = update world.threads gameThread now)
    (respects : Respects gameThread world.pool.slots after.pool.slots)
    (unique : Unique size after.pool.slots) (own : Ruled size after.pool.slots gameThread now)
    (played : Played size after.pool.slots after.online now) (clean : Clean size after) :
    Guarded size after := by
  have isNow : after.threads gameThread = now := by
    rw [threads]
    exact update_self _ _ _
  constructor
  · exact unique
  · intro other
    by_cases moved : other = gameThread
    · rw [moved, isNow]
      exact own
    rw [threads, update_of_ne moved]
    exact ruled_other guarded respects moved
  · exact played.playing
  · rw [isNow]
    exact played.apart
  · rw [isNow]
    exact played.leaving
  · exact clean

theorem current_zero (pool : Pool) : current size pool 0 = pool.files 0 := by
  rw [current, getPlayerPoolSlot, if_pos rfl]

/-- Nobody loads a slot before a step if nobody does after it, unless it was the thread itself. -/
theorem fills_before (threads : after.threads = update world.threads thread now)
    (notFills : ∀ characterID, fills (world.threads thread) ≠ some (characterID, index))
    (nobody : ∀ other characterID, fills (after.threads other) ≠ some (characterID, index)) :
    ∀ other characterID, fills (world.threads other) ≠ some (characterID, index) := by
  intro other characterID
  by_cases moved : other = thread
  · rw [moved]
    exact notFills characterID
  have still := nobody other characterID
  rw [threads, update_of_ne moved] at still
  exact still

theorem fills_nothing (notFills : fills (world.threads thread) = none) (index : Nat)
    (characterID : UInt32) : fills (world.threads thread) ≠ some (characterID, index) := by
  rw [notFills]
  nofun

section

variable (guarded : Guarded size world)
    (threads : after.threads = Function.update world.threads thread now)
    (others : ∀ other, other ≠ place → after.pool.slots other = world.pool.slots other)
include guarded threads others

theorem clean_step
    (notFills : ∀ index, index ≠ place →
      ∀ characterID, fills (world.threads thread) ≠ some (characterID, index))
    (files : ∀ index, index < size → index ≠ place → (world.pool.slots index).characterID ≠ 0 →
      after.pool.files (world.pool.slots index).characterID =
        world.pool.files (world.pool.slots index).characterID)
    (here : place < size → (after.pool.slots place).characterID ≠ 0 →
      (after.pool.slots place).dirty = false →
      (∀ thread characterID, fills (after.threads thread) ≠ some (characterID, place)) →
      (after.pool.slots place).stored =
        after.pool.files (after.pool.slots place).characterID) : Clean size after := by
  intro index inside someone clean nobody
  by_cases isHere : index = place
  · rw [isHere] at inside someone clean nobody ⊢
    exact here inside someone clean nobody
  have still := fills_before threads (notFills index isHere) nobody
  rw [others index isHere] at someone clean ⊢
  rw [files index inside isHere someone]
  exact guarded.clean index inside someone clean still

variable (notFills : fills (world.threads thread) = none)
include notFills

theorem clean_same (same : Same (world.pool.slots place) (after.pool.slots place))
    (files : after.pool.files = world.pool.files) : Clean size after := by
  have nothing := fills_nothing notFills
  apply clean_step guarded threads others (fun index _ => nothing index)
    (fun _ _ _ _ => congrFun files _)
  intro inside someone clean nobody
  have still := fills_before threads (nothing place) nobody
  rw [same.character] at someone ⊢
  rw [same.dirty] at clean
  rw [same.stored, files]
  exact guarded.clean place inside someone clean still

theorem clean_dirty (dirty : (after.pool.slots place).dirty = true)
    (files : after.pool.files = world.pool.files) : Clean size after := by
  apply clean_step guarded threads others
    (fun index _ => fills_nothing notFills index)
    (fun _ _ _ _ => congrFun files _)
  intro _ _ clean
  rw [dirty] at clean
  cases clean

end

theorem orderly_same (others : ∀ other, other ≠ place → after.pool.slots other = world.pool.slots other)
    (same : Same (world.pool.slots place) (after.pool.slots place))
    (files : after.pool.files = world.pool.files) : Orderly size thread world after none := by
  constructor
  · nofun
  · intro index _
    by_cases here : index = place
    · rw [here]
      exact ⟨same.stored, same.dirty⟩
    rw [others index here]
    exact ⟨rfl, rfl⟩
  · intro characterID
    exact current_same others files same.character same.stored same.dirty
  · intro characterID
    exact Or.inl (congrFun files characterID)

/-- A step that writes to one slot, in the name of the character that it holds then. -/
theorem orderly_made {data : Stored → Stored}
    (others : ∀ other, other ≠ place → after.pool.slots other = world.pool.slots other)
    (locked : (after.pool.slots place).locked = thread)
    (character : (after.pool.slots place).characterID = characterID)
    (was : (world.pool.slots place).locked = thread ∨ (world.pool.slots place).locked = 0)
    (changed : ∀ other, current size after.pool other =
      if other = characterID then data (current size world.pool other)
      else current size world.pool other)
    (saved : ∀ other, after.pool.files other = world.pool.files other ∨
      after.pool.files other = current size world.pool other) :
    Orderly size thread world after (some ⟨place, characterID, data⟩) := by
  constructor
  · intro made isMade
    cases isMade
    exact ⟨locked, character, was⟩
  · intro index notMade
    have different : index ≠ place := fun here => notMade _ rfl here.symm
    rw [others index different]
    exact ⟨rfl, rfl⟩
  · exact changed
  · exact saved

theorem orderly_write (guarded : Guarded size world) {data : Stored → Stored}
    (unique : Unique size after.pool.slots) (inside : place < size) (someone : characterID ≠ 0)
    (holds : (world.pool.slots place).characterID = characterID)
    (loaded : ∀ thread characterID, fills (world.threads thread) ≠ some (characterID, place))
    (others : ∀ other, other ≠ place → after.pool.slots other = world.pool.slots other)
    (character : (after.pool.slots place).characterID = characterID)
    (locked : (after.pool.slots place).locked = thread)
    (was : (world.pool.slots place).locked = thread ∨ (world.pool.slots place).locked = 0)
    (stored : (after.pool.slots place).stored = data (world.pool.slots place).stored)
    (dirty : (after.pool.slots place).dirty = true) (files : after.pool.files = world.pool.files) :
    Orderly size thread world after (some ⟨place, characterID, data⟩) := by
  apply orderly_made others locked character was
  · intro other
    by_cases same : other = characterID
    · have before : current size world.pool characterID = (world.pool.slots place).stored := by
        rw [current_held guarded.unique inside holds someone]
        split_ifs with isDirty
        · rfl
        · rw [← holds]
          exact (guarded.clean place inside (holds ▸ someone) (Bool.not_eq_true _ ▸ isDirty)
            loaded).symm
      rw [if_pos same, same, before, current_held unique inside character someone, if_pos dirty]
      exact stored
    rw [if_neg same]
    apply current_elsewhere others (congrFun files other)
    · intro _
      rw [holds]
      exact fun isOther => same isOther.symm
    · intro _
      rw [character]
      exact fun isOther => same isOther.symm
  · intro other
    exact Or.inl (congrFun files other)

section Crew

theorem calm_crew (guarded : Guarded size world) (foreign : thread ≠ gameThread)
    (threads : after.threads = update world.threads thread now)
    (online : after.online = world.online) (files : after.pool.files = world.pool.files)
    (notFills : fills (world.threads thread) = none)
    (others : ∀ other, other ≠ place → after.pool.slots other = world.pool.slots other)
    (same : Same (world.pool.slots place) (after.pool.slots place))
    (lock : ((world.pool.slots place).locked = 0 ∨ (world.pool.slots place).locked = thread) ∨
      (after.pool.slots place).locked = (world.pool.slots place).locked)
    (own : Ruled size after.pool.slots thread now) :
    Guarded size after ∧ Orderly size thread world after none := by
  have respects : Respects thread world.pool.slots after.pool.slots := by
    rcases lock with own | kept
    · exact respects_own others own
    · exact respects_same others same kept
  have unique := unique_after guarded.unique others (Or.inl same.character)
  exact ⟨guarded_crew guarded foreign threads online respects unique own
    (clean_same guarded threads others notFills same files), orderly_same others same files⟩

section

variable (guarded : Guarded size world) (foreign : thread ≠ gameThread)
    (notFills : fills (world.threads thread) = none)
include guarded foreign notFills

theorem calm_go (files : pool.files = world.pool.files)
    (others : ∀ other, other ≠ place → pool.slots other = world.pool.slots other)
    (same : Same (world.pool.slots place) (pool.slots place))
    (lock : ((world.pool.slots place).locked = 0 ∨ (world.pool.slots place).locked = thread) ∨
      (pool.slots place).locked = (world.pool.slots place).locked)
    (own : Ruled size pool.slots thread now) :
    Guarded size (world.goOn thread pool now) ∧
      Orderly size thread world (world.goOn thread pool now) none := by
  have threads : (world.goOn thread pool now).threads =
      update world.threads thread now := rfl
  exact calm_crew guarded foreign threads rfl files notFills others same lock own

theorem calm_still (own : Ruled size world.pool.slots thread now) :
    Guarded size (world.goOn thread world.pool now) ∧
      Orderly size thread world (world.goOn thread world.pool now) none :=
  calm_go guarded foreign notFills rfl (fun _ _ => rfl) (same_refl (world.pool.slots 0))
    (Or.inr rfl) own

theorem calm_change {change : Slot → Slot}
    (same : Same (world.pool.slots index) (change (world.pool.slots index)))
    (lock : ((world.pool.slots index).locked = 0 ∨ (world.pool.slots index).locked = thread) ∨
      (change (world.pool.slots index)).locked = (world.pool.slots index).locked)
    (own : Ruled size (world.pool.change index change).slots thread now) :
    Guarded size (world.goOn thread (world.pool.change index change) now) ∧
      Orderly size thread world (world.goOn thread (world.pool.change index change) now) none := by
  have slot : (world.pool.change index change).slots index = change (world.pool.slots index) :=
    change_self
  apply calm_go guarded foreign notFills
  · rfl
  · intro other different
    exact change_other different
  · rw [slot]
    exact same
  · rw [slot]
    exact lock
  · exact own

end

/-- The files once a slot has been written back, if it is to be saved. -/
def flushed (pool : Pool) (index : Nat) (someone : UInt32) : Stored :=
  if (pool.slots index).characterID = someone ∧ someone ≠ 0 ∧ (pool.slots index).dirty = true
  then (pool.slots index).stored else pool.files someone

theorem flushed_zero (pool : Pool) (index : Nat) : flushed pool index 0 = pool.files 0 :=
  if_neg fun both => both.2.1 rfl

theorem flushed_other {someone : UInt32} (different : (pool.slots index).characterID ≠ someone) :
    flushed pool index someone = pool.files someone :=
  if_neg fun both => different both.1

theorem flushed_held (unique : Unique size pool.slots) (inside : index < size)
    (holds : (pool.slots index).characterID = characterID) (nonzero : characterID ≠ 0) :
    flushed pool index characterID = current size pool characterID := by
  rw [current_held unique inside holds nonzero, flushed]
  by_cases dirty : (pool.slots index).dirty = true
  · rw [if_pos ⟨holds, nonzero, dirty⟩, if_pos dirty]
  · rw [if_neg fun both => dirty both.2.2, if_neg dirty]

theorem flushed_saved (unique : Unique size pool.slots) (inside : index < size)
    (someone : UInt32) : flushed pool index someone = pool.files someone ∨
      flushed pool index someone = current size pool someone := by
  by_cases holds : (pool.slots index).characterID = someone
  · by_cases zero : someone = 0
    · rw [zero]
      exact Or.inl (flushed_zero pool index)
    · exact Or.inr (flushed_held unique inside holds zero)
  · exact Or.inl (flushed_other holds)

theorem save_slot_files (pool : Pool) (index : Nat) (someone : UInt32) :
    (savePlayerPoolSlot pool index).files someone = flushed pool index someone := by
  rw [savePlayerPoolSlot, flushed]
  by_cases dirty : (pool.slots index).dirty = true
  · rw [if_pos dirty, Pool.change, savePlayerData]
    by_cases empty : (pool.slots index).characterID = 0
    · rw [if_pos empty, if_neg (fun both => both.2.1 (both.1.symm.trans empty))]
    rw [if_neg empty]
    by_cases same : (pool.slots index).characterID = someone
    · rw [if_pos ⟨same, same ▸ empty, dirty⟩, ← same]
      exact update_self _ _ _
    rw [if_neg (fun both => same both.1)]
    exact update_of_ne (Ne.symm same) _ _
  · rw [if_neg dirty, if_neg (fun both => dirty both.2.2)]

theorem take_slot_files {taken : Pool}
    (took : takeSlot size pool thread = some (index, taken)) (someone : UInt32) :
    taken.files someone = flushed pool index someone := by
  have freed : (pool.slots index).characterID ≠ 0 → (pool.slots index).locked = 0 →
      (pool.slots index).sticky = 0 →
        (freePlayerPoolSlot pool thread index).files someone = flushed pool index someone := by
    intro occupied free unused
    have notUsed : ¬ 0 < (pool.slots index).sticky := by omega
    have notLocked : ¬ ((pool.slots index).locked ≠ 0 ∧ (pool.slots index).locked ≠ thread) :=
      fun locked => locked.1 free
    rw [freePlayerPoolSlot, if_neg occupied, if_neg notUsed, if_neg notLocked]
    exact save_slot_files pool index someone
  rw [takeSlot] at took
  cases empty : findSlot size pool fun slot => slot.characterID == 0 with
  | some found =>
    rw [empty] at took
    cases took
    have here := find_slot_some empty
    have zero : (pool.slots index).characterID = 0 := beq_iff_eq.mp here.2
    rw [flushed, zero, if_neg (fun both => both.2.1 both.1.symm)]
  | none =>
    rw [empty] at took
    have occupied : ∀ other, other < size → (pool.slots other).characterID ≠ 0 := by
      intro other inside
      exact beq_eq_false_iff_ne.mp (find_slot_none empty inside)
    cases clean : findSlot size pool fun slot =>
        slot.locked == 0 && slot.sticky == 0 && !slot.dirty with
    | some found =>
      simp only [clean] at took
      cases took
      have here := find_slot_some clean
      simp only [Bool.and_eq_true, beq_iff_eq] at here
      exact freed (occupied index here.1) here.2.1.1 here.2.1.2
    | none =>
      simp only [clean] at took
      rcases unused : findSlot size pool fun slot => slot.locked == 0 && slot.sticky == 0 with _ | found
      · rw [unused] at took
        cases took
      rw [unused] at took
      cases took
      have here := find_slot_some unused
      simp only [Bool.and_eq_true, beq_iff_eq] at here
      exact freed (occupied index here.1) here.2.1 here.2.2

theorem assign_files {dontWait : Bool} {taken : Pool}
    (assigned : assignPlayerPoolSlot size pool thread characterID dontWait = (.fresh index, taken))
    (someone : UInt32) : taken.files someone = flushed pool index someone := by
  have nonzero : characterID ≠ 0 := by
    apply assign_nonzero assigned
    nofun
  rw [assignPlayerPoolSlot, if_neg nonzero] at assigned
  cases found : getPlayerPoolSlot size pool characterID with
  | some other =>
    simp only [found] at assigned
    split_ifs at assigned
    all_goals cases assigned
  | none =>
    simp only [found] at assigned
    rcases took : takeSlot size pool thread with _ | pair
    · rw [took] at assigned
      cases assigned
    rw [took] at assigned
    cases assigned
    exact take_slot_files took someone

section

variable (guarded : Guarded size world) (foreign : thread ≠ gameThread)
include guarded foreign

/-- A slot goes from the character that it held, if any, to another one. -/
theorem fresh_kept (nonzero : thread ≠ 0) (notFills : fills (world.threads thread) = none)
    (threads : after.threads =
      update world.threads thread (.loading characterID index))
    (online : after.online = world.online) (inside : index < size) (someone : characterID ≠ 0)
    (absent : ∀ other, other < size → (world.pool.slots other).characterID ≠ characterID)
    (free : (world.pool.slots index).locked = 0)
    (fresh : after.pool.slots index = freshSlot characterID thread)
    (others : ∀ other, other ≠ index → after.pool.slots other = world.pool.slots other)
    (files : ∀ someone, after.pool.files someone = flushed world.pool index someone) :
    Guarded size after ∧ Orderly size thread world after (some ⟨index, characterID, id⟩) := by
  have character : (after.pool.slots index).characterID = characterID := by
    rw [fresh]
    rfl
  have locked : (after.pool.slots index).locked = thread := by
    rw [fresh]
    rfl
  have clean : (after.pool.slots index).dirty = false := by
    rw [fresh]
    rfl
  have unique : Unique size after.pool.slots := by
    apply unique_after guarded.unique others
    rw [character]
    exact Or.inr (Or.inr absent)
  have kept : ∀ other, (world.pool.slots index).characterID ≠ other →
      after.pool.files other = world.pool.files other := by
    intro other different
    rw [files, flushed_other different]
  constructor
  · apply guarded_crew guarded foreign threads online (respects_own others (Or.inl free)) unique
    · constructor
      · intro place isLocked
        cases isLocked
        exact ⟨nonzero, locked⟩
      · intro other place filling
        cases filling
        exact ⟨inside, someone, character, clean⟩
      · nofun
      · nofun
      · rfl
      · nofun
      · intro isGame
        exact absurd isGame foreign
    apply clean_step guarded threads others (fun place _ => fills_nothing notFills place)
    · intro place placeInside here occupied
      exact kept _ fun same =>
        here (guarded.unique place placeInside index inside occupied same.symm)
    intro _ _ _ nobody
    have loading := nobody thread characterID
    rw [threads, update_self] at loading
    exact absurd rfl loading
  apply orderly_made others locked character (Or.inr free)
  · intro other
    simp only [id, ite_self]
    by_cases zero : other = 0
    · rw [zero, current_zero, current_zero, files, flushed_zero]
    by_cases isNew : other = characterID
    · rw [isNew, current_held unique inside character someone, clean,
        current_absent absent]
      exact kept characterID (absent index inside)
    by_cases isOld : (world.pool.slots index).characterID = other
    · rw [current_absent, files, flushed_held guarded.unique inside isOld zero]
      intro place placeInside holds
      by_cases here : place = index
      · rw [here, character] at holds
        exact isNew holds.symm
      rw [others place here] at holds
      exact here (guarded.unique place placeInside index inside (holds ▸ zero)
        (holds.trans isOld.symm))
    apply current_elsewhere others (kept other isOld)
    · intro _
      exact isOld
    · intro _
      rw [character]
      exact Ne.symm isNew
  · intro other
    rw [files]
    exact flushed_saved guarded.unique inside other

theorem assign_kept (nonzero : thread ≠ 0) (notFills : fills (world.threads thread) = none)
    (fit : fits size world.pool characterID = true) :
    Guarded size (assign size world thread characterID) ∧
      Orderly size thread world (assign size world thread characterID)
        (reserve size world.pool thread characterID) := by
  rw [assign, reserve]
  cases taken : assignPlayerPoolSlot size world.pool thread characterID true with
  | mk result later =>
    rcases assign_cases taken with ⟨same, ended⟩ | ⟨index, locked, inside, here, isFree, same⟩ |
      ⟨index, shared, inside, here, isLocked, same⟩ |
      ⟨index, fresh, inside, someone, absent, unused, now, others⟩
    · have ends : Guarded size (world.goOn thread world.pool .idle) ∧
          Orderly size thread world (world.goOn thread world.pool .idle) none := by
        apply calm_still guarded foreign notFills
        apply ruled_crew foreign rfl
        rintro _ ⟨⟩
      rw [same]
      rcases ended with refused | waiting
      · rw [refused]
        exact ends
      rw [waiting]
      exact ends
    · rw [same]
      simp only [locked]
      apply calm_change guarded foreign notFills ⟨rfl, rfl, rfl⟩ (Or.inl (Or.inl isFree))
      apply ruled_crew foreign rfl
      intro place isLocked
      cases isLocked
      rw [change_self]
      exact ⟨nonzero, rfl⟩
    · rw [same]
      simp only [shared]
      apply calm_change guarded foreign notFills ⟨rfl, rfl, rfl⟩ (Or.inr rfl)
      exact ruled_loose foreign rfl rfl
    · have isFree : (world.pool.slots index).locked = 0 := by
        rcases unused with empty | unused
        · exact fits_spec fit someone absent empty.2
        · exact unused.1
      rw [fresh] at taken
      simp only [fresh]
      have threads : (world.goOn thread later (.loading characterID index)).threads =
          update world.threads thread (.loading characterID index) := rfl
      exact fresh_kept guarded foreign nonzero notFills threads rfl inside someone absent isFree
        now others (assign_files taken)

theorem filled_kept (before : world.threads thread = .loading characterID index)
    (threads : after.threads = update world.threads thread now)
    (online : after.online = world.online) (files : after.pool.files = world.pool.files)
    (others : ∀ other, other ≠ index → after.pool.slots other = world.pool.slots other)
    (character : (after.pool.slots index).characterID = (world.pool.slots index).characterID)
    (lock : (after.pool.slots index).locked = (world.pool.slots index).locked)
    (still : (after.pool.slots index).dirty = (world.pool.slots index).dirty)
    (loaded : (after.pool.slots index).stored = world.pool.files characterID ∨
      fills now = some (characterID, index)) (own : Ruled size after.pool.slots thread now) :
    Guarded size after ∧ Orderly size thread world after (some ⟨index, characterID, id⟩) := by
  have ruled := guarded.ruled thread
  rw [before] at ruled
  have locked := (ruled.locked index rfl).2
  have here := ruled.filling characterID index rfl
  have dirty := still.trans here.2.2.2
  have unique : Unique size after.pool.slots :=
    unique_after guarded.unique others (Or.inl character)
  have notFills : ∀ place, place ≠ index →
      ∀ someone, fills (world.threads thread) ≠ some (someone, place) := by
    intro place different someone filling
    rw [before] at filling
    cases filling
    exact different rfl
  constructor
  · apply guarded_crew guarded foreign threads online (respects_own others (Or.inr locked)) unique own
    apply clean_step guarded threads others notFills (fun _ _ _ _ => congrFun files _)
    intro _ _ _ nobody
    rw [character, here.2.2.1, files]
    rcases loaded with same | filling
    · exact same
    have notNow := nobody thread characterID
    rw [threads, update_self] at notNow
    exact absurd filling notNow
  apply orderly_made others (lock.trans locked) (character.trans here.2.2.1) (Or.inl locked)
  · intro other
    simp only [id, ite_self]
    by_cases same : other = characterID
    · rw [same, current_held unique here.1 (character.trans here.2.2.1) here.2.1, dirty,
        current_held guarded.unique here.1 here.2.2.1 here.2.1, here.2.2.2, files]
      rfl
    apply current_elsewhere others (congrFun files other)
    · intro _
      rw [here.2.2.1]
      exact Ne.symm same
    · intro _
      rw [character, here.2.2.1]
      exact Ne.symm same
  · intro other
    exact Or.inl (congrFun files other)

theorem dropped_kept (before : world.threads thread = .failed characterID index)
    (threads : after.threads = update world.threads thread (.emptied index))
    (online : after.online = world.online) (files : after.pool.files = world.pool.files)
    (others : ∀ other, other ≠ index → after.pool.slots other = world.pool.slots other)
    (character : (after.pool.slots index).characterID = 0)
    (lock : (after.pool.slots index).locked = (world.pool.slots index).locked)
    (still : (after.pool.slots index).dirty = (world.pool.slots index).dirty)
    (stored : (after.pool.slots index).stored = nothing) :
    Guarded size after ∧ Orderly size thread world after none := by
  have ruled := guarded.ruled thread
  rw [before] at ruled
  have locked := ruled.locked index rfl
  have here := ruled.filling characterID index rfl
  have empty := ruled.failing characterID index rfl
  have unique : Unique size after.pool.slots :=
    unique_after guarded.unique others (Or.inr (Or.inl character))
  constructor
  · apply guarded_crew guarded foreign threads online (respects_own others (Or.inr locked.2)) unique
    · apply ruled_crew foreign rfl
      intro place isLocked
      cases isLocked
      exact ⟨locked.1, lock.trans locked.2⟩
    apply clean_step guarded threads others _ (fun _ _ _ _ => congrFun files _)
    · intro _ occupied
      exact absurd character occupied
    intro place different someone filling
    rw [before] at filling
    cases filling
    exact different rfl
  constructor
  · nofun
  · intro place _
    by_cases isHere : place = index
    · rw [isHere, stored, empty]
      exact ⟨rfl, still⟩
    rw [others place isHere]
    exact ⟨rfl, rfl⟩
  · intro other
    rw [rewritten]
    by_cases same : other = characterID
    · rw [same, current_held guarded.unique here.1 here.2.2.1 here.2.1, here.2.2.2,
        current_absent, files]
      · rfl
      · intro place inside holds
        by_cases isHere : place = index
        · rw [isHere, character] at holds
          exact here.2.1 holds.symm
        rw [others place isHere] at holds
        exact isHere (guarded.unique place inside index here.1 (holds ▸ here.2.1)
          (holds.trans here.2.2.1.symm))
    by_cases zero : other = 0
    · rw [zero, current_zero, current_zero, files]
    apply current_elsewhere others (congrFun files other)
    · intro _
      rw [here.2.2.1]
      exact Ne.symm same
    · intro _
      rw [character]
      exact Ne.symm zero
  · intro other
    exact Or.inl (congrFun files other)

theorem saved_kept (before : world.threads thread = .saving index)
    (threads : after.threads = update world.threads thread (.saved index))
    (online : after.online = world.online)
    (others : ∀ other, other ≠ index → after.pool.slots other = world.pool.slots other)
    (character : (after.pool.slots index).characterID = (world.pool.slots index).characterID)
    (lock : (after.pool.slots index).locked = (world.pool.slots index).locked)
    (stored : (after.pool.slots index).stored = (world.pool.slots index).stored)
    (saved : (after.pool.slots index).dirty = false)
    (files : ∀ someone, after.pool.files someone = flushed world.pool index someone) :
    Guarded size after ∧
      Orderly size thread world after (some ⟨index, (world.pool.slots index).characterID, id⟩) := by
  have ruled := guarded.ruled thread
  rw [before] at ruled
  have locked := ruled.locked index rfl
  have inside := ruled.saving index rfl
  have unique : Unique size after.pool.slots :=
    unique_after guarded.unique others (Or.inl character)
  have notFills : fills (world.threads thread) = none := by
    rw [before]
    rfl
  constructor
  · apply guarded_crew guarded foreign threads online (respects_own others (Or.inr locked.2)) unique
    · apply ruled_crew foreign rfl
      intro place isLocked
      cases isLocked
      exact ⟨locked.1, lock.trans locked.2⟩
    apply clean_step guarded threads others (fun place _ => fills_nothing notFills place)
    · intro place placeInside isHere occupied
      rw [files, flushed_other]
      intro same
      exact isHere (guarded.unique place placeInside index inside occupied same.symm)
    intro _ occupied _ nobody
    have still := fills_before threads (fills_nothing notFills index) nobody
    rw [character] at occupied ⊢
    rw [files, flushed, stored]
    split_ifs with written
    · rfl
    · have clean := Bool.eq_false_iff.mpr fun dirty => written ⟨rfl, occupied, dirty⟩
      exact guarded.clean index inside occupied clean still
  apply orderly_made others (lock.trans locked.2) character (Or.inl locked.2)
  · intro other
    simp only [id, ite_self]
    by_cases zero : other = 0
    · rw [zero, current_zero, current_zero, files, flushed_zero]
    by_cases same : (world.pool.slots index).characterID = other
    · rw [current_held unique inside (character.trans same) zero, files, saved,
        if_neg Bool.false_ne_true]
      exact flushed_held guarded.unique inside same zero
    apply current_elsewhere others
    · rw [files, flushed_other same]
    · intro _
      exact same
    · intro _
      rw [character]
      exact same
  · intro other
    rw [files]
    exact flushed_saved guarded.unique inside other

end

theorem release_at (nonzero : thread ≠ 0) (own : (pool.slots index).locked = thread) :
    releasePlayerPoolSlot pool thread index =
      pool.change index fun slot => { slot with locked := 0 } := by
  rw [releasePlayerPoolSlot, if_neg (own ▸ nonzero), if_neg (not_not.mpr own)]

variable (guarded : Guarded size world) (foreign : thread ≠ gameThread)
include guarded foreign

theorem released_kept (notFills : fills (world.threads thread) = none)
    (isLocked : locks (world.threads thread) = some index) (calm : isCalm now = true)
    (loose : locks now = none) :
    Guarded size (world.goOn thread (releasePlayerPoolSlot world.pool thread index) now) ∧
      Orderly size thread world
        (world.goOn thread (releasePlayerPoolSlot world.pool thread index) now) none := by
  have own := (guarded.ruled thread).locked index isLocked
  rw [release_at own.1 own.2]
  apply calm_change guarded foreign notFills ⟨rfl, rfl, rfl⟩ (Or.inl (Or.inr own.2))
  exact ruled_loose foreign calm loose

theorem checking_kept {isShared blocked : Bool} {delivered : Option Depots} (nonzero : thread ≠ 0)
    (before : world.threads thread = .checking characterID index isShared)
    (next : goNext size world thread blocked delivered (.checking characterID index isShared) =
      some after) : Guarded size after ∧ Orderly size thread world after none := by
  have notFills : fills (world.threads thread) = none := by
    rw [before]
    rfl
  have loosely : ∀ now, isCalm now = true → locks now = none →
      Guarded size (world.goOn thread world.pool now) ∧
        Orderly size thread world (world.goOn thread world.pool now) none :=
    fun _ calm loose => calm_still guarded foreign notFills (ruled_loose foreign calm loose)
  have holding : (world.pool.slots index).locked = thread →
      Guarded size (world.goOn thread world.pool (.holding characterID index)) ∧
        Orderly size thread world (world.goOn thread world.pool (.holding characterID index))
          none := by
    intro own
    apply calm_still guarded foreign notFills
    apply ruled_crew foreign rfl
    intro place isLocked
    cases isLocked
    exact ⟨nonzero, own⟩
  rw [goNext] at next
  split_ifs at next with reader game own own
  · cases next
    exact loosely .idle rfl rfl
  · cases next
    exact holding own
  · cases next
    exact loosely (.retrying characterID) rfl rfl
  · cases next
    exact holding own
  · cases next
    exact loosely (.waiting characterID index) rfl rfl

/-- A thread other than the game thread goes on in the middle of a function. -/
theorem crew_next_kept {blocked : Bool} {delivered : Option Depots} (nonzero : thread ≠ 0)
    (before : world.threads thread = old)
    (meeting : meets size world thread (.next blocked delivered) = true)
    (next : goNext size world thread blocked delivered old = some after) :
    Guarded size after ∧
      Orderly size thread world after (written size world thread (.next blocked delivered)) := by
  have ruled := guarded.ruled thread
  have notGame : ofGame old ≠ true := by
    intro isGame
    rw [before] at ruled
    exact foreign (ruled.game isGame)
  have quiet : fills old = none → fills (world.threads thread) = none := fun still => before ▸ still
  have holds : ∀ place, locks old = some place → locks (world.threads thread) = some place :=
    fun _ isLocked => before ▸ isLocked
  cases old with
  | idle | loading _ _ => cases next
  | failed characterID index =>
    simp only [written, before]
    cases next
    apply dropped_kept guarded foreign before
    · rfl
    · rfl
    · rfl
    · intro other different
      simp only [World.goOn, dropCharacter, change_other different]
    all_goals simp only [World.goOn, dropCharacter, change_self]
  | emptied index =>
    simp only [written, before]
    have own := ruled.locked index (holds index rfl)
    cases next
    apply calm_change guarded foreign (quiet rfl) ⟨rfl, rfl, rfl⟩ (Or.inl (Or.inr own.2))
    exact ruled_loose foreign rfl rfl
  | checking characterID index isShared =>
    simp only [written, before]
    exact checking_kept guarded foreign nonzero before next
  | retrying characterID =>
    simp only [meets, before] at meeting
    simp only [written, before]
    cases next
    exact assign_kept guarded foreign nonzero (quiet rfl) meeting
  | holding characterID index =>
    simp only [written, before]
    have own := ruled.locked index (holds index rfl)
    rw [goNext] at next
    split_ifs at next
    · cases next
      exact released_kept guarded foreign (quiet rfl) (holds index rfl) rfl rfl
    cases next
    apply calm_change guarded foreign (quiet rfl) ⟨rfl, rfl, rfl⟩ (Or.inr rfl)
    apply ruled_crew foreign rfl
    intro place locked
    cases locked
    rw [change_self]
    exact own
  | raised characterID index =>
    simp only [written, before]
    cases next
    exact released_kept guarded foreign (quiet rfl) (holds index rfl) rfl rfl
  | waiting characterID index =>
    simp only [written, before]
    rw [goNext] at next
    split_ifs at next
    · cases next
      apply calm_change guarded foreign (quiet rfl) ⟨rfl, rfl, rfl⟩ (Or.inr rfl)
      exact ruled_loose foreign rfl rfl
    · cases next
      apply calm_still guarded foreign (quiet rfl)
      exact ruled_loose foreign rfl rfl
  | sending characterID index =>
    simp only [written, before]
    have own : Ruled size world.pool.slots thread .idle := ruled_loose foreign rfl rfl
    rw [goNext] at next
    split_ifs at next
    all_goals
      cases next
      exact calm_crew guarded foreign rfl rfl rfl (quiet rfl) (fun _ _ => rfl)
        (same_refl (world.pool.slots index)) (Or.inr rfl) own
  | saving index =>
    simp only [written, before]
    cases next
    apply saved_kept guarded foreign before
    · rfl
    · rfl
    · intro other different
      exact save_slot_other different
    · simp only [World.goOn, save_slot_self]
    · simp only [World.goOn, save_slot_self]
    · simp only [World.goOn, save_slot_self]
    · simp only [World.goOn, save_slot_self]
    · exact save_slot_files world.pool index
  | saved index =>
    simp only [written, before]
    cases next
    exact released_kept guarded foreign (quiet rfl) (holds index rfl) rfl rfl
  | _ => exact absurd rfl notGame

end Crew

end TibiaGame.SlotOwnership
