import TibiaGame.StickyRuns

/-!
# Writes to the slots of the characters

The slots are a cache of the characters' files that is written back later. `current` is what
the next `SavePlayerData` of a character writes. Every write to the data of a slot belongs to
one character, and is to change the current data of that character only.
-/

namespace TibiaGame.SlotWrites

open PlayerPool PlayerSessions

/-- The data that a character has: those of its slot once they differ from the file. -/
def current (size : Nat) (pool : Pool) (characterID : UInt32) : Stored :=
  match getPlayerPoolSlot size pool characterID with
  | none => pool.files characterID
  | some index =>
      if (pool.slots index).dirty then (pool.slots index).stored else pool.files characterID

/-- A write to the data of a slot, and what it means for the character they belong to. -/
structure Write where
  index : Nat
  characterID : UInt32
  data : Stored → Stored

/-- The slot that `assign_player_pool_slot` clears for a character. -/
def reserve (size : Nat) (pool : Pool) (thread : Nat) (characterID : UInt32) : Option Write :=
  match (assignPlayerPoolSlot size pool thread characterID true).1 with
  | .fresh index => some ⟨index, characterID, id⟩
  | _ => none

def mailed (depot : Depots) (stored : Stored) : Stored := { stored with depot := depot }

/-- The mails that the game thread delivers to a slot once it has locked it. -/
def received (size : Nat) (pool : Pool) (characterID : UInt32) : Option Depots → Option Write
  | none => none
  | some depot =>
      match (attachPlayerPoolSlot size pool gameThread characterID).1 with
      | .locked index => some ⟨index, characterID, mailed depot⟩
      | _ => none

def Fate.left : Fate → Inventory
  | .alive inventory => inventory
  | .dead _ => none

/-- The write of a step to the inventory, the depots or the flag `Dirty` of a slot. -/
def written (size : Nat) (world : World) (thread : Nat) (call : Call) : Option Write :=
  match world.threads thread, call with
  | .idle, .login characterID => reserve size world.pool thread characterID
  | .idle, .takeOrder => world.orders.head?.bind (reserve size world.pool thread)
  | .retrying characterID, .next _ _ => reserve size world.pool thread characterID
  | .loading characterID index, .loaded _ => some ⟨index, characterID, id⟩
  | .idle, .mail characterID (some depot) =>
      (world.online characterID).map fun index => ⟨index, characterID, mailed depot⟩
  | .idle, .takeReply delivered =>
      world.replies.head?.bind fun characterID => received size world.pool characterID delivered
  | .joining characterID, .next _ delivered => received size world.pool characterID delivered
  | .idle, .play characterID stored =>
      (world.online characterID).map fun index => ⟨index, characterID, fun _ => stored⟩
  | .idle, .leave characterID fate =>
      (world.online characterID).map fun index =>
        ⟨index, characterID, fun stored => { stored with inventory := Fate.left fate }⟩
  | .dropping characterID index inventory, .next _ _ =>
      some ⟨index, characterID, fun stored => { stored with inventory := inventory }⟩
  | .saving index, .next _ _ => some ⟨index, (world.pool.slots index).characterID, id⟩
  | _, _ => none

def rewritten (write : Option Write) (data : UInt32 → Stored) (characterID : UInt32) : Stored :=
  match write with
  | none => data characterID
  | some made =>
      if characterID = made.characterID then made.data (data characterID) else data characterID

/-- A slot is written to under its lock only, which is the thread's before the step unless it
takes it in the same critical section. Nothing but the write changes what a character has, and
nothing else comes into its file. -/
structure Orderly (size thread : Nat) (world after : World) (write : Option Write) : Prop where
  held : ∀ made, write = some made →
    (after.pool.slots made.index).locked = thread ∧
      (after.pool.slots made.index).characterID = made.characterID ∧
      ((world.pool.slots made.index).locked = thread ∨ (world.pool.slots made.index).locked = 0)
  others : ∀ index, (∀ made, write = some made → made.index ≠ index) →
    (after.pool.slots index).stored = (world.pool.slots index).stored ∧
      (after.pool.slots index).dirty = (world.pool.slots index).dirty
  data : ∀ characterID, current size after.pool characterID =
    rewritten write (current size world.pool) characterID
  saved : ∀ characterID, after.pool.files characterID = world.pool.files characterID ∨
    after.pool.files characterID = current size world.pool characterID

variable {size thread index place : Nat} {pool later : Pool} {characterID : UInt32}

section Data

theorem find_slot_same {test : Slot → Bool}
    (same : ∀ index, index < size → test (later.slots index) = test (pool.slots index)) :
    findSlot size later test = findSlot size pool test := by
  apply List.find?_congr
  intro index inside
  exact same index (List.mem_range.mp inside)

theorem get_slot_same (same : ∀ index, index < size →
      ((later.slots index).characterID = characterID ↔
        (pool.slots index).characterID = characterID)) :
    getPlayerPoolSlot size later characterID = getPlayerPoolSlot size pool characterID := by
  rw [getPlayerPoolSlot, getPlayerPoolSlot]
  split_ifs
  · rfl
  apply find_slot_same
  intro index inside
  rw [Bool.eq_iff_iff, beq_iff_eq, beq_iff_eq]
  exact same index inside

theorem get_slot_held (unique : Unique size pool.slots) (inside : index < size)
    (nonzero : (pool.slots index).characterID ≠ 0) :
    getPlayerPoolSlot size pool (pool.slots index).characterID = some index := by
  rcases found : getPlayerPoolSlot size pool (pool.slots index).characterID with _ | other
  · exact absurd rfl (get_slot_none found nonzero inside)
  have here := get_slot_some found
  rw [unique index inside other here.1 nonzero here.2.1.symm]

theorem current_held (unique : Unique size pool.slots) (inside : index < size)
    (holds : (pool.slots index).characterID = characterID) (nonzero : characterID ≠ 0) :
    current size pool characterID =
      if (pool.slots index).dirty then (pool.slots index).stored else pool.files characterID := by
  have found := get_slot_held unique inside (holds ▸ nonzero)
  rw [holds] at found
  rw [current, found]

theorem current_absent
    (absent : ∀ index, index < size → (pool.slots index).characterID ≠ characterID) :
    current size pool characterID = pool.files characterID := by
  rw [current]
  rcases found : getPlayerPoolSlot size pool characterID with _ | index
  · rfl
  have here := get_slot_some found
  exact absurd here.2.1 (absent index here.1)

variable (others : ∀ other, other ≠ place → later.slots other = pool.slots other)
include others

/-- A change of one slot concerns the characters only that it holds before or after it. -/
theorem current_elsewhere (files : later.files characterID = pool.files characterID)
    (before : place < size → (pool.slots place).characterID ≠ characterID)
    (after : place < size → (later.slots place).characterID ≠ characterID) :
    current size later characterID = current size pool characterID := by
  have same : getPlayerPoolSlot size later characterID = getPlayerPoolSlot size pool characterID := by
    apply get_slot_same
    intro index inside
    by_cases here : index = place
    · rw [here] at inside ⊢
      exact iff_of_false (after inside) (before inside)
    · rw [others index here]
  rw [current, current, same]
  rcases found : getPlayerPoolSlot size pool characterID with _ | index
  · exact files
  have spec := get_slot_some found
  have different : index ≠ place := by
    intro here
    rw [here] at spec
    exact before spec.1 spec.2.1
  simp only [others index different, files]

theorem current_same (files : later.files = pool.files)
    (character : (later.slots place).characterID = (pool.slots place).characterID)
    (stored : (later.slots place).stored = (pool.slots place).stored)
    (dirty : (later.slots place).dirty = (pool.slots place).dirty) :
    current size later characterID = current size pool characterID := by
  by_cases here : (pool.slots place).characterID = characterID
  · have same : getPlayerPoolSlot size later characterID =
        getPlayerPoolSlot size pool characterID := by
      apply get_slot_same
      intro index _
      by_cases isPlace : index = place
      · rw [isPlace, character]
      · rw [others index isPlace]
    rw [current, current, same, files]
    rcases found : getPlayerPoolSlot size pool characterID with _ | index
    · rfl
    by_cases isPlace : index = place
    · simp only [isPlace, dirty, stored]
    · simp only [others index isPlace]
  apply current_elsewhere others (congrFun files characterID)
  · intro _
    exact here
  · intro _
    rw [character]
    exact here

end Data

end TibiaGame.SlotWrites
