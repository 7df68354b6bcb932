import Mathlib.Tactic

/-!
# The player data pool

The slots of `PlayerDataPool` in `player.cpp` and the parts of its functions that run inside
the pool's mutex, or write to a slot outside of it. A slot is locked by the thread whose
number it holds; several references keep it by its `Sticky` counter.
-/

namespace TibiaGame.PlayerPool

/-- The streams of a character; the size of the inventory is its length. -/
structure Stored where
  inventory : Option (List UInt8)
  depot : Nat → Option (List UInt8)

def nothing : Stored := ⟨none, fun _ => none⟩

structure Slot where
  characterID : UInt32
  locked : Nat
  sticky : Int
  dirty : Bool
  lastLogoutTime : Int
  stored : Stored

/-- A slot after `memset`. -/
def zeroed : Slot := ⟨0, 0, 0, false, 0, nothing⟩

structure Pool where
  slots : Nat → Slot
  files : UInt32 → Stored

def Pool.change (pool : Pool) (index : Nat) (change : Slot → Slot) : Pool :=
  { pool with slots := Function.update pool.slots index (change (pool.slots index)) }

def savePlayerData (pool : Pool) (index : Nat) : Pool :=
  let slot := pool.slots index
  if slot.characterID = 0 then pool
  else { pool with files := Function.update pool.files slot.characterID slot.stored }

def savePlayerPoolSlot (pool : Pool) (index : Nat) : Pool :=
  if (pool.slots index).dirty then
    (savePlayerData pool index).change index fun slot => { slot with dirty := false }
  else pool

def freePlayerPoolSlot (pool : Pool) (thread index : Nat) : Pool :=
  let slot := pool.slots index
  if slot.characterID = 0 then pool
  else if 0 < slot.sticky then pool
  else if slot.locked ≠ 0 ∧ slot.locked ≠ thread then pool
  else
    (savePlayerPoolSlot pool index).change index fun slot =>
      { slot with stored := nothing, characterID := 0 }

def findSlot (size : Nat) (pool : Pool) (test : Slot → Bool) : Option Nat :=
  (List.range size).find? fun index => test (pool.slots index)

def getPlayerPoolSlot (size : Nat) (pool : Pool) (characterID : UInt32) : Option Nat :=
  if characterID = 0 then none else findSlot size pool fun slot => slot.characterID == characterID

/-- A slot for another character: an empty one, else one that is not used and need not be
saved, else one that is not used. -/
def takeSlot (size : Nat) (pool : Pool) (thread : Nat) : Option (Nat × Pool) :=
  match findSlot size pool fun slot => slot.characterID == 0 with
  | some index => some (index, pool)
  | none =>
      match findSlot size pool fun slot => slot.locked == 0 && slot.sticky == 0 && !slot.dirty with
      | some index => some (index, freePlayerPoolSlot pool thread index)
      | none =>
          (findSlot size pool fun slot => slot.locked == 0 && slot.sticky == 0).map fun index =>
            (index, freePlayerPoolSlot pool thread index)

/-- How the critical section of `assign_player_pool_slot` ends. -/
inductive Assigned where
  | refused
  | waiting
  | locked (index : Nat)
  | shared (index : Nat)
  | fresh (index : Nat)

def assignPlayerPoolSlot (size : Nat) (pool : Pool) (thread : Nat) (characterID : UInt32)
    (dontWait : Bool) : Assigned × Pool :=
  if characterID = 0 then (.refused, pool)
  else
    match getPlayerPoolSlot size pool characterID with
    | some index =>
        if (pool.slots index).locked = 0 then
          (.locked index, pool.change index fun slot => { slot with locked := thread })
        else if dontWait then
          (.shared index, pool.change index fun slot => { slot with sticky := slot.sticky + 1 })
        else (.waiting, pool)
    | none =>
        match takeSlot size pool thread with
        | none => (.refused, pool)
        | some (index, pool) =>
            (.fresh index, pool.change index fun _ =>
              { zeroed with characterID := characterID, locked := thread })

/-- How the critical section of `attach_player_pool_slot` ends. -/
inductive Attached where
  | missing
  | busy
  | locked (index : Nat)

def attachPlayerPoolSlot (size : Nat) (pool : Pool) (thread : Nat) (characterID : UInt32) :
    Attached × Pool :=
  match getPlayerPoolSlot size pool characterID with
  | none => (.missing, pool)
  | some index =>
      if (pool.slots index).locked = 0 then
        (.locked index, pool.change index fun slot => { slot with locked := thread })
      else (.busy, pool)

/-- The other `attach_player_pool_slot`, for a slot. -/
def attachSlot (pool : Pool) (thread index : Nat) : Pool :=
  if (pool.slots index).locked = 0 then pool.change index fun slot => { slot with locked := thread }
  else pool

def increasePlayerPoolSlotSticky (pool : Pool) (index : Nat) : Pool :=
  pool.change index fun slot => { slot with sticky := slot.sticky + 1 }

def decreasePlayerPoolSlotSticky (pool : Pool) (index : Nat) : Pool :=
  pool.change index fun slot => { slot with sticky := slot.sticky - 1 }

def releasePlayerPoolSlot (pool : Pool) (thread index : Nat) : Pool :=
  if (pool.slots index).locked = 0 then pool
  else if (pool.slots index).locked ≠ thread then pool
  else pool.change index fun slot => { slot with locked := 0 }

def dropCharacter (pool : Pool) (index : Nat) : Pool :=
  pool.change index fun slot => { slot with characterID := 0, stored := nothing }

def dropLock (pool : Pool) (index : Nat) : Pool :=
  pool.change index fun slot => { slot with locked := 0 }

def Unique (size : Nat) (slots : Nat → Slot) : Prop :=
  ∀ left, left < size → ∀ right, right < size → (slots left).characterID ≠ 0 →
    (slots left).characterID = (slots right).characterID → left = right

variable {size thread index : Nat} {pool after : Pool} {characterID : UInt32}

theorem change_self {change : Slot → Slot} :
    (pool.change index change).slots index = change (pool.slots index) :=
  Function.update_self _ _ _

theorem change_other {change : Slot → Slot} {other : Nat} (different : other ≠ index) :
    (pool.change index change).slots other = pool.slots other :=
  Function.update_of_ne different _ _

theorem save_slots (pool : Pool) (index : Nat) : (savePlayerData pool index).slots = pool.slots := by
  rw [savePlayerData]
  split_ifs
  · rfl
  · rfl

theorem save_slot_self : (savePlayerPoolSlot pool index).slots index =
    { pool.slots index with dirty := false } := by
  rw [savePlayerPoolSlot]
  split_ifs with dirty
  · rw [change_self, save_slots]
  · rw [Bool.not_eq_true] at dirty
    rw [← dirty]

theorem save_slot_other {other : Nat} (different : other ≠ index) :
    (savePlayerPoolSlot pool index).slots other = pool.slots other := by
  rw [savePlayerPoolSlot]
  split_ifs
  · rw [change_other different, save_slots]
  · rfl

theorem free_slot_other {other : Nat} (different : other ≠ index) :
    (freePlayerPoolSlot pool thread index).slots other = pool.slots other := by
  rw [freePlayerPoolSlot]
  split_ifs
  · rfl
  · rfl
  · rfl
  · rw [change_other different, save_slot_other different]

theorem find_slot_some {test : Slot → Bool} (found : findSlot size pool test = some index) :
    index < size ∧ test (pool.slots index) = true := by
  have passed := List.find?_some found
  exact ⟨List.mem_range.mp (List.mem_of_find?_eq_some found), passed⟩

theorem find_slot_none {test : Slot → Bool} (missing : findSlot size pool test = none)
    (within : index < size) : test (pool.slots index) = false := by
  have failed := List.find?_eq_none.mp missing index (List.mem_range.mpr within)
  exact Bool.eq_false_iff.mpr failed

theorem get_slot_some (found : getPlayerPoolSlot size pool characterID = some index) :
    index < size ∧ (pool.slots index).characterID = characterID ∧ characterID ≠ 0 := by
  rw [getPlayerPoolSlot] at found
  split_ifs at found with zero
  have here := find_slot_some found
  exact ⟨here.1, beq_iff_eq.mp here.2, zero⟩

theorem get_slot_none (missing : getPlayerPoolSlot size pool characterID = none)
    (nonzero : characterID ≠ 0) (within : index < size) :
    (pool.slots index).characterID ≠ characterID := by
  rw [getPlayerPoolSlot, if_neg nonzero] at missing
  have failed := find_slot_none missing within
  exact beq_eq_false_iff_ne.mp failed

/-- The slot that is taken was empty, or neither locked nor in use; no other one changes. -/
theorem take_slot_spec (taken : takeSlot size pool thread = some (index, after)) :
    index < size ∧
      ((pool.slots index).characterID = 0 ∧
          findSlot size pool (fun slot => slot.characterID == 0) = some index ∨
        (pool.slots index).locked = 0 ∧ (pool.slots index).sticky = 0) ∧
      ∀ other, other ≠ index → after.slots other = pool.slots other := by
  rw [takeSlot] at taken
  cases empty : findSlot size pool fun slot => slot.characterID == 0 with
  | some found =>
    rw [empty] at taken
    cases taken
    have here := find_slot_some empty
    exact ⟨here.1, Or.inl ⟨beq_iff_eq.mp here.2, rfl⟩, fun _ _ => rfl⟩
  | none =>
    rw [empty] at taken
    cases clean : findSlot size pool fun slot =>
        slot.locked == 0 && slot.sticky == 0 && !slot.dirty with
    | some found =>
      simp only [clean] at taken
      cases taken
      have here := find_slot_some clean
      simp only [Bool.and_eq_true, beq_iff_eq] at here
      exact ⟨here.1, Or.inr here.2.1, fun _ different => free_slot_other different⟩
    | none =>
      simp only [clean] at taken
      rcases unused : findSlot size pool fun slot => slot.locked == 0 && slot.sticky == 0 with _ | found
      · rw [unused] at taken
        cases taken
      rw [unused] at taken
      cases taken
      have here := find_slot_some unused
      simp only [Bool.and_eq_true, beq_iff_eq] at here
      exact ⟨here.1, Or.inr here.2, fun _ different => free_slot_other different⟩

/-- What a slot is after it has been taken for another character. -/
def freshSlot (characterID : UInt32) (thread : Nat) : Slot :=
  { zeroed with characterID := characterID, locked := thread }

/-- Everything that the critical section of `assign_player_pool_slot` can do. -/
theorem assign_cases {dontWait : Bool} {result : Assigned}
    (assigned : assignPlayerPoolSlot size pool thread characterID dontWait = (result, after)) :
    after = pool ∧ (result = .refused ∨ result = .waiting) ∨
      (∃ index, result = .locked index ∧ index < size ∧
        (pool.slots index).characterID = characterID ∧ (pool.slots index).locked = 0 ∧
        after = pool.change index fun slot => { slot with locked := thread }) ∨
      (∃ index, result = .shared index ∧ index < size ∧
        (pool.slots index).characterID = characterID ∧ (pool.slots index).locked ≠ 0 ∧
        after = pool.change index fun slot => { slot with sticky := slot.sticky + 1 }) ∨
      ∃ index, result = .fresh index ∧ index < size ∧ characterID ≠ 0 ∧
        (∀ other, other < size → (pool.slots other).characterID ≠ characterID) ∧
        ((pool.slots index).characterID = 0 ∧
            findSlot size pool (fun slot => slot.characterID == 0) = some index ∨
          (pool.slots index).locked = 0 ∧ (pool.slots index).sticky = 0) ∧
        after.slots index = freshSlot characterID thread ∧
        ∀ other, other ≠ index → after.slots other = pool.slots other := by
  rw [assignPlayerPoolSlot] at assigned
  by_cases zero : characterID = 0
  · rw [if_pos zero] at assigned
    cases assigned
    exact Or.inl ⟨rfl, Or.inl rfl⟩
  rw [if_neg zero] at assigned
  cases found : getPlayerPoolSlot size pool characterID with
  | some index =>
    have here := get_slot_some found
    simp only [found] at assigned
    split_ifs at assigned with free shares
    · cases assigned
      exact Or.inr (Or.inl ⟨index, rfl, here.1, here.2.1, free, rfl⟩)
    · cases assigned
      exact Or.inr (Or.inr (Or.inl ⟨index, rfl, here.1, here.2.1, free, rfl⟩))
    · cases assigned
      exact Or.inl ⟨rfl, Or.inr rfl⟩
  | none =>
    simp only [found] at assigned
    rcases taken : takeSlot size pool thread with _ | pair
    · rw [taken] at assigned
      cases assigned
      exact Or.inl ⟨rfl, Or.inl rfl⟩
    rw [taken] at assigned
    cases assigned
    have spec := take_slot_spec taken
    refine Or.inr (Or.inr (Or.inr ⟨pair.1, rfl, spec.1, zero, ?_, spec.2.1, change_self, ?_⟩))
    · intro other within
      exact get_slot_none found zero within
    · intro other different
      rw [change_other different]
      exact spec.2.2 other different

theorem attach_cases {result : Attached}
    (attached : attachPlayerPoolSlot size pool thread characterID = (result, after)) :
    after = pool ∧
        (result = .missing ∧ getPlayerPoolSlot size pool characterID = none ∨
          result = .busy ∧ ∃ index, getPlayerPoolSlot size pool characterID = some index ∧
            (pool.slots index).locked ≠ 0) ∨
      ∃ index, result = .locked index ∧ index < size ∧
        (pool.slots index).characterID = characterID ∧ (pool.slots index).locked = 0 ∧
        after = pool.change index fun slot => { slot with locked := thread } := by
  rw [attachPlayerPoolSlot] at attached
  rcases found : getPlayerPoolSlot size pool characterID with _ | index
  · simp only [found] at attached
    cases attached
    exact Or.inl ⟨rfl, Or.inl ⟨rfl, rfl⟩⟩
  have here := get_slot_some found
  simp only [found] at attached
  split_ifs at attached with free
  · cases attached
    exact Or.inr ⟨index, rfl, here.1, here.2.1, free, rfl⟩
  · cases attached
    exact Or.inl ⟨rfl, Or.inr ⟨rfl, index, rfl, free⟩⟩

/-- A step that changes one slot brings in no character but one that no slot held. -/
theorem unique_after {before later : Nat → Slot} {place : Nat} (unique : Unique size before)
    (others : ∀ other, other ≠ place → later other = before other)
    (characters : (later place).characterID = (before place).characterID ∨
      (later place).characterID = 0 ∨
      ∀ other, other < size → (before other).characterID ≠ (later place).characterID) :
    Unique size later := by
  intro left leftWithin right rightWithin occupied same
  by_cases leftHere : left = place
  · by_cases rightHere : right = place
    · rw [leftHere, rightHere]
    rw [others right rightHere] at same
    rw [leftHere] at occupied same
    rcases characters with kept | empty | absent
    · rw [kept, ← leftHere] at occupied same
      exact unique left leftWithin right rightWithin occupied same
    · exact absurd empty occupied
    · exact absurd same.symm (absent right rightWithin)
  rw [others left leftHere] at occupied same
  by_cases rightHere : right = place
  · rw [rightHere] at same
    rcases characters with kept | empty | absent
    · rw [kept, ← rightHere] at same
      exact unique left leftWithin right rightWithin occupied same
    · rw [empty] at same
      exact absurd same occupied
    · exact absurd same (absent left leftWithin)
  rw [others right rightHere] at same
  exact unique left leftWithin right rightWithin occupied same

end TibiaGame.PlayerPool
