import TibiaGame.PlayerSessions

/-!
# References to a slot

The `Sticky` counter of a slot counts the logins of its character that have not ended and the
replies that have not been processed. Both are read off the threads, their queues and the
players in the game; what a step may do to a slot is stated once for all kinds of steps.
-/

namespace TibiaGame.StickyBalance

open PlayerPool PlayerSessions Function

/-- The login that a thread is carrying on, once it has been counted. -/
def openLogin (thread : Nat) : Local → Option UInt32
  | .checking characterID _ true => if thread = readerThread then none else some characterID
  | .raised characterID _ => if thread = readerThread then none else some characterID
  | .sending characterID _ => if thread = readerThread then none else some characterID
  | .waiting characterID _ => some characterID
  | .joining characterID => some characterID
  | .refusing characterID => some characterID
  | .lowering characterID _ => some characterID
  | _ => none

def openReply (thread : Nat) : Local → Option UInt32
  | .raised characterID _ => if thread = readerThread then some characterID else none
  | .sending characterID _ => if thread = readerThread then some characterID else none
  | .answering characterID _ => some characterID
  | _ => none

def amount (carried : Option UInt32) (characterID : UInt32) : Nat :=
  if carried = some characterID then 1 else 0

def inGame (world : World) (characterID : UInt32) : Nat :=
  if (world.online characterID).isSome then 1 else 0

/-- The logins of a character that no logout has followed yet. -/
def loginsOpen (count : Nat) (world : World) (characterID : UInt32) : Nat :=
  (∑ thread ∈ Finset.range count, amount (openLogin thread (world.threads thread)) characterID) +
    world.logins.count characterID + inGame world characterID

def repliesOpen (count : Nat) (world : World) (characterID : UInt32) : Nat :=
  (∑ thread ∈ Finset.range count, amount (openReply thread (world.threads thread)) characterID) +
    world.replies.count characterID

def refs (count : Nat) (world : World) (characterID : UInt32) : Nat :=
  loginsOpen count world characterID + repliesOpen count world characterID

/-- The slot that a thread has locked, apart from those of the players in the game. -/
def locks : Local → Option Nat
  | .loading _ index => some index
  | .failed _ index => some index
  | .emptied index => some index
  | .checking _ index false => some index
  | .holding _ index => some index
  | .raised _ index => some index
  | .releasing _ index _ => some index
  | .answering _ index => some index
  | .answered index => some index
  | .saving index => some index
  | .saved index => some index
  | _ => none

/-- The slot that a thread works on, which holds the character. -/
def works : Local → Option (UInt32 × Nat)
  | .loading characterID index => some (characterID, index)
  | .failed characterID index => some (characterID, index)
  | .checking characterID index _ => some (characterID, index)
  | .holding characterID index => some (characterID, index)
  | .raised characterID index => some (characterID, index)
  | .waiting characterID index => some (characterID, index)
  | .sending characterID index => some (characterID, index)
  | .lowering characterID index => some (characterID, index)
  | .leaving characterID index _ => some (characterID, index)
  | .answering characterID index => some (characterID, index)
  | _ => none

def ofGame : Local → Bool
  | .joining _ => true
  | .refusing _ => true
  | .lowering _ _ => true
  | .leaving _ _ _ => true
  | .releasing _ _ _ => true
  | .dropping _ _ _ => true
  | .answering _ _ => true
  | .answered _ => true
  | _ => false

structure Settled (size : Nat) (slots : Nat → Slot) (thread : Nat) (now : Local) : Prop where
  locked : ∀ index, locks now = some index → thread ≠ 0 ∧ (slots index).locked = thread
  working : ∀ characterID index, works now = some (characterID, index) →
    index < size ∧ characterID ≠ 0 ∧ (slots index).characterID = characterID
  shared : ∀ characterID index, now = .checking characterID index true →
    thread ≠ 0 ∧ thread ≠ readerThread ∧ (slots index).locked ≠ thread
  owner : thread ≠ 0 → thread ≠ gameThread → ∀ index, (slots index).locked = thread →
    locks now = some index
  game : ofGame now = true → thread = gameThread
  crew : thread = gameThread → now = .idle ∨ ofGame now = true

structure Balanced (size count : Nat) (world : World) : Prop where
  unique : Unique size world.pool.slots
  settled : ∀ thread, Settled size world.pool.slots thread (world.threads thread)
  playing : ∀ characterID index, world.online characterID = some index →
    index < size ∧ characterID ≠ 0 ∧ (world.pool.slots index).characterID = characterID ∧
      (world.pool.slots index).locked = gameThread
  apart : ∀ index, locks (world.threads gameThread) = some index →
    ∀ characterID, world.online characterID ≠ some index
  joining : ∀ characterID, world.threads gameThread = .joining characterID →
    world.online characterID = none
  leaving : ∀ characterID index late,
    world.threads gameThread = .leaving characterID index late →
      world.online characterID = some index
  beyond : ∀ thread, count ≤ thread → world.threads thread = .idle
  counted : ∀ index, index < size → (world.pool.slots index).characterID ≠ 0 →
    (world.pool.slots index).sticky = refs count world (world.pool.slots index).characterID
  present : ∀ characterID, refs count world characterID ≠ 0 →
    characterID ≠ 0 ∧ ∃ index, index < size ∧ (world.pool.slots index).characterID = characterID

variable {size count thread index : Nat} {world after : World} {characterID : UInt32}

/-- What a step of a thread may do to a slot, with the change of its counter. -/
inductive Effect (size thread : Nat) (slots : Nat → Slot) (old new : Slot) : Int → Prop
  | quiet (character : new.characterID = old.characterID) (lock : new.locked = old.locked)
      (sticky : new.sticky = old.sticky) : Effect size thread slots old new 0
  | locks (free : old.locked = 0) (lock : new.locked = thread)
      (character : new.characterID = old.characterID) (sticky : new.sticky = old.sticky) :
      Effect size thread slots old new 0
  | releases (own : old.locked = thread) (freed : new.locked = 0)
      (character : new.characterID = old.characterID) (sticky : new.sticky = old.sticky) :
      Effect size thread slots old new 0
  | counts (change : Int) (occupied : old.characterID ≠ 0)
      (character : new.characterID = old.characterID)
      (lock : new.locked = old.locked) (sticky : new.sticky = old.sticky + change) :
      Effect size thread slots old new change
  | assigns (free : old.locked = 0) (unused : old.characterID = 0 ∨ old.sticky = 0)
      (absent : ∀ other, other < size → (slots other).characterID ≠ new.characterID)
      (lock : new.locked = thread) (sticky : new.sticky = 0) : Effect size thread slots old new 0
  | drops (own : old.locked = thread) (unused : old.sticky = 0) (dropped : new.characterID = 0)
      (lock : new.locked = old.locked) : Effect size thread slots old new 0

structure Affects (size thread : Nat) (before after : Nat → Slot) (place : Nat) (change : Int) :
    Prop where
  within : change ≠ 0 → place < size
  effect : Effect size thread before (before place) (after place) change
  others : ∀ other, other ≠ place → after other = before other

theorem sum_moved (carries : Nat → Local → Nat) (threads : Nat → Local) (now : Local)
    (within : thread < count) :
    (∑ other ∈ Finset.range count, carries other (update threads thread now other)) +
        carries thread (threads thread) =
      (∑ other ∈ Finset.range count, carries other (threads other)) + carries thread now := by
  have member : thread ∈ Finset.range count := Finset.mem_range.mpr within
  rw [← Finset.add_sum_erase _ _ member,
    ← Finset.add_sum_erase _ (fun other => carries other (threads other)) member,
    update_self]
  have rest : ∀ other ∈ (Finset.range count).erase thread,
      carries other (update threads thread now other) = carries other (threads other) := by
    intro other inRest
    rw [update_of_ne (Finset.ne_of_mem_erase inRest)]
  rw [Finset.sum_congr rfl rest]
  omega

theorem amount_le_sum (carries : Nat → Option UInt32) (within : thread < count)
    (carried : carries thread = some characterID) :
    (∑ other ∈ Finset.range count, amount (carries other) characterID) ≠ 0 := by
  have one : amount (carries thread) characterID = 1 := if_pos carried
  have least := Finset.single_le_sum (f := fun other => amount (carries other) characterID)
    (fun _ _ => Nat.zero_le _) (Finset.mem_range.mpr within)
  omega

theorem refs_of_login (within : thread < count)
    (carried : openLogin thread (world.threads thread) = some characterID) :
    refs count world characterID ≠ 0 := by
  have some_login := amount_le_sum (fun other => openLogin other (world.threads other)) within carried
  rw [refs, loginsOpen]
  omega

theorem refs_of_reply (within : thread < count)
    (carried : openReply thread (world.threads thread) = some characterID) :
    refs count world characterID ≠ 0 := by
  have some_reply := amount_le_sum (fun other => openReply other (world.threads other)) within carried
  rw [refs, repliesOpen]
  omega

theorem refs_of_online (playing : world.online characterID = some index) :
    refs count world characterID ≠ 0 := by
  rw [refs, loginsOpen, inGame, playing, Option.isSome_some, if_pos rfl]
  omega

section Effects

variable {slots later : Nat → Slot} {old new : Slot} {change : Int} {place : Nat}

section

variable (effect : Effect size thread slots old new change)
include effect

theorem effect_locked (locked : old.locked ≠ 0) (foreign : old.locked ≠ thread) :
    new.locked = old.locked := by
  cases effect with
  | quiet _ lock _ => exact lock
  | locks free _ _ _ => exact absurd free locked
  | releases own _ _ _ => exact absurd own foreign
  | counts _ _ _ lock _ => exact lock
  | assigns free _ _ _ _ => exact absurd free locked
  | drops own _ _ _ => exact absurd own foreign

theorem effect_new_lock : new.locked = old.locked ∨ new.locked = thread ∨ new.locked = 0 := by
  cases effect with
  | quiet _ lock _ => exact Or.inl lock
  | locks _ lock _ _ => exact Or.inr (Or.inl lock)
  | releases _ freed _ _ => exact Or.inr (Or.inr freed)
  | counts _ _ _ lock _ => exact Or.inl lock
  | assigns _ _ _ lock _ => exact Or.inr (Or.inl lock)
  | drops _ _ _ lock => exact Or.inl lock

/-- A slot that someone refers to or has locked keeps its character. -/
theorem effect_character (occupied : old.characterID ≠ 0)
    (held : old.sticky ≠ 0 ∨ old.locked ≠ 0 ∧ old.locked ≠ thread) :
    new.characterID = old.characterID := by
  cases effect with
  | quiet character _ _ => exact character
  | locks _ _ character _ => exact character
  | releases _ _ character _ => exact character
  | counts _ _ character _ _ => exact character
  | assigns free unused _ _ _ =>
    rcases unused with empty | unused
    · exact absurd empty occupied
    rcases held with referred | locked
    · exact absurd unused referred
    · exact absurd free locked.1
  | drops own unused _ _ =>
    rcases held with referred | locked
    · exact absurd unused referred
    · exact absurd own locked.2

end

variable (affects : Affects size thread slots later place change)
include affects

theorem affects_locked (locked : (slots index).locked ≠ 0) (foreign : (slots index).locked ≠ thread) :
    (later index).locked = (slots index).locked := by
  by_cases here : index = place
  · rw [here] at locked foreign ⊢
    exact effect_locked affects.effect locked foreign
  · rw [affects.others index here]

theorem affects_character (occupied : (slots index).characterID ≠ 0)
    (held : (slots index).sticky ≠ 0 ∨ (slots index).locked ≠ 0 ∧ (slots index).locked ≠ thread) :
    (later index).characterID = (slots index).characterID := by
  by_cases here : index = place
  · rw [here] at occupied held ⊢
    exact effect_character affects.effect occupied held
  · rw [affects.others index here]

theorem affects_unique (unique : Unique size slots) : Unique size later := by
  apply unique_after unique affects.others
  cases affects.effect with
  | quiet character _ _ => exact Or.inl character
  | locks _ _ character _ => exact Or.inl character
  | releases _ _ character _ => exact Or.inl character
  | counts _ _ character _ _ => exact Or.inl character
  | assigns _ _ absent _ _ => exact Or.inr (Or.inr absent)
  | drops _ _ dropped _ => exact Or.inr (Or.inl dropped)

end Effects

/-- What a thread works on is referred to, or locked by the thread. -/
theorem working_covered (balanced : Balanced size count world) (other : Nat)
    (working : works (world.threads other) = some (characterID, index)) :
    (world.pool.slots index).sticky ≠ 0 ∨
      (world.pool.slots index).locked ≠ 0 ∧ (world.pool.slots index).locked = other := by
  have settled := balanced.settled other
  have here := settled.working characterID index working
  have within : other < count := by
    by_contra beyond
    rw [balanced.beyond other (not_lt.mp beyond)] at working
    cases working
  have referred : refs count world characterID ≠ 0 →
      (world.pool.slots index).sticky ≠ 0 := by
    intro some_refs
    rw [balanced.counted index here.1 (here.2.2 ▸ here.2.1), here.2.2]
    exact_mod_cast some_refs
  have byLogin := fun carried => referred (refs_of_login within carried)
  have byReply := fun carried => referred (refs_of_reply within carried)
  have byLock : locks (world.threads other) = some index →
      (world.pool.slots index).locked ≠ 0 ∧ (world.pool.slots index).locked = other := by
    intro locked
    have own := settled.locked index locked
    exact ⟨own.2 ▸ own.1, own.2⟩
  have shared := settled.shared characterID index
  have game := settled.game
  have leaving := balanced.leaving characterID index
  have playing := balanced.playing characterID index
  cases now : world.threads other with
  | loading _ _ | failed _ _ | holding _ _ =>
    rw [now] at working byLock
    cases working
    exact Or.inr (byLock rfl)
  | checking _ _ isShared =>
    rw [now] at working byLock byLogin shared
    cases working
    cases isShared with
    | false => exact Or.inr (byLock rfl)
    | true => exact Or.inl (byLogin (if_neg (shared rfl).2.1))
  | raised _ _ =>
    rw [now] at working byLock
    cases working
    exact Or.inr (byLock rfl)
  | waiting _ _ | lowering _ _ =>
    rw [now] at working byLogin
    cases working
    exact Or.inl (byLogin rfl)
  | sending _ _ =>
    rw [now] at working byLogin byReply
    cases working
    by_cases reader : other = readerThread
    · exact Or.inl (byReply (if_pos reader))
    · exact Or.inl (byLogin (if_neg reader))
  | answering _ _ =>
    rw [now] at working byReply
    cases working
    exact Or.inl (byReply rfl)
  | leaving _ _ late =>
    rw [now] at working game
    cases working
    have isGame := game rfl
    rw [isGame] at now
    have online := leaving late now
    have lock := (playing online).2.2.2
    rw [isGame, lock]
    exact Or.inr ⟨by decide, rfl⟩
  | _ =>
    rw [now] at working
    cases working

theorem settled_other (balanced : Balanced size count world) {later : Nat → Slot} {place : Nat}
    {change : Int} (affects : Affects size thread world.pool.slots later place change) {other : Nat}
    (different : other ≠ thread) : Settled size later other (world.threads other) := by
  have settled := balanced.settled other
  constructor
  · intro index isLocked
    have own := settled.locked index isLocked
    refine ⟨own.1, ?_⟩
    rw [affects_locked affects (own.2 ▸ own.1) (own.2 ▸ different)]
    exact own.2
  · intro characterID index working
    have here := settled.working characterID index working
    have occupied : (world.pool.slots index).characterID ≠ 0 := by
      rw [here.2.2]
      exact here.2.1
    refine ⟨here.1, here.2.1, ?_⟩
    rw [affects_character affects occupied]
    · exact here.2.2
    · rcases working_covered balanced other working with referred | locked
      · exact Or.inl referred
      · exact Or.inr ⟨locked.1, locked.2 ▸ different⟩
  · intro characterID index isShared
    have apart := settled.shared characterID index isShared
    refine ⟨apart.1, apart.2.1, ?_⟩
    by_cases here : index = place
    · rw [here] at apart ⊢
      rcases effect_new_lock affects.effect with same | own | freed
      · rw [same]
        exact apart.2.2
      · rw [own]
        exact different.symm
      · rw [freed]
        exact apart.1.symm
    rw [affects.others index here]
    exact apart.2.2
  · intro nonzero foreign index own
    apply settled.owner nonzero foreign index
    by_cases here : index = place
    · rw [here] at own ⊢
      rcases effect_new_lock affects.effect with same | moved | freed
      · exact same.symm.trans own
      · exact absurd (own.symm.trans moved) different
      · exact absurd (own.symm.trans freed) nonzero
    rw [affects.others index here] at own
    exact own
  · exact settled.game
  · exact settled.crew

theorem owner_after {slots later : Nat → Slot} {old now : Local} {place : Nat} {change : Int}
    (settled : Settled size slots thread old)
    (affects : Affects size thread slots later place change)
    (alone : ∀ other, locks old = some other → other = place)
    (keeps : (later place).locked = thread → locks now = some place) :
    thread ≠ 0 → thread ≠ gameThread → ∀ index, (later index).locked = thread →
      locks now = some index := by
  intro nonzero foreign index own
  by_cases here : index = place
  · rw [here] at own ⊢
    exact keeps own
  rw [affects.others index here] at own
  exact absurd (alone index (settled.owner nonzero foreign index own)) here

section

variable (balanced : Balanced size count world)
include balanced

theorem counted_after {place : Nat} {change : Int}
    (affects : Affects size thread world.pool.slots after.pool.slots place change)
    (refsAfter : ∀ characterID, (refs count after characterID : Int) =
      refs count world characterID +
        if characterID = (world.pool.slots place).characterID then change else 0)
    (within : index < size) (occupied : (after.pool.slots index).characterID ≠ 0) :
    (after.pool.slots index).sticky = refs count after (after.pool.slots index).characterID := by
  rw [refsAfter]
  by_cases here : index = place
  · rw [here] at within occupied ⊢
    cases affects.effect with
    | quiet character _ sticky =>
      rw [character] at occupied ⊢
      rw [sticky, balanced.counted place within occupied, if_pos rfl, add_zero]
    | locks _ _ character sticky =>
      rw [character] at occupied ⊢
      rw [sticky, balanced.counted place within occupied, if_pos rfl, add_zero]
    | releases _ _ character sticky =>
      rw [character] at occupied ⊢
      rw [sticky, balanced.counted place within occupied, if_pos rfl, add_zero]
    | counts change _ character _ sticky =>
      rw [character] at occupied ⊢
      rw [sticky, balanced.counted place within occupied, if_pos rfl]
    | assigns _ _ absent _ sticky =>
      have nobody : refs count world (after.pool.slots place).characterID = 0 := by
        by_contra some_refs
        rcases (balanced.present _ some_refs).2 with ⟨other, otherWithin, same⟩
        exact absent other otherWithin same
      rw [sticky, nobody]
      split_ifs <;> rfl
    | drops _ _ dropped _ => exact absurd dropped occupied
  rw [affects.others index here] at occupied ⊢
  rw [balanced.counted index within occupied]
  split_ifs with same
  · by_cases still : change = 0
    · rw [still, add_zero]
    · exact absurd (balanced.unique index within place (affects.within still) occupied same) here
  · rw [add_zero]

theorem present_after {place : Nat} {change : Int}
    (affects : Affects size thread world.pool.slots after.pool.slots place change)
    (refsAfter : ∀ characterID, (refs count after characterID : Int) =
      refs count world characterID +
        if characterID = (world.pool.slots place).characterID then change else 0)
    (some_refs : refs count after characterID ≠ 0) :
    characterID ≠ 0 ∧ ∃ index, index < size ∧ (after.pool.slots index).characterID = characterID := by
  have equation := refsAfter characterID
  by_cases before : refs count world characterID = 0
  · -- A first reference is counted at a slot that holds the character.
    split_ifs at equation with same
    · have changed : change ≠ 0 := by
        intro still
        omega
      have within := affects.within changed
      cases affects.effect with
      | counts _ occupied character _ _ =>
        exact ⟨same ▸ occupied, place, within, character.trans same.symm⟩
      | quiet _ _ _ => exact absurd rfl changed
      | locks _ _ _ _ => exact absurd rfl changed
      | releases _ _ _ _ => exact absurd rfl changed
      | assigns _ _ _ _ _ => exact absurd rfl changed
      | drops _ _ _ _ => exact absurd rfl changed
    · omega
  rcases balanced.present characterID before with ⟨nonzero, index, within, holds⟩
  have occupied : (world.pool.slots index).characterID ≠ 0 := by
    rw [holds]
    exact nonzero
  have referred : (world.pool.slots index).sticky ≠ 0 := by
    rw [balanced.counted index within occupied, holds]
    exact_mod_cast before
  refine ⟨nonzero, index, within, ?_⟩
  rw [affects_character affects occupied (Or.inl referred)]
  exact holds

/-- The players in the game keep their slots when another thread moves. -/
theorem playing_after {later : Nat → Slot} {place : Nat} {change : Int}
    (affects : Affects size thread world.pool.slots later place change)
    (foreign : thread ≠ gameThread) (online : world.online characterID = some index) :
    index < size ∧ characterID ≠ 0 ∧ (later index).characterID = characterID ∧
      (later index).locked = gameThread := by
  rcases balanced.playing characterID index online with ⟨within, nonzero, holds, locked⟩
  have isLocked : (world.pool.slots index).locked ≠ 0 ∧
      (world.pool.slots index).locked ≠ thread := by
    rw [locked]
    exact ⟨by decide, foreign.symm⟩
  refine ⟨within, nonzero, ?_, ?_⟩
  · rw [affects_character affects (holds ▸ nonzero) (Or.inr isLocked)]
    exact holds
  · rw [affects_locked affects isLocked.1 isLocked.2]
    exact locked

/-- The players in the game keep their slots while the game thread releases none of them. -/
theorem playing_game {later : Nat → Slot} {place : Nat} {change : Int}
    (affects : Affects size gameThread world.pool.slots later place change)
    (released : (later place).locked = 0 → ∀ characterID, world.online characterID ≠ some place)
    (online : world.online characterID = some index) :
    index < size ∧ characterID ≠ 0 ∧ (later index).characterID = characterID ∧
      (later index).locked = gameThread := by
  rcases balanced.playing characterID index online with ⟨within, nonzero, holds, locked⟩
  have occupied : (world.pool.slots index).characterID ≠ 0 := by
    rw [holds]
    exact nonzero
  have referred : (world.pool.slots index).sticky ≠ 0 := by
    rw [balanced.counted index within occupied, holds]
    exact_mod_cast refs_of_online online
  refine ⟨within, nonzero, ?_, ?_⟩
  · rw [affects_character affects occupied (Or.inl referred)]
    exact holds
  by_cases here : index = place
  · rw [here] at locked online referred ⊢
    cases affects.effect with
    | quiet _ lock _ => exact lock.trans locked
    | locks _ lock _ _ => exact lock
    | releases _ freed _ _ => exact absurd online (released freed characterID)
    | counts _ _ _ lock _ => exact lock.trans locked
    | assigns _ _ _ lock _ => exact lock
    | drops _ unused _ _ => exact absurd unused referred
  rw [affects.others index here]
  exact locked

end

/-- What a step does to the references, by what the thread carries before and after it. -/
theorem refs_after (characterID : UInt32) {now : Local} (within : thread < count)
    (threads : after.threads = update world.threads thread now) :
    refs count after characterID +
        (amount (openLogin thread (world.threads thread)) characterID +
          amount (openReply thread (world.threads thread)) characterID +
          world.logins.count characterID + world.replies.count characterID +
          inGame world characterID) =
      refs count world characterID +
        (amount (openLogin thread now) characterID + amount (openReply thread now) characterID +
          after.logins.count characterID + after.replies.count characterID +
          inGame after characterID) := by
  have logins := sum_moved (fun other now => amount (openLogin other now) characterID)
    world.threads now within
  have replies := sum_moved (fun other now => amount (openReply other now) characterID)
    world.threads now within
  rw [refs, refs, loginsOpen, loginsOpen, repliesOpen, repliesOpen, threads]
  omega

theorem other_balanced (balanced : Balanced size count world) {now : Local} {place : Nat}
    {change : Int} (foreign : thread ≠ gameThread) (within : thread < count)
    (threads : after.threads = update world.threads thread now)
    (online : after.online = world.online)
    (affects : Affects size thread world.pool.slots after.pool.slots place change)
    (own : Settled size after.pool.slots thread now)
    (refsAfter : ∀ characterID, (refs count after characterID : Int) =
      refs count world characterID +
        if characterID = (world.pool.slots place).characterID then change else 0) :
    Balanced size count after := by
  have same : after.threads gameThread = world.threads gameThread := by
    rw [threads]
    exact update_of_ne foreign.symm _ _
  constructor
  · exact affects_unique affects balanced.unique
  · intro other
    rw [threads]
    by_cases moved : other = thread
    · rw [moved, update_self]
      exact own
    rw [update_of_ne moved]
    exact settled_other balanced affects moved
  · intro characterID index playing
    rw [online] at playing
    exact playing_after balanced affects foreign playing
  · rw [same, online]
    exact balanced.apart
  · rw [same, online]
    exact balanced.joining
  · rw [same, online]
    exact balanced.leaving
  · intro other beyond
    rw [threads, update_of_ne (by omega)]
    exact balanced.beyond other beyond
  · intro index inside occupied
    exact counted_after balanced affects refsAfter inside occupied
  · intro characterID some_refs
    exact present_after balanced affects refsAfter some_refs

structure Bound (online : UInt32 → Option Nat) (now : Local) : Prop where
  apart : ∀ index, locks now = some index → ∀ characterID, online characterID ≠ some index
  joining : ∀ characterID, now = .joining characterID → online characterID = none
  leaving : ∀ characterID index late, now = .leaving characterID index late →
    online characterID = some index

def isSteady : Local → Bool
  | .joining _ | .leaving _ _ _ => false
  | _ => true

theorem bound_steady {online : UInt32 → Option Nat} {now : Local} (steady : isSteady now = true)
    (apart : ∀ index, locks now = some index → ∀ characterID, online characterID ≠ some index) :
    Bound online now := by
  refine ⟨apart, ?_, ?_⟩
  · intro characterID isJoining
    rw [isJoining] at steady
    cases steady
  · intro characterID index late isLeaving
    rw [isLeaving] at steady
    cases steady

theorem bound_loose {online : UInt32 → Option Nat} {now : Local} (steady : isSteady now = true)
    (loose : locks now = none) : Bound online now := by
  apply bound_steady steady
  intro index isLocked
  rw [loose] at isLocked
  cases isLocked

/-- A step of the game thread, which alone changes who is in the game. -/
theorem game_balanced (balanced : Balanced size count world) {now : Local} {place : Nat}
    {change : Int} (within : gameThread < count)
    (threads : after.threads = update world.threads gameThread now)
    (affects : Affects size gameThread world.pool.slots after.pool.slots place change)
    (own : Settled size after.pool.slots gameThread now)
    (playing : ∀ characterID index, after.online characterID = some index →
      index < size ∧ characterID ≠ 0 ∧ (after.pool.slots index).characterID = characterID ∧
        (after.pool.slots index).locked = gameThread) (bound : Bound after.online now)
    (refsAfter : ∀ characterID, (refs count after characterID : Int) =
      refs count world characterID +
        if characterID = (world.pool.slots place).characterID then change else 0) :
    Balanced size count after := by
  have isNow : after.threads gameThread = now := by
    rw [threads]
    exact update_self _ _ _
  constructor
  · exact affects_unique affects balanced.unique
  · intro other
    by_cases moved : other = gameThread
    · rw [moved, isNow]
      exact own
    rw [threads, update_of_ne moved]
    exact settled_other balanced affects moved
  · exact playing
  · rw [isNow]
    exact bound.apart
  · rw [isNow]
    exact bound.joining
  · rw [isNow]
    exact bound.leaving
  · intro other beyond
    rw [threads, update_of_ne (by omega)]
    exact balanced.beyond other beyond
  · intro index inside occupied
    exact counted_after balanced affects refsAfter inside occupied
  · intro characterID some_refs
    exact present_after balanced affects refsAfter some_refs

end TibiaGame.StickyBalance
