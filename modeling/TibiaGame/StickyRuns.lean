import TibiaGame.StickyBalance

/-!
# Runs that keep the references in balance

The counter goes wrong at three places: an order for a slot that is locked raises it without
a reply, a reply for a slot that is locked is thrown away without lowering it, and a slot is
given back after a failed load while it is referred to. Every other step of any thread keeps
the balance.
-/

namespace TibiaGame.StickyRuns

open PlayerPool PlayerSessions StickyBalance

/-- The slot of the character, or the empty one that is taken for it, is not locked meanwhile
by a thread that has failed to load it or saves it. -/
def fits (size : Nat) (pool : Pool) (characterID : UInt32) : Bool :=
  characterID == 0 || (getPlayerPoolSlot size pool characterID).isSome ||
    match findSlot size pool fun slot => slot.characterID == 0 with
    | none => true
    | some index => (pool.slots index).locked == 0

def unlocked (size : Nat) (pool : Pool) (characterID : UInt32) : Bool :=
  match getPlayerPoolSlot size pool characterID with
  | none => true
  | some index => (pool.slots index).locked == 0

def meets (size : Nat) (world : World) (thread : Nat) (call : Call) : Bool :=
  match world.threads thread, call with
  | .idle, .login characterID => fits size world.pool characterID
  | .idle, .takeOrder =>
      match world.orders with
      | [] => true
      | characterID :: _ => fits size world.pool characterID && unlocked size world.pool characterID
  | .retrying characterID, .next _ _ =>
      fits size world.pool characterID && unlocked size world.pool characterID
  | .idle, .takeReply _ =>
      match world.replies with
      | [] => true
      | characterID :: _ => unlocked size world.pool characterID
  | .failed _ index, .next _ _ => decide ((world.pool.slots index).sticky ≤ 0)
  | _, _ => true

variable {size count thread index : Nat} {world after : World} {characterID : UInt32}
  {pool : Pool}

@[simp] theorem amount_none : amount none characterID = 0 := rfl

@[simp] theorem amount_some (carried : UInt32) :
    amount (some carried) characterID = if characterID = carried then 1 else 0 := by
  rw [amount]
  split_ifs with left right right
  · rfl
  · exact absurd (Option.some.inj left).symm right
  · exact absurd (congrArg some right.symm) left
  · rfl

theorem affects_none (place : Nat) : Affects size thread pool.slots pool.slots place 0 :=
  ⟨fun changed => absurd rfl changed, .quiet rfl rfl rfl, fun _ _ => rfl⟩

theorem affects_at {change : Slot → Slot} {amount : Int} (within : amount ≠ 0 → index < size)
    (effect : Effect size thread pool.slots (pool.slots index) (change (pool.slots index)) amount) :
    Affects size thread pool.slots (pool.change index change).slots index amount := by
  refine ⟨within, ?_, fun other different => change_other different⟩
  rw [change_self]
  exact effect

theorem quiet_at {change : Slot → Slot}
    (character : (change (pool.slots index)).characterID = (pool.slots index).characterID)
    (lock : (change (pool.slots index)).locked = (pool.slots index).locked)
    (sticky : (change (pool.slots index)).sticky = (pool.slots index).sticky) :
    Affects size thread pool.slots (pool.change index change).slots index 0 :=
  affects_at (fun changed => absurd rfl changed) (.quiet character lock sticky)

theorem release_affects (nonzero : thread ≠ 0) (own : (pool.slots index).locked = thread) :
    Affects size thread pool.slots (releasePlayerPoolSlot pool thread index).slots index 0 := by
  rw [releasePlayerPoolSlot, if_neg (own ▸ nonzero), if_neg (not_not.mpr own)]
  exact affects_at (fun changed => absurd rfl changed) (.releases own rfl rfl rfl)

theorem release_locked (nonzero : thread ≠ 0) (own : (pool.slots index).locked = thread) :
    ((releasePlayerPoolSlot pool thread index).slots index).locked = 0 := by
  rw [releasePlayerPoolSlot, if_neg (own ▸ nonzero), if_neg (not_not.mpr own), change_self]

theorem release_character {other : Nat} :
    ((releasePlayerPoolSlot pool thread index).slots other).characterID =
      (pool.slots other).characterID := by
  rw [releasePlayerPoolSlot]
  split_ifs
  · rfl
  · rfl
  · by_cases here : other = index
    · rw [here, change_self]
    · rw [change_other here]

theorem deliver_affects (delivered : Option Depots) :
    Affects size thread pool.slots (deliver pool index delivered).slots index 0 := by
  cases delivered with
  | none => exact affects_none index
  | some depot => exact quiet_at rfl rfl rfl

theorem deliver_slot {delivered : Option Depots} :
    ((deliver pool index delivered).slots index).characterID = (pool.slots index).characterID ∧
      ((deliver pool index delivered).slots index).locked = (pool.slots index).locked ∧
      ((deliver pool index delivered).slots index).sticky = (pool.slots index).sticky := by
  rcases delivered with _ | depot
  · exact ⟨rfl, rfl, rfl⟩
  rw [deliver, change_self]
  exact ⟨rfl, rfl, rfl⟩

theorem deliver_other {delivered : Option Depots} {other : Nat} (different : other ≠ index) :
    (deliver pool index delivered).slots other = pool.slots other := by
  rcases delivered with _ | depot
  · rfl
  rw [deliver]
  exact change_other different

/-- The slot of a character that the game thread locks and delivers mails to. -/
theorem attached_slot (pool : Pool) (index : Nat) (delivered : Option Depots) :
    ((deliver (pool.change index fun slot => { slot with locked := gameThread }) index
        delivered).slots index).characterID = (pool.slots index).characterID ∧
      ((deliver (pool.change index fun slot => { slot with locked := gameThread }) index
        delivered).slots index).locked = gameThread := by
  have slot : ∀ pool : Pool, ((deliver pool index delivered).slots index).characterID =
      (pool.slots index).characterID := fun _ => deliver_slot.1
  have lock : ∀ pool : Pool, ((deliver pool index delivered).slots index).locked =
      (pool.slots index).locked := fun _ => deliver_slot.2.1
  constructor
  · rw [slot, change_self]
  · rw [lock, change_self]

theorem save_affects :
    Affects size thread pool.slots (savePlayerPoolSlot pool index).slots index 0 := by
  refine ⟨fun changed => absurd rfl changed, ?_, fun other different => save_slot_other different⟩
  rw [save_slot_self]
  exact .quiet rfl rfl rfl

def carried (thread : Nat) (now : Local) (characterID : UInt32) : Nat :=
  amount (openLogin thread now) characterID + amount (openReply thread now) characterID

theorem carried_sending (thread index : Nat) (carrying characterID : UInt32) :
    carried thread (.sending carrying index) characterID =
      if characterID = carrying then 1 else 0 := by
  by_cases reader : thread = readerThread
  · simp only [carried, openLogin, openReply, if_pos reader, amount_none, amount_some, zero_add]
  · simp only [carried, openLogin, openReply, if_neg reader, amount_none, amount_some, add_zero]

theorem carried_raised (thread index : Nat) (carrying characterID : UInt32) :
    carried thread (.raised carrying index) characterID =
      if characterID = carrying then 1 else 0 := carried_sending thread index carrying characterID

theorem carried_waiting (thread index : Nat) (carrying characterID : UInt32) :
    carried thread (.waiting carrying index) characterID =
      if characterID = carrying then 1 else 0 := by
  simp only [carried, openLogin, openReply, amount_none, amount_some, add_zero]

theorem carried_shared {thread : Nat} (notReader : thread ≠ readerThread) (index : Nat)
    (carrying characterID : UInt32) :
    carried thread (.checking carrying index true) characterID =
      if characterID = carrying then 1 else 0 := by
  simp only [carried, openLogin, openReply, if_neg notReader, amount_none, amount_some, add_zero]

theorem settled_game {slots : Nat → Slot} {now : Local} (isGame : ofGame now = true)
    (locked : ∀ index, locks now = some index → (slots index).locked = gameThread)
    (working : ∀ characterID index, works now = some (characterID, index) →
      index < size ∧ characterID ≠ 0 ∧ (slots index).characterID = characterID) :
    Settled size slots gameThread now := by
  constructor
  · intro index isLocked
    exact ⟨by decide, locked index isLocked⟩
  · exact working
  · intro characterID index isShared
    rw [isShared] at isGame
    cases isGame
  · intro _ foreign
    exact absurd rfl foreign
  · intro _
    rfl
  · intro _
    exact Or.inr isGame

theorem balanced_orders (balanced : Balanced size count world) (orders : List UInt32) :
    Balanced size count { world with orders := orders } :=
  ⟨balanced.unique, balanced.settled, balanced.playing, balanced.apart, balanced.joining,
    balanced.leaving, balanced.beyond, balanced.counted, balanced.present⟩

section Others

variable {now old : Local} {place : Nat} {change : Int}

section

variable (balanced : Balanced size count world) (foreign : thread ≠ gameThread)
include balanced foreign

/-- A step of a thread other than the game thread that leaves the queues alone. -/
theorem go_balanced (within : thread < count) (before : world.threads thread = old)
    (affects : Affects size thread world.pool.slots pool.slots place change)
    (own : Settled size pool.slots thread now)
    (carries : ∀ characterID, (carried thread now characterID : Int) =
      carried thread old characterID +
        if characterID = (world.pool.slots place).characterID then change else 0) :
    Balanced size count (world.goOn thread pool now) := by
  have threads : (world.goOn thread pool now).threads =
      Function.update world.threads thread now := rfl
  apply other_balanced balanced foreign within threads rfl affects own
  intro characterID
  have references := refs_after characterID within threads
  have moved := carries characterID
  rw [before] at references
  rw [carried, carried] at moved
  have game : inGame (world.goOn thread pool now) characterID = inGame world characterID := rfl
  have logins : (world.goOn thread pool now).logins = world.logins := rfl
  have replies : (world.goOn thread pool now).replies = world.replies := rfl
  rw [game, logins, replies] at references
  omega

/-- A thread that is not the game thread, apart from a slot it only shares. -/
theorem settled_crew {later : Nat → Slot} (before : world.threads thread = old)
    (affects : Affects size thread world.pool.slots later place change)
    (alone : ∀ other, locks old = some other → other = place)
    (keeps : (later place).locked = thread → locks now = some place) (notGame : ofGame now = false)
    (locked : ∀ index, locks now = some index → thread ≠ 0 ∧ (later index).locked = thread)
    (working : ∀ characterID index, works now = some (characterID, index) →
      index < size ∧ characterID ≠ 0 ∧ (later index).characterID = characterID)
    (shared : ∀ characterID index, now = .checking characterID index true →
      thread ≠ 0 ∧ thread ≠ readerThread ∧ (later index).locked ≠ thread) :
    Settled size later thread now := by
  have settled := balanced.settled thread
  rw [before] at settled
  constructor
  · exact locked
  · exact working
  · exact shared
  · exact owner_after settled affects alone keeps
  · intro isGame
    rw [notGame] at isGame
    cases isGame
  · intro isGame
    exact absurd isGame foreign

/-- What a thread that logs in, reads orders or saves does with a slot of its own. -/
theorem settled_own {later : Nat → Slot} (before : world.threads thread = old)
    (affects : Affects size thread world.pool.slots later place change)
    (alone : ∀ other, locks old = some other → other = place) (notGame : ofGame now = false)
    (nonzero : thread ≠ 0) (holds : locks now = some place) (locked : (later place).locked = thread)
    (working : ∀ characterID index, works now = some (characterID, index) →
      index = place ∧ place < size ∧ characterID ≠ 0 ∧
        (later place).characterID = characterID) : Settled size later thread now := by
  apply settled_crew balanced foreign before affects alone (fun _ => holds) notGame
  · intro index isLocked
    rw [holds] at isLocked
    cases isLocked
    exact ⟨nonzero, locked⟩
  · intro characterID index isWorking
    rcases working characterID index isWorking with ⟨here, rest⟩
    rw [here]
    exact rest
  · intro characterID index shared
    rw [shared] at holds
    cases holds

theorem settled_free {later : Nat → Slot} (before : world.threads thread = old)
    (affects : Affects size thread world.pool.slots later place change)
    (alone : ∀ other, locks old = some other → other = place)
    (freed : (later place).locked ≠ thread) (notGame : ofGame now = false)
    (holds : locks now = none)
    (working : ∀ characterID index, works now = some (characterID, index) →
      index < size ∧ characterID ≠ 0 ∧ (later index).characterID = characterID)
    (shared : ∀ characterID index, now ≠ .checking characterID index true) :
    Settled size later thread now := by
  apply settled_crew balanced foreign before affects alone (fun own => absurd own freed) notGame
  · intro index isLocked
    rw [holds] at isLocked
    cases isLocked
  · exact working
  · intro characterID index isShared
    exact absurd isShared (shared characterID index)

end

theorem assign_nonzero {result : Assigned} {later : Pool} {dontWait : Bool}
    (assigned : assignPlayerPoolSlot size pool thread characterID dontWait = (result, later))
    (accepted : result ≠ .refused) : characterID ≠ 0 := by
  intro zero
  rw [assignPlayerPoolSlot, if_pos zero] at assigned
  cases assigned
  exact accepted rfl

theorem unlocked_spec (unique : Unique size pool.slots) (free : unlocked size pool characterID = true)
    (within : index < size) (nonzero : characterID ≠ 0)
    (holds : (pool.slots index).characterID = characterID) : (pool.slots index).locked = 0 := by
  rw [unlocked] at free
  rcases found : getPlayerPoolSlot size pool characterID with _ | other
  · exact absurd holds (get_slot_none found nonzero within)
  rw [found] at free
  have here := get_slot_some found
  have same := unique index within other here.1 (holds ▸ nonzero) (holds.trans here.2.1.symm)
  rw [same]
  exact beq_iff_eq.mp free

theorem fits_spec (fit : fits size pool characterID = true) (nonzero : characterID ≠ 0)
    (absent : ∀ other, other < size → (pool.slots other).characterID ≠ characterID)
    (empty : findSlot size pool (fun slot => slot.characterID == 0) = some index) :
    (pool.slots index).locked = 0 := by
  have missing : getPlayerPoolSlot size pool characterID = none := by
    by_contra some_slot
    rcases Option.ne_none_iff_exists'.mp some_slot with ⟨other, found⟩
    have here := get_slot_some found
    exact absent other here.1 here.2.1
  rw [fits, missing, empty, beq_eq_false_iff_ne.mpr nonzero] at fit
  exact beq_iff_eq.mp fit

section

variable (balanced : Balanced size count world) (foreign : thread ≠ gameThread)
include balanced foreign

/-- A free thread takes a slot, locks the one of the character or refers to it. -/
theorem assign_balanced (nonzero : thread ≠ 0) (within : thread < count)
    (before : world.threads thread = old) (holds : locks old = none)
    (nothing : ∀ characterID, carried thread old characterID = 0)
    (fit : fits size world.pool characterID = true)
    (free : thread = readerThread → unlocked size world.pool characterID = true) :
    Balanced size count (assign size world thread characterID) := by
  have alone : ∀ place other, locks old = some other → other = place := by
    intro place other isLocked
    rw [holds] at isLocked
    cases isLocked
  have apart : ∀ index, (world.pool.slots index).locked ≠ thread := by
    intro index own
    have settled := balanced.settled thread
    have isLocked := settled.owner nonzero foreign index own
    rw [before, holds] at isLocked
    cases isLocked
  rw [assign]
  cases taken : assignPlayerPoolSlot size world.pool thread characterID true with
  | mk result later =>
    rcases assign_cases taken with ⟨same, ended⟩ | ⟨index, locked, inside, here, isFree, same⟩ |
      ⟨index, shared, inside, here, isLocked, same⟩ |
      ⟨index, fresh, inside, someone, absent, unused, now, others⟩
    · have ends : Balanced size count (world.goOn thread world.pool .idle) := by
        apply go_balanced balanced foreign within before (affects_none 0)
        · apply settled_free balanced foreign before (affects_none 0) (alone 0) (apart 0) rfl rfl
          all_goals nofun
        · intro other
          rw [nothing, ite_self]
          rfl
      rw [same]
      rcases ended with refused | waiting
      · rw [refused]
        exact ends
      rw [waiting]
      exact ends
    · have someone : characterID ≠ 0 := by
        apply assign_nonzero taken
        rw [locked]
        nofun
      have affects : Affects size thread world.pool.slots later.slots index 0 := by
        rw [same]
        exact affects_at (fun changed => absurd rfl changed) (.locks isFree rfl rfl rfl)
      simp only [locked]
      apply go_balanced balanced foreign within before affects
      · apply settled_own balanced foreign before affects (alone index) rfl nonzero rfl
        · rw [same, change_self]
        intro working place isWorking
        cases isWorking
        refine ⟨rfl, inside, someone, ?_⟩
        rw [same, change_self]
        exact here
      · intro other
        rw [nothing, ite_self]
        rfl
    · have someone : characterID ≠ 0 := by
        apply assign_nonzero taken
        rw [shared]
        nofun
      have notReader : thread ≠ readerThread := by
        intro reader
        exact isLocked (unlocked_spec balanced.unique (free reader) inside someone here)
      have affects : Affects size thread world.pool.slots later.slots index 1 := by
        rw [same]
        exact affects_at (fun _ => inside) (.counts 1 (here ▸ someone) rfl rfl rfl)
      have lock : (later.slots index).locked = (world.pool.slots index).locked := by
        rw [same, change_self]
      simp only [shared]
      apply go_balanced balanced foreign within before affects
      · apply settled_crew balanced foreign before affects (alone index)
        · intro own
          exact absurd (lock.symm.trans own) (apart index)
        · rfl
        · nofun
        · intro working place isWorking
          cases isWorking
          refine ⟨inside, someone, ?_⟩
          rw [same, change_self]
          exact here
        · intro working place isShared
          cases isShared
          rw [lock]
          exact ⟨nonzero, notReader, apart index⟩
      intro other
      rw [nothing, carried_shared notReader, here]
      split_ifs
      · rfl
      · rfl
    · have isFree : (world.pool.slots index).locked = 0 := by
        rcases unused with empty | unused
        · exact fits_spec fit someone absent empty.2
        · exact unused.1
      have affects : Affects size thread world.pool.slots later.slots index 0 := by
        refine ⟨fun changed => absurd rfl changed, ?_, others⟩
        rw [now]
        refine .assigns isFree ?_ absent rfl rfl
        rcases unused with empty | unused
        · exact Or.inl empty.1
        · exact Or.inr unused.2
      simp only [fresh]
      apply go_balanced balanced foreign within before affects
      · apply settled_own balanced foreign before affects (alone index) rfl nonzero rfl
        · rw [now]
          rfl
        intro working place isWorking
        cases isWorking
        refine ⟨rfl, inside, someone, ?_⟩
        rw [now]
        rfl
      · intro other
        rw [nothing, ite_self]
        rfl

theorem kept_balanced (within : thread < count) (before : world.threads thread = old)
    (isLocked : locks old = some index) (stays : locks now = some index)
    (notGame : ofGame now = false)
    (affects : Affects size thread world.pool.slots pool.slots index change)
    (lock : (pool.slots index).locked = (world.pool.slots index).locked)
    (working : ∀ characterID place, works now = some (characterID, place) →
      works old = some (characterID, place) ∧ place = index ∧
        (pool.slots index).characterID = (world.pool.slots index).characterID)
    (carries : ∀ characterID, (carried thread now characterID : Int) =
      carried thread old characterID +
        if characterID = (world.pool.slots index).characterID then change else 0) :
    Balanced size count (world.goOn thread pool now) := by
  have settled := balanced.settled thread
  rw [before] at settled
  have own := settled.locked index isLocked
  apply go_balanced balanced foreign within before affects _ carries
  apply settled_own balanced foreign before affects _ notGame own.1 stays (lock.trans own.2)
  · intro characterID place isWorking
    rcases working characterID place isWorking with ⟨wasWorking, here, same⟩
    have spec := settled.working characterID place wasWorking
    rw [here] at spec
    exact ⟨here, spec.1, spec.2.1, same.trans spec.2.2⟩
  · intro other otherLocked
    rw [isLocked] at otherLocked
    exact (Option.some.inj otherLocked).symm

theorem released_balanced (within : thread < count) (before : world.threads thread = old)
    (isLocked : locks old = some index) (stays : locks now = none) (notGame : ofGame now = false)
    (affects : Affects size thread world.pool.slots pool.slots index 0)
    (freed : (pool.slots index).locked = 0)
    (working : ∀ characterID place, works now = some (characterID, place) →
      works old = some (characterID, place) ∧ place = index ∧
        (pool.slots index).characterID = (world.pool.slots index).characterID)
    (shared : ∀ characterID place, now ≠ .checking characterID place true)
    (carries : ∀ characterID, carried thread now characterID = carried thread old characterID) :
    Balanced size count (world.goOn thread pool now) := by
  have settled := balanced.settled thread
  rw [before] at settled
  have own := settled.locked index isLocked
  apply go_balanced balanced foreign within before affects
  · apply settled_free balanced foreign before affects _ _ notGame stays _ shared
    · intro other otherLocked
      rw [isLocked] at otherLocked
      exact (Option.some.inj otherLocked).symm
    · rw [freed]
      exact own.1.symm
    · intro characterID place isWorking
      rcases working characterID place isWorking with ⟨wasWorking, here, same⟩
      have spec := settled.working characterID place wasWorking
      rw [here] at spec ⊢
      exact ⟨spec.1, spec.2.1, same.trans spec.2.2⟩
  · intro characterID
    rw [carries, ite_self, add_zero]

theorem free_balanced (nonzero : thread ≠ 0) (within : thread < count)
    (before : world.threads thread = old) (holds : locks old = none) (stays : locks now = none)
    (notGame : ofGame now = false)
    (affects : Affects size thread world.pool.slots pool.slots index change)
    (lock : (pool.slots index).locked = (world.pool.slots index).locked)
    (working : ∀ characterID place, works now = some (characterID, place) →
      works old = some (characterID, place) ∧
        (pool.slots place).characterID = (world.pool.slots place).characterID)
    (shared : ∀ characterID place, now ≠ .checking characterID place true)
    (carries : ∀ characterID, (carried thread now characterID : Int) =
      carried thread old characterID +
        if characterID = (world.pool.slots index).characterID then change else 0) :
    Balanced size count (world.goOn thread pool now) := by
  have settled := balanced.settled thread
  rw [before] at settled
  apply go_balanced balanced foreign within before affects _ carries
  apply settled_free balanced foreign before affects _ _ notGame stays _ shared
  · intro other otherLocked
    rw [holds] at otherLocked
    cases otherLocked
  · rw [lock]
    intro own
    have isLocked := settled.owner nonzero foreign index own
    rw [holds] at isLocked
    cases isLocked
  · intro characterID place isWorking
    rcases working characterID place isWorking with ⟨wasWorking, same⟩
    have spec := settled.working characterID place wasWorking
    exact ⟨spec.1, spec.2.1, same.trans spec.2.2⟩

end

theorem zero_change (carries : ∀ characterID,
      carried thread now characterID = carried thread old characterID) (someone : UInt32)
    (characterID : UInt32) : (carried thread now characterID : Int) =
      carried thread old characterID + if characterID = someone then 0 else 0 := by
  rw [carries, ite_self, add_zero]

section

variable (balanced : Balanced size count world) (foreign : thread ≠ gameThread)
include balanced foreign

section

variable {blocked : Bool} {delivered : Option Depots}

theorem failed_balanced (within : thread < count)
    (before : world.threads thread = .failed characterID index)
    (unused : (world.pool.slots index).sticky ≤ 0) :
    Balanced size count (world.goOn thread (dropCharacter world.pool index) (.emptied index)) := by
  have settled := balanced.settled thread
  rw [before] at settled
  have own := settled.locked index rfl
  have here := settled.working characterID index rfl
  have zero : (world.pool.slots index).sticky = 0 := by
    have counted := balanced.counted index here.1 (here.2.2 ▸ here.2.1)
    omega
  have affects : Affects size thread world.pool.slots (dropCharacter world.pool index).slots
      index 0 := affects_at (fun changed => absurd rfl changed) (.drops own.2 zero rfl rfl)
  apply kept_balanced balanced foreign within before rfl rfl rfl affects
  · rw [dropCharacter, change_self]
  · nofun
  · apply zero_change
    intro _
    rfl

theorem checking_balanced {isShared : Bool} (nonzero : thread ≠ 0) (within : thread < count)
    (before : world.threads thread = .checking characterID index isShared)
    (next : goNext size world thread blocked delivered (.checking characterID index isShared) =
      some after) : Balanced size count after := by
  have settled := balanced.settled thread
  rw [before] at settled
  rcases isShared with _ | _
  · have own := settled.locked index rfl
    have holding : after = world.goOn thread world.pool (.holding characterID index) := by
      have notGame : (world.pool.slots index).locked ≠ gameThread := by
        rw [own.2]
        exact foreign
      rw [goNext, if_neg notGame, if_pos own.2] at next
      by_cases reader : thread = readerThread
      · rw [if_pos reader] at next
        exact (Option.some.inj next).symm
      rw [if_neg reader, if_pos own.2] at next
      exact (Option.some.inj next).symm
    rw [holding]
    apply kept_balanced balanced foreign within before rfl rfl rfl (affects_none index) rfl
    · intro other place working
      cases working
      exact ⟨rfl, rfl, rfl⟩
    · apply zero_change
      intro _
      rfl
  have apart := settled.shared characterID index rfl
  have waits : after = world.goOn thread world.pool (.waiting characterID index) := by
    rw [goNext, if_neg apart.2.1, if_neg apart.2.2] at next
    exact (Option.some.inj next).symm
  rw [waits]
  apply free_balanced balanced foreign nonzero within before rfl rfl rfl (affects_none index) rfl
  · intro other place working
    cases working
    exact ⟨rfl, rfl⟩
  · nofun
  · apply zero_change
    intro other
    rw [carried_shared apart.2.1, carried_waiting]

theorem holding_balanced (within : thread < count)
    (before : world.threads thread = .holding characterID index)
    (next : goNext size world thread blocked delivered (.holding characterID index) = some after) :
    Balanced size count after := by
  have settled := balanced.settled thread
  rw [before] at settled
  have own := settled.locked index rfl
  have here := settled.working characterID index rfl
  rw [goNext] at next
  split_ifs at next with refuses
  · cases next
    apply released_balanced balanced foreign within before rfl rfl rfl (release_affects own.1 own.2)
    · exact release_locked own.1 own.2
    · nofun
    · nofun
    · intro _
      rfl
  cases next
  have affects : Affects size thread world.pool.slots
      (increasePlayerPoolSlotSticky world.pool index).slots index 1 :=
    affects_at (fun _ => here.1) (.counts 1 (here.2.2 ▸ here.2.1) rfl rfl rfl)
  apply kept_balanced balanced foreign within before rfl rfl rfl affects
  · rw [increasePlayerPoolSlotSticky, change_self]
  · intro other place working
    cases working
    refine ⟨rfl, rfl, ?_⟩
    rw [increasePlayerPoolSlotSticky, change_self]
  · intro other
    rw [carried_raised, here.2.2]
    split_ifs
    · rfl
    · rfl

theorem waiting_balanced (nonzero : thread ≠ 0) (within : thread < count)
    (before : world.threads thread = .waiting characterID index)
    (next : goNext size world thread blocked delivered (.waiting characterID index) = some after) :
    Balanced size count after := by
  have settled := balanced.settled thread
  rw [before] at settled
  have here := settled.working characterID index rfl
  rw [goNext] at next
  split_ifs at next with refuses
  · cases next
    have affects : Affects size thread world.pool.slots
        (decreasePlayerPoolSlotSticky world.pool index).slots index (-1) :=
      affects_at (fun _ => here.1) (.counts (-1) (here.2.2 ▸ here.2.1) rfl rfl rfl)
    apply free_balanced balanced foreign nonzero within before rfl rfl rfl affects
    · rw [decreasePlayerPoolSlotSticky, change_self]
    · nofun
    · nofun
    · intro other
      rw [carried_waiting, here.2.2]
      split_ifs
      · rfl
      · rfl
  cases next
  apply free_balanced balanced foreign nonzero within before rfl rfl rfl (affects_none index) rfl
  · intro other place working
    cases working
    exact ⟨rfl, rfl⟩
  · nofun
  · apply zero_change
    intro other
    rw [carried_waiting, carried_sending]

end

end

theorem count_sent (sent : List UInt32) (characterID other : UInt32) :
    (sent ++ [characterID]).count other = sent.count other + if other = characterID then 1 else 0 := by
  rw [List.count_append, List.count_singleton]
  split_ifs with left right right
  · rfl
  · exact absurd (beq_iff_eq.mp left).symm right
  · exact absurd (beq_iff_eq.mpr right.symm) left
  · rfl

variable (balanced : Balanced size count world) (foreign : thread ≠ gameThread)
    (nonzero : thread ≠ 0) (within : thread < count)
include balanced foreign nonzero within

theorem sent_balanced (before : world.threads thread = .sending characterID index)
    (threads : after.threads = Function.update world.threads thread .idle)
    (online : after.online = world.online) (slots : after.pool = world.pool)
    (queued : ∀ other, after.logins.count other + after.replies.count other =
      world.logins.count other + world.replies.count other +
        if other = characterID then 1 else 0) : Balanced size count after := by
  have settled := balanced.settled thread
  rw [before] at settled
  have affects : Affects size thread world.pool.slots after.pool.slots index 0 := by
    rw [slots]
    exact affects_none index
  have free : Settled size after.pool.slots thread .idle := by
    apply settled_free balanced foreign before affects
    · nofun
    · rw [slots]
      intro own
      have isLocked := settled.owner nonzero foreign index own
      cases isLocked
    · rfl
    · rfl
    · nofun
    · nofun
  apply other_balanced balanced foreign within threads online affects free
  intro other
  have references := refs_after other within threads
  have sent := carried_sending thread index characterID other
  have moved := queued other
  have game : inGame after other = inGame world other := by rw [inGame, inGame, online]
  rw [carried] at sent
  rw [before, game] at references
  simp only [openLogin, openReply, amount_none, ite_self] at references sent ⊢
  omega

theorem sending_balanced {blocked : Bool} {delivered : Option Depots}
    (before : world.threads thread = .sending characterID index)
    (next : goNext size world thread blocked delivered (.sending characterID index) = some after) :
    Balanced size count after := by
  have settled := balanced.settled thread
  rw [before] at settled
  have here := settled.working characterID index rfl
  rw [goNext] at next
  split_ifs at next with reader
  · have same := (Option.some.inj next).symm
    apply sent_balanced balanced foreign nonzero within before
    · rw [same]
      rfl
    · rw [same]
      rfl
    · rw [same]
      rfl
    · intro other
      rw [same]
      simp only [World.goOn, count_sent]
      omega
  have same := (Option.some.inj next).symm
  apply sent_balanced balanced foreign nonzero within before
  · rw [same]
    rfl
  · rw [same]
    rfl
  · rw [same]
    rfl
  · intro other
    rw [same, here.2.2]
    simp only [World.goOn, count_sent]
    omega

/-- A thread other than the game thread goes on in the middle of a function. -/
theorem next_balanced {blocked : Bool} {delivered : Option Depots}
    (before : world.threads thread = old)
    (meeting : meets size world thread (.next blocked delivered) = true)
    (next : goNext size world thread blocked delivered old = some after) :
    Balanced size count after := by
  have settled := balanced.settled thread
  rw [before] at settled
  have notGame : ofGame old ≠ true := by
    intro isGame
    exact foreign (settled.game isGame)
  cases old with
  | idle | loading _ _ => cases next
  | failed characterID index =>
    simp only [meets, before, decide_eq_true_eq] at meeting
    cases next
    exact failed_balanced balanced foreign within before meeting
  | emptied index =>
    have own := settled.locked index rfl
    cases next
    have affects : Affects size thread world.pool.slots (dropLock world.pool index).slots
        index 0 := affects_at (fun changed => absurd rfl changed) (.releases own.2 rfl rfl rfl)
    apply released_balanced balanced foreign within before rfl rfl rfl affects
    · rw [dropLock, change_self]
    · nofun
    · nofun
    · intro _
      rfl
  | checking characterID index isShared =>
    exact checking_balanced balanced foreign nonzero within before next
  | retrying characterID =>
    simp only [meets, before, Bool.and_eq_true] at meeting
    cases next
    apply assign_balanced balanced foreign nonzero within before rfl _ meeting.1
    · intro _
      exact meeting.2
    · intro _
      rfl
  | holding characterID index => exact holding_balanced balanced foreign within before next
  | raised characterID index =>
    have own := settled.locked index rfl
    cases next
    apply released_balanced balanced foreign within before rfl rfl rfl
      (release_affects own.1 own.2) (release_locked own.1 own.2)
    · intro other place working
      cases working
      exact ⟨rfl, rfl, release_character⟩
    · nofun
    · intro other
      rw [carried_sending, carried_raised]
  | waiting characterID index =>
    exact waiting_balanced balanced foreign nonzero within before next
  | sending characterID index =>
    exact sending_balanced balanced foreign nonzero within before next
  | saving index =>
    cases next
    apply kept_balanced balanced foreign within before rfl rfl rfl save_affects
    · rw [save_slot_self]
    · nofun
    · apply zero_change
      intro _
      rfl
  | saved index =>
    have own := settled.locked index rfl
    cases next
    apply released_balanced balanced foreign within before rfl rfl rfl
      (release_affects own.1 own.2) (release_locked own.1 own.2)
    · nofun
    · nofun
    · intro _
      rfl
  | _ => exact absurd rfl notGame

end Others

end TibiaGame.StickyRuns
