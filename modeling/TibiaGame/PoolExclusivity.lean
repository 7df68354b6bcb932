import TibiaGame.PlayerPool

/-!
# Who holds a slot of the pool

Any number of threads assign, attach, release and save slots. Each critical section is one
step, and so is each write outside of one: the two writes after a failed load, the release,
and what `save_player_pool_slots` does between its two looks at a slot. A thread that waits
for a slot comes back to the same critical section.
-/

namespace TibiaGame.PoolExclusivity

open PlayerPool

inductive Local where
  | idle
  | loading (index : Nat)
  | emptied (index : Nat)
  | looking (now : Int) (index : Nat)
  | attaching (now : Int) (index : Nat)
  | attached (now : Int) (index : Nat)
  | saving (now : Int) (index : Nat)
  | releasing (now : Int) (index : Nat)

structure World where
  pool : Pool
  threads : Nat → Local

/-- `loaded` ends the load of a slot, and `next` goes on in the middle of a function. -/
inductive Call where
  | assign (characterID : UInt32) (dontWait : Bool)
  | attach (characterID : UInt32)
  | attachSlot (index : Nat)
  | release (index : Nat)
  | increase (index : Nat)
  | decrease (index : Nat)
  | useData (index : Nat) (dirty : Bool) (lastLogoutTime : Int) (stored : Stored)
  | savePlayerPoolSlots (now : Int)
  | loaded (result : Option Stored)
  | next

/-- The slots that `save_player_pool_slots` leaves alone. -/
def skipped (slot : Slot) (now : Int) : Bool :=
  slot.characterID == 0 || slot.locked != 0 || decide (0 < slot.sticky) || !slot.dirty ||
    decide (now - slot.lastLogoutTime < 900)

def World.goOn (world : World) (thread : Nat) (pool : Pool) (now : Local) : World where
  pool := pool
  threads := Function.update world.threads thread now

def step (size : Nat) (world : World) (thread : Nat) (call : Call) : Option World :=
  if thread = 0 then none
  else
    match world.threads thread, call with
    | .idle, .assign characterID dontWait =>
        let section' := assignPlayerPoolSlot size world.pool thread characterID dontWait
        match section'.1 with
        | .fresh index => some (world.goOn thread section'.2 (.loading index))
        | _ => some (world.goOn thread section'.2 .idle)
    | .idle, .attach characterID =>
        some (world.goOn thread (attachPlayerPoolSlot size world.pool thread characterID).2 .idle)
    | .idle, .attachSlot index => some (world.goOn thread (attachSlot world.pool thread index) .idle)
    | .idle, .release index =>
        some (world.goOn thread (releasePlayerPoolSlot world.pool thread index) .idle)
    | .idle, .increase index =>
        some (world.goOn thread (increasePlayerPoolSlotSticky world.pool index) .idle)
    | .idle, .decrease index =>
        some (world.goOn thread (decreasePlayerPoolSlotSticky world.pool index) .idle)
    | .idle, .useData index dirty lastLogoutTime stored =>
        some (world.goOn thread (world.pool.change index fun slot =>
          { slot with dirty := dirty, lastLogoutTime := lastLogoutTime, stored := stored }) .idle)
    | .idle, .savePlayerPoolSlots now => some (world.goOn thread world.pool (.looking now 0))
    | .loading index, .loaded (some stored) =>
        some (world.goOn thread (world.pool.change index fun slot => { slot with stored := stored })
          .idle)
    | .loading index, .loaded none =>
        some (world.goOn thread (dropCharacter world.pool index) (.emptied index))
    | .emptied index, .next => some (world.goOn thread (dropLock world.pool index) .idle)
    | .looking now index, .next =>
        some (world.goOn thread world.pool
          (if size ≤ index then .idle
          else if skipped (world.pool.slots index) now then .looking now (index + 1)
          else .attaching now index))
    | .attaching now index, .next =>
        some (world.goOn thread (attachSlot world.pool thread index) (.attached now index))
    | .attached now index, .next =>
        some (world.goOn thread world.pool
          (if (world.pool.slots index).locked = thread then .saving now index
          else .looking now (index + 1)))
    | .saving now index, .next =>
        some (world.goOn thread (savePlayerPoolSlot world.pool index) (.releasing now index))
    | .releasing now index, .next =>
        some (world.goOn thread (releasePlayerPoolSlot world.pool thread index)
          (.looking now (index + 1)))
    | _, _ => none

/-- The steps that leave a slot to its holder: the empty slot that `assign_player_pool_slot`
takes is neither locked nor in use, and no load fails while its slot is in use. -/
def meets (size : Nat) (world : World) (thread : Nat) (call : Call) : Bool :=
  match world.threads thread, call with
  | .idle, .assign characterID _ =>
      characterID == 0 || (getPlayerPoolSlot size world.pool characterID).isSome ||
        match findSlot size world.pool fun slot => slot.characterID == 0 with
        | none => true
        | some index =>
            (world.pool.slots index).locked == 0 && decide ((world.pool.slots index).sticky ≤ 0)
  | .loading index, .loaded none => decide ((world.pool.slots index).sticky ≤ 0)
  | _, _ => true

/-- A slot that is locked goes neither to another character nor to another thread, until the
thread that holds it lets go of it; one that is in use keeps its character. -/
structure Kept (thread : Nat) (old new : Slot) : Prop where
  locked : old.locked ≠ 0 → new.locked = old.locked ∨ new.locked = 0 ∧ old.locked = thread
  character : old.locked ≠ 0 →
    new.characterID = old.characterID ∨ new.characterID = 0 ∧ old.locked = thread
  inUse : 0 < old.sticky → new.characterID = old.characterID

/-- Each step keeps what is locked or in use, and no two slots ever hold one character. -/
def Exclusive (size : Nat) (world : World) : List (Nat × Call) → Prop
  | [] => Unique size world.pool.slots
  | (thread, call) :: calls => Unique size world.pool.slots ∧
      ∀ after, step size world thread call = some after →
        (∀ index, index < size → Kept thread (world.pool.slots index) (after.pool.slots index)) ∧
          Exclusive size after calls

def allMeet (size : Nat) (world : World) : List (Nat × Call) → Bool
  | [] => true
  | (thread, call) :: calls =>
      meets size world thread call &&
        match step size world thread call with
        | none => true
        | some after => allMeet size after calls

/-- `init_player_pool`, before any thread begins. -/
def start (files : UInt32 → Stored) : World := ⟨⟨fun _ => zeroed, files⟩, fun _ => .idle⟩

variable {size thread index : Nat} {world after : World} {call : Call}

/-- The slot that a thread is loading, or has not yet given back after it failed to. -/
def Local.slot : Local → Option Nat
  | .loading index => some index
  | .emptied index => some index
  | _ => none

def Holds (world : World) : Prop :=
  ∀ thread index, (world.threads thread).slot = some index →
    thread ≠ 0 ∧ (world.pool.slots index).locked = thread

/-- All that a step can do to the lock and the character of a slot. -/
inductive SlotChange (size thread : Nat) (slots : Nat → Slot) (old new : Slot) : Prop
  | quiet (character : new.characterID = old.characterID) (lock : new.locked = old.locked)
  | locks (free : old.locked = 0) (character : new.characterID = old.characterID)
  | releases (own : old.locked = thread) (freed : new.locked = 0)
      (character : new.characterID = old.characterID)
  | assigns (free : old.locked = 0) (unused : old.sticky ≤ 0)
      (absent : ∀ other, other < size → (slots other).characterID ≠ new.characterID)
  | drops (own : old.locked = thread) (unused : old.sticky ≤ 0) (dropped : new.characterID = 0)
      (lock : new.locked = old.locked)

def Changes (size thread : Nat) (before after : Nat → Slot) : Prop :=
  ∃ place, SlotChange size thread before (before place) (after place) ∧
    ∀ other, other ≠ place → after other = before other

section Changes

variable {before later : Nat → Slot} {old new : Slot}

theorem kept_same (slot : Slot) : Kept thread slot slot :=
  ⟨fun _ => Or.inl rfl, fun _ => Or.inl rfl, fun _ => rfl⟩

theorem change_kept (change : SlotChange size thread before old new) : Kept thread old new := by
  cases change with
  | quiet character lock =>
    exact ⟨fun _ => Or.inl lock, fun _ => Or.inl character, fun _ => character⟩
  | locks free character =>
    exact ⟨fun locked => absurd free locked, fun _ => Or.inl character, fun _ => character⟩
  | releases own freed character =>
    exact ⟨fun _ => Or.inr ⟨freed, own⟩, fun _ => Or.inl character, fun _ => character⟩
  | assigns free unused absent =>
    exact ⟨fun locked => absurd free locked, fun locked => absurd free locked,
      fun inUse => absurd inUse (not_lt.mpr unused)⟩
  | drops own unused dropped lock =>
    exact ⟨fun _ => Or.inl lock, fun _ => Or.inr ⟨dropped, own⟩,
      fun inUse => absurd inUse (not_lt.mpr unused)⟩

theorem changes_kept (changes : Changes size thread before later) (index : Nat) :
    Kept thread (before index) (later index) := by
  rcases changes with ⟨place, change, others⟩
  by_cases here : index = place
  · rw [here]
    exact change_kept change
  rw [others index here]
  exact kept_same _

theorem changes_none (same : later = before) : Changes size thread before later := by
  rw [same]
  exact ⟨0, .quiet rfl rfl, fun _ _ => rfl⟩

theorem changes_unique (changes : Changes size thread before later) (unique : Unique size before) :
    Unique size later := by
  rcases changes with ⟨place, change, others⟩
  apply unique_after unique others
  cases change with
  | quiet character _ => exact Or.inl character
  | locks _ character => exact Or.inl character
  | releases _ _ character => exact Or.inl character
  | assigns _ _ absent => exact Or.inr (Or.inr absent)
  | drops _ _ dropped _ => exact Or.inr (Or.inl dropped)

theorem changes_at {pool : Pool} {change : Slot → Slot}
    (changed : SlotChange size thread pool.slots (pool.slots index) (change (pool.slots index))) :
    Changes size thread pool.slots (pool.change index change).slots := by
  refine ⟨index, ?_, fun other different => change_other different⟩
  rw [change_self]
  exact changed

theorem attach_slot_changes (pool : Pool) :
    Changes size thread pool.slots (attachSlot pool thread index).slots := by
  rw [attachSlot]
  split_ifs with free
  · exact changes_at (.locks free rfl)
  · exact changes_none rfl

theorem release_changes (pool : Pool) :
    Changes size thread pool.slots (releasePlayerPoolSlot pool thread index).slots := by
  rw [releasePlayerPoolSlot]
  split_ifs with free other
  · exact changes_none rfl
  · exact changes_none rfl
  · exact changes_at (.releases (not_not.mp other) rfl rfl)

theorem attach_changes {pool : Pool} {characterID : UInt32} :
    Changes size thread pool.slots
      (attachPlayerPoolSlot size pool thread characterID).2.slots := by
  rcases attach_cases (Prod.mk.eta (p := attachPlayerPoolSlot size pool thread characterID)).symm
    with ⟨same, _⟩ | ⟨place, _, _, _, free, same⟩
  · rw [same]
    exact changes_none rfl
  rw [same]
  exact changes_at (.locks free rfl)

theorem save_slot_changes (pool : Pool) :
    Changes size thread pool.slots (savePlayerPoolSlot pool index).slots := by
  refine ⟨index, ?_, fun other different => save_slot_other different⟩
  rw [save_slot_self]
  exact .quiet rfl rfl

theorem assign_changes {pool : Pool} {characterID : UInt32} (thread : Nat) (dontWait : Bool)
    (fine : (characterID == 0 || (getPlayerPoolSlot size pool characterID).isSome ||
      match findSlot size pool fun slot => slot.characterID == 0 with
      | none => true
      | some index => (pool.slots index).locked == 0 && decide ((pool.slots index).sticky ≤ 0)) =
        true) :
    Changes size thread pool.slots
        (assignPlayerPoolSlot size pool thread characterID dontWait).2.slots ∧
      ∀ index, (assignPlayerPoolSlot size pool thread characterID dontWait).1 = .fresh index →
        ((assignPlayerPoolSlot size pool thread characterID dontWait).2.slots index).locked =
          thread := by
  generalize assigned : assignPlayerPoolSlot size pool thread characterID dontWait = outcome
  rcases assign_cases (assigned.trans (Prod.mk.eta (p := outcome)).symm)
    with ⟨same, refused | waiting⟩ | ⟨place, isLocked, _, _, free, same⟩ |
      ⟨place, isShared, _, _, _, same⟩ | ⟨place, isFresh, _, nonzero, absent, free, now, others⟩
  · refine ⟨changes_none (congrArg Pool.slots same), ?_⟩
    intro index fresh
    rw [refused] at fresh
    cases fresh
  · refine ⟨changes_none (congrArg Pool.slots same), ?_⟩
    intro index fresh
    rw [waiting] at fresh
    cases fresh
  · rw [same]
    refine ⟨changes_at (.locks free rfl), ?_⟩
    intro index fresh
    rw [isLocked] at fresh
    cases fresh
  · rw [same]
    refine ⟨changes_at (.quiet rfl rfl), ?_⟩
    intro index fresh
    rw [isShared] at fresh
    cases fresh
  · have unlocked : (pool.slots place).locked = 0 ∧ (pool.slots place).sticky ≤ 0 := by
      rcases free with ⟨_, found⟩ | both
      · simp only [found, Bool.or_eq_true, beq_iff_eq, Bool.and_eq_true, decide_eq_true_eq]
          at fine
        rcases fine with (zero | known) | both
        · exact absurd zero nonzero
        · rcases Option.isSome_iff_exists.mp known with ⟨other, isOther⟩
          have here := get_slot_some isOther
          exact absurd here.2.1 (absent other here.1)
        · exact both
      · exact ⟨both.1, le_of_eq both.2⟩
    refine ⟨⟨place, ?_, others⟩, ?_⟩
    · apply SlotChange.assigns unlocked.1 unlocked.2
      rw [now]
      exact absent
    intro index fresh
    rw [isFresh] at fresh
    cases fresh
    rw [now]
    rfl

end Changes

/-- What a step of a thread shows of itself, apart from the locks that others hold. -/
structure Moved (size thread : Nat) (world after : World) : Prop where
  changes : Changes size thread world.pool.slots after.pool.slots
  others : ∀ other, other ≠ thread → after.threads other = world.threads other
  own : ∀ index, (after.threads thread).slot = some index →
    (after.pool.slots index).locked = thread

theorem moved_on {pool : Pool} {now : Local}
    (changes : Changes size thread world.pool.slots pool.slots)
    (own : ∀ index, now.slot = some index → (pool.slots index).locked = thread) :
    Moved size thread world (world.goOn thread pool now) := by
  constructor
  · exact changes
  · intro other different
    exact Function.update_of_ne different _ _
  · intro index middle
    have isNow : (world.goOn thread pool now).threads thread = now := Function.update_self _ _ _
    rw [isNow] at middle
    exact own index middle

theorem moved_free {pool : Pool} {now : Local}
    (changes : Changes size thread world.pool.slots pool.slots) (free : now.slot = none) :
    Moved size thread world (world.goOn thread pool now) := by
  apply moved_on changes
  intro index middle
  rw [free] at middle
  cases middle

theorem moved_holds (holds : Holds world) (nonzero : thread ≠ 0)
    (moved : Moved size thread world after) : Holds after := by
  intro other index middle
  by_cases same : other = thread
  · rw [same] at middle ⊢
    exact ⟨nonzero, moved.own index middle⟩
  rw [moved.others other same] at middle
  have held := holds other index middle
  refine ⟨held.1, ?_⟩
  have locked : (world.pool.slots index).locked ≠ 0 := by
    rw [held.2]
    exact held.1
  rcases (changes_kept moved.changes index).locked locked with kept | released
  · exact kept.trans held.2
  · exact absurd (held.2.symm.trans released.2) same

theorem idle_moved (idle : world.threads thread = .idle)
    (fine : meets size world thread call = true)
    (stepped : step size world thread call = some after) : Moved size thread world after := by
  unfold step at stepped
  rw [idle] at stepped
  split_ifs at stepped with zero
  cases call with
  | assign characterID dontWait =>
    simp only [meets, idle] at fine
    rcases assign_changes thread dontWait fine with ⟨changes, fresh⟩
    simp only at stepped
    cases result : (assignPlayerPoolSlot size world.pool thread characterID dontWait).1 with
    | fresh index =>
      rw [result] at stepped
      cases stepped
      apply moved_on changes
      intro place same
      cases same
      exact fresh index result
    | _ =>
      rw [result] at stepped
      cases stepped
      exact moved_free changes rfl
  | attach characterID =>
    cases stepped
    exact moved_free attach_changes rfl
  | attachSlot index =>
    cases stepped
    exact moved_free (attach_slot_changes _) rfl
  | release index =>
    cases stepped
    exact moved_free (release_changes _) rfl
  | increase index =>
    cases stepped
    exact moved_free (changes_at (.quiet rfl rfl)) rfl
  | decrease index =>
    cases stepped
    exact moved_free (changes_at (.quiet rfl rfl)) rfl
  | useData index dirty lastLogoutTime stored =>
    cases stepped
    exact moved_free (changes_at (.quiet rfl rfl)) rfl
  | savePlayerPoolSlots now =>
    cases stepped
    exact moved_free (changes_none rfl) rfl
  | loaded result => cases stepped
  | next => cases stepped

theorem loaded_moved (holds : Holds world) (loading : world.threads thread = .loading index)
    {result : Option Stored} (fine : meets size world thread (.loaded result) = true)
    (stepped : step size world thread (.loaded result) = some after) :
    Moved size thread world after := by
  have held := (holds thread index (by rw [loading]; rfl)).2
  unfold step at stepped
  rw [loading] at stepped
  split_ifs at stepped with zero
  cases result with
  | some stored =>
    cases stepped
    exact moved_free (changes_at (.quiet rfl rfl)) rfl
  | none =>
    cases stepped
    simp only [meets, loading, decide_eq_true_eq] at fine
    apply moved_on (changes_at (.drops held fine rfl rfl))
    intro place same
    cases same
    rw [change_self]
    exact held

/-- The second write after a failed load, and the steps of `save_player_pool_slots`. -/
theorem next_moved (holds : Holds world) (stepped : step size world thread .next = some after) :
    Moved size thread world after := by
  unfold step at stepped
  split_ifs at stepped with zero
  cases now : world.threads thread with
  | idle =>
    rw [now] at stepped
    cases stepped
  | loading index =>
    rw [now] at stepped
    cases stepped
  | emptied index =>
    have held := (holds thread index (by rw [now]; rfl)).2
    rw [now] at stepped
    cases stepped
    exact moved_free (changes_at (.releases held rfl rfl)) rfl
  | looking moment index =>
    rw [now] at stepped
    cases stepped
    apply moved_free (changes_none rfl)
    split_ifs <;> rfl
  | attaching moment index =>
    rw [now] at stepped
    cases stepped
    exact moved_free (attach_slot_changes _) rfl
  | attached moment index =>
    rw [now] at stepped
    cases stepped
    apply moved_free (changes_none rfl)
    split_ifs <;> rfl
  | saving moment index =>
    rw [now] at stepped
    cases stepped
    exact moved_free (save_slot_changes _) rfl
  | releasing moment index =>
    rw [now] at stepped
    cases stepped
    exact moved_free (release_changes _) rfl

theorem step_moved (holds : Holds world) (fine : meets size world thread call = true)
    (stepped : step size world thread call = some after) : Moved size thread world after := by
  cases now : world.threads thread with
  | idle => exact idle_moved now fine stepped
  | loading index =>
    cases call with
    | loaded result => exact loaded_moved holds now fine stepped
    | next => exact next_moved holds stepped
    | _ =>
      unfold step at stepped
      rw [now] at stepped
      split_ifs at stepped
  | _ =>
    cases call with
    | next => exact next_moved holds stepped
    | _ =>
      unfold step at stepped
      rw [now] at stepped
      split_ifs at stepped

theorem run_exclusive (calls : List (Nat × Call)) (holds : Holds world)
    (unique : Unique size world.pool.slots) (fine : allMeet size world calls = true) :
    Exclusive size world calls := by
  induction calls generalizing world with
  | nil => exact unique
  | cons call calls ih =>
    rw [allMeet, Bool.and_eq_true] at fine
    refine ⟨unique, ?_⟩
    intro after stepped
    have moved := step_moved holds fine.1 stepped
    have later := fine.2
    rw [stepped] at later
    refine ⟨fun index _ => changes_kept moved.changes index, ?_⟩
    apply ih
    · apply moved_holds holds _ moved
      intro zero
      unfold step at stepped
      rw [if_pos zero] at stepped
      cases stepped
    · exact changes_unique moved.changes unique
    · exact later

theorem start_holds (files : UInt32 → Stored) : Holds (start files) := by nofun

/-- Whatever the threads do in any order: as long as no load fails while its slot is in use and
no slot is taken between the two writes that follow a failed load, each step leaves locked slots
to their holders and no character is in two slots. -/
theorem pool_is_exclusive (size : Nat) (files : UInt32 → Stored) (calls : List (Nat × Call))
    (fine : allMeet size (start files) calls = true) : Exclusive size (start files) calls := by
  apply run_exclusive calls (start_holds files) _ fine
  intro left _ right _ occupied _
  exact absurd rfl occupied

/-- A load that fails, and another thread that comes for the slot after it was given back. -/
def failsAlone : List (Nat × Call) :=
  [(1, .assign 7 false), (1, .loaded none), (1, .next), (2, .assign 9 true), (2, .loaded (some nothing)),
    (1, .assign 9 true), (2, .release 0), (1, .savePlayerPoolSlots 1000), (1, .next)]

theorem fails_alone_exclusive : allMeet 1 (start fun _ => nothing) failsAlone = true ∧
    Exclusive 1 (start fun _ => nothing) failsAlone :=
  ⟨by decide, pool_is_exclusive 1 _ failsAlone (by decide)⟩

/-- The second thread comes between the two writes of the first. -/
def takenBetween : List (Nat × Call) :=
  [(1, .assign 7 false), (1, .loaded none), (2, .assign 9 false)]

theorem taken_between_two_writes : ¬ Exclusive 1 (start fun _ => nothing) takenBetween := by
  intro exclusive
  have first := (exclusive.2 _ rfl).2
  have second := (first.2 _ rfl).2
  have third := (second.2 _ rfl).1 0 (by decide)
  rcases third.locked (by decide) with same | freed
  · exact absurd same (by decide)
  · exact absurd freed.1 (by decide)

end TibiaGame.PoolExclusivity
