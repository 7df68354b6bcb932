import TibiaGame.StickyRuns

/-!
# The game thread and the references to slots

The game thread takes logins and replies from their queues, enters players into the game and
lets them go. Its steps keep the references in balance as those of the other threads do, so
that every run of allowed steps does.
-/

namespace TibiaGame.StickyGame

open PlayerPool PlayerSessions StickyBalance StickyRuns Function

variable {size count thread index : Nat} {world after : World} {characterID : UInt32}
  {pool : Pool}

section Game

variable {now old : Local} {place : Nat} {change : Int}

theorem settled_now (slots : Nat → Slot) : Settled size slots gameThread .idle := by
  constructor
  · nofun
  · nofun
  · nofun
  · intro _ foreign
    exact absurd rfl foreign
  · nofun
  · intro _
    exact Or.inl rfl

theorem refs_game (within : gameThread < count) (before : world.threads gameThread = old)
    (threads : after.threads = update world.threads gameThread now)
    (carries : ∀ characterID,
      (carried gameThread now characterID + after.logins.count characterID +
          after.replies.count characterID + inGame after characterID : Int) =
        carried gameThread old characterID + world.logins.count characterID +
          world.replies.count characterID + inGame world characterID +
          if characterID = (world.pool.slots place).characterID then change else 0)
    (characterID : UInt32) : (refs count after characterID : Int) = refs count world characterID +
      if characterID = (world.pool.slots place).characterID then change else 0 := by
  have references := refs_after characterID within threads
  have moved := carries characterID
  rw [before] at references
  rw [carried, carried] at moved
  omega

/-- A step of the game thread that no player enters or leaves the game by. -/
theorem game_go (balanced : Balanced size count world) (within : gameThread < count)
    (before : world.threads gameThread = old)
    (threads : after.threads = update world.threads gameThread now)
    (online : after.online = world.online)
    (affects : Affects size gameThread world.pool.slots after.pool.slots place change)
    (own : Settled size after.pool.slots gameThread now)
    (released : (after.pool.slots place).locked = 0 →
      ∀ characterID, world.online characterID ≠ some place) (bound : Bound world.online now)
    (carries : ∀ characterID,
      (carried gameThread now characterID + after.logins.count characterID +
          after.replies.count characterID : Int) =
        carried gameThread old characterID + world.logins.count characterID +
          world.replies.count characterID +
          if characterID = (world.pool.slots place).characterID then change else 0) :
    Balanced size count after := by
  apply game_balanced balanced within threads affects own
  · intro characterID index playing
    rw [online] at playing
    exact playing_game balanced affects released playing
  · rw [online]
    exact bound
  · apply refs_game within before threads
    intro characterID
    have moved := carries characterID
    have game : inGame after characterID = inGame world characterID := by
      rw [inGame, inGame, online]
    rw [game]
    omega

theorem game_quiet (balanced : Balanced size count world) (within : gameThread < count)
    (before : world.threads gameThread = .idle)
    (threads : after.threads = world.threads) (online : after.online = world.online)
    (logins : after.logins = world.logins) (replies : after.replies = world.replies)
    (affects : Affects size gameThread world.pool.slots after.pool.slots place 0)
    (lock : (after.pool.slots place).locked = (world.pool.slots place).locked) :
    Balanced size count after := by
  have still : after.threads = update world.threads gameThread .idle := by
    rw [← before, update_eq_self]
    exact threads
  apply game_go balanced within before still online affects (settled_now _)
  · intro freed characterID playing
    have locked := (balanced.playing characterID place playing).2.2.2
    rw [← lock, freed] at locked
    exact absurd locked (by decide)
  · exact bound_loose rfl rfl
  · intro characterID
    rw [logins, replies, ite_self]
    omega

theorem attached_affects (delivered : Option Depots) (free : (pool.slots index).locked = 0) :
    Affects size gameThread pool.slots
      (deliver (pool.change index fun slot => { slot with locked := gameThread }) index
        delivered).slots index 0 := by
  have slot := attached_slot pool index delivered
  refine ⟨fun changed => absurd rfl changed, .locks free slot.2 slot.1 ?_, ?_⟩
  · rw [deliver_slot.2.2, change_self]
  · intro other different
    exact (deliver_other different).trans (change_other different)

theorem slot_found (balanced : Balanced size count world)
    (referred : refs count world characterID ≠ 0) :
    getPlayerPoolSlot size world.pool characterID ≠ none := by
  intro missing
  rcases balanced.present characterID referred with ⟨nonzero, index, within, holds⟩
  exact get_slot_none missing nonzero within holds

section

variable (balanced : Balanced size count world) (within : gameThread < count)
    (before : world.threads gameThread = .idle)
include balanced within before

theorem mail_balanced {delivered : Option Depots}
    (next : gameStep size world (.mail characterID delivered) = some after) :
    Balanced size count after := by
  rw [gameStep] at next
  rcases playing : world.online characterID with _ | index
  · rw [playing] at next
    cases next
    exact balanced_orders balanced _
  rw [playing] at next
  cases next
  exact game_quiet balanced within before rfl rfl rfl rfl (deliver_affects delivered)
    deliver_slot.2.1

theorem play_balanced {stored : Stored}
    (next : gameStep size world (.play characterID stored) = some after) :
    Balanced size count after := by
  rw [gameStep] at next
  rcases playing : world.online characterID with _ | index
  · rw [playing] at next
    cases next
  rw [playing] at next
  cases next
  apply game_quiet balanced within before
  · rfl
  · rfl
  · rfl
  · rfl
  · apply quiet_at
    all_goals rfl
  · rw [change_self]

theorem leave_balanced {fate : Fate}
    (next : gameStep size world (.leave characterID fate) = some after) :
    Balanced size count after := by
  rw [gameStep] at next
  rcases playing : world.online characterID with _ | index
  · rw [playing] at next
    cases next
  rw [playing] at next
  cases next
  have here := balanced.playing characterID index playing
  have affects : Affects size gameThread world.pool.slots
      (leavePool world.pool index fate).slots index 0 := quiet_at rfl rfl rfl
  have holds : ((leavePool world.pool index fate).slots index).characterID = characterID := by
    unfold leavePool
    rw [change_self]
    exact here.2.2.1
  have locked : ((leavePool world.pool index fate).slots index).locked = gameThread := by
    unfold leavePool
    rw [change_self]
    exact here.2.2.2
  apply game_go balanced within before
  · rfl
  · rfl
  · exact affects
  · apply settled_game
    · rfl
    · nofun
    · intro other place working
      cases working
      exact ⟨here.1, here.2.1, holds⟩
  · intro freed
    have lockedGame := locked.symm.trans freed
    exact absurd lockedGame (by decide)
  · constructor
    · nofun
    · nofun
    · intro other place late isLeaving
      cases isLeaving
      exact playing
  · intro other
    rw [ite_self]
    rfl

theorem take_login_balanced {place : Nat} {gone : Bool}
    (next : gameStep size world (.takeLogin place gone) = some after) :
    Balanced size count after := by
  rw [gameStep] at next
  rcases queued : world.logins[place]? with _ | characterID
  · rw [queued] at next
    cases next
  rcases List.getElem?_eq_some_iff.mp queued with ⟨inside, here⟩
  have counts : ∀ other, world.logins.count other =
      (world.logins.eraseIdx place).count other + if other = characterID then 1 else 0 := by
    intro other
    rw [← (List.getElem_cons_eraseIdx_perm inside).count_eq, List.count_cons, here]
    split_ifs with left right right
    · rfl
    · exact absurd (beq_iff_eq.mp left).symm right
    · exact absurd (beq_iff_eq.mpr right.symm) left
    · rfl
  have waiting : world.logins.count characterID ≠ 0 := by
    rw [counts, if_pos rfl]
    omega
  have referred : refs count world characterID ≠ 0 := by
    rw [refs, loginsOpen]
    omega
  have going : ∀ now, ofGame now = true → locks now = none →
      (∀ other index, works now = some (other, index) →
        index < size ∧ other ≠ 0 ∧ (world.pool.slots index).characterID = other) →
      Bound world.online now → (∀ other, carried gameThread now other = if other = characterID then 1 else 0) →
      Balanced size count { world with
        logins := world.logins.eraseIdx place
        threads := update world.threads gameThread now } := by
    intro now isGame unlocks working bound carries
    apply game_go balanced within before
    · rfl
    · rfl
    · exact affects_none 0
    · apply settled_game isGame
      · intro index isLocked
        rw [unlocks] at isLocked
        cases isLocked
      · exact working
    · intro freed other playing
      have locked := (balanced.playing other 0 playing).2.2.2
      exact absurd (locked.symm.trans freed) (by decide)
    · exact bound
    · intro other
      rw [carries, counts, ite_self]
      have idle : carried gameThread .idle other = 0 := rfl
      rw [idle]
      push_cast
      omega
  simp only [queued] at next
  rcases playing : world.online characterID with _ | _
  · rw [playing] at next
    cases next
    apply going (.joining characterID) rfl rfl
    · rintro _ _ ⟨⟩
    · constructor
      · rintro _ ⟨⟩
      · intro other isJoining
        cases isJoining
        exact playing
      · rintro _ _ _ ⟨⟩
    · exact carried_waiting gameThread 0 characterID
  rw [playing] at next
  by_cases isGone : gone = true
  · simp only [isGone, if_true] at next
    cases next
    apply going (.refusing characterID) rfl rfl
    · rintro _ _ ⟨⟩
    · exact bound_loose rfl rfl
    · exact carried_waiting gameThread 0 characterID
  simp only [isGone] at next
  rcases found : getPlayerPoolSlot size world.pool characterID with _ | index
  · exact absurd found (slot_found balanced referred)
  have spec := get_slot_some found
  have several : 1 < (world.pool.slots index).sticky := by
    have occupied : (world.pool.slots index).characterID ≠ 0 := by
      rw [spec.2.1]
      exact spec.2.2
    rw [balanced.counted index spec.1 occupied, spec.2.1, refs, loginsOpen, inGame,
      playing, Option.isSome_some, if_pos rfl]
    omega
  rw [found] at next
  simp only [several, if_true] at next
  cases next
  apply going (.lowering characterID index) rfl rfl
  · intro other place working
    cases working
    exact ⟨spec.1, spec.2.2, spec.2.1⟩
  · exact bound_loose rfl rfl
  · exact carried_waiting gameThread 0 characterID

/-- A reply that is taken finds the slot, which is not locked then. -/
theorem take_reply_balanced {delivered : Option Depots}
    (meeting : meets size world gameThread (.takeReply delivered) = true)
    (next : gameStep size world (.takeReply delivered) = some after) :
    Balanced size count after := by
  rw [gameStep] at next
  simp only [meets, before] at meeting
  rcases queued : world.replies with _ | ⟨characterID, replies⟩
  · rw [queued] at next
    cases next
  have counts : ∀ other, world.replies.count other =
      replies.count other + if other = characterID then 1 else 0 := by
    intro other
    rw [queued, List.count_cons]
    split_ifs with left right right
    · rfl
    · exact absurd (beq_iff_eq.mp left).symm right
    · exact absurd (beq_iff_eq.mpr right.symm) left
    · rfl
  have waiting : world.replies.count characterID ≠ 0 := by
    rw [counts, if_pos rfl]
    omega
  have referred : refs count world characterID ≠ 0 := by
    rw [refs, repliesOpen]
    omega
  have someone := (balanced.present characterID referred).1
  rw [queued] at meeting
  simp only [queued] at next
  cases attached : attachPlayerPoolSlot size world.pool gameThread characterID with
  | mk result pool =>
    rcases attach_cases attached with ⟨_, missing | ⟨_, index, found, locked⟩⟩ |
      ⟨index, locked, inside, holds, free, same⟩
    · exact absurd missing.2 (slot_found balanced referred)
    · have spec := get_slot_some found
      exact absurd (unlocked_spec balanced.unique meeting spec.1 someone spec.2.1) locked
    · simp only [attached, locked] at next
      cases next
      have slot := attached_slot world.pool index delivered
      have affects := @attached_affects size index world.pool delivered free
      rw [← same] at slot affects
      apply game_go balanced within before
      · rfl
      · rfl
      · exact affects
      · apply settled_game
        · rfl
        · intro place isLocked
          cases isLocked
          exact slot.2
        · intro other place working
          cases working
          exact ⟨inside, someone, slot.1.trans holds⟩
      · intro freed
        exact absurd (slot.2.symm.trans freed) (by decide)
      · apply bound_steady rfl
        intro place isLocked other playing
        cases isLocked
        have lockedGame := (balanced.playing other index playing).2.2.2
        exact absurd (lockedGame.symm.trans free) (by decide)
      · intro other
        have answers : carried gameThread (.answering characterID index) other =
            if other = characterID then 1 else 0 := by
          simp only [carried, openLogin, openReply, amount_none, amount_some, zero_add]
        have idle : carried gameThread .idle other = 0 := rfl
        simp only [World.goOn, answers, counts, idle, ite_self]
        push_cast
        omega

end

theorem in_game_moved {place : Option Nat}
    (online : after.online = update world.online characterID place) (other : UInt32) :
    inGame after other =
      if other = characterID then (if place.isSome then 1 else 0) else inGame world other := by
  rw [inGame, inGame, online]
  by_cases here : other = characterID
  · rw [here, if_pos rfl, update_self]
  · rw [if_neg here, update_of_ne here]

variable (balanced : Balanced size count world) (within : gameThread < count)
include balanced within

section

variable {blocked : Bool} {delivered : Option Depots}

/-- The player enters the game, whose login was the one that is carried. -/
theorem joining_balanced (before : world.threads gameThread = .joining characterID)
    (next : goNext size world gameThread blocked delivered (.joining characterID) = some after) :
    Balanced size count after := by
  have outside := balanced.joining characterID before
  have joins : ∀ other, carried gameThread (.joining characterID) other =
      if other = characterID then 1 else 0 := carried_waiting gameThread 0 characterID
  have referred : refs count world characterID ≠ 0 := by
    apply refs_of_login within
    rw [before]
    rfl
  have someone := (balanced.present characterID referred).1
  rw [goNext] at next
  cases attached : attachPlayerPoolSlot size world.pool gameThread characterID with
  | mk result pool =>
    rcases attach_cases attached with ⟨_, missing | busy⟩ |
      ⟨index, locked, inside, holds, free, same⟩
    · exact absurd missing.2 (slot_found balanced referred)
    · simp only [attached, busy.1] at next
      cases next
    · simp only [attached, locked] at next
      have slot := attached_slot world.pool index delivered
      have affects := @attached_affects size index world.pool delivered free
      rw [← same] at slot affects
      have threads : after.threads = update world.threads gameThread .idle := by
        rw [← Option.some.inj next]
        rfl
      have online : after.online = update world.online characterID (some index) := by
        rw [← Option.some.inj next]
      have slots : after.pool.slots = (deliver pool index delivered).slots := by
        rw [← Option.some.inj next]
        rfl
      have queues : after.logins = world.logins ∧ after.replies = world.replies := by
        rw [← Option.some.inj next]
        exact ⟨rfl, rfl⟩
      rw [← slots] at slot affects
      apply game_balanced balanced within threads affects (settled_now _)
      · intro other place playing
        rw [online] at playing
        by_cases here : other = characterID
        · rw [here, update_self] at playing
          cases playing
          rw [here]
          exact ⟨inside, someone, slot.1.trans holds, slot.2⟩
        rw [update_of_ne here] at playing
        apply playing_game balanced affects _ playing
        intro freed
        exact absurd (slot.2.symm.trans freed) (by decide)
      · exact bound_loose rfl rfl
      · apply refs_game within before threads
        intro other
        have idle : carried gameThread .idle other = 0 := rfl
        have was : inGame world characterID = 0 := by
          rw [inGame, outside]
          rfl
        rw [joins, idle, ite_self, queues.1, queues.2, in_game_moved online, Option.isSome_some]
        split_ifs with here wrong
        · rw [here, was]
          omega
        · exact absurd rfl wrong
        · omega

theorem leaving_balanced {late : Option Inventory}
    (before : world.threads gameThread = .leaving characterID index late)
    (next : goNext size world gameThread blocked delivered (.leaving characterID index late) =
      some after) : Balanced size count after := by
  have online := balanced.leaving characterID index late before
  have here := balanced.playing characterID index online
  have occupied : (world.pool.slots index).characterID ≠ 0 := by
    rw [here.2.2.1]
    exact here.2.1
  have locked : ((decreasePlayerPoolSlotSticky world.pool index).slots index).locked =
      gameThread := by
    rw [decreasePlayerPoolSlotSticky, change_self]
    exact here.2.2.2
  have affects : Affects size gameThread world.pool.slots
      (decreasePlayerPoolSlotSticky world.pool index).slots index (-1) :=
    affects_at (fun _ => here.1) (.counts (-1) occupied rfl rfl rfl)
  have still : ∀ other place, update world.online characterID none other = some place →
      other ≠ characterID ∧ world.online other = some place := by
    intro other place playing
    by_cases gone : other = characterID
    · rw [gone, update_self] at playing
      cases playing
    rw [update_of_ne gone] at playing
    exact ⟨gone, playing⟩
  rw [goNext] at next
  have threads : after.threads = update world.threads gameThread
      (.releasing characterID index late) := by
    rw [← Option.some.inj next]
    rfl
  have moved : after.online = update world.online characterID none := by
    rw [← Option.some.inj next]
  have slots : after.pool.slots = (decreasePlayerPoolSlotSticky world.pool index).slots := by
    rw [← Option.some.inj next]
    rfl
  have queues : after.logins = world.logins ∧ after.replies = world.replies := by
    rw [← Option.some.inj next]
    exact ⟨rfl, rfl⟩
  rw [← slots] at locked affects
  rw [← moved] at still
  apply game_balanced balanced within threads affects
  · apply settled_game
    · rfl
    · intro place isLocked
      cases isLocked
      exact locked
    · rintro _ _ ⟨⟩
  · intro other place playing
    apply playing_game balanced affects _ (still other place playing).2
    intro freed
    exact absurd (locked.symm.trans freed) (by decide)
  · apply bound_steady rfl
    intro place isLocked other playing
    cases isLocked
    have stays := still other index playing
    have same := (balanced.playing other index stays.2).2.2.1
    exact stays.1 (same.symm.trans here.2.2.1)
  · apply refs_game within before threads
    intro other
    have leaves : carried gameThread (.leaving characterID index late) other = 0 := rfl
    have releases : carried gameThread (.releasing characterID index late) other = 0 := rfl
    have was : inGame world characterID = 1 := by
      rw [inGame, online]
      rfl
    rw [leaves, releases, here.2.2.1, queues.1, queues.2, in_game_moved moved, Option.isSome_none]
    split_ifs with gone wrong
    · cases wrong
    · rw [gone, was]
      omega
    · omega

/-- The game thread lowers the counter of a slot that it was counted at. -/
theorem lowered_balanced (before : world.threads gameThread = old) (inside : index < size)
    (nonzero : characterID ≠ 0) (holds : (world.pool.slots index).characterID = characterID)
    (own : Settled size (decreasePlayerPoolSlotSticky world.pool index).slots gameThread now)
    (steady : isSteady now = true)
    (stays : ∀ place, locks now = some place → locks old = some place)
    (was : ∀ other, carried gameThread old other = if other = characterID then 1 else 0)
    (gone : ∀ other, carried gameThread now other = 0) :
    Balanced size count (world.goOn gameThread (decreasePlayerPoolSlotSticky world.pool index) now) := by
  have lock : ((decreasePlayerPoolSlotSticky world.pool index).slots index).locked =
      (world.pool.slots index).locked := by
    rw [decreasePlayerPoolSlotSticky, change_self]
  apply game_go balanced within before
  · rfl
  · rfl
  · exact affects_at (fun _ => inside) (.counts (-1) (holds ▸ nonzero) rfl rfl rfl)
  · exact own
  · intro freed other playing
    have locked := (balanced.playing other index playing).2.2.2
    exact absurd (locked.symm.trans (lock.symm.trans freed)) (by decide)
  · apply bound_steady steady
    intro place isLocked
    apply balanced.apart
    rw [before]
    exact stays place isLocked
  · intro other
    rw [was, gone, holds]
    simp only [World.goOn]
    split_ifs
    · omega
    · omega

/-- The game thread gives a slot back that no player in the game has. -/
theorem given_back_balanced (before : world.threads gameThread = old)
    (isLocked : locks old = some index)
    (own : Settled size (releasePlayerPoolSlot world.pool gameThread index).slots gameThread now)
    (steady : isSteady now = true) (stays : locks now = none)
    (carries : ∀ other, carried gameThread now other = carried gameThread old other) :
    Balanced size count (world.goOn gameThread (releasePlayerPoolSlot world.pool gameThread index)
      now) := by
  have settled := balanced.settled gameThread
  rw [before] at settled
  have held := settled.locked index isLocked
  apply game_go balanced within before
  · rfl
  · rfl
  · exact release_affects held.1 held.2
  · exact own
  · intro _
    apply balanced.apart
    rw [before]
    exact isLocked
  · exact bound_loose steady stays
  · intro other
    rw [carries, ite_self, add_zero]
    rfl

theorem refusing_balanced (before : world.threads gameThread = .refusing characterID)
    (next : goNext size world gameThread blocked delivered (.refusing characterID) = some after) :
    Balanced size count after := by
  have referred : refs count world characterID ≠ 0 := by
    apply refs_of_login within
    rw [before]
    rfl
  rw [goNext] at next
  rcases found : getPlayerPoolSlot size world.pool characterID with _ | index
  · exact absurd found (slot_found balanced referred)
  have spec := get_slot_some found
  simp only [found] at next
  cases next
  apply lowered_balanced balanced within before spec.1 spec.2.2 spec.2.1 (settled_now _) rfl
  · rintro _ ⟨⟩
  · exact carried_waiting gameThread 0 characterID
  · intro _
    rfl

theorem game_next_balanced (before : world.threads gameThread = old)
    (next : goNext size world gameThread blocked delivered old = some after) :
    Balanced size count after := by
  have settled := balanced.settled gameThread
  rw [before] at settled
  cases old with
  | joining characterID => exact joining_balanced balanced within before next
  | refusing characterID => exact refusing_balanced balanced within before next
  | lowering characterID index =>
    have here := settled.working characterID index rfl
    cases next
    apply lowered_balanced balanced within before here.1 here.2.1 here.2.2 (settled_now _) rfl
    · rintro _ ⟨⟩
    · exact carried_waiting gameThread 0 characterID
    · intro _
      rfl
  | leaving characterID index late => exact leaving_balanced balanced within before next
  | releasing characterID index late =>
    rcases late with _ | inventory
    · cases next
      apply given_back_balanced balanced within before rfl (settled_now _) rfl rfl
      intro _
      rfl
    cases next
    apply given_back_balanced balanced within before rfl _ rfl rfl
    · intro _
      rfl
    apply settled_game
    · rfl
    · rintro _ ⟨⟩
    · rintro _ _ ⟨⟩
  | dropping characterID index inventory =>
    cases next
    apply game_go balanced within before
    · rfl
    · rfl
    · apply quiet_at
      all_goals rfl
    · exact settled_now _
    · intro freed other playing
      have locked := (balanced.playing other index playing).2.2.2
      have lock : ((setInventory world.pool index inventory).slots index).locked =
          (world.pool.slots index).locked := by
        rw [setInventory, change_self]
      exact absurd (locked.symm.trans (lock.symm.trans freed)) (by decide)
    · exact bound_loose rfl rfl
    · intro other
      rw [ite_self]
      rfl
  | answering characterID index =>
    have here := settled.working characterID index rfl
    have held := settled.locked index rfl
    cases next
    apply lowered_balanced balanced within before here.1 here.2.1 here.2.2
    · apply settled_game
      · rfl
      · intro place isLocked
        cases isLocked
        rw [decreasePlayerPoolSlotSticky, change_self]
        exact held.2
      · rintro _ _ ⟨⟩
    · rfl
    · intro place isLocked
      exact isLocked
    · intro other
      simp only [carried, openLogin, openReply, amount_none, amount_some, zero_add]
    · intro _
      rfl
  | answered index =>
    cases next
    apply given_back_balanced balanced within before rfl (settled_now _) rfl rfl
    intro _
    rfl
  | idle => cases next
  | _ =>
    rcases settled.crew rfl with idle | isGame
    · cases idle
    · cases isGame

end

end Game

theorem loaded_balanced (result : Bool) (balanced : Balanced size count world)
    (foreign : thread ≠ gameThread) (within : thread < count)
    (before : world.threads thread = .loading characterID index) (change : Slot → Slot)
    (character : (change (world.pool.slots index)).characterID =
      (world.pool.slots index).characterID)
    (lock : (change (world.pool.slots index)).locked = (world.pool.slots index).locked)
    (sticky : (change (world.pool.slots index)).sticky = (world.pool.slots index).sticky) :
    Balanced size count (world.goOn thread (world.pool.change index change)
      (if result then .checking characterID index false else .failed characterID index)) := by
  have affects : Affects size thread world.pool.slots (world.pool.change index change).slots
      index 0 := quiet_at character lock sticky
  have sameCharacter : ((world.pool.change index change).slots index).characterID =
      (world.pool.slots index).characterID := by
    rw [change_self]
    exact character
  have sameLock : ((world.pool.change index change).slots index).locked =
      (world.pool.slots index).locked := by
    rw [change_self]
    exact lock
  cases result with
  | true =>
    apply kept_balanced balanced foreign within before rfl rfl rfl affects sameLock
    · intro other place working
      cases working
      exact ⟨rfl, rfl, sameCharacter⟩
    · apply zero_change
      intro _
      rfl
  | false =>
    apply kept_balanced balanced foreign within before rfl rfl rfl affects sameLock
    · intro other place working
      cases working
      exact ⟨rfl, rfl, sameCharacter⟩
    · apply zero_change
      intro _
      rfl

theorem idle_balanced {call : Call} (balanced : Balanced size count world) (nonzero : thread ≠ 0)
    (within : thread < count) (before : world.threads thread = .idle)
    (meeting : meets size world thread call = true)
    (next : step size count world thread call = some after) : Balanced size count after := by
  unfold step at next
  have here : ¬ (thread = 0 ∨ count ≤ thread) := by omega
  rw [if_neg here, before] at next
  have allowed := meeting
  simp only [meets, before] at allowed
  cases call with
  | login characterID =>
    simp only at next allowed
    split_ifs at next with other
    have foreign : thread ≠ gameThread ∧ thread ≠ readerThread := not_or.mp other
    rw [← Option.some.inj next]
    apply assign_balanced balanced foreign.1 nonzero within before rfl _ allowed
    · intro reader
      exact absurd reader foreign.2
    · intro _
      rfl
  | takeOrder =>
    simp only at next allowed
    split_ifs at next with reader
    have foreign : thread ≠ gameThread := by
      rw [reader]
      decide
    rcases queued : world.orders with _ | ⟨characterID, orders⟩
    · rw [queued] at next
      cases next
    simp only [queued, Bool.and_eq_true] at next allowed
    rw [← Option.some.inj next]
    apply assign_balanced (balanced_orders balanced orders) foreign nonzero within before rfl
      _ allowed.1
    · intro _
      exact allowed.2
    · intro _
      rfl
  | save index =>
    simp only at next
    split_ifs at next with other free
    · have foreign : thread ≠ gameThread := (not_or.mp other).1
      rw [← Option.some.inj next]
      have affects : Affects size thread world.pool.slots
          (attachSlot world.pool thread index).slots index 0 := by
        rw [attachSlot, if_pos free]
        exact affects_at (fun changed => absurd rfl changed) (.locks free rfl rfl rfl)
      apply go_balanced balanced foreign within before affects
      · apply settled_own balanced foreign before affects
        · rintro _ ⟨⟩
        · rfl
        · exact nonzero
        · rfl
        · rw [attachSlot, if_pos free, change_self]
        · rintro _ _ ⟨⟩
      · apply zero_change
        intro _
        rfl
    · rw [← Option.some.inj next]
      exact balanced
  | loaded _ =>
    simp only at next
    split_ifs at next
    cases next
  | next blocked delivered =>
    simp only at next
    split_ifs at next
    cases next
  | mail characterID delivered =>
    simp only at next
    split_ifs at next with isGame
    rw [isGame] at within before
    exact mail_balanced balanced within before next
  | takeLogin place gone =>
    simp only at next
    split_ifs at next with isGame
    rw [isGame] at within before
    exact take_login_balanced balanced within before next
  | takeReply delivered =>
    simp only at next
    split_ifs at next with isGame
    rw [isGame] at within before meeting
    exact take_reply_balanced balanced within before meeting next
  | play characterID stored =>
    simp only at next
    split_ifs at next with isGame
    rw [isGame] at within before
    exact play_balanced balanced within before next
  | leave characterID fate =>
    simp only at next
    split_ifs at next with isGame
    rw [isGame] at within before
    exact leave_balanced balanced within before next

theorem step_balanced {call : Call} (balanced : Balanced size count world)
    (meeting : meets size world thread call = true)
    (next : step size count world thread call = some after) : Balanced size count after := by
  by_cases outside : thread = 0 ∨ count ≤ thread
  · unfold step at next
    rw [if_pos outside] at next
    cases next
  have nonzero : thread ≠ 0 := (not_or.mp outside).1
  have within : thread < count := not_le.mp (not_or.mp outside).2
  have settled := balanced.settled thread
  cases before : world.threads thread with
  | idle => exact idle_balanced balanced nonzero within before meeting next
  | loading characterID index =>
    rw [before] at settled
    have foreign : thread ≠ gameThread := by
      intro isGame
      rcases settled.crew isGame with idle | ofGame
      · cases idle
      · cases ofGame
    unfold step at next
    rw [if_neg outside, before] at next
    cases call with
    | loaded result =>
      simp only at next
      split_ifs at next with isLoaded
      · rw [← Option.some.inj next]
        have loaded := loaded_balanced true balanced foreign within before
          (fun slot => { slot with stored := world.pool.files characterID }) rfl rfl rfl
        exact loaded
      rw [← Option.some.inj next]
      have failed := loaded_balanced false balanced foreign within before
        (fun slot => { slot with stored := nothing }) rfl rfl rfl
      exact failed
    | next blocked delivered => cases next
    | _ => cases next
  | _ =>
    have nexts := next
    unfold step at nexts
    rw [if_neg outside, before] at nexts
    cases call with
    | next blocked delivered =>
      by_cases isGame : thread = gameThread
      · rw [isGame] at within before nexts
        exact game_next_balanced balanced within before nexts
      · exact next_balanced balanced isGame nonzero within before meeting nexts
    | _ => cases nexts

/-- A character that is offline and has no login, order or reply under way. -/
def Quiet (world : World) (characterID : UInt32) : Prop :=
  world.online characterID = none ∧ characterID ∉ world.logins ∧ characterID ∉ world.orders ∧
    characterID ∉ world.replies ∧
    ∀ thread, openLogin thread (world.threads thread) ≠ some characterID ∧
      openReply thread (world.threads thread) ≠ some characterID

/-- The counters of all slots are those of the open logins and replies; they are back at zero
for the characters that nobody uses. -/
def Steady (size count : Nat) (world : World) : Prop :=
  ∀ index, index < size → (world.pool.slots index).characterID ≠ 0 →
    (world.pool.slots index).sticky =
        (loginsOpen count world (world.pool.slots index).characterID +
          repliesOpen count world (world.pool.slots index).characterID : Nat) ∧
      (Quiet world (world.pool.slots index).characterID → (world.pool.slots index).sticky = 0)

def Always (size count : Nat) (holds : World → Prop) (world : World) : List (Nat × Call) → Prop
  | [] => holds world
  | call :: calls => holds world ∧
      ∀ after, step size count world call.1 call.2 = some after → Always size count holds after calls

def allMeet (size count : Nat) (world : World) : List (Nat × Call) → Bool
  | [] => true
  | call :: calls => meets size world call.1 call.2 &&
      match step size count world call.1 call.2 with
      | none => true
      | some after => allMeet size count after calls

theorem start_balanced (files : UInt32 → Stored) : Balanced size count (start files) := by
  have nobody : ∀ characterID, refs count (start files) characterID = 0 := by
    intro characterID
    have logins : ∀ thread, amount (openLogin thread ((start files).threads thread)) characterID = 0 :=
      fun _ => rfl
    have replies : ∀ thread, amount (openReply thread ((start files).threads thread)) characterID = 0 :=
      fun _ => rfl
    rw [refs, loginsOpen, repliesOpen, Finset.sum_eq_zero (fun thread _ => logins thread),
      Finset.sum_eq_zero (fun thread _ => replies thread)]
    rfl
  constructor
  · intro left _ right _ occupied _
    exact absurd rfl occupied
  · intro thread
    constructor
    · rintro _ ⟨⟩
    · rintro _ _ ⟨⟩
    · rintro _ _ ⟨⟩
    · intro nonzero _ index own
      exact absurd own nonzero.symm
    · rintro ⟨⟩
    · intro _
      exact Or.inl rfl
  · rintro _ _ ⟨⟩
  · rintro _ ⟨⟩
  · rintro _ ⟨⟩
  · rintro _ _ _ ⟨⟩
  · intro _ _
    rfl
  · intro index _ occupied
    exact absurd rfl occupied
  · intro characterID some_refs
    exact absurd (nobody characterID) some_refs

theorem quiet_refs (quiet : Quiet world characterID) : refs count world characterID = 0 := by
  rcases quiet with ⟨offline, noLogin, _, noReply, carries⟩
  have logins : ∀ thread, amount (openLogin thread (world.threads thread)) characterID = 0 :=
    fun thread => if_neg (carries thread).1
  have replies : ∀ thread, amount (openReply thread (world.threads thread)) characterID = 0 :=
    fun thread => if_neg (carries thread).2
  rw [refs, loginsOpen, repliesOpen, Finset.sum_eq_zero (fun thread _ => logins thread),
    Finset.sum_eq_zero (fun thread _ => replies thread), List.count_eq_zero.mpr noLogin,
    List.count_eq_zero.mpr noReply, inGame, offline]
  rfl

theorem balanced_steady (balanced : Balanced size count world) : Steady size count world := by
  intro index within occupied
  have counted := balanced.counted index within occupied
  refine ⟨counted, ?_⟩
  intro quiet
  rw [counted, quiet_refs quiet]
  rfl

theorem run_steady (calls : List (Nat × Call)) (balanced : Balanced size count world)
    (fine : allMeet size count world calls = true) :
    Always size count (Steady size count) world calls := by
  induction calls generalizing world with
  | nil => exact balanced_steady balanced
  | cons call calls ih =>
    rw [allMeet, Bool.and_eq_true] at fine
    refine ⟨balanced_steady balanced, ?_⟩
    intro after next
    have later := fine.2
    rw [next] at later
    exact ih (step_balanced balanced fine.1 next) later

/-- A mail to a character that is offline, and its login after the mail is delivered. -/
def mailBefore : List (Nat × Call) :=
  [(1, .mail 7 none), (2, .takeOrder), (2, .loaded true), (2, .next false none),
    (2, .next false none), (2, .next false none), (2, .next false none), (1, .takeReply none),
    (1, .next false none), (1, .next false none), (3, .login 7), (3, .next false none),
    (3, .next false none), (3, .next false none), (3, .next false none), (1, .takeLogin 0 false),
    (1, .next false none), (1, .leave 7 (.alive none)), (1, .next false none), (1, .next false none)]

def mailDuring : List (Nat × Call) :=
  [(1, .mail 7 none), (2, .takeOrder), (2, .loaded true), (2, .next false none),
    (2, .next false none), (2, .next false none), (2, .next false none), (3, .login 7),
    (3, .next false none), (3, .next false none), (3, .next false none), (3, .next false none),
    (1, .takeLogin 0 false), (1, .next false none), (1, .takeReply none),
    (1, .leave 7 (.alive none)), (1, .next false none), (1, .next false none)]

theorem always_run {holds : World → Prop} (calls : List (Nat × Call))
    (always : Always size count holds world calls)
    (reached : calls.foldlM (fun world call => step size count world call.1 call.2) world =
      some after) : holds after := by
  induction calls generalizing world with
  | nil =>
    cases reached
    exact always
  | cons call calls ih =>
    rw [List.foldlM_cons] at reached
    rcases next : step size count world call.1 call.2 with _ | later
    · rw [next] at reached
      cases reached
    rw [next] at reached
    exact ih (always.2 later next) reached

end TibiaGame.StickyGame
