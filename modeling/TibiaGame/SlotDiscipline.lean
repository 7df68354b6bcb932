import TibiaGame.SlotOwnership

/-!
# The game thread and the data of its players

The game thread writes to the slots of the players that are in the game, and to those it
delivers mails to. A dead player that keeps an inventory is the exception: its slot is given
back before `~TCreature` saves the inventory.
-/

namespace TibiaGame.SlotDiscipline

open PlayerPool PlayerSessions StickyBalance SlotWrites SlotOwnership Function
open StickyRuns hiding meets

variable {size count thread index place : Nat} {world after : World} {characterID : UInt32}
  {pool : Pool} {now old : Local}

theorem game_fills (guarded : Guarded size world) : fills (world.threads gameThread) = none := by
  have role := (guarded.ruled gameThread).crew rfl
  cases now : world.threads gameThread with
  | loading _ _ | failed _ _ =>
    rw [now] at role
    rcases role with idle | isGame
    · cases idle
    · cases isGame
  | _ => rfl

theorem nobody_fills (guarded : Guarded size world)
    (was : (world.pool.slots place).locked = gameThread ∨ (world.pool.slots place).locked = 0) :
    ∀ other someone, fills (world.threads other) ≠ some (someone, place) := by
  intro other someone filling
  have own := (guarded.ruled other).locked place (fills_locks filling)
  rcases was with isGame | free
  · have same : other = gameThread := own.2.symm.trans isGame
    rw [same, game_fills guarded] at filling
    cases filling
  · exact own.1 (own.2.symm.trans free)

theorem playing_after (guarded : Guarded size world)
    (others : ∀ other, other ≠ place → after.pool.slots other = world.pool.slots other)
    (character : (after.pool.slots place).characterID = (world.pool.slots place).characterID)
    (stays : ∀ someone, world.online someone = some place →
      (after.pool.slots place).locked = gameThread)
    (playing : world.online characterID = some index) :
    index < size ∧ characterID ≠ 0 ∧ (after.pool.slots index).characterID = characterID ∧
      (after.pool.slots index).locked = gameThread := by
  have here := guarded.playing characterID index playing
  by_cases isPlace : index = place
  · rw [isPlace] at here playing ⊢
    exact ⟨here.1, here.2.1, character.trans here.2.2.1, stays characterID playing⟩
  rw [others index isPlace]
  exact here

def isPlain : Local → Bool
  | .idle | .joining _ | .refusing _ | .lowering _ _ | .answering _ _ | .answered _ => true
  | _ => false

theorem plain_leaving {online : UInt32 → Option Nat} (plain : isPlain now = true)
    (characterID : UInt32) (index : Nat) (late : Option Inventory)
    (isLeaving : now = .leaving characterID index late) : online characterID = some index := by
  rw [isLeaving] at plain
  cases plain

theorem ruled_plain {later : Nat → Slot} (plain : isPlain now = true)
    (locked : ∀ index, locks now = some index → (later index).locked = gameThread) :
    Ruled size later gameThread now := by
  cases now with
  | idle => exact ruled_game (Or.inl rfl) rfl locked
  | joining _ | refusing _ | lowering _ _ | answering _ _ | answered _ =>
    exact ruled_game (Or.inr rfl) rfl locked
  | _ => cases plain

theorem calm_game (guarded : Guarded size world)
    (threads : after.threads = update world.threads gameThread now)
    (files : after.pool.files = world.pool.files)
    (others : ∀ other, other ≠ place → after.pool.slots other = world.pool.slots other)
    (same : Same (world.pool.slots place) (after.pool.slots place))
    (lock : ((world.pool.slots place).locked = 0 ∨
      (world.pool.slots place).locked = gameThread) ∨
      (after.pool.slots place).locked = (world.pool.slots place).locked)
    (own : Ruled size after.pool.slots gameThread now)
    (played : Played size after.pool.slots after.online now) :
    Guarded size after ∧ Orderly size gameThread world after none := by
  have respects : Respects gameThread world.pool.slots after.pool.slots := by
    rcases lock with own | kept
    · exact respects_own others own
    · exact respects_same others same kept
  have unique := unique_after guarded.unique others (Or.inl same.character)
  exact ⟨guarded_game guarded threads respects unique own played
    (clean_same guarded threads others (game_fills guarded) same files),
    orderly_same others same files⟩

/-- The game thread changes the data of a character in the slot that it has locked. -/
theorem write_game (guarded : Guarded size world) {data : Stored → Stored}
    (threads : after.threads = update world.threads gameThread now)
    (files : after.pool.files = world.pool.files)
    (others : ∀ other, other ≠ place → after.pool.slots other = world.pool.slots other)
    (inside : place < size) (someone : characterID ≠ 0)
    (holds : (world.pool.slots place).characterID = characterID)
    (was : (world.pool.slots place).locked = gameThread ∨ (world.pool.slots place).locked = 0)
    (character : (after.pool.slots place).characterID = (world.pool.slots place).characterID)
    (locked : (after.pool.slots place).locked = gameThread)
    (stored : (after.pool.slots place).stored = data (world.pool.slots place).stored)
    (dirty : (after.pool.slots place).dirty = true)
    (own : Ruled size after.pool.slots gameThread now)
    (played : Played size after.pool.slots after.online now) :
    Guarded size after ∧ Orderly size gameThread world after (some ⟨place, characterID, data⟩) := by
  have unique := unique_after guarded.unique others (Or.inl character)
  constructor
  · exact guarded_game guarded threads (respects_own others was.symm) unique own played
      (clean_dirty guarded threads others (game_fills guarded) dirty files)
  · exact orderly_write guarded unique inside someone holds (nobody_fills guarded was) others
      (character.trans holds) locked was stored dirty files

theorem calm_go_game (place : Nat) (guarded : Guarded size world)
    (threads : after.threads = update world.threads gameThread now)
    (online : after.online = world.online) (files : after.pool.files = world.pool.files)
    (others : ∀ other, other ≠ place → after.pool.slots other = world.pool.slots other)
    (same : Same (world.pool.slots place) (after.pool.slots place))
    (lock : (after.pool.slots place).locked = (world.pool.slots place).locked ∨
      ∀ someone, world.online someone ≠ some place)
    (free : ((world.pool.slots place).locked = 0 ∨
      (world.pool.slots place).locked = gameThread) ∨
      (after.pool.slots place).locked = (world.pool.slots place).locked)
    (own : Ruled size after.pool.slots gameThread now)
    (apart : ∀ index, locks now = some index → ∀ characterID, world.online characterID ≠ some index)
    (plain : isPlain now = true) :
    Guarded size after ∧ Orderly size gameThread world after none := by
  apply calm_game guarded threads files others same free own
  constructor
  · intro characterID index playing
    rw [online] at playing
    apply playing_after guarded others same.character _ playing
    intro someone isPlaying
    rcases lock with kept | nobody
    · exact kept.trans (guarded.playing someone place isPlaying).2.2.2
    · exact absurd isPlaying (nobody someone)
  · rw [online]
    exact apart
  · exact plain_leaving plain

theorem calm_change_game (guarded : Guarded size world) {change : Slot → Slot}
    (same : Same (world.pool.slots index) (change (world.pool.slots index)))
    (lock : (change (world.pool.slots index)).locked = (world.pool.slots index).locked ∨
      (world.pool.slots index).locked = gameThread ∧
        ∀ someone, world.online someone ≠ some index)
    (own : Ruled size (world.pool.change index change).slots gameThread now)
    (apart : ∀ index, locks now = some index → ∀ characterID, world.online characterID ≠ some index)
    (plain : isPlain now = true) :
    Guarded size (world.goOn gameThread (world.pool.change index change) now) ∧
      Orderly size gameThread world
        (world.goOn gameThread (world.pool.change index change) now) none := by
  have slot : (world.goOn gameThread (world.pool.change index change) now).pool.slots index =
      change (world.pool.slots index) := change_self
  apply calm_go_game index guarded
  · rfl
  · rfl
  · rfl
  · intro other different
    simp only [World.goOn, change_other different]
  · rw [slot]
    exact same
  · rw [slot]
    rcases lock with kept | released
    · exact Or.inl kept
    · exact Or.inr released.2
  · rw [slot]
    rcases lock with kept | released
    · exact Or.inr kept
    · exact Or.inl (Or.inr released.1)
  · exact own
  · exact apart
  · exact plain

section Steps

variable {blocked : Bool} {delivered : Option Depots} {later : Pool}

/-- The orders and the logins of the game thread do not touch a slot. -/
theorem still_game (guarded : Guarded size world)
    (threads : after.threads = update world.threads gameThread now)
    (online : after.online = world.online) (pooled : after.pool = world.pool)
    (plain : isPlain now = true) (unlocks : locks now = none) :
    Guarded size after ∧ Orderly size gameThread world after none := by
  have same : after.pool.slots = world.pool.slots := congrArg Pool.slots pooled
  apply calm_go_game 0 guarded threads online (congrArg Pool.files pooled)
  · intro other _
    rw [same]
  · rw [same]
    exact same_refl _
  · rw [same]
    exact Or.inl rfl
  · rw [same]
    exact Or.inr rfl
  · apply ruled_plain plain
    intro index isLocked
    rw [unlocks] at isLocked
    cases isLocked
  · intro index isLocked
    rw [unlocks] at isLocked
    cases isLocked
  · exact plain

theorem idle_same (before : world.threads gameThread = .idle) :
    world.threads = update world.threads gameThread .idle := by
  rw [← before, update_eq_self]

theorem player_write (guarded : Guarded size world) (data : Stored → Stored)
    (change : Slot → Slot) (now : Local) (online : world.online characterID = some index)
    (character : (change (world.pool.slots index)).characterID =
      (world.pool.slots index).characterID)
    (lock : (change (world.pool.slots index)).locked = (world.pool.slots index).locked)
    (stored : (change (world.pool.slots index)).stored = data (world.pool.slots index).stored)
    (dirty : (change (world.pool.slots index)).dirty = true)
    (role : now = .idle ∨ ofGame now = true) (notLate : lateOf now = none)
    (unlocks : locks now = none)
    (leaving : ∀ other place late, now = .leaving other place late →
      world.online other = some place) :
    Guarded size (world.goOn gameThread (world.pool.change index change) now) ∧
      Orderly size gameThread world (world.goOn gameThread (world.pool.change index change) now)
        (some ⟨index, characterID, data⟩) := by
  have here := guarded.playing characterID index online
  have slot : (world.goOn gameThread (world.pool.change index change) now).pool.slots index =
      change (world.pool.slots index) := change_self
  have others : ∀ other, other ≠ index →
      (world.goOn gameThread (world.pool.change index change) now).pool.slots other =
        world.pool.slots other := by
    intro other different
    exact change_other different
  apply write_game guarded
  · rfl
  · rfl
  · exact others
  · exact here.1
  · exact here.2.1
  · exact here.2.2.1
  · exact Or.inl here.2.2.2
  · rw [slot]
    exact character
  · rw [slot]
    exact lock.trans here.2.2.2
  · rw [slot]
    exact stored
  · rw [slot]
    exact dirty
  · apply ruled_game role notLate
    intro place isLocked
    rw [unlocks] at isLocked
    cases isLocked
  · constructor
    · intro other place playing
      apply playing_after guarded others _ _ playing
      · rw [slot]
        exact character
      · intro _ _
        rw [slot]
        exact lock.trans here.2.2.2
    · intro place isLocked
      rw [unlocks] at isLocked
      cases isLocked
    · exact leaving

theorem mail_kept (guarded : Guarded size world) (before : world.threads gameThread = .idle)
    (next : gameStep size world (.mail characterID delivered) = some after) :
    Guarded size after ∧
      Orderly size gameThread world after
        (written size world gameThread (.mail characterID delivered)) := by
  rw [gameStep] at next
  have threads := idle_same before
  rcases playing : world.online characterID with _ | index
  · rw [playing] at next
    cases next
    have none_written : written size world gameThread (.mail characterID delivered) = none := by
      cases delivered with
      | none => simp only [written, before]
      | some depot => simp only [written, before, playing, Option.map_none]
    rw [none_written]
    exact still_game guarded threads rfl rfl rfl rfl
  rw [playing] at next
  cases next
  rcases delivered with _ | depot
  · simp only [written, before]
    exact still_game guarded threads rfl rfl rfl rfl
  simp only [written, before, playing, Option.map_some]
  have wrote := player_write guarded (mailed depot)
    (fun slot => { slot with
      stored := { slot.stored with depot := depot }, dirty := true }) .idle playing
    rfl rfl rfl rfl (Or.inl rfl) rfl rfl (plain_leaving rfl)
  rw [World.goOn, ← threads] at wrote
  exact wrote

theorem play_kept {stored : Stored} (guarded : Guarded size world)
    (before : world.threads gameThread = .idle)
    (next : gameStep size world (.play characterID stored) = some after) :
    Guarded size after ∧
      Orderly size gameThread world after
        (written size world gameThread (.play characterID stored)) := by
  rw [gameStep] at next
  have threads := idle_same before
  rcases playing : world.online characterID with _ | index
  · rw [playing] at next
    cases next
  rw [playing] at next
  cases next
  simp only [written, before, playing, Option.map_some]
  have wrote := player_write guarded (fun _ => stored)
    (fun slot => { slot with stored := stored, dirty := true }) .idle playing rfl rfl rfl rfl
    (Or.inl rfl) rfl rfl (plain_leaving rfl)
  rw [World.goOn, ← threads] at wrote
  exact wrote

/-- A player that leaves and is not going to save an inventory any more. -/
theorem leave_kept {fate : Fate} (guarded : Guarded size world)
    (before : world.threads gameThread = .idle) (spared : fate.late = none)
    (next : gameStep size world (.leave characterID fate) = some after) :
    Guarded size after ∧
      Orderly size gameThread world after
        (written size world gameThread (.leave characterID fate)) := by
  rw [gameStep] at next
  rcases playing : world.online characterID with _ | index
  · rw [playing] at next
    cases next
  rw [playing] at next
  cases next
  simp only [written, before, playing, Option.map_some]
  apply player_write guarded _ _ _ playing
  · rfl
  · rfl
  · cases fate with
    | alive _ => rfl
    | dead _ => rfl
  · rfl
  · exact Or.inr rfl
  · exact spared
  · rfl
  · intro other place late isLeaving
    cases isLeaving
    exact playing

theorem take_login_kept {place : Nat} {gone : Bool} (guarded : Guarded size world)
    (before : world.threads gameThread = .idle)
    (next : gameStep size world (.takeLogin place gone) = some after) :
    Guarded size after ∧ Orderly size gameThread world after none := by
  have threads := idle_same before
  rw [gameStep] at next
  rcases queued : world.logins[place]? with _ | characterID
  · rw [queued] at next
    cases next
  simp only [queued] at next
  have going : ∀ now, isPlain now = true → locks now = none →
      Guarded size { world with
        logins := world.logins.eraseIdx place
        threads := update world.threads gameThread now } ∧
      Orderly size gameThread world { world with
        logins := world.logins.eraseIdx place
        threads := update world.threads gameThread now } none :=
    fun _ plain unlocks => still_game guarded rfl rfl rfl plain unlocks
  have rests := going .idle rfl rfl
  rw [← threads] at rests
  rcases playing : world.online characterID with _ | _
  · rw [playing] at next
    cases next
    exact going (.joining characterID) rfl rfl
  rw [playing] at next
  by_cases isGone : gone = true
  · simp only [isGone, if_true] at next
    cases next
    exact going (.refusing characterID) rfl rfl
  simp only [isGone] at next
  rcases found : getPlayerPoolSlot size world.pool characterID with _ | index
  · rw [found] at next
    cases next
    exact rests
  rw [found] at next
  simp only [Bool.false_eq_true, if_false] at next
  split_ifs at next
  · cases next
    exact going (.lowering characterID index) rfl rfl
  · cases next
    exact rests

/-- The slot that the game thread locks belongs to no player in the game. -/
theorem free_apart (guarded : Guarded size world) (free : (world.pool.slots index).locked = 0) :
    ∀ other, world.online other ≠ some index := by
  intro other playing
  have locked := (guarded.playing other index playing).2.2.2
  exact absurd (locked.symm.trans free) (by decide)

theorem attached_kept (guarded : Guarded size world) (inside : index < size)
    (someone : characterID ≠ 0) (holds : (world.pool.slots index).characterID = characterID)
    (free : (world.pool.slots index).locked = 0)
    (threads : after.threads = update world.threads gameThread now)
    (pooled : after.pool = deliver (world.pool.change index fun slot =>
      { slot with locked := gameThread }) index delivered)
    (plain : isPlain now = true) (mine : ∀ place, locks now = some place → place = index)
    (playing : ∀ other place, after.online other = some place →
      other = characterID ∧ place = index ∨ world.online other = some place)
    (apart : ∀ place, locks now = some place → ∀ other, after.online other ≠ some place) :
    Guarded size after ∧
      Orderly size gameThread world after
        (delivered.map fun depot => ⟨index, characterID, mailed depot⟩) := by
  have others : ∀ other, other ≠ index → after.pool.slots other = world.pool.slots other := by
    intro other different
    rw [pooled, deliver_other different]
    exact change_other different
  have files : after.pool.files = world.pool.files := by
    rw [pooled]
    cases delivered with
    | none => rfl
    | some depot => rfl
  have slot := attached_slot world.pool index delivered
  rw [← pooled] at slot
  have character := slot.1
  have locked := slot.2
  have own : Ruled size after.pool.slots gameThread now := by
    apply ruled_plain plain
    intro place isLocked
    rw [mine place isLocked]
    exact locked
  have played : Played size after.pool.slots after.online now := by
    refine ⟨?_, apart, plain_leaving plain⟩
    intro other place isPlaying
    rcases playing other place isPlaying with isNew | known
    · rw [isNew.1, isNew.2]
      exact ⟨inside, someone, character.trans holds, locked⟩
    · exact playing_after guarded others character (fun _ _ => locked) known
  rcases delivered with _ | depot
  · have same : Same (world.pool.slots index) (after.pool.slots index) := by
      refine ⟨character, ?_, ?_⟩
      all_goals
        rw [pooled]
        simp only [deliver, change_self]
    exact calm_game guarded threads files others same (Or.inl (Or.inl free)) own played
  apply write_game guarded threads files others inside someone holds (Or.inr free) character
    locked _ _ own played
  · rw [pooled]
    simp only [deliver, change_self, mailed]
  · rw [pooled]
    simp only [deliver, change_self]

theorem received_locked
    (attached : attachPlayerPoolSlot size pool gameThread characterID = (.locked index, later)) :
    received size pool characterID delivered =
      delivered.map fun depot => ⟨index, characterID, mailed depot⟩ := by
  rcases delivered with _ | depot
  · rfl
  rw [received, attached]
  rfl

theorem received_none {result : Attached}
    (attached : attachPlayerPoolSlot size pool gameThread characterID = (result, later))
    (unlocked : ∀ index, result ≠ .locked index) :
    received size pool characterID delivered = none := by
  rcases delivered with _ | depot
  · rfl
  rw [received, attached]
  cases result with
  | missing => rfl
  | busy => rfl
  | locked index => exact absurd rfl (unlocked index)

theorem attach_nonzero {result : Attached}
    (attached : attachPlayerPoolSlot size pool gameThread characterID = (result, later))
    (isLocked : result = .locked index) : characterID ≠ 0 := by
  intro zero
  rw [attachPlayerPoolSlot, getPlayerPoolSlot, if_pos zero] at attached
  cases attached
  cases isLocked

theorem take_reply_kept (guarded : Guarded size world) (before : world.threads gameThread = .idle)
    (next : gameStep size world (.takeReply delivered) = some after) :
    Guarded size after ∧
      Orderly size gameThread world after
        (written size world gameThread (.takeReply delivered)) := by
  rw [gameStep] at next
  simp only [written, before]
  rcases queued : world.replies with _ | ⟨characterID, replies⟩
  · rw [queued] at next
    cases next
  simp only [queued] at next
  rw [List.head?_cons, Option.bind_some]
  cases attached : attachPlayerPoolSlot size world.pool gameThread characterID with
  | mk result later =>
    have thrownAway : later = world.pool → (∀ index, result ≠ .locked index) →
        after = { world with replies := replies }.goOn gameThread later .idle →
        Guarded size after ∧
          Orderly size gameThread world after
            (received size world.pool characterID delivered) := by
      intro same unlocked ends
      rw [received_none attached unlocked]
      rw [ends]
      exact still_game guarded rfl rfl same rfl rfl
    rcases attach_cases attached with ⟨same, missing | busy⟩ |
      ⟨index, locked, inside, holds, free, same⟩
    · simp only [attached, missing.1] at next
      apply thrownAway same _ (Option.some.inj next).symm
      intro index isLocked
      rw [missing.1] at isLocked
      cases isLocked
    · simp only [attached, busy.1] at next
      apply thrownAway same _ (Option.some.inj next).symm
      intro index isLocked
      rw [busy.1] at isLocked
      cases isLocked
    · have someone := attach_nonzero attached locked
      rw [locked] at attached
      simp only [attached] at next
      rw [received_locked attached]
      cases next
      apply attached_kept guarded inside someone holds free
      · rfl
      · rw [← same]
        rfl
      · rfl
      · intro place isLocked
        cases isLocked
        rfl
      · intro other place playing
        exact Or.inr playing
      · intro place isLocked
        cases isLocked
        intro other
        exact free_apart guarded free other

theorem joining_kept (guarded : Guarded size world)
    (before : world.threads gameThread = .joining characterID)
    (next : goNext size world gameThread blocked delivered (.joining characterID) = some after) :
    Guarded size after ∧
      Orderly size gameThread world after
        (written size world gameThread (.next blocked delivered)) := by
  rw [goNext] at next
  simp only [written, before]
  cases attached : attachPlayerPoolSlot size world.pool gameThread characterID with
  | mk result later =>
    rcases attach_cases attached with ⟨same, missing | busy⟩ |
      ⟨index, locked, inside, holds, free, same⟩
    · simp only [attached, missing.1] at next
      rw [received_none attached (by
        intro index isLocked
        rw [missing.1] at isLocked
        cases isLocked)]
      cases next
      exact still_game guarded rfl rfl same rfl rfl
    · simp only [attached, busy.1] at next
      cases next
    · have someone := attach_nonzero attached locked
      rw [locked] at attached
      simp only [attached] at next
      rw [received_locked attached]
      cases next
      apply attached_kept guarded inside someone holds free
      · rfl
      · rw [← same]
        rfl
      · rfl
      · rintro _ ⟨⟩
      · intro other place playing
        by_cases here : other = characterID
        · rw [here] at playing
          have joined := (update_self characterID (some index) world.online).symm.trans
            playing
          cases joined
          exact Or.inl ⟨here, rfl⟩
        · exact Or.inr ((update_of_ne here (some index) world.online).symm.trans playing)
      · rintro _ ⟨⟩

theorem lowered_kept (guarded : Guarded size world)
    (before : world.threads gameThread = old) (plain : isPlain now = true)
    (stays : ∀ place, locks now = some place → locks old = some place) :
    Guarded size (world.goOn gameThread (decreasePlayerPoolSlotSticky world.pool index) now) ∧
      Orderly size gameThread world
        (world.goOn gameThread (decreasePlayerPoolSlotSticky world.pool index) now) none := by
  have ruled := guarded.ruled gameThread
  rw [before] at ruled
  have lock : ∀ place, ((decreasePlayerPoolSlotSticky world.pool index).slots place).locked =
      (world.pool.slots place).locked := by
    intro place
    rw [decreasePlayerPoolSlotSticky]
    by_cases here : place = index
    · rw [here, change_self]
    · rw [change_other here]
  apply calm_change_game guarded ⟨rfl, rfl, rfl⟩ (Or.inl rfl)
  · apply ruled_plain plain
    intro place isLocked
    exact (lock place).trans (ruled.locked place (stays place isLocked)).2
  · intro place isLocked
    apply guarded.apart
    rw [before]
    exact stays place isLocked
  · exact plain

/-- The game thread gives a slot back that belongs to no player in the game. -/
theorem given_back_kept (guarded : Guarded size world) (before : world.threads gameThread = old)
    (isLocked : locks old = some index) (plain : isPlain now = true) (stays : locks now = none) :
    Guarded size (world.goOn gameThread (releasePlayerPoolSlot world.pool gameThread index) now) ∧
      Orderly size gameThread world
        (world.goOn gameThread (releasePlayerPoolSlot world.pool gameThread index) now) none := by
  have ruled := guarded.ruled gameThread
  rw [before] at ruled
  have own := ruled.locked index isLocked
  have apart := guarded.apart index
  rw [before] at apart
  rw [release_at own.1 own.2]
  apply calm_change_game guarded ⟨rfl, rfl, rfl⟩ (Or.inr ⟨own.2, apart isLocked⟩)
  · apply ruled_plain plain
    intro place locked
    rw [stays] at locked
    cases locked
  · intro place locked
    rw [stays] at locked
    cases locked
  · exact plain

theorem leaving_kept {late : Option Inventory} (guarded : Guarded size world)
    (before : world.threads gameThread = .leaving characterID index late)
    (next : goNext size world gameThread blocked delivered (.leaving characterID index late) =
      some after) : Guarded size after ∧ Orderly size gameThread world after none := by
  have ruled := guarded.ruled gameThread
  rw [before] at ruled
  have spared : late = none := ruled.spared
  have online := guarded.leaving characterID index late before
  have here := guarded.playing characterID index online
  rw [goNext] at next
  have threads : after.threads = update world.threads gameThread
      (.releasing characterID index late) := by
    rw [← Option.some.inj next]
    rfl
  have moved : after.online = update world.online characterID none := by
    rw [← Option.some.inj next]
  have pooled : after.pool = decreasePlayerPoolSlotSticky world.pool index := by
    rw [← Option.some.inj next]
    rfl
  have slot : after.pool.slots index =
      { world.pool.slots index with sticky := (world.pool.slots index).sticky - 1 } := by
    rw [pooled, decreasePlayerPoolSlotSticky, change_self]
  have others : ∀ other, other ≠ index → after.pool.slots other = world.pool.slots other := by
    intro other different
    rw [pooled, decreasePlayerPoolSlotSticky, change_other different]
  have lock : (after.pool.slots index).locked = gameThread := by
    rw [slot]
    exact here.2.2.2
  have character : (after.pool.slots index).characterID =
      (world.pool.slots index).characterID := by
    rw [slot]
  have still : ∀ other place, after.online other = some place →
      other ≠ characterID ∧ world.online other = some place := by
    intro other place playing
    rw [moved] at playing
    by_cases gone : other = characterID
    · rw [gone, update_self] at playing
      cases playing
    rw [update_of_ne gone] at playing
    exact ⟨gone, playing⟩
  apply calm_game guarded threads
  · rw [pooled]
    rfl
  · exact others
  · rw [slot]
    exact ⟨rfl, rfl, rfl⟩
  · exact Or.inl (Or.inr here.2.2.2)
  · apply ruled_game
    · exact Or.inr rfl
    · exact spared
    · intro place isLocked
      cases isLocked
      exact lock
  · constructor
    · intro other place playing
      exact playing_after guarded others character (fun _ _ => lock) (still other place playing).2
    · intro place isLocked other playing
      cases isLocked
      have stays := still other index playing
      have same := (guarded.playing other index stays.2).2.2.1
      exact stays.1 (same.symm.trans here.2.2.1)
    · rintro _ _ _ ⟨⟩

theorem game_next_kept (guarded : Guarded size world) (before : world.threads gameThread = old)
    (next : goNext size world gameThread blocked delivered old = some after) :
    Guarded size after ∧
      Orderly size gameThread world after
        (written size world gameThread (.next blocked delivered)) := by
  have ruled := guarded.ruled gameThread
  rw [before] at ruled
  cases old with
  | idle => cases next
  | joining characterID => exact joining_kept guarded before next
  | refusing characterID =>
    simp only [written, before]
    rw [goNext] at next
    rcases found : getPlayerPoolSlot size world.pool characterID with _ | index
    · simp only [found] at next
      cases next
      exact still_game guarded rfl rfl rfl rfl rfl
    simp only [found] at next
    cases next
    apply lowered_kept guarded before rfl
    rintro _ ⟨⟩
  | lowering characterID index =>
    simp only [written, before]
    cases next
    apply lowered_kept guarded before rfl
    rintro _ ⟨⟩
  | leaving characterID index late =>
    simp only [written, before]
    exact leaving_kept guarded before next
  | releasing characterID index late =>
    have spared : late = none := ruled.spared
    rw [spared] at before next
    simp only [written, before]
    cases next
    exact given_back_kept guarded before rfl rfl rfl
  | dropping characterID index inventory => cases ruled.spared
  | answering characterID index =>
    simp only [written, before]
    cases next
    apply lowered_kept guarded before rfl
    intro place isLocked
    exact isLocked
  | answered index =>
    simp only [written, before]
    cases next
    exact given_back_kept guarded before rfl rfl rfl
  | _ =>
    rcases ruled.crew rfl with idle | isGame
    · cases idle
    · cases isGame

end Steps

theorem loading_kept {result : Bool} (guarded : Guarded size world) (foreign : thread ≠ gameThread)
    (before : world.threads thread = .loading characterID index)
    (next : (if result = true then
        some (world.goOn thread (world.pool.change index fun slot =>
          { slot with stored := world.pool.files characterID }) (.checking characterID index false))
      else
        some (world.goOn thread (world.pool.change index fun slot => { slot with stored := nothing })
          (.failed characterID index))) = some after) :
    Guarded size after ∧ Orderly size thread world after (some ⟨index, characterID, id⟩) := by
  have ruled := guarded.ruled thread
  rw [before] at ruled
  have own := ruled.locked index rfl
  have here := ruled.filling characterID index rfl
  split_ifs at next
  · cases next
    apply filled_kept guarded foreign before
    · rfl
    · rfl
    · rfl
    · intro other different
      simp only [World.goOn, change_other different]
    · simp only [World.goOn, change_self]
    · simp only [World.goOn, change_self]
    · simp only [World.goOn, change_self]
    · simp only [World.goOn, change_self, true_or]
    · apply ruled_crew foreign rfl
      intro place isLocked
      cases isLocked
      simp only [World.goOn, change_self]
      exact own
  cases next
  apply filled_kept guarded foreign before
  · rfl
  · rfl
  · rfl
  · intro other different
    simp only [World.goOn, change_other different]
  · simp only [World.goOn, change_self]
  · simp only [World.goOn, change_self]
  · simp only [World.goOn, change_self]
  · exact Or.inr rfl
  · constructor
    · intro place isLocked
      cases isLocked
      simp only [World.goOn, change_self]
      exact own
    · intro other place filling
      cases filling
      simp only [World.goOn, change_self]
      exact here
    · intro other place failed
      cases failed
      simp only [World.goOn, change_self]
    · rintro _ ⟨⟩
    · rfl
    · rintro ⟨⟩
    · omega

theorem crew_idle_kept {call : Call} (guarded : Guarded size world) (foreign : thread ≠ gameThread)
    (nonzero : thread ≠ 0) (before : world.threads thread = .idle)
    (meeting : meets size world thread call = true)
    (next : step size count world thread call = some after) :
    Guarded size after ∧ Orderly size thread world after (written size world thread call) := by
  have notFills : fills (world.threads thread) = none := by
    rw [before]
    rfl
  unfold step at next
  simp only [meets, before] at meeting
  by_cases outside : thread = 0 ∨ count ≤ thread
  · rw [if_pos outside] at next
    cases next
  rw [if_neg outside, before] at next
  cases call with
  | login characterID =>
    simp only [written, before]
    simp only at next meeting
    split_ifs at next
    cases next
    exact assign_kept guarded foreign nonzero notFills meeting
  | takeOrder =>
    simp only [written, before]
    simp only at next meeting
    split_ifs at next
    rcases queued : world.orders with _ | ⟨characterID, orders⟩
    · rw [queued] at next
      cases next
    simp only [queued] at next meeting
    rw [List.head?_cons, Option.bind_some]
    have queuedGuarded : Guarded size { world with orders := orders } :=
      ⟨guarded.unique, guarded.ruled, guarded.playing, guarded.apart, guarded.leaving,
        guarded.clean⟩
    have kept := assign_kept queuedGuarded foreign nonzero notFills meeting
    rw [← Option.some.inj next]
    exact ⟨kept.1, kept.2.held, kept.2.others, kept.2.data, kept.2.saved⟩
  | save index =>
    simp only [written, before]
    simp only at next
    split_ifs at next with other free
    · cases next
      have inside : index < size := not_le.mp (not_or.mp (not_or.mp other).2).2
      rw [attachSlot, if_pos free]
      apply calm_change guarded foreign notFills ⟨rfl, rfl, rfl⟩ (Or.inl (Or.inl free))
      constructor
      · intro place isLocked
        cases isLocked
        rw [change_self]
        exact ⟨nonzero, rfl⟩
      · rintro _ _ ⟨⟩
      · rintro _ _ ⟨⟩
      · intro place saving
        cases saving
        exact inside
      · rfl
      · rintro ⟨⟩
      · omega
    · cases next
      exact ⟨guarded, orderly_same (fun _ _ => rfl) (same_refl (world.pool.slots 0)) rfl⟩
  | _ => simp only [foreign, if_false, reduceCtorEq] at next

theorem game_idle_kept {call : Call} (guarded : Guarded size world)
    (before : world.threads gameThread = .idle) (meeting : meets size world gameThread call = true)
    (next : step size count world gameThread call = some after) :
    Guarded size after ∧
      Orderly size gameThread world after (written size world gameThread call) := by
  unfold step at next
  by_cases outside : gameThread = 0 ∨ count ≤ gameThread
  · rw [if_pos outside] at next
    cases next
  rw [if_neg outside, before] at next
  cases call with
  | mail characterID delivered => exact mail_kept guarded before next
  | takeLogin place gone =>
    simp only [written, before]
    exact take_login_kept guarded before next
  | takeReply delivered => exact take_reply_kept guarded before next
  | play characterID stored => exact play_kept guarded before next
  | leave characterID fate =>
    simp only [meets, before] at meeting
    exact leave_kept guarded before (Option.isNone_iff_eq_none.mp meeting) next
  | login _ => cases next
  | takeOrder => cases next
  | save _ => cases next
  | loaded _ => cases next
  | next _ _ => cases next

theorem step_kept {call : Call} (guarded : Guarded size world)
    (meeting : meets size world thread call = true)
    (next : step size count world thread call = some after) :
    Guarded size after ∧ Orderly size thread world after (written size world thread call) := by
  have nonzero : thread ≠ 0 := by
    intro zero
    unfold step at next
    rw [if_pos (Or.inl zero)] at next
    cases next
  have ruled := guarded.ruled thread
  cases before : world.threads thread with
  | idle =>
    by_cases isGame : thread = gameThread
    · rw [isGame] at before meeting next ⊢
      exact game_idle_kept guarded before meeting next
    · exact crew_idle_kept guarded isGame nonzero before meeting next
  | loading characterID index =>
    rw [before] at ruled
    have foreign : thread ≠ gameThread := by
      intro isGame
      rcases ruled.crew isGame with idle | ofGame
      · cases idle
      · cases ofGame
    unfold step at next
    by_cases outside : thread = 0 ∨ count ≤ thread
    · rw [if_pos outside] at next
      cases next
    rw [if_neg outside, before] at next
    cases call with
    | loaded result =>
      simp only [written, before]
      exact loading_kept guarded foreign before next
    | next _ _ => cases next
    | _ => cases next
  | _ =>
    have nexts := next
    unfold step at nexts
    by_cases outside : thread = 0 ∨ count ≤ thread
    · rw [if_pos outside] at nexts
      cases nexts
    rw [if_neg outside, before] at nexts
    cases call with
    | next blocked delivered =>
      by_cases isGame : thread = gameThread
      · rw [isGame] at before meeting nexts ⊢
        exact game_next_kept guarded before nexts
      · exact crew_next_kept guarded isGame nonzero before meeting nexts
    | _ => cases nexts

def AllOrderly (size count : Nat) (world : World) : List (Nat × Call) → Prop
  | [] => True
  | call :: calls => ∀ after, step size count world call.1 call.2 = some after →
      Orderly size call.1 world after (written size world call.1 call.2) ∧
        AllOrderly size count after calls

def allMeet (size count : Nat) (world : World) : List (Nat × Call) → Bool
  | [] => true
  | call :: calls => meets size world call.1 call.2 &&
      match step size count world call.1 call.2 with
      | none => true
      | some after => allMeet size count after calls

theorem run_orderly (calls : List (Nat × Call)) (guarded : Guarded size world)
    (fine : allMeet size count world calls = true) : AllOrderly size count world calls := by
  induction calls generalizing world with
  | nil => trivial
  | cons call calls ih =>
    rw [allMeet, Bool.and_eq_true] at fine
    intro after next
    have later := fine.2
    rw [next] at later
    have kept := step_kept guarded fine.1 next
    exact ⟨kept.2, ih kept.1 later⟩

theorem start_guarded (files : UInt32 → Stored) : Guarded size (start files) := by
  constructor
  · nofun
  · intro thread
    constructor
    · nofun
    · nofun
    · nofun
    · nofun
    · rfl
    · nofun
    · intro _
      exact Or.inl rfl
  all_goals nofun

/-- A player that logs in, gets a mail and dies; its slot goes to another character. -/
def losesAll : List (Nat × Call) :=
  [(3, .login 7), (3, .loaded true), (3, .next false none), (3, .next false none),
    (3, .next false none), (3, .next false none), (1, .takeLogin 0 false), (1, .next false none),
    (1, .mail 7 (some fun _ => some [1])), (1, .leave 7 (.dead none)), (1, .next false none),
    (1, .next false none), (3, .login 9), (3, .loaded true), (3, .next false none)]

theorem orderly_last (calls : List (Nat × Call)) (thread : Nat) (call : Call)
    (orderly : AllOrderly size count world (calls ++ [(thread, call)])) {before : World}
    (reached : calls.foldlM (fun world call => step size count world call.1 call.2) world =
      some before) (next : step size count before thread call = some after) :
    Orderly size thread before after (written size before thread call) := by
  induction calls generalizing world with
  | nil =>
    cases reached
    exact (orderly after next).1
  | cons first calls ih =>
    rw [List.foldlM_cons] at reached
    rcases stepped : step size count world first.1 first.2 with _ | later
    · rw [stepped] at reached
      cases reached
    rw [stepped] at reached
    exact ih (orderly later stepped).2 reached

/-- The dead player keeps an inventory, and its slot is another character's when it is saved. -/
def keepsSome : List (Nat × Call) :=
  [(3, .login 7), (3, .loaded true), (3, .next false none), (3, .next false none),
    (3, .next false none), (3, .next false none), (1, .takeLogin 0 false), (1, .next false none),
    (1, .leave 7 (.dead (some (some [42])))), (1, .next false none), (1, .next false none),
    (3, .login 9)]

end TibiaGame.SlotDiscipline
