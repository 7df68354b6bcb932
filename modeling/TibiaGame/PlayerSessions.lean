import TibiaGame.PlayerPool

/-!
# Threads around the player pool

The game thread, the reader thread and any number of threads that log players in or save
slots: `handle_login`, `process_load_character_order`, `process_character_reply`,
`TConnection::join_game`, the constructor and the destructors of a player, and
`save_player_pool_slots`. Each critical section of the pool's mutex is a step, and so is each
write to a slot outside of it.
-/

namespace TibiaGame.PlayerSessions

open PlayerPool

def gameThread : Nat := 1

def readerThread : Nat := 2

abbrev Inventory := Option (List UInt8)

abbrev Depots := Nat → Option (List UInt8)

/-- What a thread does next, with the character and the slot it works on. A player that is
destroyed may leave an inventory behind that is saved late, by `~TCreature`. -/
inductive Local where
  | idle
  | loading (characterID : UInt32) (index : Nat)
  | failed (characterID : UInt32) (index : Nat)
  | emptied (index : Nat)
  | checking (characterID : UInt32) (index : Nat) (shared : Bool)
  | retrying (characterID : UInt32)
  | holding (characterID : UInt32) (index : Nat)
  | raised (characterID : UInt32) (index : Nat)
  | waiting (characterID : UInt32) (index : Nat)
  | sending (characterID : UInt32) (index : Nat)
  | joining (characterID : UInt32)
  | refusing (characterID : UInt32)
  | lowering (characterID : UInt32) (index : Nat)
  | leaving (characterID : UInt32) (index : Nat) (late : Option Inventory)
  | releasing (characterID : UInt32) (index : Nat) (late : Option Inventory)
  | dropping (characterID : UInt32) (index : Nat) (inventory : Inventory)
  | answering (characterID : UInt32) (index : Nat)
  | answered (index : Nat)
  | saving (index : Nat)
  | saved (index : Nat)

/-- The queues between the threads, and the players in the game with their `PlayerData`. -/
structure World where
  pool : Pool
  orders : List UInt32
  replies : List UInt32
  logins : List UInt32
  online : UInt32 → Option Nat
  threads : Nat → Local

/-- How a player leaves the game: with the inventory that is saved, or dead, with what
`~TCreature` saves unless everything is lost. -/
inductive Fate where
  | alive (inventory : Inventory)
  | dead (kept : Option Inventory)

/-- `next` goes on in the middle of a function: a login may turn out to be blocked, and mails
may be delivered to the depots. -/
inductive Call where
  | login (characterID : UInt32)
  | loaded (result : Bool)
  | next (blocked : Bool) (delivered : Option Depots)
  | mail (characterID : UInt32) (delivered : Option Depots)
  | takeOrder
  | takeLogin (place : Nat) (gone : Bool)
  | takeReply (delivered : Option Depots)
  | play (characterID : UInt32) (stored : Stored)
  | leave (characterID : UInt32) (fate : Fate)
  | save (index : Nat)

def World.goOn (world : World) (thread : Nat) (pool : Pool) (now : Local) : World :=
  { world with pool := pool, threads := Function.update world.threads thread now }

/-- `send_mails`; without a mail for the character nothing is written. -/
def deliver (pool : Pool) (index : Nat) : Option Depots → Pool
  | none => pool
  | some depot => pool.change index fun slot =>
      { slot with stored := { slot.stored with depot := depot }, dirty := true }

def setInventory (pool : Pool) (index : Nat) (inventory : Inventory) : Pool :=
  pool.change index fun slot => { slot with stored := { slot.stored with inventory := inventory } }

/-- `assign_player_pool_slot` up to the end of its critical section, without waiting. -/
def assign (size : Nat) (world : World) (thread : Nat) (characterID : UInt32) : World :=
  let taken := assignPlayerPoolSlot size world.pool thread characterID true
  match taken.1 with
  | .refused => world.goOn thread taken.2 .idle
  | .waiting => world.goOn thread taken.2 .idle
  | .locked index => world.goOn thread taken.2 (.checking characterID index false)
  | .shared index => world.goOn thread taken.2 (.checking characterID index true)
  | .fresh index => world.goOn thread taken.2 (.loading characterID index)

/-- The next step of a thread that is in the middle of a function. -/
def goNext (size : Nat) (world : World) (thread : Nat) (blocked : Bool)
    (delivered : Option Depots) : Local → Option World
  | .failed _ index => some (world.goOn thread (dropCharacter world.pool index) (.emptied index))
  | .emptied index => some (world.goOn thread (dropLock world.pool index) .idle)
  | .checking characterID index _ =>
      if thread = readerThread then
        if (world.pool.slots index).locked = gameThread then
          some (world.goOn thread world.pool .idle)
        else if (world.pool.slots index).locked = thread then
          some (world.goOn thread world.pool (.holding characterID index))
        else some (world.goOn thread world.pool (.retrying characterID))
      else if (world.pool.slots index).locked = thread then
        some (world.goOn thread world.pool (.holding characterID index))
      else some (world.goOn thread world.pool (.waiting characterID index))
  | .retrying characterID => some (assign size world thread characterID)
  | .holding characterID index =>
      if blocked && thread != readerThread then
        some (world.goOn thread (releasePlayerPoolSlot world.pool thread index) .idle)
      else
        some (world.goOn thread (increasePlayerPoolSlotSticky world.pool index)
          (.raised characterID index))
  | .raised characterID index =>
      some (world.goOn thread (releasePlayerPoolSlot world.pool thread index)
        (.sending characterID index))
  | .waiting characterID index =>
      if blocked then
        some (world.goOn thread (decreasePlayerPoolSlotSticky world.pool index) .idle)
      else some (world.goOn thread world.pool (.sending characterID index))
  | .sending characterID index =>
      if thread = readerThread then
        some { world.goOn thread world.pool .idle with replies := world.replies ++ [characterID] }
      else
        some { world.goOn thread world.pool .idle with
          logins := world.logins ++ [(world.pool.slots index).characterID] }
  | .joining characterID =>
      let taken := attachPlayerPoolSlot size world.pool thread characterID
      match taken.1 with
      | .missing => some (world.goOn thread taken.2 .idle)
      | .busy => none
      | .locked index =>
          some { world.goOn thread (deliver taken.2 index delivered) .idle with
            online := Function.update world.online characterID (some index) }
  | .refusing characterID =>
      match getPlayerPoolSlot size world.pool characterID with
      | none => some (world.goOn thread world.pool .idle)
      | some index => some (world.goOn thread (decreasePlayerPoolSlotSticky world.pool index) .idle)
  | .lowering _ index =>
      some (world.goOn thread (decreasePlayerPoolSlotSticky world.pool index) .idle)
  | .leaving characterID index late =>
      some { world.goOn thread (decreasePlayerPoolSlotSticky world.pool index)
          (.releasing characterID index late) with
        online := Function.update world.online characterID none }
  | .releasing characterID index late =>
      some (world.goOn thread (releasePlayerPoolSlot world.pool thread index)
        (match late with
        | none => .idle
        | some inventory => .dropping characterID index inventory))
  | .dropping _ index inventory =>
      some (world.goOn thread (setInventory world.pool index inventory) .idle)
  | .answering _ index =>
      some (world.goOn thread (decreasePlayerPoolSlotSticky world.pool index) (.answered index))
  | .answered index =>
      some (world.goOn thread (releasePlayerPoolSlot world.pool thread index) .idle)
  | .saving index => some (world.goOn thread (savePlayerPoolSlot world.pool index) (.saved index))
  | .saved index => some (world.goOn thread (releasePlayerPoolSlot world.pool thread index) .idle)
  | .idle => none
  | .loading _ _ => none

/-- `~TPlayer` up to the counter and the lock. -/
def leavePool (pool : Pool) (index : Nat) (fate : Fate) : Pool :=
  pool.change index fun slot =>
    { slot with
      stored := { slot.stored with
        inventory := match fate with
          | .alive inventory => inventory
          | .dead _ => none }
      dirty := true }

def Fate.late : Fate → Option Inventory
  | .alive _ => none
  | .dead kept => kept

def gameStep (size : Nat) (world : World) : Call → Option World
  | .mail characterID delivered =>
      match world.online characterID with
      | some index => some { world with pool := deliver world.pool index delivered }
      | none => some { world with orders := world.orders ++ [characterID] }
  | .takeLogin place gone =>
      match world.logins[place]? with
      | none => none
      | some characterID =>
          let rest := { world with logins := world.logins.eraseIdx place }
          match world.online characterID with
          | none => some (rest.goOn gameThread rest.pool (.joining characterID))
          | some _ =>
              if gone then some (rest.goOn gameThread rest.pool (.refusing characterID))
              else
                match getPlayerPoolSlot size world.pool characterID with
                | none => some rest
                | some index =>
                    if 1 < (world.pool.slots index).sticky then
                      some (rest.goOn gameThread rest.pool (.lowering characterID index))
                    else some rest
  | .takeReply delivered =>
      match world.replies with
      | [] => none
      | characterID :: replies =>
          let rest := { world with replies := replies }
          let taken := attachPlayerPoolSlot size world.pool gameThread characterID
          match taken.1 with
          | .locked index =>
              some (rest.goOn gameThread (deliver taken.2 index delivered)
                (.answering characterID index))
          | _ => some (rest.goOn gameThread taken.2 .idle)
  | .play characterID stored =>
      (world.online characterID).map fun index =>
        { world with
          pool := world.pool.change index fun slot => { slot with stored := stored, dirty := true } }
  | .leave characterID fate =>
      (world.online characterID).map fun index =>
        world.goOn gameThread (leavePool world.pool index fate)
          (.leaving characterID index fate.late)
  | _ => none

/-- A step of one of the `count` threads; thread 0 does not exist. -/
def step (size count : Nat) (world : World) (thread : Nat) (call : Call) : Option World :=
  if thread = 0 ∨ count ≤ thread then none
  else
    match world.threads thread, call with
    | .idle, .login characterID =>
        if thread = gameThread ∨ thread = readerThread then none
        else some (assign size world thread characterID)
    | .idle, .takeOrder =>
        if thread = readerThread then
          match world.orders with
          | [] => none
          | characterID :: orders =>
              some (assign size { world with orders := orders } thread characterID)
        else none
    | .idle, .save index =>
        -- What `save_player_pool_slots` read of the slot may have changed before it locks it.
        if thread = gameThread ∨ thread = readerThread ∨ size ≤ index then none
        else if (world.pool.slots index).locked = 0 then
          some (world.goOn thread (attachSlot world.pool thread index) (.saving index))
        else some world
    | .idle, call => if thread = gameThread then gameStep size world call else none
    | .loading characterID index, .loaded result =>
        if result then
          some (world.goOn thread (world.pool.change index fun slot =>
            { slot with stored := world.pool.files characterID }) (.checking characterID index false))
        else
          some (world.goOn thread (world.pool.change index fun slot =>
            { slot with stored := nothing }) (.failed characterID index))
    | now, .next blocked delivered => goNext size world thread blocked delivered now
    | _, _ => none

def start (files : UInt32 → Stored) : World where
  pool := ⟨fun _ => zeroed, files⟩
  orders := []
  replies := []
  logins := []
  online := fun _ => none
  threads := fun _ => .idle

end TibiaGame.PlayerSessions
