import TibiaGame.OperateModel
import TibiaGame.PriorityQueue

/-!
# What creatures have to do

The `ToDo` functions of `actions.cpp` and the loop of `move_creatures`. Each creature has a list
of things to do, and `ToDoQueue` holds the times at which creatures go on with theirs; an entry
stays in the queue when the list that it was made for is cleared. What an action does to the
game is a parameter, as far as it is not one of the `ToDo` functions itself.
-/

namespace TibiaGame.ToDoScheduler

open OperateModel PriorityQueue

inductive ToDoEntry where
  | wait (time : UInt32)
  | go (x y z : Int)
  | rotate (direction : Int)
  | move (obj : UInt32) (x y z count : Int)
  | trade (obj partner : UInt32)
  | use (obj1 obj2 : UInt32) (dummy : Int)
  | turn (obj : UInt32)
  | attack
  | talk (text : UInt32) (mode : Int) (addressee : UInt32) (checkSpamming : Bool)
  | changeState (newState : Int)

inductive CreatureType where
  | player
  | monster
  | npc
  deriving DecidableEq

structure Creature where
  type : CreatureType
  isDead : Bool
  lockToDo : Bool
  stop : Bool
  nextWakeup : UInt32
  toDoList : List ToDoEntry
  actToDo : Nat
  earliestWalkTime : UInt32
  earliestMultiuseTime : UInt32
  earliestSpellTime : UInt32
  earliestAttackTime : UInt32

/-- The constructor of `TCreature`. -/
def newCreature (type : CreatureType) : Creature :=
  ⟨type, false, false, false, 0, [], 0, 0, 0, 0, 0⟩

/-- An exception of type `RESULT`. -/
inductive Thrown where
  | noError
  | result (result : Result)
  deriving DecidableEq

/-- What the `ToDo` functions send, or change elsewhere. -/
inductive Effect where
  | snapback (id : UInt32)
  | result (id : UInt32) (thrown : Thrown)
  | deleteDynamicString (number : UInt32)
  | changeState (id : UInt32) (newState : Int)

/-- The keys of the queue are the values of `uint32` times; `rest` is all other state. -/
structure World (σ : Type) where
  serverMilliseconds : UInt32
  toDoQueue : Queue Nat UInt32
  creatures : UInt32 → Option Creature
  effects : List Effect
  rest : σ

variable {σ : Type}

def World.set (world : World σ) (id : UInt32) (creature : Option Creature) : World σ :=
  { world with creatures := Function.update world.creatures id creature }

def World.emit (world : World σ) (effects : List Effect) : World σ :=
  { world with effects := world.effects ++ effects }

def World.schedule (world : World σ) (time id : UInt32) : World σ :=
  { world with toDoQueue := insert world.toDoQueue time.toNat id }

def remaining (now time : UInt32) : UInt32 := if now < time then time - now else 0

def calculateDelay (now : UInt32) (creature : Creature) : UInt32 :=
  match creature.toDoList[creature.actToDo]? with
  | some (.wait time) =>
      remaining now (if time < creature.earliestWalkTime then creature.earliestWalkTime else time)
  | some (.go _ _ _) => remaining now creature.earliestWalkTime
  | some (.use _ obj2 _) => if obj2 ≠ 0 then remaining now creature.earliestMultiuseTime else 0
  | some .attack =>
      remaining now (if creature.earliestAttackTime < creature.earliestSpellTime then
        creature.earliestSpellTime else creature.earliestAttackTime)
  | _ => 0

/-- What becomes of an entry, by its place, when the list is cleared. -/
def discard (id : UInt32) (creature : Creature) (entry : ToDoEntry × Nat) : List Effect :=
  match entry.1 with
  | .talk text _ addressee _ => [.deleteDynamicString text, .deleteDynamicString addressee]
  | .changeState newState =>
      if creature.actToDo ≤ entry.2 ∧ creature.type = .npc then [.changeState id newState] else []
  | _ => []

def ToDoEntry.isGo : ToDoEntry → Bool
  | .go _ _ _ => true
  | _ => false

def snapbackNecessary (creature : Creature) : Bool :=
  (creature.toDoList.drop creature.actToDo).any ToDoEntry.isGo

def cleared (creature : Creature) : Creature :=
  { creature with lockToDo := false, actToDo := 0, toDoList := [], stop := false }

def toDoClear (world : World σ) (id : UInt32) : Bool × World σ :=
  match world.creatures id with
  | none => (false, world)
  | some creature =>
      (snapbackNecessary creature,
        (world.emit (creature.toDoList.zipIdx.flatMap (discard id creature))).set id
          (some (cleared creature)))

/-- `send_snapback`, to players only. -/
def sendSnapback (world : World σ) (id : UInt32) : World σ :=
  match world.creatures id with
  | none => world
  | some creature => if creature.type = .player then world.emit [.snapback id] else world

def append (world : World σ) (id : UInt32) (entry : ToDoEntry) : World σ :=
  world.set id ((world.creatures id).map fun creature =>
    { creature with toDoList := creature.toDoList ++ [entry] })

def isLocked (world : World σ) (id : UInt32) : Bool :=
  match world.creatures id with
  | none => false
  | some creature => creature.lockToDo

def toDoAdd (world : World σ) (id : UInt32) (entry : ToDoEntry) : World σ :=
  if isLocked world id then
    let after := toDoClear world id
    append (if after.1 then sendSnapback after.2 id else after.2) id entry
  else append world id entry

def toDoStop (world : World σ) (id : UInt32) : World σ :=
  if isLocked world id then
    world.set id ((world.creatures id).map fun creature => { creature with stop := true })
  else sendSnapback world id

def toDoStart (world : World σ) (id : UInt32) : World σ :=
  match world.creatures id with
  | none => world
  | some creature =>
      if creature.toDoList = [] then world
      else
        let started := { creature with lockToDo := true, actToDo := 0 }
        let delay := calculateDelay world.serverMilliseconds started
        let nextWakeup := world.serverMilliseconds + (if delay < 1 then 1 else delay)
        (world.schedule nextWakeup id).set id (some { started with nextWakeup := nextWakeup })

def toDoWait (world : World σ) (id delay : UInt32) : World σ :=
  toDoAdd world id (.wait (world.serverMilliseconds + delay))

def toDoYield (world : World σ) (id : UInt32) : World σ :=
  if isLocked world id then world else toDoStart (toDoWait world id 0) id

/-- What the game does to the creatures' lists from outside, while an action runs or between
the beats. -/
inductive Event where
  | toDoAdd (id : UInt32) (entry : ToDoEntry)
  | toDoStart (id : UInt32)
  | toDoYield (id : UInt32)
  | toDoClear (id : UInt32)
  | toDoStop (id : UInt32)
  | died (id : UInt32)
  | created (id : UInt32) (type : CreatureType)
  | removed (id : UInt32)
  | delayed (id walk multiuse spell attack : UInt32)

def apply (world : World σ) : Event → World σ
  | .toDoAdd id entry => toDoAdd world id entry
  | .toDoStart id => toDoStart world id
  | .toDoYield id => toDoYield world id
  | .toDoClear id => (toDoClear world id).2
  | .toDoStop id => toDoStop world id
  | .died id =>
      world.set id ((world.creatures id).map fun creature => { creature with isDead := true })
  | .created id type => world.set id (some (newCreature type))
  | .removed id => world.set id none
  | .delayed id walk multiuse spell attack =>
      world.set id ((world.creatures id).map fun creature =>
        { creature with
          earliestWalkTime := walk
          earliestMultiuseTime := multiuse
          earliestSpellTime := spell
          earliestAttackTime := attack })

/-- The actions and the idle handlers: what they do to lists, in order, how an action ends, and
the other state after them. -/
structure Game (σ : Type) where
  action : World σ → UInt32 → ToDoEntry → List Event × Option Thrown × σ
  idleStimulus : World σ → UInt32 → List Event × σ

def act (game : Game σ) (world : World σ) (id : UInt32) (creature : Creature) :
    ToDoEntry → World σ × Option Thrown
  | .wait _ => (world, none)
  | .changeState newState =>
      if creature.type = .npc then (toDoYield (world.emit [.changeState id newState]) id, none)
      else (world, none)
  | entry =>
      let done := game.action world id entry
      ({ done.1.foldl apply world with rest := done.2.2 }, done.2.1)

def idle (game : Game σ) (world : World σ) (id : UInt32) : World σ :=
  let done := game.idleStimulus world id
  { done.1.foldl apply world with rest := done.2 }

def stopped (world : World σ) (id : UInt32) : Bool :=
  match world.creatures id with
  | none => false
  | some creature => creature.stop

def stopNow (world : World σ) (id : UInt32) : World σ := sendSnapback (toDoClear world id).2 id

/-- The handler of exceptions in `Execute`. -/
def recover (world : World σ) (id : UInt32) (thrown : Thrown) : World σ :=
  let after := toDoClear world id
  let necessary := after.1 || stopped after.2 id
  let again :=
    if thrown = .result .exhausted then toDoStart (toDoWait after.2 id 1000) id
    else toDoYield after.2 id
  match again.creatures id with
  | none => again
  | some creature =>
      if creature.type = .player then
        let told := again.emit [.result id thrown]
        if necessary && thrown != .result .moveNotPossible && thrown != .result .notInvited &&
            thrown != .result .enterProtectionZone then
          told.emit [.snapback id]
        else told
      else again

/-- `Execute`; a creature that has been removed meanwhile has nothing more to do. -/
def execute (game : Game σ) : Nat → World σ → UInt32 → Option (World σ)
  | 0, _, _ => none
  | fuel + 1, world, id =>
      match world.creatures id with
      | none => some world
      | some creature =>
          if !creature.lockToDo || creature.isDead ||
              decide (world.serverMilliseconds < creature.nextWakeup) then some world
          else
            match creature.toDoList[creature.actToDo]? with
            | none => some (idle game (toDoClear world id).2 id)
            | some entry =>
                let delay := calculateDelay world.serverMilliseconds creature
                if 0 < delay then
                  if creature.stop then some (stopNow world id)
                  else
                    let nextWakeup := world.serverMilliseconds + delay
                    some ((world.schedule nextWakeup id).set id
                      (some { creature with nextWakeup := nextWakeup }))
                else
                  let next := { creature with actToDo := creature.actToDo + 1 }
                  let done := act game (world.set id (some next)) id next entry
                  match done.2 with
                  | some thrown => some (recover done.1 id thrown)
                  | none =>
                      if stopped done.1 id then some (stopNow done.1 id)
                      else execute game fuel done.1 id

def due (world : World σ) : Bool :=
  decide (0 < world.toDoQueue.entries) &&
    decide ((world.toDoQueue.entry 1).key ≤ world.serverMilliseconds.toNat)

def popped (world : World σ) : World σ := { world with toDoQueue := deleteMin world.toDoQueue }

/-- The loop of `move_creatures` once. -/
def pass (game : Game σ) (fuel : Nat) (world : World σ) : Option (World σ) :=
  let id := (world.toDoQueue.entry 1).data
  match world.creatures id with
  | none => some (popped world)
  | some _ => execute game fuel (popped world) id

def drain (game : Game σ) : Nat → World σ → Option (World σ)
  | 0, _ => none
  | fuel + 1, world =>
      if due world then (pass game fuel world).bind (drain game fuel) else some world

def later (world : World σ) (delay : UInt32) : World σ :=
  { world with serverMilliseconds := world.serverMilliseconds + delay }

def moveCreatures (game : Game σ) (fuel : Nat) (world : World σ) (delay : UInt32) :
    Option (World σ) := drain game fuel (later world delay)

inductive Op where
  | event (event : Event)
  | execute (id : UInt32)
  | moveCreatures (delay : UInt32)

def perform (game : Game σ) (fuel : Nat) (world : World σ) : Op → Option (World σ)
  | .event event => some (apply world event)
  | .execute id => execute game fuel world id
  | .moveCreatures delay => moveCreatures game fuel world delay

def start (rest : σ) : World σ :=
  ⟨0, ⟨fun _ => ⟨0, 0⟩, 0⟩, fun _ => none, [], rest⟩

end TibiaGame.ToDoScheduler
