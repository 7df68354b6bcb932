import TibiaGame.ViewWindow

/-!
# The creatures that a client knows

The `KnownCreatureTable` of every connection. An entry that is not free is linked
into a list that starts at the creature it names, `FirstKnowingConnection`; a
pointer to an entry is the connection with the index of the entry, and the field
`Connection` of an entry is the connection whose table holds it.
-/

namespace TibiaGame.KnownCreatures

open ViewWindow

inductive KnownState where
  | free
  | upToDate
  | outdated
deriving DecidableEq

def tableSize : Nat := 150

/-- A pointer into the tables of `n` connections. -/
abbrev Node (n : Nat) := Fin n × Fin tableSize

structure KnownCreature (n : Nat) where
  state : KnownState
  creatureId : UInt32
  next : Option (Node n)

structure Creature (n : Nat) where
  position : Position
  firstKnowingConnection : Option (Node n)

/-- The tables, the creatures by their identifier, and of each connection whether it is in
the game and where its player is. -/
structure Knowledge (n : Nat) where
  table : Node n → KnownCreature n
  hashList : UInt32 → Option (Creature n)
  inGame : Fin n → Bool
  player : Fin n → Position

variable {n : Nat}

def Knowledge.getCreature (world : Knowledge n) (id : UInt32) : Option (Creature n) :=
  if id = 0 then none else world.hashList id

def Knowledge.set (world : Knowledge n) (node : Node n) (entry : KnownCreature n) : Knowledge n :=
  { world with table := Function.update world.table node entry }

def Knowledge.setState (world : Knowledge n) (node : Node n) (state : KnownState) : Knowledge n :=
  world.set node { world.table node with state := state }

def Knowledge.setNext (world : Knowledge n) (node : Node n) (next : Option (Node n)) : Knowledge n :=
  world.set node { world.table node with next := next }

def Knowledge.setFirst (world : Knowledge n) (id : UInt32) (creature : Creature n)
    (first : Option (Node n)) : Knowledge n :=
  { world with
    hashList :=
      Function.update world.hashList id (some { creature with firstKnowingConnection := first }) }

def firstIndex (test : Fin tableSize → Bool) : Option (Fin tableSize) :=
  (List.finRange tableSize).find? test

def Knowledge.findId (world : Knowledge n) (conn : Fin n) (id : UInt32) : Option (Fin tableSize) :=
  firstIndex fun index => decide ((world.table (conn, index)).creatureId = id)

def knownCreature (world : Knowledge n) (conn : Fin n) (id : UInt32) (updateFollows : Bool) :
    KnownState × Knowledge n :=
  match world.findId conn id with
  | none => (.free, world)
  | some index =>
      let result := (world.table (conn, index)).state
      if result = .outdated ∧ updateFollows then
        (result, world.setState (conn, index) .upToDate)
      else (result, world)

/-- As many turns as there are entries; the walks along a list need no more. -/
def walkLimit (n : Nat) : Nat := n * tableSize

/-- `Prev` and `Cur` where the loop of `unchain_known_creature` is left. -/
def searchConnection (world : Knowledge n) (conn : Fin n) :
    Nat → Option (Node n) → Option (Node n) → Option (Node n) × Option (Node n)
  | fuel + 1, prev, some cur =>
      if cur.1 = conn then (prev, some cur)
      else searchConnection world conn fuel (some cur) (world.table cur).next
  | _, prev, _ => (prev, none)

/-- The entry found behind the other one is freed and taken out of the list. -/
def takeOut (world : Knowledge n) (id : UInt32) (creature : Creature n) :
    Option (Node n) × Option (Node n) → Knowledge n
  | (_, none) => world
  | (none, some cur) => (world.setState cur .free).setFirst id creature (world.table cur).next
  | (some prev, some cur) => (world.setState cur .free).setNext prev (world.table cur).next

def unchainKnownCreature (world : Knowledge n) (conn : Fin n) (id : UInt32) : Knowledge n :=
  match world.getCreature id with
  | none => world
  | some creature =>
      match creature.firstKnowingConnection with
      | none => world
      | some first =>
          takeOut world id creature (searchConnection world conn (walkLimit n) none (some first))

/-- A turn of the loop of `clear_known_creature_table` with `Unchain` set. -/
def clearSlot (conn : Fin n) (world : Knowledge n) (index : Fin tableSize) : Knowledge n :=
  let entry := world.table (conn, index)
  let unchained :=
    if entry.state ≠ .free then unchainKnownCreature world conn entry.creatureId else world
  unchained.set (conn, index)
    { unchained.table (conn, index) with state := .free, creatureId := 0 }

def clearKnownCreatureTable (world : Knowledge n) (conn : Fin n) : Knowledge n :=
  (List.finRange tableSize).foldl (clearSlot conn) world

def Knowledge.forgettable (world : Knowledge n) (conn : Fin n) (index : Fin tableSize) : Bool :=
  match world.getCreature (world.table (conn, index)).creatureId with
  | none => true
  | some creature => !isVisible joined (world.player conn) creature.position

/-- `OldID` and `EntryIndex`, with the tables after an entry has been unchained. -/
def chooseEntry (world : Knowledge n) (conn : Fin n) (newId : UInt32) :
    Option (UInt32 × Fin tableSize × Knowledge n) :=
  match world.findId conn newId with
  | some index => some (newId, index, world)
  | none =>
      match firstIndex fun index => decide ((world.table (conn, index)).state = .free) with
      | some index => some ((world.table (conn, index)).creatureId, index, world)
      | none =>
          match firstIndex (world.forgettable conn) with
          | some index =>
              let oldId := (world.table (conn, index)).creatureId
              some (oldId, index, unchainKnownCreature world conn oldId)
          | none => none

/-- The end of `new_known_creature`. -/
def enterCreature (world : Knowledge n) (node : Node n) (newId : UInt32) : Knowledge n :=
  let named := world.set node { world.table node with state := .upToDate, creatureId := newId }
  match named.getCreature newId with
  | none => named
  | some creature =>
      (named.setNext node creature.firstKnowingConnection).setFirst newId creature (some node)

def newKnownCreature (world : Knowledge n) (conn : Fin n) (newId : UInt32) : UInt32 × Knowledge n :=
  match chooseEntry world conn newId with
  | none => (0, world)
  | some (oldId, index, chosen) => (oldId, enterCreature chosen (conn, index) newId)

/-- What `send_map_object` does with the tables for a creature. -/
def sendCreature (world : Knowledge n) (conn : Fin n) (id : UInt32) : Knowledge n :=
  match world.getCreature id with
  | none => world
  | some _ =>
      let (state, looked) := knownCreature world conn id true
      if state = .free then (newKnownCreature looked conn id).2 else looked

def forChain (visit : Knowledge n → Node n → Knowledge n) :
    Nat → Knowledge n → Option (Node n) → Knowledge n
  | fuel + 1, world, some node =>
      let visited := visit world node
      forChain visit fuel visited (visited.table node).next
  | _, world, _ => world

/-- A turn of the loop of `announce_changed_creature`; the messages that are sent to a
client which sees the creature leave the tables as they are. -/
def announceTo (position : Position) (world : Knowledge n) (node : Node n) : Knowledge n :=
  if world.inGame node.1 = false ∨ (world.table node).state = .outdated then world
  else if isVisible joined (world.player node.1) position then world
  else world.setState node .outdated

def announceChangedCreature (world : Knowledge n) (id : UInt32) : Knowledge n :=
  match world.getCreature id with
  | none => world
  | some creature =>
      forChain (announceTo creature.position) (walkLimit n) world creature.firstKnowingConnection

/-- The end of `~TCreature`: the identifier is taken out, then every entry is freed. -/
def destroyCreature (world : Knowledge n) (id : UInt32) : Knowledge n :=
  match world.getCreature id with
  | none => world
  | some creature =>
      forChain (fun world node => world.setState node .free) (walkLimit n)
        { world with hashList := Function.update world.hashList id none }
        creature.firstKnowingConnection

/-- A new creature; `SetID` looks for an identifier that no creature has. -/
def createCreature (world : Knowledge n) (id : UInt32) (position : Position) : Knowledge n :=
  if id = 0 ∨ (world.getCreature id).isSome then world
  else { world with hashList := Function.update world.hashList id (some ⟨position, none⟩) }

def moveCreature (world : Knowledge n) (id : UInt32) (position : Position) : Knowledge n :=
  match world.getCreature id with
  | none => world
  | some creature =>
      { world with
        hashList := Function.update world.hashList id (some { creature with position := position }) }

inductive Event (n : Nat) where
  | sendCreature (conn : Fin n) (id : UInt32)
  | unchain (conn : Fin n) (id : UInt32)
  | clear (conn : Fin n)
  | announce (id : UInt32)
  | destroy (id : UInt32)
  | create (id : UInt32) (position : Position)
  | move (id : UInt32) (position : Position)
  | view (inGame : Fin n → Bool) (player : Fin n → Position)

def step (world : Knowledge n) : Event n → Knowledge n
  | .sendCreature conn id => sendCreature world conn id
  | .unchain conn id => unchainKnownCreature world conn id
  | .clear conn => clearKnownCreatureTable world conn
  | .announce id => announceChangedCreature world id
  | .destroy id => destroyCreature world id
  | .create id position => createCreature world id position
  | .move id position => moveCreature world id position
  | .view inGame player => { world with inGame := inGame, player := player }

/-- No creature, and every table as `clear_known_creature_table` leaves it. -/
def start (n : Nat) : Knowledge n where
  table := fun _ => ⟨.free, 0, none⟩
  hashList := fun _ => none
  inGame := fun _ => false
  player := fun _ => ⟨0, 0, 0⟩

def run (n : Nat) (events : List (Event n)) : Knowledge n := events.foldl step (start n)

end TibiaGame.KnownCreatures
