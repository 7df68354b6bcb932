import TibiaGame.OperateModel

/-!
# The lists of a house

From `houses.cpp` the changes of the guests and subowners and of the text of a name door,
with the guests that have to leave. They throw a `RESULT`. The rest of the game is a type
of its own, and what it answers and does for these functions are parameters.
-/

namespace TibiaGame.HouseOperations

open TibiaGame.OperateModel (Result)
open Library.ThrowingState

/-- `RESULT` with `NOERROR`, which is `none`. -/
abbrev ResultCode := Option Result

abbrev Text := List UInt8

/-- An object's ID; `NONE` is zero. -/
abbrev ObjectID := UInt32

abbrev Operation (World Value : Type) := Program Empty ResultCode World Value

inductive Right where
  | premiumAccount
  | enterHouses
  | zeroCapacity
  | unlimitedCapacity
deriving DecidableEq

structure Position where
  x : Int
  y : Int
  z : Int
deriving DecidableEq

structure House where
  ownerID : UInt32
  lastTransition : Int
  exit : Position
  subowner : List Text
  guest : List Text

structure Trade where
  tradeObject : ObjectID
  tradePartner : UInt32
  tradeAccepted : Bool

/-- What the rest of the game answers and does for houses. `foundPlayers` are the answers of
`getNext` in the loop of `kick_guests`, one after the other. -/
structure Housing (World : Type) where
  getHouse : UInt16 → World → Option House
  setHouse : UInt16 → House → World → World
  checkAccessRight : Text → UInt32 → World → Int
  checkRight : UInt32 → Right → World → Bool
  position : UInt32 → World → Position
  getHouseID : Position → World → UInt16
  foundPlayers : UInt16 → World → List UInt32
  crObject : UInt32 → World → ObjectID
  graphicalEffect : UInt32 → World → World
  fieldObjects : Position → World → List ObjectID
  isBed : ObjectID → World → Bool
  textString : ObjectID → World → UInt32
  useObjects : UInt32 → ObjectID → ObjectID → Operation World Unit
  getMapContainer : Position → World → ObjectID
  move : UInt32 → ObjectID → ObjectID → Int → Bool → ObjectID → Operation World Unit
  doorPosition : ObjectID → World → Position
  hasText : ObjectID → World → Bool
  deleteDynamicString : ObjectID → World → World
  changeText : ObjectID → Text → Operation World Unit

variable {World Value : Type}

def ask (answer : World → Value) : Operation World Value := do
  return answer (← get)

section Houses

variable (game : Housing World)

/-- `INT_MAX`, the time stamp of a player who is in the game. -/
def present : Int := 2147483647

def isOwner (houseID : UInt16) (player : UInt32) (world : World) : Bool :=
  match game.getHouse houseID world with
  | none => false
  | some house => house.ownerID = player

def ruled (player : UInt32) (world : World) : List Text → Bool
  | [] => false
  | rule :: rest =>
      let access := game.checkAccessRight rule player world
      if access = -1 then false
      else if access = 1 then true
      else ruled player world rest

def isSubowner (houseID : UInt16) (player : UInt32) (timeStamp : Int) (world : World) : Bool :=
  match game.getHouse houseID world with
  | none => false
  | some house =>
      if house.lastTransition > timeStamp then false
      else ruled game player world house.subowner

def isGuest (houseID : UInt16) (player : UInt32) (timeStamp : Int) (world : World) : Bool :=
  match game.getHouse houseID world with
  | none => false
  | some house =>
      if house.lastTransition > timeStamp then false
      else ruled game player world house.guest

def isInvited (houseID : UInt16) (player : UInt32) (timeStamp : Int) (world : World) : Bool :=
  isOwner game houseID player world || isSubowner game houseID player timeStamp world ||
    isGuest game houseID player timeStamp world

def textLines : Text → List Text
  | [] => []
  | byte :: rest =>
      if byte = 10 then [] :: textLines rest
      else
        match textLines rest with
        | [] => [[byte]]
        | line :: lines => (byte :: line) :: lines

def maxHouseGuestName : Nat := 60

/-- The names that the loops over the text take into a list of at most `limit` names. -/
def listedNames (limit : Nat) (text : Text) : List Text :=
  ((textLines text).filter fun line => line ≠ [] ∧ line.head? ≠ some 35).map
    (fun line => line.take (maxHouseGuestName - 1)) |>.take limit

/-- The part of `kick_guest` in front of the move: a guest in a bed gets up. -/
def wakeGuest (guest : UInt32) : Operation World Unit := do
  modify (game.graphicalEffect guest)
  let world ← get
  match (game.fieldObjects (game.position guest world) world).find? (game.isBed · world) with
  | none => pure ()
  | some bed =>
      if game.textString bed world ≠ 0 then tryCatch (game.useObjects 0 bed bed) fun _ => pure ()
      else pure ()

/-- The move of `kick_guest`. -/
def moveOut (house : House) (guest : UInt32) : Operation World Unit := do
  let world ← get
  game.move 0 (game.crObject guest world) (game.getMapContainer house.exit world) (-1) false 0

/-- `kick_guest` without a host. -/
def kickGuest (houseID : UInt16) (guest : UInt32) : Operation World Unit := do
  match ← ask (game.getHouse houseID) with
  | none => throw (some .error)
  | some house =>
      wakeGuest game guest
      moveOut game house guest
      modify (game.graphicalEffect guest)

def mustLeave (houseID : UInt16) (player : UInt32) (world : World) : Bool :=
  game.getHouseID (game.position player world) world = houseID &&
    !isInvited game houseID player present world && !game.checkRight player .enterHouses world

def kickFound (houseID : UInt16) : List UInt32 → Operation World Unit
  | [] => pure ()
  | player :: rest => do
      whenever (mustLeave game houseID player (← get)) (kickGuest game houseID player)
      kickFound houseID rest

def kickGuests (houseID : UInt16) : Operation World Unit := do
  match ← ask (game.getHouse houseID) with
  | none => pure ()
  | some _ => kickFound game houseID (← ask (game.foundPlayers houseID))

/-- The text of one of the lists of a house is replaced by somebody who may do so. -/
def changeList (houseID : UInt16) (permitted : World → Bool) (change : House → House) :
    Operation World Unit := do
  match ← ask (game.getHouse houseID) with
  | none => throw (some .error)
  | some house =>
      refuse (!permitted (← get)) (some .notAccessible)
      modify (game.setHouse houseID (change house))
      kickGuests game houseID

def changeSubowners (houseID : UInt16) (player : UInt32) (text : Text) : Operation World Unit :=
  changeList game houseID (isOwner game houseID player) fun house =>
    { house with subowner := listedNames 10 text }

def mayEditGuests (houseID : UInt16) (player : UInt32) (world : World) : Bool :=
  isOwner game houseID player world ||
    isSubowner game houseID player present world && game.checkRight player .premiumAccount world

def changeGuests (houseID : UInt16) (player : UInt32) (text : Text) : Operation World Unit :=
  changeList game houseID (mayEditGuests game houseID player) fun house =>
    { house with guest := listedNames 100 text }

def changeNameDoor (door : ObjectID) (player : UInt32) (text : Text) : Operation World Unit := do
  let world ← get
  let houseID := game.getHouseID (game.doorPosition door world) world
  refuse (houseID = 0) (some .error)
  refuse (!isOwner game houseID player world) (some .notAccessible)
  refuse (!game.hasText door world) (some .error)
  modify (game.deleteDynamicString door)
  game.changeText door text

def canLeave (houseID : UInt16) (guest : UInt32) (world : World) : Prop :=
  ∃ house, game.getHouse houseID world = some house ∧
    Returns (moveOut game house guest) (ended (wakeGuest game guest) world).2

/-- Every player found who has to leave can do so, one after the other. -/
def guestsLeave (houseID : UInt16) : List UInt32 → World → Prop
  | [], _ => True
  | player :: rest, world =>
      if mustLeave game houseID player world then
        canLeave game houseID player world ∧
          guestsLeave houseID rest (ended (kickGuest game houseID player) world).2
      else guestsLeave houseID rest world

def kicksReturn (houseID : UInt16) (world : World) : Prop :=
  (game.getHouse houseID world).isSome → guestsLeave game houseID (game.foundPlayers houseID world) world

/-- The house exists, the player may change its list, and whoever has to leave can do so. -/
def listChanges (houseID : UInt16) (permitted : World → Bool) (change : House → House)
    (world : World) : Prop :=
  ∃ house, game.getHouse houseID world = some house ∧ permitted world = true ∧
    kicksReturn game houseID (game.setHouse houseID (change house) world)

def subownersChange (houseID : UInt16) (player : UInt32) (text : Text) : World → Prop :=
  listChanges game houseID (isOwner game houseID player) fun house =>
    { house with subowner := listedNames 10 text }

def guestsChange (houseID : UInt16) (player : UInt32) (text : Text) : World → Prop :=
  listChanges game houseID (mayEditGuests game houseID player) fun house =>
    { house with guest := listedNames 100 text }

def nameDoorChanges (door : ObjectID) (player : UInt32) (text : Text) (world : World) : Prop :=
  let houseID := game.getHouseID (game.doorPosition door world) world
  houseID ≠ 0 ∧ isOwner game houseID player world = true ∧ game.hasText door world = true ∧
    Returns (game.changeText door text) (game.deleteDynamicString door world)

variable {game} {world : World}

theorem returns_ask_iff {answer : World → Value} {rest : Value → Operation World Unit} :
    Returns (ask answer >>= rest) world ↔ Returns (rest (answer world)) world := Iff.rfl

theorem wake_guest_returns (guest : UInt32) : Returns (wakeGuest game guest) world := by
  rw [wakeGuest, returns_modify_iff, returns_get_iff]
  split
  · exact returns_pure
  split_ifs
  · apply returns_catch
    · intro halt
      exact halt.elim
    · intro thrown after
      exact returns_pure
  · exact returns_pure

theorem kick_guest_returns {houseID : UInt16} {guest : UInt32} :
    Returns (kickGuest game houseID guest) world ↔ canLeave game houseID guest world := by
  rw [kickGuest, returns_ask_iff, canLeave]
  rcases found : game.getHouse houseID world with _ | house
  · constructor
    · intro returned
      exact absurd returned not_returns_throw
    · rintro ⟨house, impossible, _⟩
      cases impossible
  simp only [Option.some_inj]
  rw [returns_then, returns_then]
  constructor
  · intro returned
    exact ⟨house, rfl, returned.2.1⟩
  · rintro ⟨other, rfl, returned⟩
    exact ⟨wake_guest_returns guest, returned, returns_pure⟩

theorem kick_found_returns {houseID : UInt16} (players : List UInt32) :
    Returns (kickFound game houseID players) world ↔ guestsLeave game houseID players world := by
  induction players generalizing world with
  | nil => exact ⟨fun _ => trivial, fun _ => returns_pure⟩
  | cons player rest ih =>
    rw [kickFound, returns_get_iff, guestsLeave]
    cases leaving : mustLeave game houseID player world with
    | true =>
      rw [if_pos rfl, returns_then, ih]
      exact and_congr kick_guest_returns Iff.rfl
    | false =>
      rw [if_neg Bool.false_ne_true, ← ih]
      rfl

theorem kick_guests_returns {houseID : UInt16} :
    Returns (kickGuests game houseID) world ↔ kicksReturn game houseID world := by
  rw [kickGuests, returns_ask_iff, kicksReturn]
  rcases game.getHouse houseID world with _ | house
  · constructor
    · nofun
    · intro _
      exact returns_pure
  change Returns (kickFound game houseID (game.foundPlayers houseID world)) world ↔ _
  rw [kick_found_returns]
  exact ⟨fun leave _ => leave, fun leave => leave rfl⟩

theorem change_list_returns {houseID : UInt16} {permitted : World → Bool}
    {change : House → House} : Returns (changeList game houseID permitted change) world ↔
      listChanges game houseID permitted change world := by
  rw [changeList, returns_ask_iff, listChanges]
  rcases game.getHouse houseID world with _ | house
  · constructor
    · intro returned
      exact absurd returned not_returns_throw
    · rintro ⟨house, impossible, _⟩
      cases impossible
  simp only [Option.some_inj]
  rw [returns_get_iff, returns_refuse_iff, returns_modify_iff, kick_guests_returns,
    Bool.not_eq_false']
  constructor
  · intro both
    exact ⟨house, rfl, both⟩
  · rintro ⟨other, rfl, both⟩
    exact both

theorem change_name_door_returns {door : ObjectID} {player : UInt32} {text : Text} :
    Returns (changeNameDoor game door player text) world ↔
      nameDoorChanges game door player text world := by
  rw [changeNameDoor, returns_get_iff]
  rw [returns_refuse_iff, returns_refuse_iff, returns_refuse_iff, returns_modify_iff,
    Bool.not_eq_false', Bool.not_eq_false', decide_eq_false_iff_not]
  rfl

end Houses

end TibiaGame.HouseOperations
