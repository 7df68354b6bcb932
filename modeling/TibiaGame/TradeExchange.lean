import TibiaGame.HouseOperations

/-!
# The exchange of a trade

`TPlayer::AcceptTrade`. The offers are checked in a block that catches what it throws;
the four moves behind it are not.
-/

namespace TibiaGame.TradeExchange

open TibiaGame.OperateModel (Result)
open HouseOperations Library.ThrowingState

inductive Flag where
  | unmove
  | take
  | movementEvent
  | container
deriving DecidableEq

structure Trading (World : Type) where
  trade : UInt32 → World → Trade
  setTrade : UInt32 → Trade → World → World
  playerExists : UInt32 → World → Bool
  checkRight : UInt32 → Right → World → Bool
  objectAccessible : UInt32 → ObjectID → World → Bool
  flag : ObjectID → Flag → World → Bool
  carryStrength : UInt32 → World → Option Int
  inventoryWeight : UInt32 → World → Int
  completeWeight : ObjectID → World → Int
  objectCreatureID : ObjectID → World → UInt32
  bodyObject : UInt32 → Nat → Operation World ObjectID
  bodyContainer : UInt32 → Nat → Operation World ObjectID
  checkInventoryPlace : ObjectID → ObjectID → ObjectID → Operation World Unit
  capacity : ObjectID → World → Int
  countObjectsInContainer : ObjectID → World → Int
  container : ObjectID → World → ObjectID
  refusedOffer : UInt32 → UInt32 → ResultCode → World → World
  closeTrade : UInt32 → World → World
  creatureField : UInt32 → World → ObjectID
  move : UInt32 → ObjectID → ObjectID → Int → Bool → ObjectID → Operation World Unit

variable {World : Type} (game : Trading World)

/-- The body positions, `INVENTORY_FIRST` to `INVENTORY_LAST`. -/
def bodyPositions : List Nat := [1, 2, 3, 4, 5, 6, 7, 8, 9, 10]

/-- The other player can carry the object, less what the player gives away for it. -/
def checkCarryStrength (other : UInt32) (obj given : ObjectID) : Operation World Unit := do
  let world ← get
  match game.carryStrength other world with
  | none => throw (some .error)
  | some strength =>
      let weight := game.inventoryWeight other world + game.completeWeight obj world
      let final :=
        if game.objectCreatureID given world = other then weight - game.completeWeight given world
        else weight
      refuse (final > strength * 100) (some .tooHeavy)

def positionFor (other : UInt32) (obj given : ObjectID) (checkContainers : Bool) (position : Nat) :
    Operation World (Option ObjectID) := do
  let bodyObj ← game.bodyObject other position
  let world ← get
  if checkContainers then
    if bodyObj ≠ 0 ∧ bodyObj ≠ given ∧ game.flag bodyObj .container world then
      let count := game.countObjectsInContainer bodyObj world + 1
      let final := if game.container given world = bodyObj then count - 1 else count
      refuse (final > game.capacity bodyObj world) (some .containerFull)
      return some bodyObj
    else return none
  else if bodyObj = 0 then
    let bodyCon ← game.bodyContainer other position
    game.checkInventoryPlace obj bodyCon given
    return some bodyCon
  else return none

def firstPosition (other : UInt32) (obj given : ObjectID) (checkContainers : Bool) :
    List Nat → Operation World (Option ObjectID)
  | [] => return none
  | position :: rest => do
      match ← tryCatch (positionFor game other obj given checkContainers position)
        fun _ => return none with
      | some dest => return some dest
      | none => firstPosition other obj given checkContainers rest

def checkOffer (cur other : UInt32) (obj given : ObjectID) : Operation World ObjectID := do
  let world ← get
  refuse (!game.objectAccessible cur obj world) (some .notAccessible)
  refuse (game.flag obj .unmove world) (some .notMovable)
  refuse (!game.flag obj .take world) (some .notTakable)
  refuse (game.checkRight other .zeroCapacity world) (some .tooHeavy)
  whenever (!game.checkRight other .unlimitedCapacity world) (checkCarryStrength game other obj given)
  let checkContainers := game.flag obj .movementEvent world
  match ← firstPosition game other obj given checkContainers bodyPositions with
  | some dest => return dest
  | none =>
      match ← firstPosition game other obj given (!checkContainers) bodyPositions with
      | some dest => return dest
      | none => throw (some .noRoom)

def Trading.clearTrade (game : Trading World) (player : UInt32) (world : World) : World :=
  game.setTrade player { game.trade player world with tradeObject := 0 } world

def closeTrades (cur other : UInt32) (world : World) : World :=
  game.closeTrade other (game.closeTrade cur (game.clearTrade other (game.clearTrade cur world)))

def offerPlace (cur other : UInt32) (obj given : ObjectID) : Operation World (Option ObjectID) :=
  tryCatch (do return some (← checkOffer game cur other obj given)) fun code => do
    modify (game.refusedOffer cur other code)
    modify (closeTrades game cur other)
    return none

def exchange (player partner : UInt32) (own theirs ownDest theirDest : ObjectID) :
    Operation World Unit := do
  modify (closeTrades game player partner)
  game.move 0 own (game.creatureField partner (← get)) (-1) true 0
  game.move 0 theirs (game.creatureField player (← get)) (-1) true 0
  game.move 0 own theirDest (-1) true 0
  game.move 0 theirs ownDest (-1) true 0

/-- `player` and the partner have agreed. -/
def agreedExchange (player partner : UInt32) (own theirs : ObjectID) : Operation World Unit := do
  match ← offerPlace game player partner own theirs with
  | none => pure ()
  | some theirDest =>
      match ← offerPlace game partner player theirs own with
      | none => pure ()
      | some ownDest => exchange game player partner own theirs ownDest theirDest

def acceptTrade (player : UInt32) : Operation World Unit := do
  let world ← get
  let own := game.trade player world
  let theirs := game.trade own.tradePartner world
  if own.tradeObject = 0 then pure ()
  else if !game.playerExists own.tradePartner world ∨ theirs.tradeObject = 0 ∨
      theirs.tradePartner ≠ player then pure ()
  else
    modify (game.setTrade player { own with tradeAccepted := true })
    if theirs.tradeAccepted then
      agreedExchange game player own.tradePartner own.tradeObject theirs.tradeObject
    else pure ()

/-- One move of the exchange succeeds, and so does what is behind it. -/
def moveThen (obj : ObjectID) (dest : World → ObjectID) (rest : World → Prop) (world : World) :
    Prop :=
  Returns (game.move 0 obj (dest world) (-1) true 0) world ∧
    rest (ended (game.move 0 obj (dest world) (-1) true 0) world).2

def exchangeReturns (player partner : UInt32) (own theirs ownDest theirDest : ObjectID)
    (world : World) : Prop :=
  moveThen game own (game.creatureField partner)
    (moveThen game theirs (game.creatureField player)
      (moveThen game own (fun _ => theirDest) (moveThen game theirs (fun _ => ownDest) fun _ => True)))
    (closeTrades game player partner world)

/-- If both offers find a place, the objects can be moved there. -/
def agreedReturns (player partner : UInt32) (own theirs : ObjectID) (world : World) : Prop :=
  ∀ theirDest ownDest,
    (ended (offerPlace game player partner own theirs) world).1 = .ok (some theirDest) →
    (ended (offerPlace game partner player theirs own)
      (ended (offerPlace game player partner own theirs) world).2).1 = .ok (some ownDest) →
    exchangeReturns game player partner own theirs ownDest theirDest
      (ended (offerPlace game partner player theirs own)
        (ended (offerPlace game player partner own theirs) world).2).2

/-- The trade is not agreed upon by both, or its objects can be exchanged. -/
def tradeReturns (player : UInt32) (world : World) : Prop :=
  let own := game.trade player world
  let theirs := game.trade own.tradePartner world
  own.tradeObject ≠ 0 → game.playerExists own.tradePartner world = true → theirs.tradeObject ≠ 0 →
    theirs.tradePartner = player → theirs.tradeAccepted = true →
      agreedReturns game player own.tradePartner own.tradeObject theirs.tradeObject
        (game.setTrade player { own with tradeAccepted := true } world)

variable {game} {world : World}

theorem exchange_returns {player partner : UInt32} {own theirs ownDest theirDest : ObjectID} :
    Returns (exchange game player partner own theirs ownDest theirDest) world ↔
      exchangeReturns game player partner own theirs ownDest theirDest world := by
  rw [exchange, returns_modify_iff, returns_get_iff, returns_then, returns_get_iff, returns_then,
    returns_then, exchangeReturns]
  simp only [moveThen, and_true]

theorem offer_place_returns (game : Trading World) (cur other : UInt32) (obj given : ObjectID) (world : World) :
    ∃ place, (ended (offerPlace game cur other obj given) world).1 = .ok place := by
  rw [← returns_iff]
  apply returns_catch
  · intro halt
    exact halt.elim
  · intro code after
    exact returns_pure

theorem agreed_exchange_returns {player partner : UInt32} {own theirs : ObjectID} :
    Returns (agreedExchange game player partner own theirs) world ↔
      agreedReturns game player partner own theirs world := by
  rw [agreedExchange, returns_bind, agreedReturns]
  cases offer_place_returns game player partner own theirs world with
  | intro place found =>
    rcases place with _ | theirDest
    · simp only [found, Except.ok.injEq, reduceCtorEq, false_implies, implies_true, iff_true]
      exact ⟨none, rfl, returns_pure⟩
    simp only [found, Except.ok.injEq, Option.some_inj, exists_eq_left', returns_bind]
    cases offer_place_returns game partner player theirs own
        (ended (offerPlace game player partner own theirs) world).2 with
    | intro other also =>
      rcases other with _ | ownDest
      · simp only [also, Except.ok.injEq, reduceCtorEq, false_implies, implies_true,
          iff_true]
        exact ⟨none, rfl, returns_pure⟩
      simp only [also, Except.ok.injEq, Option.some_inj, exists_eq_left',
        exchange_returns]
      constructor
      · rintro returned _ _ rfl rfl
        exact returned
      · intro returned
        exact returned theirDest ownDest rfl rfl

theorem accept_trade_returns {player : UInt32} :
    Returns (acceptTrade game player) world ↔ tradeReturns game player world := by
  rw [acceptTrade, returns_get_iff, tradeReturns]
  simp only
  split_ifs with idle missing accepted
  · simp [idle, returns_pure]
  · simp only [returns_pure, true_iff]
    intro _ here offered returned _
    rcases missing with gone | nothing | elsewhere
    · simp [here] at gone
    · exact absurd nothing offered
    · exact absurd returned elsewhere
  · rw [returns_modify_iff, agreed_exchange_returns]
    simp only [not_or, Bool.not_eq_true, Bool.not_eq_false', not_not] at missing
    constructor
    · intro returned _ _ _ _ _
      exact returned
    · intro returned
      exact returned idle missing.1 missing.2.1 missing.2.2 accepted
  · simp only [returns_modify_iff, returns_pure, true_iff]
    intro _ _ _ _ agreed
    exact absurd agreed accepted

end TibiaGame.TradeExchange
