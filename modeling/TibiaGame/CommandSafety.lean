import TibiaGame.CommandHandlers

/-!
# What escapes from the commands

Every handler is taken apart once. All but those of `EDIT_LIST` and `ACCEPT_TRADE` throw
nothing but texts, whatever the calls in their blocks do.
-/

namespace TibiaGame.CommandSafety

open TibiaGame.OperateModel (Result)
open HouseOperations TradeExchange CommandHandlers Library.ThrowingState

variable {World Value Final : Type}

def isText : Thrown → Prop
  | .text _ => True
  | .result _ => False

abbrev Contained (program : Command World Value) (start : Session World) : Prop :=
  ThrowsOnly isText program start

abbrev Safe (program : Command World Value) : Prop := ∀ start, Contained program start

/-- The rules below are instances: what a handler throws is seen by the way it is put together. -/
class Throws (allowed : Thrown → Prop) (program : Command World Value) : Prop where
  throws : ∀ start, ThrowsOnly allowed program start

abbrev IsSafe (program : Command World Value) : Prop := Throws isText program

abbrev IsQuiet (program : Command World Value) : Prop := Throws (fun thrown => ¬ isText thrown) program

section Rules

variable {allowed : Thrown → Prop} {program : Command World Value}
  {next : Value → Command World Final}

instance (value : Value) : Throws allowed (pure value : Command World Value) :=
  ⟨fun _ => throws_only_pure⟩

theorem Throws.bind [Throws allowed program] (rest : ∀ value, Throws allowed (next value)) :
    Throws allowed (program >>= next) := by
  constructor
  intro start
  apply (Throws.throws start).bind
  intro value after
  exact (rest value).throws after

instance [Throws allowed program] [∀ value, Throws allowed (next value)] :
    Throws allowed (program >>= next) := .bind fun _ => inferInstance

instance (answer : World → Value) : Throws allowed (inquire answer) := ⟨fun _ => trivial⟩

instance (change : World → World) : Throws allowed (tell change) := ⟨fun _ => trivial⟩

instance (act : World → Value × World) : Throws allowed (request act) := ⟨fun _ => trivial⟩

instance (reader : Reader Value) : IsSafe (receive reader : Command World Value) := by
  constructor
  intro start
  unfold receive
  apply meets_get
  cases reader start.buffer with
  | none => exact meets_throw trivial
  | some taken => exact trivial

theorem finish_call (operation : Operation World Value) (start : Session World) :
    finish (call operation) start =
      .ok ((ended operation start.world).1.mapError Thrown.result,
        { start with world := (ended operation start.world).2 }) := by
  unfold finish call
  simp only [ExceptT.run_mk, StateT.run]
  rw [finish_ended]
  rcases ended operation start.world with ⟨result, after⟩
  cases result with
  | error code => rfl
  | ok value => rfl

instance (operation : Operation World Value) : IsQuiet (call operation) := by
  constructor
  intro start
  unfold ThrowsOnly Meets
  rw [finish_call]
  cases (ended operation start.world).1 with
  | error code => exact fun text => text
  | ok value => trivial

instance {needed : Bool} {program : Command World Unit} [Throws allowed program] :
    Throws allowed (whenever needed program) := ⟨fun start => (Throws.throws start).whenever⟩

instance {program : Command World Unit} {handler : ResultCode → Command World Unit}
    [IsQuiet program] [∀ code, Throws allowed (handler code)] :
    Throws allowed (catchResult program handler) := by
  constructor
  intro start
  apply meets_catch (Throws.throws start : ThrowsOnly (fun thrown => ¬ isText thrown) program start)
  intro thrown after noText
  cases thrown with
  | text message => exact absurd trivial noText
  | result code => exact Throws.throws after

instance {program : Command World Unit} {handler : ResultCode → Command World Unit}
    [∀ code, IsSafe (handler code)] : IsSafe (catchResult program handler) := by
  constructor
  intro start
  unfold catchResult ThrowsOnly Meets
  rw [finish_catch]
  cases finish program start with
  | error halt => exact trivial
  | ok pair =>
    rcases pair with ⟨result, after⟩
    cases result with
    | ok value => exact trivial
    | error thrown =>
      cases thrown with
      | text message => exact trivial
      | result code => exact Throws.throws after

instance {condition : Prop} [Decidable condition] {first second : Command World Value}
    [Throws allowed first] [Throws allowed second] :
    Throws allowed (if condition then first else second) := by
  split_ifs
  · infer_instance
  · infer_instance

end Rules

section Handlers

variable (game : Game World)

section

variable {allowed : Thrown → Prop} {body : UInt32 → Command World Unit}

theorem Throws.withPlayer (rest : ∀ player, Throws allowed (body player)) :
    Throws allowed (withPlayer game body) := by
  apply Throws.bind
  intro found
  cases found with
  | none => infer_instance
  | some player => exact rest player

variable [∀ player, Throws allowed (body player)]

instance : Throws allowed (withPlayer game body) := .withPlayer game fun _ => inferInstance

instance : Throws allowed (withRequests game body) := by
  unfold withRequests
  infer_instance

instance : Throws allowed (withParty game body) := by
  unfold withParty
  infer_instance

end

section

variable {allowed : Thrown → Prop} (player : UInt32) (code : ResultCode) (mode : UInt8)
  (addressee spoken : Text)

instance (action : Action) : IsQuiet (tries game player action) := by
  unfold tries
  infer_instance

instance (deed : Deed) : Throws allowed (does game player deed) := by
  unfold does
  infer_instance

instance : Throws allowed (clearToDo game player) := by
  unfold clearToDo
  infer_instance

instance : Throws allowed (sendAndYield game player code) := by
  unfold sendAndYield
  infer_instance

instance : Throws allowed (sendUnlessNoError game player code) := by
  unfold sendUnlessNoError
  infer_instance

instance : Throws allowed (sendClearAndYield game player code) := by
  unfold sendClearAndYield
  infer_instance

instance (obj : ObjectID) : Throws allowed (lookAt game player obj) := by
  unfold lookAt
  infer_instance

instance : Throws allowed (talk game player mode addressee spoken) := by
  unfold talk
  infer_instance

instance : Throws allowed (talkRequest game player mode addressee spoken) := by
  apply Throws.bind
  intro world
  split_ifs
  · infer_instance
  · infer_instance
  · split
    · infer_instance
    · infer_instance
  · infer_instance
  · infer_instance
  · infer_instance

instance (channel : UInt16) : Throws allowed (talkIn game player mode addressee channel spoken) := by
  unfold talkIn
  infer_instance

instance (channel : UInt16) : IsSafe (talkTo game player mode addressee channel) := by
  unfold talkTo
  infer_instance

instance : Throws allowed (cQuitGame game) := by
  apply Throws.bind
  intro found
  cases found with
  | none => infer_instance
  | some player =>
    apply Throws.bind
    intro answer
    split
    · infer_instance
    · infer_instance
    · infer_instance
    · infer_instance

end

instance : IsSafe (cUseOnCreature game) := by
  apply Throws.withPlayer
  intro player
  iterate 5
    apply Throws.bind
    intro _
  dsimp only
  split
  · infer_instance
  · split
    · infer_instance
    · infer_instance

instance {reader : Reader Value} {deed : Value → Deed} : IsSafe (deedOnly game reader deed) := by
  unfold deedOnly
  infer_instance

/-- The two commands whose handlers call functions that throw a `RESULT` outside a block. -/
def acceptTradeCommand : UInt8 := 127
def editListCommand : UInt8 := 138

theorem handle_safe (command : UInt8) (other : command ≠ acceptTradeCommand)
    (another : command ≠ editListCommand) : Safe (handle game command) := by
  suffices IsSafe (handle game command) from Throws.throws
  unfold handle
  split
  all_goals first
    | exact absurd rfl other
    | exact absurd rfl another
    | infer_instance
    | dsimp only [cPing, cGoPath, cGoDirection, cGoStop, cRotate, cMoveObject, cTradeObject,
        cInspectTrade, cRejectTrade, cUseObject, cUseTwoObjects, cTurnObject, cCloseContainer,
        cUpContainer, cEditText, cLookAtPoint, cTalk, cGetChannels, cJoinChannel, cLeaveChannel,
        cPrivateChannel, cProcessRequest, cRemoveRequest, cCancelRequest, cSetTactics, cAttack,
        cInviteToParty, cJoinParty, cRevokeInvitation, cPassLeadership, cLeaveParty,
        cOpenChannel, cInviteToChannel, cExcludeFromChannel, cCancel, cRefreshField,
        cRefreshContainer, cGetOutfit, cSetOutfit, cAddBuddy, cRemoveBuddy, cBugReport,
        cRuleViolation, cErrorFileEntry, cChallengeResponse]
      infer_instance

end Handlers

section Escapes

variable (game : Game World)

section

variable {start : Session World}

theorem contained_call {operation : Operation World Value} :
    Contained (call operation) start ↔ Returns operation start.world := by
  unfold Contained ThrowsOnly Meets
  rw [finish_call, returns_iff]
  cases result : (ended operation start.world).1 with
  | error code => simp [Except.mapError, isText]
  | ok value => simp [Except.mapError]

theorem returns_catch_text {program : Command World Unit} :
    Returns (catchText program fun _ => pure ()) start ↔ Contained program start := by
  unfold catchText Returns Contained ThrowsOnly Meets
  rw [finish_catch]
  rcases finish program start with halt | pair
  · exact halt.elim
  rcases pair with ⟨result, after⟩
  cases result with
  | ok value => simp
  | error thrown =>
    cases thrown with
    | text message => exact ⟨fun _ => trivial, fun _ => ⟨(), after, rfl⟩⟩
    | result code =>
      constructor
      · rintro ⟨value, last, impossible⟩
        cases impossible
      · intro impossible
        exact impossible.elim

theorem contained_with_player {body : UInt32 → Command World Unit} :
    Contained (withPlayer game body) start ↔
      ∀ player, game.getPlayer start.world = some player → Contained (body player) start := by
  unfold withPlayer Contained
  rw [throws_only_bind_iff]
  have answered : finish (inquire game.getPlayer) start =
      .ok (.ok (game.getPlayer start.world), start) := rfl
  unfold Meets
  rw [answered]
  cases game.getPlayer start.world with
  | none => simp [throws_only_pure]
  | some player => simp

theorem finish_receive (reader : Reader Value) (start : Session World) :
    finish (receive reader) start =
      match reader start.buffer with
      | none => .ok (.error (.text "buffer empty"), start)
      | some (value, rest) => .ok (.ok value, { start with buffer := rest }) := by
  unfold receive
  change finish (match reader start.buffer with
    | none => (throw (Thrown.text "buffer empty") : Command World Value)
    | some (value, rest) => do
        set { start with buffer := rest }
        return value) start = _
  cases reader start.buffer with
  | none => rfl
  | some taken => rfl

theorem contained_receive {reader : Reader Value} {next : Value → Command World Final} :
    Contained (receive reader >>= next) start ↔
      ∀ value rest, reader start.buffer = some (value, rest) →
        Contained (next value) { start with buffer := rest } := by
  unfold Contained
  rw [throws_only_bind_iff]
  unfold Meets
  rw [finish_receive]
  rcases reader start.buffer with _ | taken
  · simp [isText]
  rcases taken with ⟨value, rest⟩
  constructor
  · rintro contained _ _ ⟨⟩
    exact contained
  · intro contained
    exact contained value rest rfl

/-- What becomes of the list in an `EDIT_LIST` packet. -/
def listReturns (player : UInt32) (edited : UInt8 × UInt32 × Text) (world : World) : Prop :=
  if edited.1 = guestList then
    guestsChange game.toHousing edited.2.1.toUInt16 player edited.2.2 world
  else if edited.1 = subownerList then
    subownersChange game.toHousing edited.2.1.toUInt16 player edited.2.2 world
  else edited.1 = doorList → game.objectExists edited.2.1 world = true →
    isNameDoor game edited.2.1 world = true →
      nameDoorChanges game.toHousing edited.2.1 player edited.2.2 world

theorem edit_list_contained : Contained (cEditList game) start ↔
    ∀ player, game.getPlayer start.world = some player →
      ∀ edited rest, editedList start.buffer = some (edited, rest) →
        listReturns game player edited start.world := by
  unfold cEditList
  rw [contained_with_player]
  apply forall_congr'
  intro player
  apply imp_congr_right
  intro _
  rw [contained_receive]
  apply forall_congr'
  intro edited
  apply forall_congr'
  intro rest
  apply imp_congr_right
  intro _
  rcases edited with ⟨type, id, edited⟩
  unfold listReturns
  simp only
  split_ifs with guests subowners door
  · rw [contained_call]
    exact change_list_returns
  · rw [contained_call]
    exact change_list_returns
  · change Contained (if !game.objectExists id start.world || !isNameDoor game id start.world then
        does game player (.sendResult (some .notAccessible))
      else call (changeNameDoor game.toHousing id player edited)) ⟨start.world, rest⟩ ↔ _
    split_ifs with closed
    · have refused : Contained (does game player (.sendResult (some .notAccessible)))
          ⟨start.world, rest⟩ := Throws.throws _
      simp only [refused, true_iff]
      intro _ present named
      simp [present, named] at closed
    · simp only [Bool.or_eq_true, Bool.not_eq_true', not_or, Bool.not_eq_false] at closed
      rw [contained_call, change_name_door_returns]
      simp [door, closed.1, closed.2]
  · have nothing : Contained (pure () : Command World Unit) ⟨start.world, rest⟩ := Throws.throws _
    simp [nothing, door]

theorem accept_trade_contained : Contained (cAcceptTrade game) start ↔
    ∀ player, game.getPlayer start.world = some player →
      tradeReturns game.toTrading player start.world := by
  unfold cAcceptTrade
  rw [contained_with_player]
  apply forall_congr'
  intro player
  rw [contained_call, accept_trade_returns]

/-- The packet is no `ACCEPT_TRADE` and no `EDIT_LIST`, or what it asks for can be done. -/
def spared (command : UInt8) (rest : List UInt8) (player : UInt32) (world : World) : Prop :=
  (command = acceptTradeCommand → tradeReturns game.toTrading player world) ∧
    (command = editListCommand → ∀ edited left, editedList rest = some (edited, left) →
      listReturns game player edited world)

theorem handle_contained (command : UInt8) (start : Session World) :
    Contained (handle game command) start ↔
      ∀ player, game.getPlayer start.world = some player →
        spared game command start.buffer player start.world := by
  by_cases trade : command = acceptTradeCommand
  · rw [trade]
    change Contained (cAcceptTrade game) start ↔ _
    rw [accept_trade_contained]
    simp [spared, acceptTradeCommand, editListCommand]
  by_cases list : command = editListCommand
  · rw [list]
    change Contained (cEditList game) start ↔ _
    rw [edit_list_contained]
    simp [spared, acceptTradeCommand, editListCommand]
  simp only [spared, trade, list, false_implies, and_self, implies_true, iff_true]
  exact handle_safe game command trade list start

def bareGame : Game Unit where
  getHouse := fun _ _ => none
  setHouse := fun _ _ world => world
  checkAccessRight := fun _ _ _ => 0
  checkRight := fun _ _ _ => false
  position := fun _ _ => ⟨0, 0, 0⟩
  getHouseID := fun _ _ => 0
  foundPlayers := fun _ _ => []
  crObject := fun _ _ => 0
  graphicalEffect := fun _ world => world
  fieldObjects := fun _ _ => []
  isBed := fun _ _ => false
  textString := fun _ _ => 0
  useObjects := fun _ _ _ => pure ()
  getMapContainer := fun _ _ => 0
  move := fun _ _ _ _ _ _ => pure ()
  doorPosition := fun _ _ => ⟨0, 0, 0⟩
  hasText := fun _ _ => false
  deleteDynamicString := fun _ world => world
  changeText := fun _ _ => pure ()
  trade := fun _ _ => ⟨0, 0, false⟩
  setTrade := fun _ _ world => world
  playerExists := fun _ _ => false
  objectAccessible := fun _ _ _ => false
  flag := fun _ _ _ => false
  carryStrength := fun _ _ => none
  inventoryWeight := fun _ _ => 0
  completeWeight := fun _ _ => 0
  objectCreatureID := fun _ _ => 0
  bodyObject := fun _ _ => pure 0
  bodyContainer := fun _ _ => pure 0
  checkInventoryPlace := fun _ _ _ => pure ()
  capacity := fun _ _ => 0
  countObjectsInContainer := fun _ _ => 0
  container := fun _ _ => 0
  refusedOffer := fun _ _ _ world => world
  closeTrade := fun _ world => world
  creatureField := fun _ _ => 0
  state := fun _ => .game
  getPlayer := fun _ => some 1
  resetTimer := fun _ world => world
  perform := fun _ _ => pure ()
  joinChannel := fun _ _ => pure false
  deed := fun _ _ world => world
  toDoClear := fun _ world => (false, world)
  logoutPossible := fun _ world => (0, world)
  objectTypeExists := fun _ _ => false
  typeFlag := fun _ _ _ => false
  isOnMap := fun _ _ => false
  isVisible := fun _ _ => false
  objectExists := fun _ _ => false
  objectType := fun _ _ => 0
  maxLength := fun _ _ => 0
  maxLengthOnce := fun _ _ => 0
  getObject := fun _ _ _ _ _ => 0
  monster := fun _ _ => none
  inReach := fun _ _ _ => false
  inspectTrade := fun _ _ _ _ => 0
  hasRight := fun _ _ _ => false
  level := fun _ _ => 1
  numberOfChannels := fun _ => 0
  channelSubscribed := fun _ _ _ => false
  channelAvailable := fun _ _ _ => false
  request := fun _ _ => 0
  requestProcessingGamemaster := fun _ _ => 0
  playerName := fun _ _ => none
  inParty := fun _ _ => false
  challengePending := fun _ => false

end

end Escapes

end TibiaGame.CommandSafety
