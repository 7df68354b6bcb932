import TibiaGame.Library.LittleEndian
import TibiaGame.ConnectionScan
import TibiaGame.TradeExchange

/-!
# The commands of a client

`receive_data` of `receiving.cpp` for a connection that is past its login, with the
handler of every command: what it reads from the packet, which calls it makes, and which
of them stand in a block that catches a `RESULT`. What the game does in a call is a
parameter. A call of a function that can throw a `RESULT` is an `Operation`; one of a
function that cannot is a function of the world.
-/

namespace TibiaGame.CommandHandlers

open TibiaGame.ConnectionScan (ConnectionState)
open TibiaGame.OperateModel (Result)
open HouseOperations TradeExchange Library.LittleEndian Library.ThrowingState

structure Coordinate where
  x : UInt16
  y : UInt16
  z : UInt8

inductive TypeFlag where
  | mapContainer
  | cumulative
  | multiuse
  | container
  | write
  | writeOnce
  | nameDoor
  | text

inductive GamemasterRight where
  | readGamemasterChannel
  | gamemasterBroadcast
  | anonymousBroadcast
  | highlightHelpChannel

/-- The calls of the handlers that stand in a block which catches a `RESULT`. -/
inductive Action where
  | toDoGo (position : Position)
  | toDoStart
  | toDoRotate (direction : UInt8)
  | toDoMove (source : Coordinate) (type : UInt16) (rNum : UInt8) (dest : Coordinate) (count : UInt8)
  | toDoTrade (source : Coordinate) (type : UInt16) (rNum : UInt8) (partner : UInt32)
  | toDoWait (delay : Nat)
  | toDoUse (source : Coordinate) (type : UInt16) (rNum dummy : UInt8)
  | toDoUseTwo (first : Coordinate) (firstType : UInt16) (firstRNum : UInt8) (second : Coordinate)
      (secondType : UInt16) (secondRNum : UInt8)
  | toDoUseOn (obj target : ObjectID)
  | toDoTurn (source : Coordinate) (type : UInt16) (rNum : UInt8)
  | look (obj : ObjectID)
  | editText (obj : ObjectID) (text : Text)
  | toDoTalk (mode : UInt8) (addressee text : Text)
  | setAttackDest (target : UInt32) (follow : Bool)
  | toDoAttack
  | openChannel
  | inviteToChannel (name : Text)
  | excludeFromChannel (name : Text)

/-- The calls of functions that throw no `RESULT`, and whole handlers with no others. -/
inductive Deed where
  | sendSnapback
  | sendResult (code : ResultCode)
  | sendFailure (text : String)
  | toDoYield
  | toDoStop
  | stopAttack
  | logout (stopFight : Bool)
  | ping
  | rejectTrade
  | closeContainer (number : UInt8)
  | upContainer (number : UInt8)
  | getChannels
  | joinedChannel (channel : UInt16) (ownChannel : Bool)
  | leaveChannel (channel : UInt16)
  | privateChannel (name : Text)
  | processRequest (name : Text)
  | removeRequest (name : Text)
  | cancelRequest
  | closeRequest
  | submitRequest (text : Text)
  | tutorActivity
  | setTactics (attackMode chaseMode secureMode : UInt8)
  | inviteToParty (guest : UInt32)
  | joinParty (host : UInt32)
  | revokeInvitation (guest : UInt32)
  | passLeadership (leader : UInt32)
  | leaveParty
  | refreshField (field : Coordinate)
  | refreshContainer (number : UInt8)
  | getOutfit
  | setOutfit (outfit : UInt16) (colors : List UInt8)
  | addBuddy (name : Text)
  | removeBuddy (character : UInt32)
  | bugReport (text : Text)
  | ruleViolation (name : Text) (reason action : UInt8) (comment : Text) (statement : UInt32)
      (ipBanishment : Bool)
  | errorFileEntry (title date stack comment : Text)
  | challengeResponse (response : List UInt8)

structure Game (World : Type) extends Housing World, Trading World where
  state : World → ConnectionState
  getPlayer : World → Option UInt32
  resetTimer : UInt8 → World → World
  perform : UInt32 → Action → Operation World Unit
  joinChannel : UInt16 → UInt32 → Operation World Bool
  deed : Option UInt32 → Deed → World → World
  toDoClear : UInt32 → World → Bool × World
  logoutPossible : UInt32 → World → Nat × World
  objectTypeExists : UInt16 → World → Bool
  typeFlag : UInt16 → TypeFlag → World → Bool
  isOnMap : Coordinate → World → Bool
  isVisible : Coordinate → World → Bool
  objectExists : ObjectID → World → Bool
  objectType : ObjectID → World → UInt16
  maxLength : UInt16 → World → Nat
  maxLengthOnce : UInt16 → World → Nat
  getObject : UInt32 → Coordinate → Int → UInt16 → World → ObjectID
  monster : UInt32 → World → Option Coordinate
  inReach : UInt32 → UInt32 → World → Bool
  inspectTrade : UInt32 → Bool → UInt8 → World → ObjectID
  hasRight : UInt32 → GamemasterRight → World → Bool
  level : UInt32 → World → Int
  numberOfChannels : World → Nat
  channelSubscribed : UInt16 → UInt32 → World → Bool
  channelAvailable : UInt16 → UInt32 → World → Bool
  request : UInt32 → World → UInt32
  requestProcessingGamemaster : UInt32 → World → UInt32
  playerName : UInt32 → World → Option Text
  inParty : UInt32 → World → Bool
  challengePending : World → Bool

structure Session (World : Type) where
  world : World
  buffer : List UInt8

inductive Thrown where
  | text (message : String)
  | result (code : ResultCode)

abbrev Command (World Value : Type) := Program Empty Thrown (Session World) Value

section Calls

variable {World Value : Type}

def inquire (answer : World → Value) : Command World Value := do
  return answer (← get).world

def tell (change : World → World) : Command World Unit :=
  modify fun session => { session with world := change session.world }

/-- A call that changes the world and answers, and does not throw. -/
def request (act : World → Value × World) : Command World Value := do
  let session ← get
  set { session with world := (act session.world).2 }
  return (act session.world).1

/-- A call that may throw a `RESULT`. -/
def call (operation : Operation World Value) : Command World Value :=
  ExceptT.mk fun session =>
    match finish operation session.world with
    | .error halt => nomatch halt
    | .ok (.ok value, world) => .ok (.ok value, { session with world := world })
    | .ok (.error code, world) => .ok (.error (.result code), { session with world := world })

/-- `try … catch (RESULT r)`. -/
def catchResult (program : Command World Unit) (handler : ResultCode → Command World Unit) :
    Command World Unit :=
  tryCatch program fun thrown =>
    match thrown with
    | .result code => handler code
    | .text message => throw (.text message)

/-- `try … catch (const char *str)`. -/
def catchText (program : Command World Unit) (handler : String → Command World Unit) :
    Command World Unit :=
  tryCatch program fun thrown =>
    match thrown with
    | .text message => handler message
    | .result code => throw (.result code)

/-- A reader takes a value from the front of the packet, if the packet has it. -/
abbrev Reader (Value : Type) := List UInt8 → Option (Value × List UInt8)

def receive (reader : Reader Value) : Command World Value := do
  let session ← get
  match reader session.buffer with
  | none => throw (.text "buffer empty")
  | some (value, rest) =>
      set { session with buffer := rest }
      return value

end Calls

def byte : Reader UInt8
  | value :: rest => some (value, rest)
  | [] => none

def word : Reader UInt16
  | low :: high :: rest => some (bytesWord low high, rest)
  | _ => none

def quad : Reader UInt32
  | b0 :: b1 :: b2 :: b3 :: rest => some (bytesQuad b0 b1 b2 b3, rest)
  | _ => none

def bytes (count : Nat) : Reader (List UInt8) := fun buffer =>
  if count ≤ buffer.length then some (buffer.take count, buffer.drop count) else none

/-- The length in front of a string, as an `int`. -/
def textLength : Reader Int := fun buffer => do
  let (short, rest) ← word buffer
  if short = 0xFFFF then
    let (long, rest) ← quad rest
    return (long.toInt32.toInt, rest)
  else return (short.toNat, rest)

/-- `read_string` into a buffer of `maxLength` bytes. -/
def text (maxLength : Nat) : Reader Text := fun buffer => do
  let (length, rest) ← textLength buffer
  if length ≤ 0 then return ([], rest)
  let (all, rest) ← bytes length.toNat rest
  return ((all.take (maxLength - 1)).takeWhile (· ≠ 0), rest)

def coordinate : Reader Coordinate := fun buffer => do
  let (x, rest) ← word buffer
  let (y, rest) ← word rest
  let (z, rest) ← byte rest
  return (⟨x, y, z⟩, rest)

section Handlers

variable {World : Type} (game : Game World)

def withPlayer (body : UInt32 → Command World Unit) : Command World Unit := do
  match ← inquire game.getPlayer with
  | none => pure ()
  | some player => body player

def does (player : UInt32) (deed : Deed) : Command World Unit := tell (game.deed (some player) deed)

def tries (player : UInt32) (action : Action) : Command World Unit :=
  call (game.perform player action)

def clearToDo (player : UInt32) : Command World Bool := request (game.toDoClear player)

def sendAndYield (player : UInt32) (code : ResultCode) : Command World Unit := do
  does game player (.sendResult code)
  does game player .toDoYield

def sendUnlessNoError (player : UInt32) (code : ResultCode) : Command World Unit :=
  whenever code.isSome (sendAndYield game player code)

def sendClearAndYield (player : UInt32) (code : ResultCode) : Command World Unit := do
  does game player (.sendResult code)
  let _ ← clearToDo game player
  does game player .toDoYield

/-- A handler that reads, and then only calls what throws no `RESULT`. -/
def deedOnly {Value : Type} (reader : Reader Value) (deed : Value → Deed) : Command World Unit :=
  withPlayer game fun player => do
    does game player (deed (← receive reader))

/-- `x` of a body position or a container. -/
def special : UInt16 := 0xFFFF

def checkSpecialCoordinates (field : Coordinate) (allowInventoryAny : Bool) (world : World) : Bool :=
  if field.x = special then
    if field.y = 0 then allowInventoryAny
    else (1 ≤ field.y && field.y ≤ 10) || (64 ≤ field.y && field.y ≤ 79)
  else game.isOnMap field world

def checkVisibility (field : Coordinate) (world : World) : Bool :=
  field.x = special || game.isVisible field world

def getObjectType (typeID : UInt16) (world : World) : UInt16 :=
  if game.objectTypeExists typeID world then typeID else 0

def cQuitGame : Command World Unit := do
  match ← inquire game.getPlayer with
  | none => tell (game.deed none (.logout true))
  | some player =>
      match ← request (game.logoutPossible player) with
      | 0 =>
          let _ ← clearToDo game player
          does game player (.logout true)
      | 1 => does game player (.sendFailure "You may not logout during or immediately after a fight!")
      | 2 => does game player (.sendFailure "You may not logout here!")
      | _ => pure ()

def cPing : Command World Unit := tell (game.deed none .ping)

def stepped (position : Position) : UInt8 → Option Position
  | 1 => some { position with x := position.x + 1 }
  | 2 => some { position with x := position.x + 1, y := position.y - 1 }
  | 3 => some { position with y := position.y - 1 }
  | 4 => some { position with x := position.x - 1, y := position.y - 1 }
  | 5 => some { position with x := position.x - 1 }
  | 6 => some { position with x := position.x - 1, y := position.y + 1 }
  | 7 => some { position with y := position.y + 1 }
  | 8 => some { position with x := position.x + 1, y := position.y + 1 }
  | _ => none

def goSteps (player : UInt32) : Nat → Position → Command World Unit
  | 0, _ => pure ()
  | steps + 1, position => do
      match stepped position (← receive byte) with
      | none => goSteps player steps position
      | some next =>
          tries game player (.toDoGo next)
          goSteps player steps next

def cGoPath : Command World Unit :=
  withPlayer game fun player => do
    whenever (← clearToDo game player) (does game player .sendSnapback)
    let steps ← receive byte
    let position ← inquire (game.position player)
    catchResult
      (do
        goSteps game player steps.toNat position
        tries game player .toDoStart)
      (sendAndYield game player)

def cGoDirection (offsetX offsetY : Int) : Command World Unit :=
  withPlayer game fun player =>
    catchResult
      (do
        whenever (← clearToDo game player) (does game player .sendSnapback)
        let position ← inquire (game.position player)
        tries game player (.toDoGo ⟨position.x + offsetX, position.y + offsetY, position.z⟩)
        tries game player .toDoStart)
      (sendAndYield game player)

def cGoStop : Command World Unit := withPlayer game fun player => does game player .toDoStop

def cRotate (direction : UInt8) : Command World Unit :=
  withPlayer game fun player =>
    catchResult
      (do
        tries game player (.toDoRotate direction)
        tries game player .toDoStart)
      (sendAndYield game player)

def cMoveObject : Command World Unit :=
  withPlayer game fun player => do
    let source ← receive coordinate
    let typeID ← receive word
    let rNum ← receive byte
    let dest ← receive coordinate
    let count ← receive byte
    let world ← inquire id
    let type := getObjectType game typeID world
    if game.typeFlag type .mapContainer world || (game.typeFlag type .cumulative world && count == 0) ||
        !checkSpecialCoordinates game source false world ||
        !checkSpecialCoordinates game dest true world ||
        !checkVisibility game source world || !checkVisibility game dest world then pure ()
    else
      catchResult
        (do
          tries game player (.toDoMove source type (if source.x = special then rNum else 1) dest count)
          tries game player .toDoStart)
        (sendUnlessNoError game player)

def cTradeObject : Command World Unit :=
  withPlayer game fun player => do
    let source ← receive coordinate
    let typeID ← receive word
    let rNum ← receive byte
    let partner ← receive quad
    let world ← inquire id
    let type := getObjectType game typeID world
    if game.typeFlag type .mapContainer world || !checkSpecialCoordinates game source false world ||
        !checkVisibility game source world then pure ()
    else
      catchResult
        (do
          tries game player (.toDoTrade source type (if source.x = special then rNum else 1) partner)
          tries game player .toDoStart)
        (sendUnlessNoError game player)

/-- `look`, in the block of `CInspectTrade` and `CLookAtPoint`. -/
def lookAt (player : UInt32) (obj : ObjectID) : Command World Unit := do
  whenever (game.objectExists obj (← inquire id))
    (catchResult (tries game player (.look obj)) fun code => does game player (.sendResult code))

def cInspectTrade : Command World Unit :=
  withPlayer game fun player => do
    let ownOffer ← receive byte
    let position ← receive byte
    lookAt game player (← inquire (game.inspectTrade player (ownOffer == 0) position))

def cAcceptTrade : Command World Unit :=
  withPlayer game fun player => call (acceptTrade game.toTrading player)

def cRejectTrade : Command World Unit := withPlayer game fun player => does game player .rejectTrade

def cUseObject : Command World Unit :=
  withPlayer game fun player => do
    let source ← receive coordinate
    let typeID ← receive word
    let rNum ← receive byte
    let dummy ← receive byte
    let world ← inquire id
    let type := getObjectType game typeID world
    if game.typeFlag type .mapContainer world || game.typeFlag type .multiuse world ||
        (game.typeFlag type .container world && decide (16 ≤ dummy)) ||
        !checkSpecialCoordinates game source false world || !checkVisibility game source world then
      pure ()
    else
      catchResult
        (do
          tries game player (.toDoWait 100)
          tries game player (.toDoUse source type rNum dummy)
          tries game player .toDoStart)
        (sendClearAndYield game player)

def cUseTwoObjects : Command World Unit :=
  withPlayer game fun player => do
    let first ← receive coordinate
    let firstID ← receive word
    let firstRNum ← receive byte
    let second ← receive coordinate
    let secondID ← receive word
    let secondRNum ← receive byte
    let world ← inquire id
    let firstType := getObjectType game firstID world
    let secondType := getObjectType game secondID world
    if game.typeFlag firstType .mapContainer world || game.typeFlag secondType .mapContainer world ||
        !game.typeFlag firstType .multiuse world ||
        !checkSpecialCoordinates game first false world ||
        !checkSpecialCoordinates game second false world ||
        !checkVisibility game first world || !checkVisibility game second world then pure ()
    else
      catchResult
        (do
          tries game player (.toDoWait 100)
          tries game player (.toDoUseTwo first firstType firstRNum second secondType secondRNum)
          tries game player .toDoStart)
        (sendClearAndYield game player)

def cUseOnCreature : Command World Unit :=
  withPlayer game fun player => do
    let source ← receive coordinate
    let typeID ← receive word
    let rNum ← receive byte
    let targetID ← receive quad
    let world ← inquire id
    let type := getObjectType game typeID world
    if game.typeFlag type .mapContainer world || !checkSpecialCoordinates game source false world ||
        !checkVisibility game source world then pure ()
    else
      match game.monster targetID world with
      | none => pure ()
      | some field =>
          if !game.isVisible field world then pure ()
          else if !game.inReach player targetID world then
            does game player (.sendResult (some .outOfRange))
          else
            let obj := game.getObject player source rNum.toNat type world
            let target := game.crObject targetID world
            if !game.objectExists obj world || !game.objectExists target world then
              does game player (.sendResult (some .notAccessible))
            else
              catchResult
                (do
                  tries game player (.toDoWait 100)
                  tries game player (.toDoUseOn obj target)
                  tries game player .toDoStart)
                (sendClearAndYield game player)

def cTurnObject : Command World Unit :=
  withPlayer game fun player => do
    let source ← receive coordinate
    let typeID ← receive word
    let rNum ← receive byte
    let world ← inquire id
    let type := getObjectType game typeID world
    if game.typeFlag type .mapContainer world || !checkSpecialCoordinates game source false world ||
        !checkVisibility game source world then pure ()
    else
      catchResult
        (do
          tries game player (.toDoWait 100)
          tries game player (.toDoTurn source type rNum)
          tries game player .toDoStart)
        (sendClearAndYield game player)

def cCloseContainer : Command World Unit := deedOnly game byte .closeContainer

def cUpContainer : Command World Unit := deedOnly game byte .upContainer

def cEditText : Command World Unit :=
  withPlayer game fun player => do
    let obj ← receive quad
    let world ← inquire id
    let type := game.objectType obj world
    if !game.objectExists obj world || (!game.typeFlag type .write world &&
        (!game.typeFlag type .writeOnce world || game.textString obj world != 0)) then
      does game player (.sendResult (some .notAccessible))
    else
      let text ← receive (text 4096)
      let limit :=
        if game.typeFlag type .write world then game.maxLength type world
        else game.maxLengthOnce type world
      if limit ≤ text.length then does game player (.sendResult (some .noRoom))
      else
        catchResult (tries game player (.editText obj text)) fun code =>
          does game player (.sendResult code)

def guestList : UInt8 := 1
def subownerList : UInt8 := 2
def doorList : UInt8 := 3

/-- What the packet of `EDIT_LIST` holds: the type of the list, an ID and the text. -/
def editedList : Reader (UInt8 × UInt32 × Text) := fun buffer => do
  let (type, rest) ← byte buffer
  let (id, rest) ← quad rest
  let (edited, rest) ← text 4096 rest
  return ((type, id, edited), rest)

def isNameDoor (door : ObjectID) (world : World) : Bool :=
  game.typeFlag (game.objectType door world) .nameDoor world &&
    game.typeFlag (game.objectType door world) .text world

def cEditList : Command World Unit :=
  withPlayer game fun player => do
    let (type, id, edited) ← receive editedList
    if type = guestList then call (changeGuests game.toHousing id.toUInt16 player edited)
    else if type = subownerList then
      call (changeSubowners game.toHousing id.toUInt16 player edited)
    else if type = doorList then
      let world ← inquire fun world => world
      if !game.objectExists id world || !isNameDoor game id world then
        does game player (.sendResult (some .notAccessible))
      else call (changeNameDoor game.toHousing id player edited)
    else pure ()

def cLookAtPoint : Command World Unit :=
  withPlayer game fun player => do
    let field ← receive coordinate
    let world ← inquire id
    if !checkSpecialCoordinates game field false world || !checkVisibility game field world then
      pure ()
    else
      let rNum : Int := if field.x = special then field.z.toNat else -1
      lookAt game player (game.getObject player field rNum 0 world)

def talkSay : UInt8 := 1
def talkWhisper : UInt8 := 2
def talkYell : UInt8 := 3
def talkPrivateMessage : UInt8 := 4
def talkChannelCall : UInt8 := 5
def talkGamemasterRequest : UInt8 := 6
def talkGamemasterAnswer : UInt8 := 7
def talkPlayerAnswer : UInt8 := 8
def talkGamemasterBroadcast : UInt8 := 9
def talkGamemasterChannelCall : UInt8 := 10
def talkGamemasterMessage : UInt8 := 11
def talkHighlightChannelCall : UInt8 := 12
def talkAnonymousBroadcast : UInt8 := 13
def talkAnonymousChannelCall : UInt8 := 14
def talkAnonymousMessage : UInt8 := 15

def clientModes : List UInt8 :=
  [talkSay, talkWhisper, talkYell, talkPrivateMessage, talkChannelCall, talkGamemasterRequest,
    talkGamemasterAnswer, talkPlayerAnswer, talkGamemasterBroadcast, talkGamemasterChannelCall,
    talkGamemasterMessage, talkAnonymousBroadcast, talkAnonymousChannelCall, talkAnonymousMessage]

def addressed (mode : UInt8) : Bool :=
  mode == talkPrivateMessage || mode == talkGamemasterAnswer || mode == talkGamemasterMessage ||
    mode == talkAnonymousMessage

def toChannel (mode : UInt8) : Bool :=
  mode == talkChannelCall || mode == talkGamemasterChannelCall || mode == talkAnonymousChannelCall

/-- The mode that is left to a player who lacks the right for the one asked for. -/
def permittedMode (player : UInt32) (mode : UInt8) (world : World) : UInt8 :=
  if mode = talkGamemasterAnswer ∧ !game.hasRight player .readGamemasterChannel world then
    talkPrivateMessage
  else if mode = talkGamemasterBroadcast ∧ !game.hasRight player .gamemasterBroadcast world then
    talkSay
  else if mode = talkGamemasterChannelCall ∧ !game.hasRight player .gamemasterBroadcast world then
    talkChannelCall
  else if mode = talkGamemasterMessage ∧ !game.hasRight player .gamemasterBroadcast world then
    talkPrivateMessage
  else if mode = talkAnonymousBroadcast ∧ !game.hasRight player .anonymousBroadcast world then
    talkSay
  else if mode = talkAnonymousChannelCall ∧ !game.hasRight player .anonymousBroadcast world then
    talkChannelCall
  else if mode = talkAnonymousMessage ∧ !game.hasRight player .anonymousBroadcast world then
    talkPrivateMessage
  else mode

def channelRuleViolations : UInt16 := 3
def channelHelp : UInt16 := 7

/-- `snprintf` of a channel's number. -/
def channelText (channel : UInt16) : Text := (toString channel.toNat).toUTF8.toList

def talk (player : UInt32) (mode : UInt8) (addressee spoken : Text) : Command World Unit :=
  catchResult
    (do
      tries game player (.toDoTalk mode addressee spoken)
      tries game player .toDoStart)
    (sendAndYield game player)

/-- The end of `CTalk` for a request to the gamemasters, and for the answer to one. -/
def talkRequest (player : UInt32) (mode : UInt8) (addressee spoken : Text) : Command World Unit := do
  let world ← inquire id
  if mode = talkPlayerAnswer then
    if game.request player world = 0 then pure ()
    else if game.requestProcessingGamemaster player world = 0 then
      does game player (.sendFailure "Please wait until your request is answered.")
    else
      match game.playerName (game.requestProcessingGamemaster player world) world with
      | none => does game player .closeRequest
      | some name => talk game player mode name spoken
  else if mode = talkGamemasterRequest then
    if game.request player world ≠ 0 then
      does game player
        (.sendFailure "You have already submitted a request. Please wait until it is answered.")
    else does game player (.submitRequest spoken)
  else talk game player mode addressee spoken

/-- What `CTalk` does with a text that it has read. -/
def talkIn (player : UInt32) (mode : UInt8) (addressee : Text) (channel : UInt16) (spoken : Text) :
    Command World Unit := do
  let world ← inquire id
  let mode := permittedMode game player mode world
  if mode = talkYell ∧ game.level player world ≤ 1 then
    does game player (.sendFailure "You may not yell as long as you are on level 1.")
  else if mode = talkChannelCall ∧ game.level player world ≤ 1 then
    does game player
      (.sendFailure "You may not speak into channels as long as you are on level 1.")
  else if toChannel mode && channel == channelRuleViolations then pure ()
  else
    let unheard := toChannel mode && !game.channelSubscribed channel player world
    let mode := if unheard then talkSay else mode
    let addressee := if unheard then [] else addressee
    if mode = talkChannelCall ∧ channel = channelHelp ∧
        game.hasRight player .highlightHelpChannel world then
      does game player .tutorActivity
      talkRequest game player talkHighlightChannelCall addressee spoken
    else talkRequest game player mode addressee spoken

/-- `CTalk` behind the addressee and the channel. -/
def talkTo (player : UInt32) (mode : UInt8) (addressee : Text) (channel : UInt16) :
    Command World Unit := do
  let spoken ← receive (text 256)
  if spoken = [] ∨ 10 ∈ spoken then pure ()
  else talkIn game player mode addressee channel spoken

def cTalk : Command World Unit :=
  withPlayer game fun player => do
    let mode ← receive byte
    if mode ∉ clientModes then pure ()
    else if addressed mode then
      let addressee ← receive (text 30)
      if addressee = [] then pure () else talkTo game player mode addressee 0
    else if toChannel mode then
      let channel ← receive word
      if game.numberOfChannels (← inquire id) ≤ channel.toNat then pure ()
      else talkTo game player mode (channelText channel) channel
    else talkTo game player mode [] 0

def cGetChannels : Command World Unit := tell (game.deed none .getChannels)

def cJoinChannel : Command World Unit :=
  withPlayer game fun player => do
    let channel ← receive word
    if channel.toNat < game.numberOfChannels (← inquire id) then
      catchResult
        (do
          let ownChannel ← call (game.joinChannel channel player)
          does game player (.joinedChannel channel ownChannel))
        fun _ => pure ()
    else pure ()

def cLeaveChannel : Command World Unit :=
  withPlayer game fun player => do
    let channel ← receive word
    whenever (channel.toNat < game.numberOfChannels (← inquire id))
      (does game player (.leaveChannel channel))

def cPrivateChannel : Command World Unit := deedOnly game (text 30) .privateChannel

def withRequests (body : UInt32 → Command World Unit) : Command World Unit :=
  withPlayer game fun player => do
    whenever (game.channelAvailable channelRuleViolations player (← inquire id)) (body player)

def cProcessRequest : Command World Unit :=
  withRequests game fun player => do
    let name ← receive (text 30)
    if name = [] then pure () else does game player (.processRequest name)

def cRemoveRequest : Command World Unit :=
  withRequests game fun player => do
    let name ← receive (text 30)
    if name = [] then pure () else does game player (.removeRequest name)

def cCancelRequest : Command World Unit :=
  withRequests game fun player => does game player .cancelRequest

def cSetTactics : Command World Unit :=
  withPlayer game fun player => do
    let attackMode ← receive byte
    let chaseMode ← receive byte
    let secureMode ← receive byte
    if 1 ≤ attackMode ∧ attackMode ≤ 3 ∧ chaseMode ≤ 1 ∧ secureMode ≤ 1 then
      does game player (.setTactics attackMode chaseMode secureMode)
    else pure ()

def cAttack (follow : Bool) : Command World Unit :=
  withPlayer game fun player => do
    let target ← receive quad
    catchResult
      (do
        tries game player (.setAttackDest target follow)
        tries game player .toDoAttack
        tries game player .toDoStart)
      (sendUnlessNoError game player)

def cInviteToParty : Command World Unit := deedOnly game quad .inviteToParty

def cJoinParty : Command World Unit := deedOnly game quad .joinParty

def withParty (body : UInt32 → Command World Unit) : Command World Unit :=
  withPlayer game fun player => do
    whenever (game.inParty player (← inquire id)) (body player)

def cRevokeInvitation : Command World Unit :=
  withParty game fun player => do
    does game player (.revokeInvitation (← receive quad))

def cPassLeadership : Command World Unit :=
  withParty game fun player => do
    does game player (.passLeadership (← receive quad))

def cLeaveParty : Command World Unit := withParty game fun player => does game player .leaveParty

def cOpenChannel : Command World Unit :=
  withPlayer game fun player =>
    catchResult (tries game player .openChannel) fun code => does game player (.sendResult code)

def cInviteToChannel : Command World Unit :=
  withPlayer game fun player => do
    let name ← receive (text 30)
    if name = [] then pure ()
    else
      catchResult (tries game player (.inviteToChannel name)) fun code =>
        does game player (.sendResult code)

def cExcludeFromChannel : Command World Unit :=
  withPlayer game fun player => do
    let name ← receive (text 30)
    if name = [] then pure ()
    else
      catchResult (tries game player (.excludeFromChannel name)) fun code =>
        does game player (.sendResult code)

def cCancel : Command World Unit :=
  withPlayer game fun player => do
    catchResult
      (do
        does game player .stopAttack
        whenever (← clearToDo game player) (does game player .sendSnapback))
      fun _ => pure ()
    does game player .toDoYield

def cRefreshField : Command World Unit := do
  let field ← receive coordinate
  let world ← inquire id
  if game.isOnMap field world && game.isVisible field world then
    tell (game.deed none (.refreshField field))
  else pure ()

def cRefreshContainer : Command World Unit := deedOnly game byte .refreshContainer

def cGetOutfit : Command World Unit := withPlayer game fun player => does game player .getOutfit

def cSetOutfit : Command World Unit :=
  withPlayer game fun player => do
    let outfit ← receive word
    let colors ← receive (bytes 4)
    does game player (.setOutfit outfit colors)

def cAddBuddy : Command World Unit := deedOnly game (text 30) .addBuddy

def cRemoveBuddy : Command World Unit := deedOnly game quad .removeBuddy

def cBugReport : Command World Unit := do
  let report ← receive (text 1024)
  tell (game.deed none (.bugReport report))

def cRuleViolation : Command World Unit :=
  withPlayer game fun player => do
    let name ← receive (text 30)
    let reason ← receive byte
    let action ← receive byte
    let comment ← receive (text 200)
    let statement ← receive quad
    let ipBanishment ← receive byte
    does game player (.ruleViolation name reason action comment statement (ipBanishment != 0))

def cErrorFileEntry : Command World Unit := do
  let title ← receive (text 64)
  let date ← receive (text 32)
  let stack ← receive (text 2048)
  let comment ← receive (text 512)
  tell (game.deed none (.errorFileEntry title date stack comment))

def cChallengeResponse : Command World Unit := do
  whenever (game.challengePending (← inquire id)) (do
    let response ← receive (bytes 32)
    tell (game.deed none (.challengeResponse response)))

def commandAllowed (command : UInt8) (world : World) : Bool :=
  match game.state world with
  | .game => command != 10 && command != 11
  | .dead => command == 20 || command == 30 || command == 230 || command == 232
  | .logout => command == 20 || command == 30 || command == 230 || command == 232
  | _ => false

/-- The `switch` of `receive_data`. -/
def handle : UInt8 → Command World Unit
  | 20 => cQuitGame game
  | 30 => cPing game
  | 100 => cGoPath game
  | 101 => cGoDirection game 0 (-1)
  | 102 => cGoDirection game 1 0
  | 103 => cGoDirection game 0 1
  | 104 => cGoDirection game (-1) 0
  | 105 => cGoStop game
  | 106 => cGoDirection game 1 (-1)
  | 107 => cGoDirection game 1 1
  | 108 => cGoDirection game (-1) 1
  | 109 => cGoDirection game (-1) (-1)
  | 111 => cRotate game 0
  | 112 => cRotate game 1
  | 113 => cRotate game 2
  | 114 => cRotate game 3
  | 120 => cMoveObject game
  | 125 => cTradeObject game
  | 126 => cInspectTrade game
  | 127 => cAcceptTrade game
  | 128 => cRejectTrade game
  | 130 => cUseObject game
  | 131 => cUseTwoObjects game
  | 132 => cUseOnCreature game
  | 133 => cTurnObject game
  | 135 => cCloseContainer game
  | 136 => cUpContainer game
  | 137 => cEditText game
  | 138 => cEditList game
  | 140 => cLookAtPoint game
  | 150 => cTalk game
  | 151 => cGetChannels game
  | 152 => cJoinChannel game
  | 153 => cLeaveChannel game
  | 154 => cPrivateChannel game
  | 155 => cProcessRequest game
  | 156 => cRemoveRequest game
  | 157 => cCancelRequest game
  | 160 => cSetTactics game
  | 161 => cAttack game false
  | 162 => cAttack game true
  | 163 => cInviteToParty game
  | 164 => cJoinParty game
  | 165 => cRevokeInvitation game
  | 166 => cPassLeadership game
  | 167 => cLeaveParty game
  | 170 => cOpenChannel game
  | 171 => cInviteToChannel game
  | 172 => cExcludeFromChannel game
  | 190 => cCancel game
  | 201 => cRefreshField game
  | 202 => cRefreshContainer game
  | 210 => cGetOutfit game
  | 211 => cSetOutfit game
  | 220 => cAddBuddy game
  | 221 => cRemoveBuddy game
  | 230 => cBugReport game
  | 231 => cRuleViolation game
  | 232 => cErrorFileEntry game
  | 250 => cChallengeResponse game
  | _ => pure ()

/-- `receive_data` of one connection, past its login. -/
def receiveData : Command World Unit := do
  match (← get).buffer with
  | [] => pure ()
  | command :: _ =>
      let _ ← receive byte
      whenever (commandAllowed game command (← get).world) (do
        tell (game.resetTimer command)
        catchText (handle game command) fun _ => pure ())

end Handlers

end TibiaGame.CommandHandlers
