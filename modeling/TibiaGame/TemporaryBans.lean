import TibiaGame.ConnectionScan

/-!
# Temporary bans

The list of banned accounts, and the ways of a connection into the game and out of it:
`join_game` with a new player or with one that is still in the game, `logout`, and the
removal of players by `process_creatures`.
-/

namespace TibiaGame.TemporaryBans

open Function

open TibiaGame.ConnectionScan (ConnectionState maxConnections)

/-- Challenges and bans are enabled. `accountOf` is the account in the data of a character. -/
structure Config where
  accountOf : UInt32 → UInt32
  challengeBanMinutes : Int32
  enabled : 0 < challengeBanMinutes.toInt
  inRange : challengeBanMinutes.toInt * 60 < 2 ^ 31

def Config.banTime (config : Config) : Int := config.challengeBanMinutes.toInt * 60

structure Connection where
  state : ConnectionState
  characterID : UInt32
  timeStamp : UInt32
  timeStampAction : UInt32
  connectionIsOk : Bool

def Connection.inGame (connection : Connection) : Bool :=
  connection.state = .game || connection.state = .dead

structure Player where
  accountID : UInt32
  isDead : Bool
  loggingOut : Bool
  logoutAllowed : Bool
  earliestLogoutRound : UInt32
  earliestProtectionZoneRound : UInt32
  connection : Option (Fin maxConnections)

/-- A call of `challenge_ban_add`, a call of `enter_game`, or a success of `join_game`. -/
inductive Occurrence where
  | ban (account : UInt32) (time : Int)
  | entered (conn : Fin maxConnections) (character : UInt32) (time : Int)
  | joined (conn : Fin maxConnections) (character : UInt32) (time : Int)

/-- `history` has the last occurrence first. -/
structure World where
  time : Int
  roundNr : UInt32
  connections : Fin maxConnections → Connection
  players : UInt32 → Option Player
  banList : UInt32 → Option Int
  history : List Occurrence

/-- What the functions ask of the rest of the game about the player at hand. -/
structure Circumstances where
  gameRunning : Bool
  gameEnding : Bool
  lagDetected : Bool
  noLogoutField : Bool
  noLogoutBlock : Bool

/-- What `join_game` reads; `constructs` says whether the constructor of the player finds
its data. -/
structure Login where
  terminalType : UInt16
  characterID : UInt32
  constructs : Bool

inductive LogoutAnswer where
  | ok
  | combat
  | field
deriving DecidableEq

def challengeBanAdd (account : UInt32) (minutes : Int32) (world : World) : World :=
  { world with
    banList := Function.update world.banList account (some (world.time + (minutes * 60).toInt))
    history := .ban account world.time :: world.history }

def challengeBanCheck (account : UInt32) (world : World) : Int32 × World :=
  match world.banList account with
  | none => (0, world)
  | some expiry =>
      let remaining := Int32.ofInt (expiry - world.time)
      if remaining ≤ 0 then
        (0, { world with banList := Function.update world.banList account none })
      else (remaining, world)

def challengeBanCleanup (world : World) : World :=
  { world with
    banList := fun account => (world.banList account).filter fun expiry => decide (world.time < expiry) }

def World.setConnection (world : World) (conn : Fin maxConnections) (connection : Connection) : World :=
  { world with connections := Function.update world.connections conn connection }

def World.changePlayer (world : World) (character : UInt32) (change : Player → Player) : World :=
  { world with
    players := Function.update world.players character ((world.players character).map change) }

def logoutPossible (now : Circumstances) (roundNr : UInt32) (player : Player) : LogoutAnswer × Player :=
  if !player.logoutAllowed && !player.isDead && !now.gameEnding then
    if player.earliestLogoutRound > roundNr ∧ !now.lagDetected then (.combat, player)
    else if now.noLogoutField then (.field, player)
    else (.ok, { player with logoutAllowed := true })
  else (.ok, player)

def Player.startLogout (now : Circumstances) (force : Bool) (player : Player) : Player :=
  { player with
    loggingOut := true
    logoutAllowed := player.logoutAllowed || force || now.lagDetected }

def Player.clearConnection (player : Player) : Player := { player with connection := none }

def logout (now : Circumstances) (delay : UInt32) (conn : Fin maxConnections) (world : World) : World :=
  let connection := world.connections conn
  let left :=
    if connection.characterID ≠ 0 then
      world.changePlayer connection.characterID fun player =>
        player.clearConnection.startLogout now false
    else world
  left.setConnection conn
    { connection with
      state := .logout
      characterID := 0
      timeStamp := world.roundNr + delay }

/-- `StartLogout` of a player, from outside its connection. -/
def startLogout (now : Circumstances) (force : Bool) (character : UInt32) (world : World) : World :=
  match world.players character with
  | none => world
  | some player =>
      let started := world.changePlayer character (·.startLogout now force)
      match player.connection with
      | none => started
      | some conn => logout now 0 conn started

def disconnect (conn : Fin maxConnections) (world : World) : World :=
  world.setConnection conn
    { world.connections conn with
      state := .disconnected
      connectionIsOk := false }

def deletePlayer (now : Circumstances) (character : UInt32) (world : World) : World :=
  match world.players character with
  | none => world
  | some player =>
      let parted :=
        match player.connection with
        | none => world
        | some conn => logout now 30 conn world
      { parted with players := Function.update parted.players character none }

/-- `enter_game`, called for the player with that ID. -/
def enterGame (conn : Fin maxConnections) (character : UInt32) (world : World) : World :=
  { world.setConnection conn { world.connections conn with state := .game } with
    history := .entered conn character world.time :: world.history }

def newPlayer (config : Config) (conn : Fin maxConnections) (character : UInt32) (world : World) :
    World :=
  let player : Player :=
    { accountID := config.accountOf character
      isDead := false
      loggingOut := false
      logoutAllowed := false
      earliestLogoutRound := 0
      earliestProtectionZoneRound := 0
      connection := some conn }
  enterGame conn character { world with players := Function.update world.players character (some player) }

def takeOver (conn : Fin maxConnections) (character : UInt32) (world : World) : World :=
  enterGame conn character (world.changePlayer character fun player =>
    { player with
      loggingOut := false
      logoutAllowed := false
      connection := some conn })

/-- The end of `join_game`. -/
def joined (conn : Fin maxConnections) (character : UInt32) (world : World) : World :=
  { world.setConnection conn
      { world.connections conn with
        timeStamp := world.roundNr
        timeStampAction := world.roundNr } with
    history := .joined conn character world.time :: world.history }

def setCharacter (conn : Fin maxConnections) (character : UInt32) (world : World) : World :=
  world.setConnection conn { world.connections conn with characterID := character }

/-- The old connection of a character leaves the game, and the new one takes it over. -/
def replaceConnection (now : Circumstances) (conn : Fin maxConnections) (character : UInt32)
    (player : Player) (world : World) : World :=
  let cleared := world.changePlayer character Player.clearConnection
  let parted :=
    match player.connection with
    | none => cleared
    | some old =>
        logout now 0 old (setCharacter old 0 cleared)
  takeOver conn character parted

def joinGame (config : Config) (now : Circumstances) (login : Login) (conn : Fin maxConnections)
    (world : World) : Bool × World :=
  let character := login.characterID
  let read := setCharacter conn character world
  if login.terminalType ≠ 1 ∧ login.terminalType ≠ 2 then (false, read)
  else
    match read.players character with
    | none =>
        if !login.constructs then (false, read)
        else
          let (remaining, checked) :=
            challengeBanCheck (config.accountOf character) (newPlayer config conn character read)
          if 0 < remaining then (false, deletePlayer now character checked)
          else (true, joined conn character checked)
    | some player =>
        if player.isDead then (false, read)
        else if player.loggingOut then
          let (answer, asked) := logoutPossible now read.roundNr player
          let answered := read.changePlayer character fun _ => asked
          if answer = .ok then (false, answered)
          else (true, joined conn character (replaceConnection now conn character asked answered))
        else (true, joined conn character (replaceConnection now conn character player read))

/-- `challengeFails` is a timeout in `AdvanceGame` or a wrong response, and `forceLogout` a
call of `StartLogout` from the game. A connection is opened, lost and released by its own
thread. -/
inductive Event where
  | connect (conn : Fin maxConnections)
  | login (conn : Fin maxConnections) (login : Login) (now : Circumstances)
  | command (conn : Fin maxConnections) (action : Bool)
  | quit (conn : Fin maxConnections) (now : Circumstances)
  | challengeFails (conn : Fin maxConnections) (now : Circumstances)
  | lost (conn : Fin maxConnections)
  | process (conn : Fin maxConnections) (now : Circumstances)
  | processCreature (character : UInt32) (now : Circumstances)
  | forceLogout (character : UInt32) (force : Bool) (now : Circumstances)
  | blockLogout (character : UInt32) (delay : UInt32) (blockProtectionZone : Bool) (now : Circumstances)
  | death (character : UInt32)
  | release (conn : Fin maxConnections)
  | cleanup
  | round
  | wait (seconds : Nat)

/-- The branch of `receive_data` for a connection in the login state. -/
def receiveLogin (config : Config) (now : Circumstances) (login : Login) (conn : Fin maxConnections)
    (world : World) : World :=
  if (world.connections conn).state = .login then
    let (success, tried) := joinGame config now login conn world
    if success then tried else disconnect conn tried
  else world

def resetTimer (conn : Fin maxConnections) (action : Bool) (world : World) : World :=
  let connection := world.connections conn
  if connection.inGame then
    world.setConnection conn
      { connection with
        timeStamp := world.roundNr
        timeStampAction := if action then world.roundNr else connection.timeStampAction }
  else world

def quitGame (now : Circumstances) (conn : Fin maxConnections) (world : World) : World :=
  let connection := world.connections conn
  if connection.inGame ∨ connection.state = .logout then
    match if connection.characterID = 0 then none else world.players connection.characterID with
    | none => logout now 0 conn world
    | some player =>
        let (answer, asked) := logoutPossible now world.roundNr player
        let answered := world.changePlayer connection.characterID fun _ => asked
        if answer = .ok then logout now 0 conn answered else answered
  else world

def challengeFailed (config : Config) (now : Circumstances) (conn : Fin maxConnections)
    (world : World) : World :=
  let connection := world.connections conn
  if connection.state = .game then
    let banned :=
      match if connection.characterID = 0 then none else world.players connection.characterID with
      | none => world
      | some player => challengeBanAdd player.accountID config.challengeBanMinutes world
    logout now 5 conn banned
  else world

def process (now : Circumstances) (conn : Fin maxConnections) (world : World) : World :=
  let connection := world.connections conn
  if connection.inGame then
    if 960 ≤ world.roundNr - connection.timeStampAction ∧ !now.noLogoutBlock then
      logout now 0 conn world
    else if !now.gameRunning ∨ !connection.connectionIsOk ∨
        90 ≤ world.roundNr - connection.timeStamp then
      logout now 0 conn world
    else world
  else if connection.state = .login then
    if !now.gameRunning ∨ !connection.connectionIsOk then disconnect conn world else world
  else if connection.state = .logout then
    if !now.gameRunning ∨ !connection.connectionIsOk ∨ connection.timeStamp ≤ world.roundNr then
      disconnect conn world
    else world
  else world

/-- What the loop of `process_creatures` does to a player that logs out. -/
def processCreature (now : Circumstances) (character : UInt32) (world : World) : World :=
  let rested := world.changePlayer character fun player =>
    if player.earliestLogoutRound ≤ world.roundNr then { player with earliestLogoutRound := 0 }
    else player
  match rested.players character with
  | none => rested
  | some player =>
      if player.loggingOut ∧ (logoutPossible now rested.roundNr player).1 = .ok then
        deletePlayer now character rested
      else rested

def blockLogout (now : Circumstances) (delay : UInt32) (blockProtectionZone : Bool)
    (character : UInt32) (world : World) : World :=
  world.changePlayer character fun player =>
    if now.noLogoutBlock then player
    else
      let earliest := max player.earliestLogoutRound (world.roundNr + delay)
      if blockProtectionZone ∨ player.earliestProtectionZoneRound > world.roundNr then
        { player with
          earliestProtectionZoneRound := max player.earliestProtectionZoneRound (world.roundNr + delay)
          earliestLogoutRound := earliest }
      else if player.connection = none then player
      else { player with earliestLogoutRound := earliest }

def die (conn : Fin maxConnections) (world : World) : World :=
  let connection := world.connections conn
  if connection.state = .game then world.setConnection conn { connection with state := .dead }
  else world

def death (character : UInt32) (world : World) : World :=
  match world.players character with
  | none => world
  | some player =>
      let parted :=
        match player.connection with
        | none => world
        | some conn => die conn world
      parted.changePlayer character fun player =>
        { player with
          isDead := true
          loggingOut := true }

def openConnection (conn : Fin maxConnections) (world : World) : World :=
  let connection := world.connections conn
  if connection.state = .free then
    world.setConnection conn
      { connection with
        state := .login
        connectionIsOk := true }
  else world

def freeConnection (conn : Fin maxConnections) (world : World) : World :=
  let connection := world.connections conn
  if connection.state.live then world
  else world.setConnection conn { connection with state := .free }

def step (config : Config) (world : World) : Event → World
  | .connect conn => openConnection conn world
  | .login conn login now => receiveLogin config now login conn world
  | .command conn action => resetTimer conn action world
  | .quit conn now => quitGame now conn world
  | .challengeFails conn now => challengeFailed config now conn world
  | .lost conn =>
      world.setConnection conn { world.connections conn with connectionIsOk := false }
  | .process conn now => process now conn world
  | .processCreature character now => processCreature now character world
  | .forceLogout character force now => startLogout now force character world
  | .blockLogout character delay blockProtectionZone now =>
      blockLogout now delay blockProtectionZone character world
  | .death character => death character world
  | .release conn => freeConnection conn world
  | .cleanup => challengeBanCleanup world
  | .round => { world with roundNr := world.roundNr + 1 }
  | .wait seconds => { world with time := world.time + seconds }

def run (config : Config) (world : World) (events : List Event) : World :=
  events.foldl (step config) world

def started (time : Int) (roundNr : UInt32) : World where
  time := time
  roundNr := roundNr
  connections := fun _ => ⟨.free, 0, 0, 0, false⟩
  players := fun _ => none
  banList := fun _ => none
  history := []

def inForce (config : Config) (history : List Occurrence) (account : UInt32) (time : Int) : Bool :=
  history.any fun
    | .ban banned since => decide (banned = account ∧ time < since + config.banTime)
    | _ => false

def Occurrence.entry : Occurrence → Option (UInt32 × Int)
  | .entered _ character time => some (character, time)
  | _ => none

def Occurrence.join : Occurrence → Option (UInt32 × Int)
  | .joined _ character time => some (character, time)
  | _ => none

/-- No occurrence that counts is one of a character whose account is banned at the time. -/
def keptOut (config : Config) (counts : Occurrence → Option (UInt32 × Int)) : List Occurrence → Bool
  | [] => true
  | occurrence :: earlier =>
      (match counts occurrence with
      | some (character, time) => !inForce config earlier (config.accountOf character) time
      | none => true) && keptOut config counts earlier

/-- The login fails in front of the constructor's `enter_game` and of the takeover. -/
def refusedEarly (now : Circumstances) (login : Login) (world : World) : Bool :=
  (login.terminalType ≠ 1 && login.terminalType ≠ 2) ||
    match world.players login.characterID with
    | none => !login.constructs
    | some player =>
        player.isDead ||
          (player.loggingOut && decide ((logoutPossible now world.roundNr player).1 = .ok))

def isBanned (config : Config) (character : UInt32) (world : World) : Bool :=
  inForce config world.history (config.accountOf character) world.time

/-- No login of a banned character comes as far as `enter_game`. -/
def entersUnbanned (config : Config) (world : World) : Event → Bool
  | .login conn login now =>
      decide ((world.connections conn).state ≠ .login) || refusedEarly now login world ||
        !isBanned config login.characterID world
  | _ => true

/-- No banned character that is still in the game is taken over. -/
def takesOverUnbanned (config : Config) (world : World) : Event → Bool
  | .login conn login now =>
      decide ((world.connections conn).state ≠ .login) || refusedEarly now login world ||
        (world.players login.characterID).isNone || !isBanned config login.characterID world
  | _ => true

def allSteps (config : Config) (condition : World → Event → Bool) : World → List Event → Bool
  | _, [] => true
  | world, event :: events =>
      condition world event && allSteps config condition (step config world event) events

/-- Nothing happens to the bans and to the history, and nobody comes into the game. -/
structure Quiet (world after : World) : Prop where
  banList : after.banList = world.banList
  history : after.history = world.history
  time : after.time = world.time
  game : ∀ conn, (after.connections conn).state = .game → (world.connections conn).state = .game

section Frames

variable {world after last : World}

theorem Quiet.refl (world : World) : Quiet world world :=
  ⟨rfl, rfl, rfl, fun _ inGame => inGame⟩

theorem Quiet.trans (first : Quiet world after) (second : Quiet after last) : Quiet world last := by
  constructor
  · rw [second.banList, first.banList]
  · rw [second.history, first.history]
  · rw [second.time, first.time]
  · intro conn inGame
    exact first.game conn (second.game conn inGame)

theorem set_connection_quiet (world : World) (conn : Fin maxConnections) (connection : Connection)
    (game : connection.state = .game → (world.connections conn).state = .game) :
    Quiet world (world.setConnection conn connection) := by
  constructor
  · rfl
  · rfl
  · rfl
  · intro other inGame
    simp only [World.setConnection, update_apply] at inGame
    split_ifs at inGame with same
    · rw [same]
      exact game inGame
    · exact inGame

theorem change_player_quiet (world : World) (character : UInt32) (change : Player → Player) :
    Quiet world (world.changePlayer character change) :=
  ⟨rfl, rfl, rfl, fun _ inGame => inGame⟩

theorem set_character_quiet (conn : Fin maxConnections) (character : UInt32) (world : World) :
    Quiet world (setCharacter conn character world) := by
  apply set_connection_quiet
  exact id

theorem logout_quiet (now : Circumstances) (delay : UInt32) (conn : Fin maxConnections)
    (world : World) : Quiet world (logout now delay conn world) := by
  unfold logout
  simp only
  split_ifs
  · apply (change_player_quiet world _ _).trans
    apply set_connection_quiet
    nofun
  · apply set_connection_quiet
    nofun

theorem start_logout_quiet (now : Circumstances) (force : Bool) (character : UInt32)
    (world : World) : Quiet world (startLogout now force character world) := by
  unfold startLogout
  rcases world.players character with _ | player
  · exact Quiet.refl world
  have started := change_player_quiet world character (·.startLogout now force)
  cases connected : player.connection with
  | none => simpa only [connected] using started
  | some conn => simpa only [connected] using started.trans (logout_quiet now 0 conn _)

theorem disconnect_quiet (conn : Fin maxConnections) (world : World) :
    Quiet world (disconnect conn world) := by
  apply set_connection_quiet
  nofun

theorem delete_player_quiet (now : Circumstances) (character : UInt32) (world : World) :
    Quiet world (deletePlayer now character world) := by
  unfold deletePlayer
  rcases world.players character with _ | player
  · exact Quiet.refl world
  simp only
  rcases player.connection with _ | conn
  · exact ⟨rfl, rfl, rfl, fun _ inGame => inGame⟩
  have parted := logout_quiet now 30 conn world
  exact ⟨parted.banList, parted.history, parted.time, parted.game⟩

theorem reset_timer_quiet (conn : Fin maxConnections) (action : Bool) (world : World) :
    Quiet world (resetTimer conn action world) := by
  unfold resetTimer
  simp only
  split_ifs
  · apply set_connection_quiet
    exact id
  · apply set_connection_quiet
    exact id
  · exact Quiet.refl world

theorem quit_game_quiet (now : Circumstances) (conn : Fin maxConnections) (world : World) :
    Quiet world (quitGame now conn world) := by
  unfold quitGame
  simp only
  split_ifs
  · exact logout_quiet now 0 conn world
  · split
    · exact logout_quiet now 0 conn world
    · split_ifs
      · exact (change_player_quiet world _ _).trans (logout_quiet now 0 conn _)
      · exact change_player_quiet world _ _
  · exact Quiet.refl world

theorem process_quiet (now : Circumstances) (conn : Fin maxConnections) (world : World) :
    Quiet world (process now conn world) := by
  unfold process
  simp only
  split_ifs
  · exact logout_quiet now 0 conn world
  · exact logout_quiet now 0 conn world
  · exact Quiet.refl world
  · exact disconnect_quiet conn world
  · exact Quiet.refl world
  · exact disconnect_quiet conn world
  all_goals exact Quiet.refl world

theorem process_creature_quiet (now : Circumstances) (character : UInt32) (world : World) :
    Quiet world (processCreature now character world) := by
  unfold processCreature
  simp only
  split
  · exact change_player_quiet world _ _
  · split_ifs
    · exact (change_player_quiet world _ _).trans (delete_player_quiet now character _)
    · exact change_player_quiet world _ _

theorem die_quiet (conn : Fin maxConnections) (world : World) : Quiet world (die conn world) := by
  unfold die
  simp only
  split_ifs
  · apply set_connection_quiet
    nofun
  · exact Quiet.refl world

theorem death_quiet (character : UInt32) (world : World) : Quiet world (death character world) := by
  unfold death
  rcases world.players character with _ | player
  · exact Quiet.refl world
  rcases connected : player.connection with _ | conn
  · simpa only [connected] using change_player_quiet world character _
  simpa only [connected] using (die_quiet conn world).trans (change_player_quiet _ character _)

theorem open_connection_quiet (conn : Fin maxConnections) (world : World) :
    Quiet world (openConnection conn world) := by
  unfold openConnection
  simp only
  split_ifs
  · apply set_connection_quiet
    nofun
  · exact Quiet.refl world

theorem free_connection_quiet (conn : Fin maxConnections) (world : World) :
    Quiet world (freeConnection conn world) := by
  unfold freeConnection
  simp only
  split_ifs
  · exact Quiet.refl world
  · apply set_connection_quiet
    nofun

end Frames

def Pruned (time : Int) (before after : UInt32 → Option Int) : Prop :=
  ∀ account expiry, (after account = some expiry → before account = some expiry) ∧
    (before account = some expiry → time < expiry → after account = some expiry)

theorem Pruned.refl (time : Int) (banList : UInt32 → Option Int) : Pruned time banList banList :=
  fun _ _ => ⟨id, fun listed _ => listed⟩

theorem Pruned.trans {time : Int} {before after last : UInt32 → Option Int}
    (first : Pruned time before after) (second : Pruned time after last) :
    Pruned time before last := by
  intro account expiry
  constructor
  · intro listed
    exact (first account expiry).1 ((second account expiry).1 listed)
  · intro listed running
    exact (second account expiry).2 ((first account expiry).2 listed running) running

/-- What the ways into the game do: bans in force stay, and the occurrences of the way are
logged. -/
structure Enters (logged : List Occurrence) (world after : World) :
    Prop where
  pruned : Pruned world.time world.banList after.banList
  history : after.history = logged ++ world.history
  time : after.time = world.time
  game : ∀ conn, (after.connections conn).state = .game →
    (∃ character time, .entered conn character time ∈ logged) ∨
      (world.connections conn).state = .game

section Logins

variable {world after last : World} {conn : Fin maxConnections} {logged : List Occurrence}

theorem Quiet.enters (quiet : Quiet world after) (entered : Enters logged after last) :
    Enters logged world last := by
  constructor
  · rw [← quiet.banList, ← quiet.time]
    exact entered.pruned
  · rw [entered.history, quiet.history]
  · rw [entered.time, quiet.time]
  · intro other inGame
    rcases entered.game other inGame with new | before
    · exact .inl new
    · exact .inr (quiet.game other before)

theorem Enters.quiet (entered : Enters logged world after) (quiet : Quiet after last) :
    Enters logged world last := by
  constructor
  · rw [quiet.banList]
    exact entered.pruned
  · rw [quiet.history, entered.history]
  · rw [quiet.time, entered.time]
  · intro other inGame
    exact entered.game other (quiet.game other inGame)

theorem enter_game_enters (conn : Fin maxConnections) (character : UInt32) (world : World) :
    Enters [.entered conn character world.time] world (enterGame conn character world) := by
  constructor
  · exact Pruned.refl world.time world.banList
  · rfl
  · rfl
  · intro other inGame
    simp only [enterGame, World.setConnection, update_apply] at inGame
    split_ifs at inGame with same
    · rw [same]
      exact .inl ⟨character, world.time, List.mem_singleton_self _⟩
    · exact .inr inGame

theorem joined_enters (entered : Enters logged world after) (character : UInt32) :
    Enters (.joined conn character world.time :: logged) world (joined conn character after) := by
  constructor
  · exact entered.pruned
  · rw [joined, entered.history, entered.time]
    rfl
  · exact entered.time
  · intro other inGame
    have same := set_connection_quiet after conn
      { after.connections conn with
        timeStamp := after.roundNr
        timeStampAction := after.roundNr } id
    rcases entered.game other (same.game other inGame) with new | before
    · rcases new with ⟨entrant, time, member⟩
      exact .inl ⟨entrant, time, List.mem_cons_of_mem _ member⟩

    · exact .inr before
theorem new_player_enters (config : Config) (conn : Fin maxConnections) (character : UInt32)
    (world : World) :
    Enters [.entered conn character world.time] world
      (newPlayer config conn character world) := by
  have entered := enter_game_enters conn character
    { world with
      players := update world.players character (some
        { accountID := config.accountOf character
          isDead := false
          loggingOut := false
          logoutAllowed := false
          earliestLogoutRound := 0
          earliestProtectionZoneRound := 0
          connection := some conn }) }
  exact ⟨entered.pruned, entered.history, entered.time, entered.game⟩

theorem take_over_enters (conn : Fin maxConnections) (character : UInt32) (world : World) :
    Enters [.entered conn character world.time] world (takeOver conn character world) := by
  have entered := enter_game_enters conn character
    (world.changePlayer character fun player =>
      { player with
        loggingOut := false
        logoutAllowed := false
        connection := some conn })
  exact ⟨entered.pruned, entered.history, entered.time, entered.game⟩

theorem replace_connection_enters (now : Circumstances) (conn : Fin maxConnections)
    (character : UInt32) (player : Player) (world : World) :
    Enters [.entered conn character world.time] world
      (replaceConnection now conn character player world) := by
  have cleared := change_player_quiet world character Player.clearConnection
  unfold replaceConnection
  rcases player.connection with _ | old
  · have entered := take_over_enters conn character
      (world.changePlayer character Player.clearConnection)
    exact cleared.enters entered
  have forgotten := cleared.trans (set_character_quiet old 0 _)
  have parted := forgotten.trans (logout_quiet now 0 old _)
  have entered := parted.enters (take_over_enters conn character _)
  rw [parted.time] at entered
  exact entered

/-- The check takes only a ban that has passed from the list, and finds one that has not. -/
theorem check_pruned (account : UInt32) (world : World)
    (short : ∀ expiry, world.banList account = some expiry → expiry - world.time < 2 ^ 31) :
    Pruned world.time world.banList (challengeBanCheck account world).2.banList ∧
      (∀ expiry, world.banList account = some expiry → world.time < expiry →
        0 < (challengeBanCheck account world).1) := by
  unfold challengeBanCheck
  rcases listed : world.banList account with _ | expiry
  · constructor
    · exact Pruned.refl world.time world.banList
    · nofun
  have running : world.time < expiry → 0 < Int32.ofInt (expiry - world.time) := by
    intro later
    rw [Int32.lt_iff_toInt_lt, Int32.toInt_ofInt_of_le (by omega) (short expiry listed)]
    exact Int.sub_pos_of_lt later
  simp only
  split_ifs with ended
  · constructor
    · intro other ending
      constructor
      · intro found
        simp only [update_apply] at found
        split_ifs at found
        exact found
      intro found later
      simp only [update_apply]
      split_ifs with same
      · rw [same, listed, Option.some_inj] at found
        rw [← found] at later
        exact absurd ended (Int32.not_le.mpr (running later))
      · exact found
    intro ending same later
    rw [Option.some_inj] at same
    rw [← same] at later
    exact absurd ended (Int32.not_le.mpr (running later))
  constructor
  · exact Pruned.refl world.time world.banList
  intro ending same later
  rw [Option.some_inj] at same
  rw [← same] at later
  exact running later

theorem check_frame (account : UInt32) (world : World) :
    (challengeBanCheck account world).2.history = world.history ∧
      (challengeBanCheck account world).2.time = world.time ∧
      (challengeBanCheck account world).2.connections = world.connections := by
  unfold challengeBanCheck
  simp only
  split
  · exact ⟨rfl, rfl, rfl⟩
  · split_ifs <;> exact ⟨rfl, rfl, rfl⟩

def loginLog (config : Config) (now : Circumstances) (login : Login) (conn : Fin maxConnections)
    (world : World) : List Occurrence :=
  if refusedEarly now login world then []
  else if (world.players login.characterID).isNone ∧
      0 < (challengeBanCheck (config.accountOf login.characterID) world).1 then
    [.entered conn login.characterID world.time]
  else [.joined conn login.characterID world.time, .entered conn login.characterID world.time]

theorem refused_enters (conn : Fin maxConnections) (quiet : Quiet world after) :
    Enters [] world (disconnect conn after) := by
  have left := quiet.trans (disconnect_quiet conn after)
  constructor
  · rw [left.banList]
    exact Pruned.refl world.time world.banList
  · exact left.history
  · exact left.time
  · intro other inGame
    exact .inr (left.game other inGame)

theorem check_of_same (account : UInt32) (banList : after.banList = world.banList)
    (time : after.time = world.time) :
    (challengeBanCheck account after).1 = (challengeBanCheck account world).1 := by
  unfold challengeBanCheck
  rw [banList, time]
  simp only
  split
  · rfl
  · split_ifs <;> rfl

theorem checked_enters (config : Config) (conn : Fin maxConnections) (character account : UInt32)
    (world : World)
    (short : ∀ expiry, world.banList account = some expiry → expiry - world.time < 2 ^ 31) :
    Enters [.entered conn character world.time] world
      (challengeBanCheck account (newPlayer config conn character world)).2 := by
  have entered := new_player_enters config conn character world
  have pruned := check_pruned account (newPlayer config conn character world) short
  have frame := check_frame account (newPlayer config conn character world)
  constructor
  · exact entered.pruned.trans pruned.1
  · rw [frame.1, entered.history]
  · rw [frame.2.1, entered.time]
  · rw [frame.2.2]
    exact entered.game

variable (config : Config) (now : Circumstances) (login : Login)
include config now login

theorem join_game_refused (conn : Fin maxConnections) (world : World)
    (refused : refusedEarly now login world = true) :
    (joinGame config now login conn world).1 = false ∧
      Quiet world (joinGame config now login conn world).2 := by
  have read := set_character_quiet conn login.characterID world
  have players : (setCharacter conn login.characterID world).players = world.players := rfl
  have roundNr : (setCharacter conn login.characterID world).roundNr = world.roundNr := rfl
  unfold joinGame
  simp only [players, roundNr]
  by_cases terminal : login.terminalType ≠ 1 ∧ login.terminalType ≠ 2
  · rw [if_pos terminal]
    exact ⟨rfl, read⟩
  rw [if_neg terminal]
  have known : (decide (login.terminalType ≠ 1) && decide (login.terminalType ≠ 2)) = false := by
    simpa using terminal
  rw [refusedEarly, known, Bool.false_or] at refused
  rcases found : world.players login.characterID with _ | player
  · rw [found] at refused
    rw [if_pos refused]
    exact ⟨rfl, read⟩
  simp only [found, Bool.or_eq_true, Bool.and_eq_true, decide_eq_true_eq] at refused ⊢
  by_cases dying : player.isDead = true
  · rw [if_pos dying]
    exact ⟨rfl, read⟩
  have leaving := refused.resolve_left dying
  rw [if_neg dying, if_pos leaving.1, if_pos leaving.2]
  exact ⟨rfl, read.trans (change_player_quiet _ _ _)⟩

theorem join_game_constructed (conn : Fin maxConnections) (world : World)
    (accepted : refusedEarly now login world = false)
    (absent : world.players login.characterID = none) :
    let checked := challengeBanCheck (config.accountOf login.characterID)
      (newPlayer config conn login.characterID (setCharacter conn login.characterID world))
    joinGame config now login conn world =
      if 0 < checked.1 then (false, deletePlayer now login.characterID checked.2)
      else (true, joined conn login.characterID checked.2) := by
  have players : (setCharacter conn login.characterID world).players = world.players := rfl
  simp only [refusedEarly, absent, Bool.or_eq_false_iff] at accepted
  have terminal : ¬ (login.terminalType ≠ 1 ∧ login.terminalType ≠ 2) := by
    simpa using accepted.1
  simp only [joinGame, players, absent, if_neg terminal, accepted.2, Bool.false_eq_true, if_false]

theorem join_game_taken_over (conn : Fin maxConnections) (world : World)
    (accepted : refusedEarly now login world = false) {player : Player}
    (present : world.players login.characterID = some player) :
    (joinGame config now login conn world).1 = true ∧
      Enters [.joined conn login.characterID world.time,
        .entered conn login.characterID world.time] world
        (joinGame config now login conn world).2 := by
  have read := set_character_quiet conn login.characterID world
  have players : (setCharacter conn login.characterID world).players = world.players := rfl
  have roundNr : (setCharacter conn login.characterID world).roundNr = world.roundNr := rfl
  simp only [refusedEarly, present, Bool.or_eq_false_iff] at accepted
  have terminal : ¬ (login.terminalType ≠ 1 ∧ login.terminalType ≠ 2) := by
    simpa using accepted.1
  unfold joinGame
  simp only [players, roundNr, present, if_neg terminal, accepted.2.1, Bool.false_eq_true, if_false]
  by_cases leaving : player.loggingOut = true
  · have staying : (logoutPossible now world.roundNr player).1 ≠ .ok := by
      simpa [leaving] using accepted.2.2
    rw [if_pos leaving, if_neg staying]
    constructor
    · rfl
    apply joined_enters
    have asked := change_player_quiet (setCharacter conn login.characterID world)
      login.characterID fun _ => (logoutPossible now world.roundNr player).2
    have replaced := replace_connection_enters now conn login.characterID
      (logoutPossible now world.roundNr player).2
      ((setCharacter conn login.characterID world).changePlayer login.characterID fun _ =>
        (logoutPossible now world.roundNr player).2)
    exact (read.trans asked).enters replaced
  rw [if_neg leaving]
  constructor
  · rfl
  apply joined_enters
  have replaced := replace_connection_enters now conn login.characterID player
    (setCharacter conn login.characterID world)
  exact read.enters replaced

theorem receive_login_enters (conn : Fin maxConnections) (world : World)
    (short : ∀ account expiry, world.banList account = some expiry → expiry - world.time < 2 ^ 31)
    (waiting : (world.connections conn).state = .login) :
    Enters (loginLog config now login conn world) world
      (receiveLogin config now login conn world) := by
  rw [receiveLogin, if_pos waiting, loginLog]
  cases refused : refusedEarly now login world with
  | true =>
    have failed := join_game_refused config now login conn world refused
    simp only [failed.1, Bool.false_eq_true, if_false, if_true]
    exact refused_enters conn failed.2
  | false =>
    cases found : world.players login.characterID with
    | some player =>
      have success := join_game_taken_over config now login conn world refused found
      simp only [success.1, if_true, Bool.false_eq_true, if_false, Option.isNone_some, false_and]
      exact success.2
    | none =>
      have tried := join_game_constructed config now login conn world refused found
      have read := set_character_quiet conn login.characterID world
      have checked := read.enters (checked_enters config conn login.characterID
        (config.accountOf login.characterID) (setCharacter conn login.characterID world)
        (short (config.accountOf login.characterID)))
      have same : (challengeBanCheck (config.accountOf login.characterID)
          (newPlayer config conn login.characterID
            (setCharacter conn login.characterID world))).1 =
          (challengeBanCheck (config.accountOf login.characterID) world).1 :=
        check_of_same _ rfl rfl
      simp only [same] at tried
      simp only [Bool.false_eq_true, if_false, Option.isNone_none, true_and]
      by_cases banned : 0 < (challengeBanCheck (config.accountOf login.characterID) world).1
      · rw [if_pos banned] at tried
        simp only [tried, if_pos banned, Bool.false_eq_true, if_false]
        exact checked.quiet ((delete_player_quiet now login.characterID _).trans
          (disconnect_quiet conn _))
      rw [if_neg banned] at tried
      simp only [tried, if_neg banned, if_true]
      exact joined_enters checked login.characterID

end Logins

/-- What the steps do in which nobody is banned and no connection logs in. -/
structure Settled (world after : World) : Prop where
  pruned : Pruned after.time world.banList after.banList
  history : after.history = world.history
  time : world.time ≤ after.time
  game : ∀ conn, (after.connections conn).state = .game → (world.connections conn).state = .game

structure Bans (config : Config) (account : UInt32) (world after : World) : Prop where
  banList : after.banList = Function.update world.banList account (some (world.time + config.banTime))
  history : after.history = .ban account world.time :: world.history
  time : after.time = world.time
  game : ∀ conn, (after.connections conn).state = .game → (world.connections conn).state = .game

/-- Every ban that has not passed is on the list, for as long as it has been given or longer. -/
structure Enforced (config : Config) (world : World) : Prop where
  past : ∀ account since, .ban account since ∈ world.history → since ≤ world.time
  listed : ∀ account since, .ban account since ∈ world.history → world.time < since + config.banTime →
    ∃ expiry, world.banList account = some expiry ∧ since + config.banTime ≤ expiry
  bounded : ∀ account expiry, world.banList account = some expiry →
    expiry ≤ world.time + config.banTime

section Enforcement

variable {config : Config} {world after : World}

theorem Quiet.settled (quiet : Quiet world after) : Settled world after := by
  constructor
  · rw [quiet.banList]
    exact Pruned.refl after.time world.banList
  · exact quiet.history
  · exact le_of_eq quiet.time.symm
  · exact quiet.game

theorem cleanup_settled (world : World) : Settled world (challengeBanCleanup world) := by
  constructor
  · intro account expiry
    simp only [challengeBanCleanup, Option.filter_eq_some_iff, decide_eq_true_eq]
    exact ⟨fun kept => kept.1, fun listed running => ⟨listed, running⟩⟩
  · rfl
  · exact le_refl world.time
  · intro conn inGame
    exact inGame

theorem ban_seconds (config : Config) : (config.challengeBanMinutes * 60).toInt = config.banTime := by
  have positive := config.enabled
  have range := config.inRange
  rw [Int32.toInt_mul]
  change (config.challengeBanMinutes.toInt * 60).bmod (2 ^ 32) = config.challengeBanMinutes.toInt * 60
  apply Int.bmod_eq_of_le <;> omega

theorem challenge_failed_cases (config : Config) (now : Circumstances) (conn : Fin maxConnections)
    (world : World) :
    Quiet world (challengeFailed config now conn world) ∨
      ∃ account, Bans config account world (challengeFailed config now conn world) := by
  unfold challengeFailed
  simp only
  split_ifs
  · exact .inl (logout_quiet now 5 conn world)
  · split
    · exact .inl (logout_quiet now 5 conn world)
    rename_i player _
    have left := logout_quiet now 5 conn
      (challengeBanAdd player.accountID config.challengeBanMinutes world)
    right
    apply Exists.intro player.accountID
    constructor
    · rw [left.banList, ← ban_seconds]
      rfl
    · exact left.history
    · exact left.time
    · exact left.game
  · exact .inl (Quiet.refl world)

theorem step_cases (config : Config) (world : World) (event : Event) :
    (∃ conn login now, event = .login conn login now ∧
      (world.connections conn).state = .login) ∨
    (∃ conn now account, event = .challengeFails conn now ∧
      Bans config account world (step config world event)) ∨
    (Settled world (step config world event) ∧ ∀ conn login now, event = .login conn login now →
      (world.connections conn).state ≠ .login) := by
  have quietly : Quiet world (step config world event) →
      (∀ conn login now, event ≠ .login conn login now) →
      Settled world (step config world event) ∧ ∀ conn login now, event = .login conn login now →
        (world.connections conn).state ≠ .login := by
    intro quiet other
    exact ⟨quiet.settled, fun conn login now same => absurd same (other conn login now)⟩
  cases event with
  | connect conn =>
    exact .inr (.inr (quietly (open_connection_quiet conn world) (by simp)))
  | login conn login now =>
    by_cases waiting : (world.connections conn).state = .login
    · exact .inl ⟨conn, login, now, rfl, waiting⟩
    right
    right
    constructor
    · rw [step, receiveLogin, if_neg waiting]
      exact (Quiet.refl world).settled
    · intro other _ _ same
      cases same
      exact waiting
  | command conn action =>
    exact .inr (.inr (quietly (reset_timer_quiet conn action world) (by simp)))
  | quit conn now => exact .inr (.inr (quietly (quit_game_quiet now conn world) (by simp)))
  | challengeFails conn now =>
    rcases challenge_failed_cases config now conn world with quiet | banned
    · exact .inr (.inr (quietly quiet (by simp)))
    cases banned with
    | intro account bans => exact .inr (.inl ⟨conn, now, account, rfl, bans⟩)
  | lost conn =>
    have quiet := set_connection_quiet world conn
      { world.connections conn with connectionIsOk := false } id
    exact .inr (.inr (quietly quiet (by simp)))
  | process conn now => exact .inr (.inr (quietly (process_quiet now conn world) (by simp)))
  | processCreature character now =>
    exact .inr (.inr (quietly (process_creature_quiet now character world) (by simp)))
  | forceLogout character force now =>
    exact .inr (.inr (quietly (start_logout_quiet now force character world) (by simp)))
  | blockLogout character delay blockProtectionZone now =>
    exact .inr (.inr (quietly (change_player_quiet world character _) (by simp)))
  | death character => exact .inr (.inr (quietly (death_quiet character world) (by simp)))
  | release conn => exact .inr (.inr (quietly (free_connection_quiet conn world) (by simp)))
  | cleanup =>
    right
    right
    constructor
    · exact cleanup_settled world
    · nofun
  | round => exact .inr (.inr (quietly ⟨rfl, rfl, rfl, fun _ inGame => inGame⟩ (by simp)))
  | wait seconds =>
    right
    right
    constructor
    · constructor
      · exact Pruned.refl _ world.banList
      · rfl
      · exact Int.le_add_of_nonneg_right (Int.natCast_nonneg seconds)
      · intro conn inGame
        exact inGame
    · nofun

section

variable (enforced : Enforced config world)
include enforced

theorem Enforced.settled (settled : Settled world after) : Enforced config after := by
  have later := settled.time
  constructor
  · intro account since banned
    rw [settled.history] at banned
    exact (enforced.past account since banned).trans later
  · intro account since banned running
    rw [settled.history] at banned
    cases enforced.listed account since banned (later.trans_lt running) with
    | intro expiry listed =>
      apply Exists.intro expiry
      constructor
      · exact (settled.pruned account expiry).2 listed.1 (running.trans_le listed.2)
      · exact listed.2
  · intro account expiry listed
    have before := enforced.bounded account expiry ((settled.pruned account expiry).1 listed)
    omega

theorem Enforced.enters {logged : List Occurrence} (entered : Enters logged world after)
    (noBan : ∀ account since, .ban account since ∉ logged) : Enforced config after := by
  have earlier : ∀ account since, .ban account since ∈ after.history →
      .ban account since ∈ world.history := by
    intro account since banned
    rw [entered.history, List.mem_append] at banned
    exact banned.resolve_left (noBan account since)
  constructor
  · intro account since banned
    rw [entered.time]
    exact enforced.past account since (earlier account since banned)
  · intro account since banned running
    rw [entered.time] at running
    cases enforced.listed account since (earlier account since banned) running with
    | intro expiry listed =>
      apply Exists.intro expiry
      constructor
      · exact (entered.pruned account expiry).2 listed.1 (running.trans_le listed.2)
      · exact listed.2
  · intro account expiry listed
    rw [entered.time]
    exact enforced.bounded account expiry ((entered.pruned account expiry).1 listed)

theorem Enforced.bans {account : UInt32} (bans : Bans config account world after) :
    Enforced config after := by
  constructor
  · intro other since banned
    rw [bans.history, List.mem_cons] at banned
    rw [bans.time]
    rcases banned with new | old
    · cases new
      exact le_refl world.time
    · exact enforced.past other since old
  · intro other since banned running
    rw [bans.time] at running
    rw [bans.history, List.mem_cons] at banned
    rw [bans.banList, update_apply]
    split_ifs with same
    · apply Exists.intro (world.time + config.banTime)
      constructor
      · rfl
      rcases banned with new | old
      · cases new
        exact le_refl _
      · exact Int.add_le_add_right (enforced.past other since old) config.banTime
    rcases banned with new | old
    · cases new
      exact absurd rfl same
    · exact enforced.listed other since old running
  · intro other expiry listed
    rw [bans.time]
    rw [bans.banList, update_apply] at listed
    split_ifs at listed with same
    · exact le_of_eq (Option.some_inj.mp listed).symm
    · exact enforced.bounded other expiry listed

theorem Enforced.short (account : UInt32) (expiry : Int)
    (listed : world.banList account = some expiry) : expiry - world.time < 2 ^ 31 := by
  have bounded := enforced.bounded account expiry listed
  have range : config.banTime < 2 ^ 31 := config.inRange
  omega

end

theorem login_log_no_ban (config : Config) (now : Circumstances) (login : Login)
    (conn : Fin maxConnections) (world : World) (account : UInt32) (since : Int) :
    .ban account since ∉ loginLog config now login conn world := by
  unfold loginLog
  split_ifs <;> simp

theorem step_enforced (enforced : Enforced config world) (event : Event) :
    Enforced config (step config world event) := by
  rcases step_cases config world event with entering | rest
  · rcases entering with ⟨conn, login, now, same, waiting⟩
    rw [same]
    exact enforced.enters
      (receive_login_enters config now login conn world enforced.short waiting)
      (login_log_no_ban config now login conn world)
  rcases rest with banning | settled
  · rcases banning with ⟨conn, now, account, _, bans⟩
    exact enforced.bans bans
  · exact enforced.settled settled.1

theorem check_finds_ban (enforced : Enforced config world) (account : UInt32)
    (running : inForce config world.history account world.time = true) :
    0 < (challengeBanCheck account world).1 := by
  simp only [inForce, List.any_eq_true] at running
  rcases running with ⟨occurrence, logged, counts⟩
  cases occurrence with
  | ban banned since =>
    have both := of_decide_eq_true counts
    rw [both.1] at logged
    cases enforced.listed account since logged both.2 with
    | intro expiry listed =>
      exact (check_pruned account world (enforced.short account)).2 expiry listed.1
        (both.2.trans_le listed.2)
  | entered conn character time => cases counts
  | joined conn character time => cases counts

end Enforcement

section History

variable {config : Config} {world : World}

@[simp] theorem in_force_entered (config : Config) (conn : Fin maxConnections) (character : UInt32)
    (since : Int) (history : List Occurrence) :
    inForce config (.entered conn character since :: history) = inForce config history := by
  rfl

/-- One step keeps the connections of banned accounts out if and only if it meets the
condition. -/
theorem step_entries (enforced : Enforced config world) (event : Event) :
    keptOut config Occurrence.entry (step config world event).history =
      (entersUnbanned config world event && keptOut config Occurrence.entry world.history) := by
  rcases step_cases config world event with entering | rest
  · rcases entering with ⟨conn, login, now, same, waiting⟩
    have entered := receive_login_enters config now login conn world enforced.short waiting
    rw [same]
    change keptOut config Occurrence.entry (receiveLogin config now login conn world).history = _
    rw [entered.history, loginLog]
    cases refused : refusedEarly now login world with
    | true => simp [entersUnbanned, refused]
    | false =>
      have here : decide ((world.connections conn).state ≠ .login) = false := by
        simp [waiting]
      rw [entersUnbanned, here, refused, isBanned, if_neg Bool.false_ne_true]
      split_ifs <;> simp [keptOut, Occurrence.entry]
  rcases rest with banning | settled
  · rcases banning with ⟨conn, now, account, same, bans⟩
    rw [bans.history, same]
    simp [keptOut, Occurrence.entry, entersUnbanned]
  rw [settled.1.history]
  cases event with
  | login conn login now =>
    have elsewhere := settled.2 conn login now rfl
    simp [entersUnbanned, elsewhere]
  | _ => simp [entersUnbanned]

theorem step_joins (enforced : Enforced config world) (event : Event) :
    keptOut config Occurrence.join (step config world event).history =
      (takesOverUnbanned config world event && keptOut config Occurrence.join world.history) := by
  rcases step_cases config world event with entering | rest
  · rcases entering with ⟨conn, login, now, same, waiting⟩
    have entered := receive_login_enters config now login conn world enforced.short waiting
    rw [same]
    change keptOut config Occurrence.join (receiveLogin config now login conn world).history = _
    rw [entered.history, loginLog]
    cases refused : refusedEarly now login world with
    | true => simp [takesOverUnbanned, refused]
    | false =>
      have here : decide ((world.connections conn).state ≠ .login) = false := by
        simp [waiting]
      rw [takesOverUnbanned, here, refused, isBanned, if_neg Bool.false_ne_true]
      cases found : world.players login.characterID with
      | some player => simp [keptOut, Occurrence.join]
      | none =>
        -- A new player stays only if the check has not found a ban.
        have checked := check_finds_ban enforced (config.accountOf login.characterID)
        by_cases banned :
            0 < (challengeBanCheck (config.accountOf login.characterID) world).1
        · simp [banned, keptOut, Occurrence.join]
        have passed := Bool.eq_false_iff.mpr fun running => banned (checked running)
        simp [banned, keptOut, Occurrence.join, passed]
  rcases rest with banning | settled
  · rcases banning with ⟨conn, now, account, same, bans⟩
    rw [bans.history, same]
    simp [keptOut, Occurrence.join, takesOverUnbanned]
  rw [settled.1.history]
  cases event with
  | login conn login now =>
    have elsewhere := settled.2 conn login now rfl
    simp [takesOverUnbanned, elsewhere]
  | _ => simp [takesOverUnbanned]

theorem run_entries (enforced : Enforced config world) (events : List Event) :
    keptOut config Occurrence.entry (run config world events).history =
      (allSteps config (entersUnbanned config) world events &&
        keptOut config Occurrence.entry world.history) := by
  induction events generalizing world with
  | nil => simp [run, allSteps]
  | cons event events ih =>
    have further := ih (step_enforced enforced event)
    rw [step_entries enforced event, ← Bool.and_assoc, Bool.and_comm (allSteps _ _ _ _)] at further
    exact further

theorem run_joins (enforced : Enforced config world) (events : List Event) :
    keptOut config Occurrence.join (run config world events).history =
      (allSteps config (takesOverUnbanned config) world events &&
        keptOut config Occurrence.join world.history) := by
  induction events generalizing world with
  | nil => simp [run, allSteps]
  | cons event events ih =>
    have further := ih (step_enforced enforced event)
    rw [step_joins enforced event, ← Bool.and_assoc, Bool.and_comm (allSteps _ _ _ _)] at further
    exact further

/-- Every connection in the game has come there by `enter_game`. -/
def Entered (world : World) : Prop :=
  ∀ conn, (world.connections conn).state = .game →
    ∃ character time, .entered conn character time ∈ world.history

theorem step_entered (enforced : Enforced config world) (entered : Entered world) (event : Event) :
    Entered (step config world event) := by
  rcases step_cases config world event with entering | rest
  · rcases entering with ⟨conn, login, now, same, waiting⟩
    have effect := receive_login_enters config now login conn world enforced.short waiting
    rw [same]
    change Entered (receiveLogin config now login conn world)
    intro other inGame
    rw [effect.history]
    rcases effect.game other inGame with new | before
    · rcases new with ⟨character, time, logged⟩
      exact ⟨character, time, List.mem_append_left _ logged⟩
    rcases entered other before with ⟨character, time, logged⟩
    exact ⟨character, time, List.mem_append_right _ logged⟩
  rcases rest with banning | settled
  · rcases banning with ⟨conn, now, account, _, bans⟩
    intro other inGame
    rcases entered other (bans.game other inGame) with ⟨character, time, logged⟩
    rw [bans.history]
    exact ⟨character, time, List.mem_cons_of_mem _ logged⟩
  intro other inGame
  rw [settled.1.history]
  exact entered other (settled.1.game other inGame)

theorem started_enforced (config : Config) (time : Int) (roundNr : UInt32) :
    Enforced config (started time roundNr) := by
  constructor
  all_goals nofun

theorem run_entered (enforced : Enforced config world) (entered : Entered world)
    (events : List Event) : Entered (run config world events) := by
  induction events generalizing world with
  | nil => exact entered
  | cons event events ih => exact ih (step_enforced enforced event) (step_entered enforced entered event)

theorem started_entered (time : Int) (roundNr : UInt32) : Entered (started time roundNr) := by
  nofun

/-- In every run, no connection of a banned account comes into the game state if and only if
every login of a banned character is refused in front of `enter_game`; and none stays in the
game if and only if no banned character that is still there is taken over. A connection that
is in the game has come there by `enter_game`. -/
theorem banned_accounts_kept_out (config : Config) (time : Int) (roundNr : UInt32)
    (events : List Event) :
    Entered (run config (started time roundNr) events) ∧
    (keptOut config Occurrence.entry (run config (started time roundNr) events).history = true ↔
      allSteps config (entersUnbanned config) (started time roundNr) events = true) ∧
    (keptOut config Occurrence.join (run config (started time roundNr) events).history = true ↔
      allSteps config (takesOverUnbanned config) (started time roundNr) events = true) := by
  have enforced := started_enforced config time roundNr
  refine ⟨run_entered enforced (started_entered time roundNr) events, ?_, ?_⟩
  · rw [run_entries enforced events]
    simp [started, keptOut]
  · rw [run_joins enforced events]
    simp [started, keptOut]

def tenMinutes : Config where
  accountOf := fun _ => 1
  challengeBanMinutes := 10
  enabled := by decide
  inRange := by decide

def quietGame : Circumstances where
  gameRunning := true
  gameEnding := false
  lagDetected := false
  noLogoutField := false
  noLogoutBlock := false

/-- A player fails a challenge while a fight blocks his logout, and logs in again. -/
def bannedInFight : List Event :=
  [.connect 0, .login 0 ⟨1, 7, true⟩ quietGame, .blockLogout 7 60 false quietGame,
    .challengeFails 0 quietGame, .connect 1, .login 1 ⟨1, 7, true⟩ quietGame]

/-- The character is taken over in the same second. -/
theorem banned_player_takes_over :
    keptOut tenMinutes Occurrence.entry (run tenMinutes (started 0 1) bannedInFight).history = false ∧
      keptOut tenMinutes Occurrence.join (run tenMinutes (started 0 1) bannedInFight).history = false ∧
      ((run tenMinutes (started 0 1) bannedInFight).connections 1).state = .game := by
  decide +kernel

end History

end TibiaGame.TemporaryBans
