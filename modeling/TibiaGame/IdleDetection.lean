import TibiaGame.ChallengeProtocol
import TibiaGame.ConnectionScan

/-!
# Activity of one connection

`reset_timer` notes the round of the last action; a connection without one for 960 rounds is
logged out. A challenge is sent to active players only, and its answer is a command as well.
-/

namespace TibiaGame.IdleDetection

open ChallengeProtocol (Config Nonce Digest Message pingCode goStopCode cancelCode
  refreshFieldCode refreshContainerCode challengeResponseCode)
open ConnectionScan (ConnectionState)

/-- `noLogoutBlock` is the right `NO_LOGOUT_BLOCK` of the character. -/
structure Connection where
  state : ConnectionState
  connectionIsOk : Bool
  noLogoutBlock : Bool
  timeStamp : UInt32
  timeStampAction : UInt32
  challengeNonce : Nonce
  challengeTimeSent : UInt32
  challengeLastRound : UInt32
  deriving DecidableEq

def Connection.inGame (connection : Connection) : Bool :=
  connection.state = .game || connection.state = .dead

def loginRequestCode : UInt8 := 10
def loginCode : UInt8 := 11
def logoutCode : UInt8 := 20
def bugReportCode : UInt8 := 230
def errorFileEntryCode : UInt8 := 232

/-- `CommandAllowed`. -/
def commandAllowed (state : ConnectionState) (code : UInt8) : Bool :=
  match state with
  | .game => code ≠ loginRequestCode && code ≠ loginCode
  | .dead | .logout =>
      code = logoutCode || code = pingCode || code = bugReportCode || code = errorFileEntryCode
  | _ => false

def logout (connection : Connection) (roundNr delay : UInt32) : Connection :=
  { connection with state := .logout, timeStamp := roundNr + delay }

def disconnect (connection : Connection) : Connection :=
  { connection with state := .disconnected, connectionIsOk := false }

def process (connection : Connection) (roundNr : UInt32) (gameRunning : Bool) : Connection :=
  if connection.inGame then
    let lastCommand := roundNr - connection.timeStamp
    let lastAction := roundNr - connection.timeStampAction
    if lastAction ≥ 960 ∧ !connection.noLogoutBlock then logout connection roundNr 0
    else if !gameRunning || !connection.connectionIsOk || decide (lastCommand ≥ 90) then
      logout connection roundNr 0
    else connection
  else if connection.state = .login then
    if !gameRunning || !connection.connectionIsOk then disconnect connection else connection
  else if connection.state = .logout then
    if !gameRunning || !connection.connectionIsOk || decide (connection.timeStamp ≤ roundNr) then
      disconnect connection
    else connection
  else connection

def resetTimer (connection : Connection) (roundNr : UInt32) (code : UInt8) : Connection :=
  if connection.inGame then
    let connection := { connection with timeStamp := roundNr }
    if code ≠ pingCode ∧ code ≠ goStopCode ∧ code ≠ cancelCode ∧ code ≠ refreshFieldCode ∧
        code ≠ refreshContainerCode then
      { connection with timeStampAction := roundNr }
    else connection
  else connection

def emergencyPing (connection : Connection) (roundNr : UInt32) : Connection :=
  if connection.inGame ∧ roundNr - connection.timeStamp < 80 then
    { connection with timeStamp := roundNr - 100 }
  else connection

/-- The turn of the connection in the loop of `AdvanceGame`. -/
def checkChallenge (config : Config) (connection : Connection) (roundNr : UInt32)
    (nonce : Nonce) : Connection :=
  if connection.state = .game then
    let playerIdle := decide (roundNr - connection.timeStampAction ≥ 60)
    if connection.challengeTimeSent ≠ 0 then
      let elapsed := (roundNr - connection.challengeTimeSent).toInt32
      if elapsed ≥ config.timeout then
        let connection := { connection with challengeTimeSent := 0 }
        if playerIdle then connection else logout connection roundNr 5
      else connection
    else if !playerIdle then
      let sinceLastChallenge := (roundNr - connection.challengeLastRound).toInt32
      if sinceLastChallenge ≥ config.interval then
        { connection with
          challengeNonce := nonce
          challengeTimeSent := roundNr
          challengeLastRound := roundNr }
      else connection
    else connection
  else connection

def challengeResponse (config : Config) (connection : Connection) (roundNr : UInt32)
    (response : Digest) : Connection :=
  if connection.challengeTimeSent = 0 then connection
  else if response ≠ config.answer connection.challengeNonce then logout connection roundNr 5
  else { connection with challengeTimeSent := 0 }

def code : Message → UInt8
  | .command code => code
  | .response _ => challengeResponseCode

/-- `receive_data` after the login; what other handlers do to the connection are events of
their own. -/
def receiveData (config : Config) (connection : Connection) (roundNr : UInt32)
    (message : Message) : Connection :=
  if !commandAllowed connection.state (code message) then connection
  else
    let connection := resetTimer connection roundNr (code message)
    match message with
    | .command _ => connection
    | .response digest => challengeResponse config connection roundNr digest

structure Server where
  roundNr : UInt32
  connection : Connection
  deriving DecidableEq

/-- In a round `process_connections` and the loop of `AdvanceGame` may come to the connection or
not; `died` and `loggedOut` come from the creature, `closed` from the network thread. -/
inductive Event where
  | round (processed visited gameRunning : Bool) (nonce : Nonce)
  | received (message : Message)
  | emergencyPing
  | died
  | loggedOut (delay : UInt32)
  | closed

def advance (config : Config) (server : Server) (processed visited gameRunning : Bool)
    (nonce : Nonce) : Server :=
  let roundNr := server.roundNr + 1
  let connection :=
    if processed then process server.connection roundNr gameRunning else server.connection
  { roundNr := roundNr
    connection := if visited then checkChallenge config connection roundNr nonce else connection }

def step (config : Config) (server : Server) : Event → Server
  | .round processed visited gameRunning nonce =>
      advance config server processed visited gameRunning nonce
  | .received message =>
      { server with
        connection := receiveData config server.connection server.roundNr message }
  | .emergencyPing =>
      { server with connection := emergencyPing server.connection server.roundNr }
  | .died =>
      if server.connection.state = .game then
        { server with connection := { server.connection with state := .dead } }
      else server
  | .loggedOut delay =>
      { server with connection := logout server.connection server.roundNr delay }
  | .closed => { server with connection := { server.connection with connectionIsOk := false } }

/-- After `join_game` and `enter_game`. -/
def enterGame (roundNr : UInt32) (noLogoutBlock : Bool) (nonce : Nonce) : Server where
  roundNr := roundNr
  connection :=
    { state := .game
      connectionIsOk := true
      noLogoutBlock := noLogoutBlock
      timeStamp := roundNr
      timeStampAction := roundNr
      challengeNonce := nonce
      challengeTimeSent := 0
      challengeLastRound := roundNr }

def run (config : Config) (server : Server) (events : List Event) : Server :=
  events.foldl (step config) server

/-- Pings, cancels, refresh requests and the answers to challenges are sent by the client. -/
def userInitiated (code : UInt8) : Bool :=
  code ≠ pingCode && code ≠ goStopCode && code ≠ cancelCode && code ≠ refreshFieldCode &&
    code ≠ refreshContainerCode && code ≠ challengeResponseCode

/-- The rounds since the login or the last command of the user that was let through, one event
later. -/
def countRounds (server : Server) (rounds : Nat) : Event → Nat
  | .round _ _ _ _ => rounds + 1
  | .received message =>
      if server.connection.inGame && commandAllowed server.connection.state (code message) &&
        userInitiated (code message) then 0 else rounds
  | _ => rounds

def roundsSince (config : Config) : Server → Nat → List Event → Nat
  | _, rounds, [] => rounds
  | server, rounds, event :: rest =>
      roundsSince config (step config server event) (countRounds server rounds event) rest

/-- The last action is at least as long ago as the last command of the user. -/
def Unattended (server : Server) (rounds : Nat) : Prop :=
  rounds ≤ (server.roundNr - server.connection.timeStampAction).toNat

instance (server : Server) (rounds : Nat) : Decidable (Unattended server rounds) :=
  Nat.decLe _ _

/-- A challenge response that is let through comes in the round of the last command of the
user, and the rounds are not yet as many as fit into their counter. -/
def Quiet (server : Server) (rounds : Nat) : Event → Prop
  | .round _ _ _ _ => rounds + 1 < 2 ^ 32
  | .received (.command code) =>
      code = challengeResponseCode → server.connection.state = .game → rounds = 0
  | .received (.response _) => server.connection.state = .game → rounds = 0
  | _ => True

def QuietRun (config : Config) : Server → Nat → List Event → Prop
  | _, _, [] => True
  | server, rounds, event :: rest =>
      Quiet server rounds event ∧
        QuietRun config (step config server event) (countRounds server rounds event) rest

instance (server : Server) (rounds : Nat) : (event : Event) → Decidable (Quiet server rounds event)
  | .round _ _ _ _ => Nat.decLt _ _
  | .received (.command _) => inferInstanceAs (Decidable (_ = _ → _ = _ → _ = _))
  | .received (.response _) => inferInstanceAs (Decidable (_ = _ → _ = _))
  | .emergencyPing => isTrue trivial
  | .died => isTrue trivial
  | .loggedOut _ => isTrue trivial
  | .closed => isTrue trivial

def decideQuietRun (config : Config) :
    (server : Server) → (rounds : Nat) → (events : List Event) →
      Decidable (QuietRun config server rounds events)
  | _, _, [] => isTrue trivial
  | server, rounds, event :: rest =>
      have := decideQuietRun config (step config server event) (countRounds server rounds event)
        rest
      inferInstanceAs (Decidable (Quiet server rounds event ∧ QuietRun config _ _ rest))

instance (config : Config) (server : Server) (rounds : Nat) (events : List Event) :
    Decidable (QuietRun config server rounds events) :=
  decideQuietRun config server rounds events

section Timers

variable {config : Config} {connection : Connection} {server : Server} {roundNr : UInt32}

theorem process_action (gameRunning : Bool) :
    (process connection roundNr gameRunning).timeStampAction = connection.timeStampAction := by
  unfold process
  dsimp only
  split_ifs <;> rfl

theorem check_challenge_action (nonce : Nonce) :
    (checkChallenge config connection roundNr nonce).timeStampAction =
      connection.timeStampAction := by
  unfold checkChallenge
  dsimp only
  split_ifs <;> rfl

theorem challenge_response_action (digest : Digest) :
    (challengeResponse config connection roundNr digest).timeStampAction =
      connection.timeStampAction := by
  unfold challengeResponse
  split_ifs <;> rfl

theorem emergency_ping_action :
    (emergencyPing connection roundNr).timeStampAction = connection.timeStampAction := by
  unfold emergencyPing
  split_ifs <;> rfl

theorem advance_action (processed visited gameRunning : Bool) (nonce : Nonce) :
    (advance config server processed visited gameRunning nonce).connection.timeStampAction =
      server.connection.timeStampAction := by
  unfold advance
  rcases visited with _ | _
  · cases processed with
    | false => rfl
    | true => exact process_action gameRunning
  apply (check_challenge_action nonce).trans
  cases processed with
  | false => rfl
  | true => exact process_action gameRunning

theorem reset_timer_action (code : UInt8) :
    (resetTimer connection roundNr code).timeStampAction =
      if connection.inGame && (userInitiated code || code = challengeResponseCode) then roundNr
      else connection.timeStampAction := by
  have counted : (code ≠ pingCode ∧ code ≠ goStopCode ∧ code ≠ cancelCode ∧
      code ≠ refreshFieldCode ∧ code ≠ refreshContainerCode) ↔
        (userInitiated code || code = challengeResponseCode) = true := by
    by_cases response : code = challengeResponseCode
    · subst response
      decide
    simp [userInitiated, response]
    tauto
  unfold resetTimer
  rcases inside : connection.inGame with _ | _
  · rfl
  rw [if_pos rfl, Bool.true_and]
  by_cases acts : (userInitiated code || code = challengeResponseCode) = true
  · rw [if_pos (counted.mpr acts), if_pos acts]
  · rw [if_neg (mt counted.mp acts), if_neg acts]

theorem receive_action (message : Message) :
    (receiveData config connection roundNr message).timeStampAction =
      if connection.inGame && commandAllowed connection.state (code message) &&
          (userInitiated (code message) || code message = challengeResponseCode) then roundNr
      else connection.timeStampAction := by
  unfold receiveData
  rcases allowed : commandAllowed connection.state (code message) with _ | _
  · simp
  have reset : (resetTimer connection roundNr (code message)).timeStampAction =
      if connection.inGame && true &&
        (userInitiated (code message) || code message = challengeResponseCode) then roundNr
      else connection.timeStampAction := by
    rw [Bool.and_true]
    exact reset_timer_action (code message)
  cases message with
  | command code => exact reset
  | response digest => exact (challenge_response_action digest).trans reset

end Timers

section Runs

variable {config : Config} {server : Server} {rounds : Nat}

/-- The last action is exactly as long ago as the last command of the user. -/
def Exact (server : Server) (rounds : Nat) : Prop :=
  rounds = (server.roundNr - server.connection.timeStampAction).toNat

theorem Exact.unattended (exact : Exact server rounds) : Unattended server rounds := exact.le

theorem advance_exact (exactly : Exact server rounds) (fits : rounds + 1 < 2 ^ 32)
    (processed visited gameRunning : Bool) (nonce : Nonce) :
    Exact (advance config server processed visited gameRunning nonce) (rounds + 1) := by
  unfold Exact at exactly ⊢
  rw [advance_action]
  change rounds + 1 = (server.roundNr + 1 - server.connection.timeStampAction).toNat
  have later : server.roundNr + 1 - server.connection.timeStampAction =
      server.roundNr - server.connection.timeStampAction + 1 := by grind
  rw [later, UInt32.toNat_add, ← exactly]
  have one : (1 : UInt32).toNat = 1 := rfl
  rw [one, Nat.mod_eq_of_lt fits]

theorem response_state {state : ConnectionState} (inGame : state = .game ∨ state = .dead)
    (allowed : commandAllowed state challengeResponseCode = true) : state = .game := by
  rcases inGame with game | dead
  · exact game
  rw [dead] at allowed
  exact absurd allowed (by decide)

theorem quiet_response {message : Message} (quiet : Quiet server rounds (.received message))
    (response : code message = challengeResponseCode) (game : server.connection.state = .game) :
    rounds = 0 := by
  cases message with
  | command code => exact quiet response game
  | response digest => exact quiet game

theorem receive_exact (exactly : Exact server rounds) (message : Message)
    (quiet : Quiet server rounds (.received message)) :
    Exact (step config server (.received message))
      (countRounds server rounds (.received message)) := by
  unfold Exact at exactly ⊢
  change (if server.connection.inGame && commandAllowed server.connection.state (code message) &&
      userInitiated (code message) then 0 else rounds) = (server.roundNr -
        (receiveData config server.connection server.roundNr message).timeStampAction).toNat
  rw [receive_action]
  cases through : server.connection.inGame &&
      commandAllowed server.connection.state (code message) with
  | false => exact exactly
  | true =>
    cases acts : userInitiated (code message) with
    | true =>
      change 0 = (server.roundNr - server.roundNr).toNat
      rw [UInt32.sub_self]
      rfl
    | false =>
      by_cases response : code message = challengeResponseCode
      · rw [Bool.and_eq_true, response] at through
        have inGame : server.connection.state = .game ∨ server.connection.state = .dead := by
          simpa [Connection.inGame] using through.1
        have none := quiet_response quiet response (response_state inGame through.2)
        simp [response, none]
      · simpa [response] using exactly

theorem step_exact (exactly : Exact server rounds) (event : Event)
    (quiet : Quiet server rounds event) :
    Exact (step config server event) (countRounds server rounds event) := by
  cases event with
  | round processed visited gameRunning nonce =>
    exact advance_exact exactly quiet processed visited gameRunning nonce
  | received message => exact receive_exact exactly message quiet
  | emergencyPing =>
    change rounds = (server.roundNr -
      (emergencyPing server.connection server.roundNr).timeStampAction).toNat
    rw [emergency_ping_action]
    exact exactly
  | died =>
    unfold step
    split_ifs
    all_goals exact exactly
  | loggedOut delay => exact exactly
  | closed => exact exactly

theorem run_exact (exactly : Exact server rounds) (events : List Event)
    (quiet : QuietRun config server rounds events) :
    Exact (run config server events) (roundsSince config server rounds events) := by
  induction events generalizing server rounds with
  | nil => exact exactly
  | cons event rest ih => exact ih (step_exact exactly event quiet.1) quiet.2

theorem process_idle {connection : Connection} {roundNr : UInt32}
    (idle : roundNr - connection.timeStampAction ≥ 960)
    (mayLogOut : connection.noLogoutBlock = false) (gameRunning : Bool) :
    (process connection roundNr gameRunning).inGame = false := by
  unfold process
  by_cases inside : connection.inGame = true
  · rw [if_pos inside]
    rw [if_pos ⟨idle, by rw [mayLogOut]; rfl⟩]
    rfl
  · split_ifs <;> first | rfl | exact Bool.eq_false_iff.mpr inside

theorem check_challenge_outside {connection : Connection} {roundNr : UInt32}
    (outside : connection.inGame = false) (nonce : Nonce) :
    checkChallenge config connection roundNr nonce = connection := by
  unfold checkChallenge
  rw [if_neg]
  intro game
  rw [Connection.inGame, game] at outside
  cases outside

/-- After 960 rounds the next pass over the connections ends the game for the player. -/
theorem idle_is_logged_out (exactly : Exact server rounds) (idle : 960 ≤ rounds + 1)
    (fits : rounds + 1 < 2 ^ 32) (mayLogOut : server.connection.noLogoutBlock = false)
    (visited gameRunning : Bool) (nonce : Nonce) :
    (advance config server true visited gameRunning nonce).connection.inGame = false := by
  have later : rounds + 1 =
      (server.roundNr + 1 - server.connection.timeStampAction).toNat := by
    have advanced : Exact (advance config server true visited gameRunning nonce) (rounds + 1) :=
      advance_exact exactly fits true visited gameRunning nonce
    rw [Exact, advance_action] at advanced
    exact advanced
  have long : server.roundNr + 1 - server.connection.timeStampAction ≥ 960 := by
    rw [ge_iff_le, UInt32.le_iff_toNat_le, ← later]
    exact idle
  have processed := process_idle long mayLogOut gameRunning
  unfold advance
  dsimp only
  rw [if_pos rfl]
  rcases visited with _ | _
  · exact processed
  rw [if_pos rfl, check_challenge_outside processed]
  exact processed

/-- Without answers to challenges, the player whom nobody attends is found idle, and the pass
of the round that makes it 960 rounds logs the player out. -/
theorem automatic_traffic_is_no_activity (config : Config) (roundNr : UInt32)
    (noLogoutBlock : Bool) (nonce : Nonce) (events : List Event)
    (quiet : QuietRun config (enterGame roundNr noLogoutBlock nonce) 0 events) :
    let server := run config (enterGame roundNr noLogoutBlock nonce) events
    let rounds := roundsSince config (enterGame roundNr noLogoutBlock nonce) 0 events
    Unattended server rounds ∧
      ∀ (visited gameRunning : Bool) (nonce : Nonce), 960 ≤ rounds + 1 → rounds + 1 < 2 ^ 32 →
        server.connection.noLogoutBlock = false →
          (advance config server true visited gameRunning nonce).connection.inGame = false := by
  intro server rounds
  have fresh : Exact (enterGame roundNr noLogoutBlock nonce) 0 := by
    change 0 = (roundNr - roundNr).toNat
    rw [UInt32.sub_self]
    rfl
  have exactly := run_exact fresh events quiet
  exact ⟨exactly.unattended, fun visited gameRunning nonce idle fits mayLogOut =>
    idle_is_logged_out exactly idle fits mayLogOut visited gameRunning nonce⟩

/-- Some rounds in which the connection gets at most a challenge. -/
def quietRounds (count : Nat) : List Event :=
  List.replicate count (.round true true true ChallengeProtocol.zeros)

theorem ping_is_no_activity :
    let events := [.received (.command 101)] ++ quietRounds 20 ++ [.received (.command pingCode)]
    roundsSince ChallengeProtocol.defaults (enterGame 1 false ChallengeProtocol.zeros) 0 events =
        20 ∧
      Unattended (run ChallengeProtocol.defaults (enterGame 1 false ChallengeProtocol.zeros)
        events) 20 := by
  intro events
  have count : roundsSince ChallengeProtocol.defaults
      (enterGame 1 false ChallengeProtocol.zeros) 0 events = 20 := by
    decide +kernel
  have quiet := automatic_traffic_is_no_activity ChallengeProtocol.defaults 1 false
    ChallengeProtocol.zeros events (by decide +kernel)
  rw [count] at quiet
  exact ⟨count, quiet.1⟩

/-- The answer to a challenge one round later, and the rounds up to the next one. -/
def answer : List Event :=
  [.round true true true ChallengeProtocol.zeros,
    .received (.response (ChallengeProtocol.defaults.answer ChallengeProtocol.zeros))] ++
      quietRounds 59

/-- One step of the user, and then answers to sixteen challenges. -/
def answeringClient : List Event :=
  quietRounds 1 ++ [.received (.command 101)] ++ quietRounds 59 ++
    (List.replicate 16 answer).flatten

/-- The server when that many challenges have been answered and the next one is sent. -/
def answered (count : Nat) : Server where
  roundNr := 61 + 60 * count.toUInt32
  connection :=
    { state := .game
      connectionIsOk := true
      noLogoutBlock := false
      timeStamp := 2 + 60 * count.toUInt32
      timeStampAction := 2 + 60 * count.toUInt32
      challengeNonce := ChallengeProtocol.zeros
      challengeTimeSent := 61 + 60 * count.toUInt32
      challengeLastRound := 61 + 60 * count.toUInt32 }

theorem run_append (first second : List Event) :
    run config server (first ++ second) = run config (run config server first) second :=
  List.foldl_append

theorem rounds_since_append (first second : List Event) :
    roundsSince config server rounds (first ++ second) =
      roundsSince config (run config server first) (roundsSince config server rounds first)
        second := by
  induction first generalizing server rounds with
  | nil => rfl
  | cons event rest ih => exact ih

theorem answer_leads_on : ∀ count < 16,
    run ChallengeProtocol.defaults (answered count) answer = answered (count + 1) ∧
      roundsSince ChallengeProtocol.defaults (answered count) (59 + 60 * count) answer =
        59 + 60 * (count + 1) := by
  decide +kernel

theorem answers_lead_on (count more : Nat) (few : count + more ≤ 16) :
    run ChallengeProtocol.defaults (answered count) (List.replicate more answer).flatten =
        answered (count + more) ∧
      roundsSince ChallengeProtocol.defaults (answered count) (59 + 60 * count)
        (List.replicate more answer).flatten = 59 + 60 * (count + more) := by
  induction more generalizing count with
  | zero => exact ⟨rfl, rfl⟩
  | succ more ih =>
    obtain ⟨next, counted⟩ := answer_leads_on count (by omega)
    obtain ⟨later, total⟩ := ih (count + 1) (by omega)
    rw [List.replicate_succ, List.flatten_cons, run_append, rounds_since_append, next, counted,
      later, total]
    rw [add_right_comm, add_assoc count more 1]
    exact ⟨rfl, rfl⟩

/-- After 1019 rounds without a command of the user the client is still in the game. -/
theorem answers_count_as_activity :
    let server := run ChallengeProtocol.defaults (enterGame 1 false ChallengeProtocol.zeros)
      answeringClient
    let rounds := roundsSince ChallengeProtocol.defaults
      (enterGame 1 false ChallengeProtocol.zeros) 0 answeringClient
    server.connection.inGame = true ∧ rounds = 1019 ∧ ¬ Unattended server rounds := by
  have begun : run ChallengeProtocol.defaults (enterGame 1 false ChallengeProtocol.zeros)
      (quietRounds 1 ++ [.received (.command 101)] ++ quietRounds 59) = answered 0 ∧
    roundsSince ChallengeProtocol.defaults (enterGame 1 false ChallengeProtocol.zeros) 0
      (quietRounds 1 ++ [.received (.command 101)] ++ quietRounds 59) = 59 := by
    decide +kernel
  obtain ⟨ends, total⟩ := answers_lead_on 0 16 (by decide)
  unfold answeringClient
  rw [run_append, rounds_since_append, begun.1, begun.2, ends, total]
  decide +kernel

end Runs

end TibiaGame.IdleDetection
