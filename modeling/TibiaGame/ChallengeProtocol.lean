import Mathlib.Tactic

/-!
# Challenges to a client

The part of `AdvanceGame` that sends a challenge to a connection or gives it up, and
`CChallengeResponse`, with an honest client at the other end: it answers every
challenge that it receives, in order. Messages in flight are two queues.
-/

namespace TibiaGame.ChallengeProtocol

abbrev Nonce := Vector UInt8 16

abbrev Digest := Vector UInt8 32

/-- `ChallengeInterval`, `ChallengeTimeout` and `ChallengeSecret`, and the hash function. -/
structure Config where
  interval : Int32
  timeout : Int32
  secret : Vector UInt8 16
  sha256 : List UInt8 → Digest

def Config.answer (config : Config) (nonce : Nonce) : Digest :=
  config.sha256 (nonce.toList ++ config.secret.toList)

/-- A command of the client; `code` is its first byte. -/
inductive Message where
  | command (code : UInt8)
  | response (digest : Digest)

def Message.isResponse : Message → Bool
  | .command _ => false
  | .response _ => true

def pingCode : UInt8 := 30
def goStopCode : UInt8 := 105
def cancelCode : UInt8 := 190
def refreshFieldCode : UInt8 := 201
def refreshContainerCode : UInt8 := 202
def challengeResponseCode : UInt8 := 250

/-- The connection, what is in flight in both directions, and whether the branch for a
wrong response has been taken. -/
structure Protocol where
  roundNr : UInt32
  inGame : Bool
  timeStampAction : UInt32
  challengeNonce : Nonce
  challengeTimeSent : UInt32
  challengeLastRound : UInt32
  toClient : List Nonce
  toServer : List Message
  punished : Bool

/-- `visited` says whether the loop over the connections gets to this one, `nonce` is what
`RAND_bytes` gives, and `sent` whether the packet fits into the output buffer. -/
inductive Event where
  | round (visited : Bool) (nonce : Nonce) (sent : Bool)
  | clientSends (code : UInt8)
  | clientAnswers
  | serverHandles
  | leave

def resetTimer (protocol : Protocol) (code : UInt8) : Protocol :=
  if code ≠ pingCode ∧ code ≠ goStopCode ∧ code ≠ cancelCode ∧ code ≠ refreshFieldCode ∧
      code ≠ refreshContainerCode then
    { protocol with timeStampAction := protocol.roundNr }
  else protocol

def playerIdle (protocol : Protocol) : Bool :=
  decide (60 ≤ protocol.roundNr - protocol.timeStampAction)

def challengeDue (config : Config) (protocol : Protocol) : Bool :=
  protocol.inGame && decide (protocol.challengeTimeSent = 0) && !playerIdle protocol &&
    decide (config.interval ≤ (protocol.roundNr - protocol.challengeLastRound).toInt32)

def sendChallenge (protocol : Protocol) (nonce : Nonce) (sent : Bool) : Protocol :=
  { protocol with
    challengeNonce := nonce
    challengeTimeSent := protocol.roundNr
    challengeLastRound := protocol.roundNr
    toClient := if sent then protocol.toClient ++ [nonce] else protocol.toClient }

/-- The turn of the loop of `AdvanceGame` for this connection. -/
def checkChallenge (config : Config) (protocol : Protocol) (nonce : Nonce) (sent : Bool) :
    Protocol :=
  if challengeDue config protocol then sendChallenge protocol nonce sent
  else if protocol.inGame ∧ protocol.challengeTimeSent ≠ 0 then
    let elapsed := (protocol.roundNr - protocol.challengeTimeSent).toInt32
    if elapsed ≥ config.timeout then
      if playerIdle protocol then { protocol with challengeTimeSent := 0 }
      else { protocol with challengeTimeSent := 0, inGame := false }
    else protocol
  else protocol

def challengeResponse (config : Config) (protocol : Protocol) (response : Digest) : Protocol :=
  if protocol.challengeTimeSent = 0 then protocol
  else if response ≠ config.answer protocol.challengeNonce then
    { protocol with inGame := false, punished := true }
  else { protocol with challengeTimeSent := 0 }

/-- `receive_data` on the next message, for a connection in the game. -/
def handleMessage (config : Config) (protocol : Protocol) : Message → Protocol
  | .command code => if protocol.inGame then resetTimer protocol code else protocol
  | .response digest =>
      if protocol.inGame then
        challengeResponse config (resetTimer protocol challengeResponseCode) digest
      else protocol

def step (config : Config) (protocol : Protocol) : Event → Protocol
  | .round visited nonce sent =>
      let advanced := { protocol with roundNr := protocol.roundNr + 1 }
      if visited then checkChallenge config advanced nonce sent else advanced
  | .clientSends code =>
      if code = challengeResponseCode then protocol
      else { protocol with toServer := protocol.toServer ++ [.command code] }
  | .clientAnswers =>
      match protocol.toClient with
      | [] => protocol
      | nonce :: rest =>
          { protocol with
            toClient := rest
            toServer := protocol.toServer ++ [.response (config.answer nonce)] }
  | .serverHandles =>
      match protocol.toServer with
      | [] => protocol
      | message :: rest => handleMessage config { protocol with toServer := rest } message
  | .leave => { protocol with inGame := false }

def enterGame (roundNr : UInt32) (nonce : Nonce) : Protocol where
  roundNr := roundNr
  inGame := true
  timeStampAction := roundNr
  challengeNonce := nonce
  challengeTimeSent := 0
  challengeLastRound := roundNr
  toClient := []
  toServer := []
  punished := false

def run (config : Config) (protocol : Protocol) (events : List Event) : Protocol :=
  events.foldl (step config) protocol

/-- No challenge is on its way to the client, and no response on its way back. -/
def allAnswered (protocol : Protocol) : Bool :=
  protocol.toClient.isEmpty && !protocol.toServer.any Message.isResponse

/-- A challenge is sent only when all earlier ones are answered. -/
def alone (config : Config) (protocol : Protocol) : Event → Bool
  | .round visited _ _ =>
      !visited || !challengeDue config { protocol with roundNr := protocol.roundNr + 1 } ||
        allAnswered protocol
  | _ => true

def allAlone (config : Config) : Protocol → List Event → Bool
  | _, [] => true
  | protocol, event :: events =>
      alone config protocol event && allAlone config (step config protocol event) events

/-- All that is in flight belongs to the challenge that the server remembers. -/
structure Honest (config : Config) (protocol : Protocol) : Prop where
  challenges : ∀ nonce ∈ protocol.toClient, nonce = protocol.challengeNonce
  responses : ∀ digest, .response digest ∈ protocol.toServer →
    digest = config.answer protocol.challengeNonce
  unpunished : protocol.punished = false

variable {config : Config} {protocol after : Protocol}

theorem Honest.frame (honest : Honest config protocol)
    (nonce : after.challengeNonce = protocol.challengeNonce)
    (toClient : after.toClient = protocol.toClient) (toServer : after.toServer = protocol.toServer)
    (punished : after.punished = protocol.punished) : Honest config after := by
  constructor
  · rw [toClient, nonce]
    exact honest.challenges
  · rw [toServer, nonce]
    exact honest.responses
  · rw [punished]
    exact honest.unpunished

theorem send_challenge_honest (honest : Honest config protocol) (nonce : Nonce) (sent : Bool)
    (answered : allAnswered protocol = true) : Honest config (sendChallenge protocol nonce sent) := by
  simp only [allAnswered, Bool.and_eq_true, List.isEmpty_iff, Bool.not_eq_true',
    List.any_eq_false] at answered
  rcases answered with ⟨noChallenge, noResponse⟩
  constructor
  · intro other member
    simp only [sendChallenge, noChallenge] at member
    cases sent with
    | false => cases member
    | true => exact List.mem_singleton.mp member
  · intro digest member
    exact absurd rfl (noResponse (.response digest) member)
  · exact honest.unpunished

theorem check_challenge_honest (honest : Honest config protocol) (nonce : Nonce) (sent : Bool)
    (answered : challengeDue config protocol = true → allAnswered protocol = true) :
    Honest config (checkChallenge config protocol nonce sent) := by
  unfold checkChallenge
  simp only
  split_ifs with due
  · exact send_challenge_honest honest nonce sent (answered due)
  · exact honest.frame rfl rfl rfl rfl
  · exact honest.frame rfl rfl rfl rfl
  · exact honest
  · exact honest

theorem reset_timer_frame (protocol : Protocol) (code : UInt8) :
    (resetTimer protocol code).challengeNonce = protocol.challengeNonce ∧
      (resetTimer protocol code).toClient = protocol.toClient ∧
      (resetTimer protocol code).toServer = protocol.toServer ∧
      (resetTimer protocol code).punished = protocol.punished := by
  unfold resetTimer
  split_ifs <;> exact ⟨rfl, rfl, rfl, rfl⟩

section

variable (honest : Honest config protocol)
include honest

theorem Honest.reset_timer (code : UInt8) : Honest config (resetTimer protocol code) := by
  have same := reset_timer_frame protocol code
  exact honest.frame same.1 same.2.1 same.2.2.1 same.2.2.2

theorem challenge_response_honest (digest : Digest)
    (right : digest = config.answer protocol.challengeNonce) :
    Honest config (challengeResponse config protocol digest) := by
  unfold challengeResponse
  split_ifs with pending wrong
  · exact honest
  · exact absurd right wrong
  · exact honest.frame rfl rfl rfl rfl

theorem handle_message_honest (message : Message) (right : ∀ digest, message = .response digest →
      digest = config.answer protocol.challengeNonce) :
    Honest config (handleMessage config protocol message) := by
  cases message with
  | command code =>
    simp only [handleMessage]
    split_ifs
    · exact honest.reset_timer code
    · exact honest
  | response digest =>
    simp only [handleMessage]
    split_ifs
    · apply challenge_response_honest (honest.reset_timer challengeResponseCode)
      exact right digest rfl
    · exact honest

theorem step_honest (event : Event) (single : alone config protocol event = true) :
    Honest config (step config protocol event) := by
  cases event with
  | round visited nonce sent =>
    have advanced : Honest config { protocol with roundNr := protocol.roundNr + 1 } :=
      honest.frame rfl rfl rfl rfl
    simp only [step]
    split_ifs with here
    · apply check_challenge_honest advanced
      intro due
      have answered : allAnswered protocol = true := by
        simpa [alone, here, due] using single
      exact answered
    · exact advanced
  | clientSends code =>
    simp only [step]
    split_ifs
    · exact honest
    constructor
    · exact honest.challenges
    · intro digest member
      apply honest.responses digest
      simpa using member
    · exact honest.unpunished
  | clientAnswers =>
    rcases queue : protocol.toClient with _ | ⟨nonce, rest⟩
    · simpa only [step, queue] using honest
    have challenges := honest.challenges
    rw [queue] at challenges
    simp only [step, queue]
    constructor
    · intro other member
      exact challenges other (List.mem_cons_of_mem nonce member)
    · intro digest member
      rcases List.mem_append.mp member with earlier | last
      · exact honest.responses digest earlier
      have same : digest = config.answer nonce := by simpa using last
      rw [same, challenges nonce (by simp)]
    · exact honest.unpunished
  | serverHandles =>
    rcases queue : protocol.toServer with _ | ⟨message, rest⟩
    · simpa only [step, queue] using honest
    have responses := honest.responses
    rw [queue] at responses
    simp only [step, queue]
    apply handle_message_honest
    · constructor
      · exact honest.challenges
      · intro digest member
        exact responses digest (List.mem_cons_of_mem message member)
      · exact honest.unpunished
    intro digest same
    apply responses digest
    rw [same]
    exact List.mem_cons_self
  | leave => exact honest.frame rfl rfl rfl rfl

theorem honest_from (events : List Event) (single : allAlone config protocol events = true) :
    Honest config (run config protocol events) := by
  induction events generalizing protocol with
  | nil => exact honest
  | cons event events ih =>
    rw [allAlone, Bool.and_eq_true] at single
    exact ih (step_honest honest event single.1) single.2

end

/-- The values that `config.cpp` sets by default, and a hash that keeps the first byte. -/
def defaults : Config where
  interval := 60
  timeout := 10
  secret := Vector.replicate 16 0
  sha256 := fun bytes => Vector.replicate 32 (bytes.headD 0)

def zeros : Nonce := Vector.replicate 16 0
def ones : Nonce := Vector.replicate 16 1

/-- A number of rounds in which the connection sends and gets nothing but a challenge. -/
def rounds (count : Nat) (nonce : Nonce) : List Event :=
  List.replicate count (.round true nonce true)

/-- A player that acts now and then, and a client that answers at once. -/
def answeredAtOnce : List Event :=
  rounds 1 zeros ++ [.clientSends 101, .serverHandles] ++ rounds 59 zeros ++
    [.clientAnswers, .serverHandles]

/-- The first challenge is on its way for a minute, in which the player looks idle and the
server forgets it; the player acts, the next challenge is sent, and then the client gets
and answers the first one. -/
def answeredLate : List Event :=
  rounds 1 zeros ++ [.clientSends 101, .serverHandles] ++ rounds 118 zeros ++
    [.clientSends 101, .serverHandles] ++ rounds 1 ones ++ [.clientAnswers, .serverHandles]

end TibiaGame.ChallengeProtocol
