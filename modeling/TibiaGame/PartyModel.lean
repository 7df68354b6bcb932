import Mathlib.Tactic

/-!
# Parties

Membership is kept twice: in the member lists of the party table and in the
fields `PartyLeader` and `PartyLeavingRound` of the players. Messages to clients
are not modelled.
-/

namespace TibiaGame.PartyModel

structure Player where
  partyLeader : UInt32
  partyLeavingRound : UInt32
  earliestLogoutRound : UInt32
  deriving DecidableEq

/-- An entry of the party table; it is free when its leader is 0. -/
structure Party where
  leader : UInt32
  member : List UInt32
  invitedPlayer : List UInt32
  deriving DecidableEq

/-- The players that are online, the party table and the round counter. -/
structure Parties where
  players : UInt32 → Option Player
  partyArray : List Party
  roundNr : UInt32

def Player.getPartyLeader (player : Player) (roundNr : UInt32) (checkFormer : Bool) : UInt32 :=
  if player.partyLeavingRound = 0 ∨
      (checkFormer = true ∧ roundNr ≤ player.partyLeavingRound + 5) then player.partyLeader
  else 0

def Player.joinParty (player : Player) (leader : UInt32) : Player :=
  { player with partyLeavingRound := 0, partyLeader := leader }

def Player.leaveParty (player : Player) (roundNr : UInt32) : Player :=
  { player with partyLeavingRound := roundNr }

/-- A loop over member numbers that changes those who are online. -/
def forMembers (change : Player → Player) (players : UInt32 → Option Player)
    (members : List UInt32) : UInt32 → Option Player :=
  members.foldl (fun players id => Function.update players id ((players id).map change)) players

/-- The first entry of the table with this leader, with its place. -/
def getParty (partyArray : List Party) (leader : UInt32) : Option (Nat × Party) :=
  (partyArray.findIdx? fun party => party.leader == leader).bind fun index =>
    partyArray[index]?.map fun party => (index, party)

def disbandParty (world : Parties) (leader : UInt32) : Parties :=
  match getParty world.partyArray leader with
  | none => world
  | some (index, party) =>
      { world with
        players := forMembers (·.leaveParty world.roundNr) world.players party.member
        partyArray := world.partyArray.set index { party with leader := 0 } }

def addParty (partyArray : List Party) (party : Party) : List Party :=
  match getParty partyArray 0 with
  | none => partyArray ++ [party]
  | some (index, _) => partyArray.set index party

def inviteToParty (world : Parties) (host guest : UInt32) : Parties :=
  if host = guest then world
  else
    match world.players host, world.players guest with
    | some hostPlayer, some guestPlayer =>
        if hostPlayer.getPartyLeader world.roundNr true = 0 then
          if guestPlayer.getPartyLeader world.roundNr true ≠ 0 then world
          else
            { world with
              players := Function.update world.players host (some (hostPlayer.joinParty host))
              partyArray := addParty world.partyArray
                { leader := host, member := [host], invitedPlayer := [guest] } }
        else if hostPlayer.getPartyLeader world.roundNr false = host then
          if guestPlayer.getPartyLeader world.roundNr true ≠ 0 then world
          else
            match getParty world.partyArray host with
            | none => world
            | some (index, party) =>
                if guest ∈ party.invitedPlayer then world
                else
                  { world with
                    partyArray := world.partyArray.set index
                      { party with invitedPlayer := party.invitedPlayer ++ [guest] } }
        else world
    | _, _ => world

def revokeInvitation (world : Parties) (host guest : UInt32) : Parties :=
  match world.players host with
  | none => world
  | some hostPlayer =>
      if hostPlayer.getPartyLeader world.roundNr false ≠ host then world
      else
        match getParty world.partyArray host with
        | none => world
        | some (index, party) =>
            let inviteIndex := party.invitedPlayer.findIdx (· == guest)
            if party.invitedPlayer.length ≤ inviteIndex then world
            else
              let party := { party with invitedPlayer := party.invitedPlayer.eraseIdx inviteIndex }
              let world := { world with partyArray := world.partyArray.set index party }
              if party.member.length = 1 ∧ party.invitedPlayer.length = 0 then
                disbandParty world host
              else world

/-- The invitation is removed by moving the last one into its place. -/
def swapAndPop (invitedPlayer : List UInt32) (index : Nat) : List UInt32 :=
  (invitedPlayer.set index (invitedPlayer.getLastD 0)).dropLast

def joinParty (world : Parties) (guest host : UInt32) : Parties :=
  if guest = host then world
  else
    match world.players guest, world.players host with
    | some guestPlayer, some _ =>
        if guestPlayer.getPartyLeader world.roundNr true ≠ 0 then world
        else
          match getParty world.partyArray host with
          | none => world
          | some (index, party) =>
              let inviteIndex := party.invitedPlayer.findIdx (· == guest)
              if party.invitedPlayer.length ≤ inviteIndex then world
              else
                { world with
                  players := Function.update world.players guest (some (guestPlayer.joinParty host))
                  partyArray := world.partyArray.set index
                    { party with
                      member := party.member ++ [guest]
                      invitedPlayer := swapAndPop party.invitedPlayer inviteIndex } }
    | _, _ => world

def passLeadership (world : Parties) (oldLeader newLeader : UInt32) : Parties :=
  if oldLeader = newLeader then world
  else
    match world.players oldLeader, world.players newLeader with
    | some oldPlayer, some newPlayer =>
        if oldPlayer.getPartyLeader world.roundNr false ≠ oldLeader then world
        else if newPlayer.getPartyLeader world.roundNr false ≠ oldLeader then world
        else
          match getParty world.partyArray oldLeader with
          | none => world
          | some (index, party) =>
              { world with
                players := forMembers (·.joinParty newLeader) world.players party.member
                partyArray := world.partyArray.set index
                  { party with leader := newLeader, invitedPlayer := [] } }
    | _, _ => world

/-- The end of `leave_party`: the member is taken out of the entry at `index`. -/
def removeMember (world : Parties) (index : Nat) (member : UInt32) : Parties :=
  match world.partyArray[index]?, world.players member with
  | some party, some player =>
      let memberIndex := party.member.findIdx (· == member)
      if party.member.length ≤ memberIndex then world
      else
        { world with
          players := Function.update world.players member (some (player.leaveParty world.roundNr))
          partyArray := world.partyArray.set index
            { party with member := party.member.eraseIdx memberIndex } }
  | _, _ => world

def nextLeader (party : Party) (member : UInt32) : UInt32 :=
  if party.member.getD 0 0 = member then party.member.getD 1 0 else party.member.getD 0 0

def leaveParty (world : Parties) (member : UInt32) (forced : Bool) : Parties :=
  match world.players member with
  | none => world
  | some player =>
      let leader := player.getPartyLeader world.roundNr false
      if leader = 0 then world
      else if forced = false ∧ world.roundNr < player.earliestLogoutRound then world
      else
        match getParty world.partyArray leader with
        | none => world
        | some (index, party) =>
            if party.member.length = 1 ∨
                (party.member.length = 2 ∧ party.invitedPlayer.length = 0) then
              disbandParty world leader
            else if leader = member then
              removeMember (passLeadership world member (nextLeader party member)) index member
            else removeMember world index member

def login (world : Parties) (id : UInt32) : Parties :=
  match world.players id with
  | some _ => world
  | none => { world with players := Function.update world.players id (some ⟨0, 0, 0⟩) }

/-- The destructor of a player: it leaves its party before it goes. -/
def logout (world : Parties) (id : UInt32) : Parties :=
  match world.players id with
  | none => world
  | some player =>
      let world :=
        if player.getPartyLeader world.roundNr false ≠ 0 then leaveParty world id true else world
      { world with players := Function.update world.players id none }

abbrev NonZero := { number : UInt32 // number ≠ 0 }

inductive PartyCall where
  | inviteToParty (host guest : UInt32)
  | revokeInvitation (host guest : UInt32)
  | joinParty (guest host : UInt32)
  | passLeadership (oldLeader newLeader : UInt32)
  | leaveParty (member : UInt32) (forced : Bool)
  | disbandParty (leader : NonZero)
  | login (id : NonZero)
  | logout (id : UInt32)
  | blockLogout (id : UInt32) (earliestLogoutRound : UInt32)
  | round (roundNr : NonZero)

def partyCall (world : Parties) : PartyCall → Parties
  | .inviteToParty host guest => inviteToParty world host guest
  | .revokeInvitation host guest => revokeInvitation world host guest
  | .joinParty guest host => joinParty world guest host
  | .passLeadership oldLeader newLeader => passLeadership world oldLeader newLeader
  | .leaveParty member forced => leaveParty world member forced
  | .disbandParty leader => disbandParty world leader
  | .login id => login world id
  | .logout id => logout world id
  | .blockLogout id earliestLogoutRound =>
      { world with
        players := Function.update world.players id ((world.players id).map fun player =>
          { player with earliestLogoutRound := earliestLogoutRound }) }
  | .round roundNr => { world with roundNr := roundNr }

/-- No player is online at the start, and the first round is 1. -/
def noParties : Parties where
  players := fun _ => none
  partyArray := []
  roundNr := 1

def runParties (calls : List PartyCall) : Parties := calls.foldl partyCall noParties

end TibiaGame.PartyModel
