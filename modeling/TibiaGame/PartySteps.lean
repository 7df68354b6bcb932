import TibiaGame.PartyAgreement

/-!
# The party operations as changes of one entry

Each operation of the source does nothing or one of a few changes to both
records; the leader who leaves does two, one after the other.
-/

namespace TibiaGame.PartySteps

open PartyModel PartyAgreement List Function

section Players

variable {players : UInt32 → Option Player} {player : Player} {id leader roundNr : UInt32}

theorem leader_of_iff (players : UInt32 → Option Player) (id leader : UInt32) :
    leaderOf players id = some leader ↔ ∃ player, players id = some player ∧
      player.partyLeavingRound = 0 ∧ player.partyLeader = leader ∧ leader ≠ 0 := by
  unfold leaderOf
  rcases players id with _ | player
  · simp
  simp only [Option.bind_some, Option.some.injEq, exists_eq_left']
  split_ifs with member
  · constructor
    · intro same
      have equal := Option.some.inj same
      exact ⟨member.1, equal, equal ▸ member.2⟩
    · intro ⟨_, same, _⟩
      rw [same]
  constructor
  · nofun
  · intro ⟨current, same, nonzero⟩
    exact absurd ⟨current, same ▸ nonzero⟩ member

theorem current_leader (found : players id = some player)
    (current : player.getPartyLeader roundNr false = leader) (nonzero : leader ≠ 0) :
    leaderOf players id = some leader := by
  apply (leader_of_iff players id leader).2
  by_cases now : player.partyLeavingRound = 0
  · rw [Player.getPartyLeader, if_pos (Or.inl now)] at current
    exact ⟨player, found, now, current, nonzero⟩
  rw [Player.getPartyLeader, if_neg (by simp [now])] at current
  exact absurd current.symm nonzero

theorem follows_current (found : players id = some player)
    (follows : leaderOf players id = some leader) :
    player.getPartyLeader roundNr false = leader := by
  obtain ⟨player', found', now, same, _⟩ := (leader_of_iff players id leader).1 follows
  rw [found] at found'
  have equal := Option.some.inj found'
  subst equal
  rw [Player.getPartyLeader, if_pos (Or.inl now), same]

theorem no_leader (found : players id = some player)
    (none : player.getPartyLeader roundNr true = 0) : leaderOf players id = Option.none := by
  rcases follows : leaderOf players id with _ | leader
  · rfl
  obtain ⟨player', found', now, same, nonzero⟩ := (leader_of_iff players id leader).1 follows
  rw [found] at found'
  have equal := Option.some.inj found'
  subst equal
  rw [Player.getPartyLeader, if_pos (Or.inl now), same] at none
  exact absurd none nonzero

theorem leader_of_joined (nonzero : leader ≠ 0) :
    leaderOf (update players id (some (player.joinParty leader))) =
      update (leaderOf players) id (some leader) := by
  funext other
  by_cases same : other = id
  · simp [leaderOf, same, Player.joinParty, nonzero]
  · simp [leaderOf, same]

theorem leader_of_left (started : roundNr ≠ 0) :
    leaderOf (update players id (some (player.leaveParty roundNr))) =
      update (leaderOf players) id none := by
  funext other
  by_cases same : other = id
  · simp [leaderOf, same, Player.leaveParty, started]
  · simp [leaderOf, same]

theorem for_members_spec (change : Player → Player) (players : UInt32 → Option Player)
    (members : List UInt32) (nodup : members.Nodup) (id : UInt32) :
    forMembers change players members id =
      if id ∈ members then (players id).map change else players id := by
  unfold forMembers
  induction members generalizing players with
  | nil => simp
  | cons first members induction =>
    obtain ⟨outside, nodup⟩ := nodup_cons.1 nodup
    rw [foldl_cons, induction _ nodup]
    by_cases same : id = first
    · simp [same, outside]
    · simp [same]

theorem leader_of_passed (members : List UInt32) (nodup : members.Nodup) (old new : UInt32)
    (nonzero : new ≠ 0) (listed : ∀ id, id ∈ members ↔ leaderOf players id = some old) :
    leaderOf (forMembers (·.joinParty new) players members) =
      relead (leaderOf players) old (some new) := by
  funext id
  unfold relead
  have spec := for_members_spec (·.joinParty new) players members nodup id
  split_ifs with member
  · rw [if_pos ((listed id).2 member)] at spec
    obtain ⟨player, found, _⟩ := (leader_of_iff players id old).1 member
    rw [leaderOf, spec, found]
    simp [Player.joinParty, nonzero]
  · rw [if_neg (fun inside => member ((listed id).1 inside))] at spec
    simp only [leaderOf, spec]

theorem leader_of_disbanded (members : List UInt32) (nodup : members.Nodup) (old : UInt32)
    (started : roundNr ≠ 0) (listed : ∀ id, id ∈ members ↔ leaderOf players id = some old) :
    leaderOf (forMembers (·.leaveParty roundNr) players members) =
      relead (leaderOf players) old none := by
  funext id
  unfold relead
  have spec := for_members_spec (·.leaveParty roundNr) players members nodup id
  split_ifs with member
  · rw [if_pos ((listed id).2 member)] at spec
    obtain ⟨player, found, _⟩ := (leader_of_iff players id old).1 member
    rw [leaderOf, spec, found]
    simp [Player.leaveParty, started]
  · rw [if_neg (fun inside => member ((listed id).1 inside))] at spec
    simp only [leaderOf, spec]

theorem for_members_online (change : Player → Player) (players : UInt32 → Option Player)
    (members : List UInt32) (nodup : members.Nodup) (id : UInt32) :
    (forMembers change players members id).isSome = (players id).isSome := by
  rw [for_members_spec change players members nodup id]
  split_ifs
  · exact Option.isSome_map
  · rfl

theorem update_online (found : players id = some player) (changed : Player) (other : UInt32) :
    (update players id (some changed) other).isSome = (players other).isSome := by
  by_cases same : other = id
  · rw [same, update_self, found]
    rfl
  · rw [update_of_ne same]

end Players

section Table

variable {leader : UInt32 → Option UInt32} {partyArray : List Party}

theorem get_party_some (number : UInt32) (index : Nat) (party : Party)
    (found : getParty partyArray number = some (index, party)) :
    partyArray[index]? = some party ∧ party.leader = number := by
  unfold getParty at found
  rcases search : partyArray.findIdx? fun party => party.leader == number with _ | place
  · simp [search] at found
  rw [search, Option.bind_some] at found
  obtain ⟨party', there, same⟩ := Option.map_eq_some_iff.1 found
  obtain ⟨rfl, rfl⟩ := Prod.mk.inj same
  obtain ⟨inside, led, _⟩ := List.findIdx?_eq_some_iff_getElem.1 search
  rw [List.getElem?_eq_getElem inside] at there
  have equal := Option.some.inj there
  rw [equal] at led
  exact ⟨(List.getElem?_eq_getElem inside).trans (congrArg some equal), by simpa using led⟩

theorem get_party_none (number : UInt32) (missing : getParty partyArray number = none)
    (index : Nat) (party : Party) (found : partyArray[index]? = some party) :
    party.leader ≠ number := by
  intro led
  unfold getParty at missing
  rcases search : partyArray.findIdx? fun party => party.leader == number with _ | place
  · have nowhere := List.findIdx?_eq_none_iff.1 search party (mem_of_getElem? found)
    simp [led] at nowhere
  obtain ⟨inside, _⟩ := List.findIdx?_eq_some_iff_getElem.1 search
  rw [search, Option.bind_some, List.getElem?_eq_getElem inside] at missing
  cases missing

theorem get_party_active (agrees : Agrees leader partyArray) (index : Nat) (party : Party)
    (found : partyArray[index]? = some party) (active : party.leader ≠ 0) :
    getParty partyArray party.leader = some (index, party) := by
  rcases search : getParty partyArray party.leader with _ | entry
  · exact absurd rfl (get_party_none _ search index party found)
  obtain ⟨index', party'⟩ := entry
  obtain ⟨found', led⟩ := get_party_some _ _ _ search
  have same := agrees.distinct index index' party party' found found' active led.symm
  subst same
  rw [found] at found'
  rw [Option.some.inj found']

theorem add_party_written (party : Party) :
    ∃ index, Written partyArray index party (addParty partyArray party) ∧
      ∀ old, partyArray[index]? = some old → old.leader = 0 := by
  unfold addParty
  rcases search : getParty partyArray 0 with _ | entry
  · refine ⟨partyArray.length, written_append, ?_⟩
    intro old found
    simp at found
  obtain ⟨index, free⟩ := entry
  obtain ⟨found, empty⟩ := get_party_some _ _ _ search
  refine ⟨index, written_set found, ?_⟩
  intro old found'
  rw [found] at found'
  rw [← Option.some.inj found', empty]

end Table

section Effects

variable {leader leader' : UInt32 → Option UInt32} {partyArray after : List Party}
  {strands : Prop}

/-- What a call does to the membership and the table. Only when `strands` holds may
it leave a party behind with one member and no invitation. -/
inductive Effect (strands : Prop) (leader : UInt32 → Option UInt32) (partyArray : List Party)
    (leader' : UInt32 → Option UInt32) (after : List Party) : Prop where
  | same (leaders : leader' = leader) (table : after = partyArray)
  | founded (host guest : UInt32) (index : Nat) (nonzero : host ≠ 0) (alone : leader host = none)
      (free : ∀ old, partyArray[index]? = some old → old.leader = 0)
      (written : Written partyArray index ⟨host, [host], [guest]⟩ after)
      (leaders : leader' = Function.update leader host (some host))
  | reinvited (index : Nat) (old : Party) (invited : List UInt32)
      (found : partyArray[index]? = some old) (active : old.leader ≠ 0)
      (lively : 2 ≤ old.member.length ∨ invited ≠ []) (leaders : leader' = leader)
      (table : after = partyArray.set index { old with invitedPlayer := invited })
  | joined (index : Nat) (old : Party) (guest : UInt32) (invited : List UInt32)
      (found : partyArray[index]? = some old) (active : old.leader ≠ 0)
      (alone : leader guest = none)
      (leaders : leader' = Function.update leader guest (some old.leader))
      (table : after = partyArray.set index
        { old with member := old.member ++ [guest], invitedPlayer := invited })
  | passed (index : Nat) (old : Party) (newLeader : UInt32)
      (found : partyArray[index]? = some old) (active : old.leader ≠ 0) (nonzero : newLeader ≠ 0)
      (follows : leader newLeader = some old.leader) (different : old.leader ≠ newLeader)
      (leaders : leader' = relead leader old.leader (some newLeader))
      (table : after = partyArray.set index
        { old with leader := newLeader, invitedPlayer := [] })
  | removed (index : Nat) (old : Party) (member : UInt32)
      (found : partyArray[index]? = some old) (active : old.leader ≠ 0)
      (different : member ≠ old.leader) (follows : leader member = some old.leader)
      (lively : strands ∨ 3 ≤ old.member.length ∨ old.invitedPlayer ≠ [])
      (leaders : leader' = Function.update leader member none)
      (table : after = partyArray.set index { old with member := old.member.erase member })
  | disbanded (index : Nat) (old free : Party) (found : partyArray[index]? = some old)
      (active : old.leader ≠ 0) (empty : free.leader = 0)
      (leaders : leader' = relead leader old.leader none)
      (table : after = partyArray.set index free)

theorem Effect.agrees (effect : Effect strands leader partyArray leader' after)
    (agrees : Agrees leader partyArray) : Agrees leader' after := by
  cases effect with
  | same leaders table =>
    subst leaders table
    exact agrees
  | founded host guest index nonzero alone free written leaders =>
    subst leaders
    exact agrees.found_party host guest nonzero alone free written
  | reinvited index old invited found active lively leaders table =>
    subst leaders table
    exact agrees.reinvite found active invited
  | joined index old guest invited found active alone leaders table =>
    subst leaders table
    exact agrees.join found active guest alone invited
  | passed index old newLeader found active nonzero follows different leaders table =>
    subst leaders table
    exact agrees.pass found active newLeader nonzero follows different
  | removed index old member found active different follows lively leaders table =>
    subst leaders table
    exact agrees.remove found active member different follows
  | disbanded index old free found active empty leaders table =>
    subst leaders table
    exact agrees.disband found active free empty

/-- Every active party has a second member or an open invitation. -/
def Lively (partyArray : List Party) : Prop :=
  ∀ (index : Nat) party, partyArray[index]? = some party → party.leader ≠ 0 →
    2 ≤ party.member.length ∨ party.invitedPlayer ≠ []

theorem Lively.write {index : Nat} {party : Party} (lively : Lively partyArray)
    (written : Written partyArray index party after)
    (own : party.leader ≠ 0 → 2 ≤ party.member.length ∨ party.invitedPlayer ≠ []) :
    Lively after := by
  intro place found value active
  by_cases same : place = index
  · rw [same, written.here] at value
    rw [← Option.some.inj value] at active ⊢
    exact own active
  rw [written.elsewhere place same] at value
  exact lively place found value active

theorem Effect.lively (effect : Effect False leader partyArray leader' after)
    (agrees : Agrees leader partyArray) (lively : Lively partyArray) : Lively after := by
  cases effect with
  | same leaders table => exact table ▸ lively
  | founded host guest index nonzero alone free written leaders =>
    exact lively.write written fun _ => Or.inr (cons_ne_nil _ _)
  | reinvited index old invited found active enough leaders table =>
    rw [table]
    exact lively.write (written_set found) fun _ => enough
  | joined index old guest invited found active alone leaders table =>
    rw [table]
    apply lively.write (written_set found)
    intro _
    have member := length_pos_of_mem (agrees.led index old found active)
    left
    simp only [length_append, length_singleton]
    omega
  | passed index old newLeader found active nonzero follows different leaders table =>
    rw [table]
    apply lively.write (written_set found)
    intro _
    left
    have first := agrees.led index old found active
    have second := (agrees.listed index old found active newLeader).2 follows
    by_contra short
    obtain ⟨only, whole⟩ : ∃ only, old.member = [only] := by
      apply length_eq_one_iff.1
      have some_ := length_pos_of_mem first
      simp only at short
      omega
    rw [whole, mem_singleton] at first second
    exact different (first.trans second.symm)
  | removed index old member found active different follows enough leaders table =>
    rw [table]
    apply lively.write (written_set found)
    intro _
    have inside := (agrees.listed index old found active member).2 follows
    have length := length_erase_of_mem inside
    rcases enough with impossible | three | invited
    · exact absurd impossible not_false
    · left
      simp only [length]
      omega
    · exact Or.inr invited
  | disbanded index old free found active empty leaders table =>
    rw [table]
    exact lively.write (written_set found) fun used => absurd empty used

theorem Effect.weaken {strands' : Prop} (effect : Effect strands leader partyArray leader' after)
    (implied : strands → strands') : Effect strands' leader partyArray leader' after := by
  cases effect with
  | same leaders table => exact .same leaders table
  | founded host guest index nonzero alone free written leaders =>
    exact .founded host guest index nonzero alone free written leaders
  | reinvited index old invited found active lively leaders table =>
    exact .reinvited index old invited found active lively leaders table
  | joined index old guest invited found active alone leaders table =>
    exact .joined index old guest invited found active alone leaders table
  | passed index old newLeader found active nonzero follows different leaders table =>
    exact .passed index old newLeader found active nonzero follows different leaders table
  | removed index old member found active different follows lively leaders table =>
    exact .removed index old member found active different follows (lively.imp_left implied)
      leaders table
  | disbanded index old free found active empty leaders table =>
    exact .disbanded index old free found active empty leaders table

end Effects

section Steps

/-- The invariant of all runs: both records agree, and the rounds have begun. -/
structure Sound (world : Parties) : Prop where
  agrees : Agrees (leaderOf world.players) world.partyArray
  started : world.roundNr ≠ 0
  nobody : world.players 0 = none

structure Step (strands : Prop) (world after : Parties) : Prop where
  effect : Effect strands (leaderOf world.players) world.partyArray (leaderOf after.players)
    after.partyArray
  round : after.roundNr = world.roundNr
  online : ∀ id, (after.players id).isSome = (world.players id).isSome

variable {strands : Prop} {world after : Parties}

theorem Step.refl (strands : Prop) (world : Parties) : Step strands world world where
  effect := .same rfl rfl
  round := rfl
  online := fun _ => rfl

theorem Step.sound (step : Step strands world after) (sound : Sound world) : Sound after where
  agrees := step.effect.agrees sound.agrees
  started := step.round ▸ sound.started
  nobody := by
    have absent := step.online 0
    rw [sound.nobody] at absent
    simpa using absent

section

variable (sound : Sound world)
include sound

theorem Sound.nonzero {id : UInt32} {player : Player} (found : world.players id = some player) :
    id ≠ 0 := by
  intro zero
  rw [zero, sound.nobody] at found
  cases found

theorem disband_party_spec (index : Nat) (party : Party)
    (found : getParty world.partyArray party.leader = some (index, party))
    (active : party.leader ≠ 0) : Step strands world (disbandParty world party.leader) := by
  obtain ⟨there, _⟩ := get_party_some _ _ _ found
  have nodup := sound.agrees.nodup index party there active
  simp only [disbandParty, found]
  constructor
  · exact .disbanded index party { party with leader := 0 } there active rfl
      (leader_of_disbanded party.member nodup party.leader sound.started
        (sound.agrees.listed index party there active)) rfl
  · rfl
  · exact for_members_online _ world.players party.member nodup

theorem disband_party_step (leader : UInt32) (nonzero : leader ≠ 0) :
    Step False world (disbandParty world leader) := by
  rcases search : getParty world.partyArray leader with _ | entry
  · simp only [disbandParty, search]
    exact Step.refl _ _
  obtain ⟨index, party⟩ := entry
  obtain ⟨_, rfl⟩ := get_party_some _ _ _ search
  exact disband_party_spec sound index party search nonzero

theorem invite_to_party_step (host guest : UInt32) :
    Step False world (inviteToParty world host guest) := by
  unfold inviteToParty
  split_ifs with self
  · exact Step.refl _ _
  rcases hosting : world.players host with _ | hostPlayer
  · exact Step.refl _ _
  rcases visiting : world.players guest with _ | guestPlayer
  · exact Step.refl _ _
  have nonzero := sound.nonzero hosting
  simp only
  split_ifs with alone taken leads taken'
  · exact Step.refl _ _
  · obtain ⟨index, written, free⟩ :=
      @add_party_written world.partyArray ⟨host, [host], [guest]⟩
    constructor
    · exact .founded host guest index nonzero (no_leader hosting alone) free written
        (leader_of_joined nonzero)
    · rfl
    · exact update_online hosting _
  · exact Step.refl _ _
  · rcases search : getParty world.partyArray host with _ | entry
    · exact Step.refl _ _
    obtain ⟨index, party⟩ := entry
    obtain ⟨there, led⟩ := get_party_some _ _ _ search
    simp only
    split_ifs with invited
    · exact Step.refl _ _
    constructor
    · exact .reinvited index party _ there (led ▸ nonzero)
        (Or.inr (by simp)) rfl rfl
    · rfl
    · exact fun _ => rfl
  · exact Step.refl _ _

theorem revoke_invitation_step (host guest : UInt32) :
    Step False world (revokeInvitation world host guest) := by
  unfold revokeInvitation
  rcases hosting : world.players host with _ | hostPlayer
  · exact Step.refl _ _
  have nonzero := sound.nonzero hosting
  simp only
  split_ifs with leads
  · exact Step.refl _ _
  rcases search : getParty world.partyArray host with _ | entry
  · exact Step.refl _ _
  obtain ⟨index, party⟩ := entry
  obtain ⟨there, rfl⟩ := get_party_some _ _ _ search
  have listed := sound.agrees.listed index party there nonzero
  have nodup := sound.agrees.nodup index party there nonzero
  have some_ := length_pos_of_mem (sound.agrees.led index party there nonzero)
  simp only
  split_ifs with missing lonely
  · exact Step.refl _ _
  · -- the emptied party is found again under its leader and disbanded
    let emptied : Party := { party with
      invitedPlayer := party.invitedPlayer.eraseIdx
        (party.invitedPlayer.findIdx (· == guest)) }
    have agrees := sound.agrees.reinvite there nonzero emptied.invitedPlayer
    have found : getParty (world.partyArray.set index emptied) party.leader =
        some (index, emptied) :=
      get_party_active agrees index emptied
        (List.getElem?_set_self (List.getElem?_eq_some_iff.1 there).1) nonzero
    change Step False world
      (disbandParty { world with partyArray := world.partyArray.set index emptied }
        party.leader)
    simp only [disbandParty, found, set_set]
    constructor
    · exact .disbanded index party _ there nonzero rfl
        (leader_of_disbanded party.member nodup party.leader sound.started listed) rfl
    · rfl
    · exact for_members_online _ world.players party.member nodup
  · constructor
    · apply Effect.reinvited index party _ there nonzero _ rfl rfl
      by_contra lonely'
      rw [not_or, not_not] at lonely'
      apply lonely
      rw [lonely'.2]
      exact ⟨by omega, rfl⟩
    · rfl
    · exact fun _ => rfl

theorem join_party_step (guest host : UInt32) : Step False world (joinParty world guest host) := by
  unfold joinParty
  split_ifs with self
  · exact Step.refl _ _
  rcases visiting : world.players guest with _ | guestPlayer
  · exact Step.refl _ _
  rcases hosting : world.players host with _ | hostPlayer
  · exact Step.refl _ _
  have nonzero := sound.nonzero hosting
  simp only
  split_ifs with taken
  · exact Step.refl _ _
  have alone := no_leader visiting (not_not.1 taken)
  rcases search : getParty world.partyArray host with _ | entry
  · exact Step.refl _ _
  obtain ⟨index, party⟩ := entry
  obtain ⟨there, led⟩ := get_party_some _ _ _ search
  simp only
  split_ifs with missing
  · exact Step.refl _ _
  constructor
  · have leaders := @leader_of_joined world.players guestPlayer guest host nonzero
    rw [← led] at leaders nonzero
    exact .joined index party guest _ there nonzero alone (led ▸ leaders) rfl
  · rfl
  · exact update_online visiting _

theorem pass_leadership_step (oldLeader newLeader : UInt32) :
    Step False world (passLeadership world oldLeader newLeader) := by
  unfold passLeadership
  split_ifs with self
  · exact Step.refl _ _
  rcases leading : world.players oldLeader with _ | oldPlayer
  · exact Step.refl _ _
  rcases following : world.players newLeader with _ | newPlayer
  · exact Step.refl _ _
  have nonzero := sound.nonzero leading
  have nonzero' := sound.nonzero following
  simp only
  split_ifs with leads follows
  · exact Step.refl _ _
  · exact Step.refl _ _
  · have member := current_leader following (not_not.1 follows) nonzero
    rcases search : getParty world.partyArray oldLeader with _ | entry
    · exact Step.refl _ _
    obtain ⟨index, party⟩ := entry
    obtain ⟨there, rfl⟩ := get_party_some _ _ _ search
    have nodup := sound.agrees.nodup index party there nonzero
    constructor
    · exact .passed index party newLeader there nonzero nonzero' member self
        (leader_of_passed party.member nodup party.leader newLeader nonzero'
          (sound.agrees.listed index party there nonzero)) rfl
    · rfl
    · exact for_members_online _ world.players party.member nodup

/-- The leadership of a party found at its entry goes to another member of it. -/
theorem pass_leadership_spec (index : Nat) (party : Party)
    (there : world.partyArray[index]? = some party) (active : party.leader ≠ 0) (newLeader : UInt32)
    (member : newLeader ∈ party.member) (different : party.leader ≠ newLeader) :
    passLeadership world party.leader newLeader =
      { world with
        players := forMembers (·.joinParty newLeader) world.players party.member
        partyArray := world.partyArray.set index
          { party with leader := newLeader, invitedPlayer := [] } } := by
  have listed := sound.agrees.listed index party there active
  have search := get_party_active sound.agrees index party there active
  have leads := (listed party.leader).1 (sound.agrees.led index party there active)
  have follows := (listed newLeader).1 member
  obtain ⟨oldPlayer, leading, _⟩ := (leader_of_iff _ _ _).1 leads
  obtain ⟨newPlayer, following, _⟩ := (leader_of_iff _ _ _).1 follows
  have leads' := @follows_current _ _ _ _ world.roundNr leading leads
  have follows' := @follows_current _ _ _ _ world.roundNr following follows
  simp [passLeadership, different, leading, following, leads', follows', search]

end

theorem remove_member_spec (world : Parties) (index : Nat) (party : Party)
    (there : world.partyArray[index]? = some party) (member : UInt32) (player : Player)
    (found : world.players member = some player) (inside : member ∈ party.member) :
    removeMember world index member =
      { world with
        players := update world.players member (some (player.leaveParty world.roundNr))
        partyArray := world.partyArray.set index
          { party with member := party.member.erase member } } := by
  have short : party.member.findIdx (· == member) < party.member.length :=
    findIdx_lt_length_of_exists ⟨member, inside, by simp⟩
  have same : party.member.eraseIdx (party.member.findIdx (· == member)) =
      party.member.erase member := eraseIdx_idxOf_eq_erase member party.member
  simp only [removeMember, there, found, if_neg (Nat.not_le.2 short), same]

theorem remove_member_step (sound : Sound world) (index : Nat) (party : Party)
    (there : world.partyArray[index]? = some party) (active : party.leader ≠ 0) (member : UInt32)
    (different : member ≠ party.leader) (follows : leaderOf world.players member = some party.leader)
    (lively : strands ∨ 3 ≤ party.member.length ∨ party.invitedPlayer ≠ []) :
    Step strands world (removeMember world index member) ∧
      leaderOf (removeMember world index member).players member = none := by
  have inside := (sound.agrees.listed index party there active member).2 follows
  obtain ⟨player, found, _⟩ := (leader_of_iff _ _ _).1 follows
  have leaders := @leader_of_left world.players player member world.roundNr sound.started
  rw [remove_member_spec world index party there member player found inside]
  constructor
  · constructor
    · exact .removed index party member there active different follows lively leaders rfl
    · rfl
    · exact update_online found _
  · simp only [leaders, update_self]

theorem next_leader_spec (party : Party) (member : UInt32) (nodup : party.member.Nodup)
    (two : 2 ≤ party.member.length) :
    nextLeader party member ∈ party.member ∧ member ≠ nextLeader party member := by
  match members : party.member with
  | [] => simp [members] at two
  | [only] => simp [members] at two
  | first :: second :: rest =>
    have distinct : first ≠ second := by
      rw [members] at nodup
      simp only [nodup_cons, mem_cons, not_or] at nodup
      exact nodup.1.1
    simp only [nextLeader, members, getD_cons_zero, getD_cons_succ]
    split_ifs with same
    · exact ⟨by simp, fun equal => distinct (same.trans equal)⟩
    · exact ⟨by simp, fun equal => same equal.symm⟩

/-- The leader of a party of two leaves while an invitation is open. -/
def StrandsMember (world : Parties) (member : UInt32) (forced : Bool) : Prop :=
  ∃ player, world.players member = some player ∧
    ¬ (forced = false ∧ world.roundNr < player.earliestLogoutRound) ∧
    ∃ (index : Nat) (party : Party), world.partyArray[index]? = some party ∧
      party.leader = member ∧ party.member.length = 2 ∧ party.invitedPlayer ≠ []

theorem leader_leaves (sound : Sound world) (index : Nat) (party : Party)
    (there : world.partyArray[index]? = some party) (active : party.leader ≠ 0)
    (two : 2 ≤ party.member.length) (lively : strands ∨ 3 ≤ party.member.length) :
    ∃ between, between = passLeadership world party.leader (nextLeader party party.leader) ∧
      Step False world between ∧ Step strands between (removeMember between index party.leader) ∧
      leaderOf (removeMember between index party.leader).players party.leader = none := by
  have nodup := sound.agrees.nodup index party there active
  obtain ⟨member, different⟩ := next_leader_spec party party.leader nodup two
  have step := pass_leadership_step sound party.leader (nextLeader party party.leader)
  have after := step.sound sound
  have spec := pass_leadership_spec sound index party there active _ member different
  have listed := sound.agrees.listed index party there active
  have here : (passLeadership world party.leader (nextLeader party party.leader)).partyArray[index]? =
      some { party with leader := nextLeader party party.leader, invitedPlayer := [] } := by
    rw [spec]
    exact List.getElem?_set_self (List.getElem?_eq_some_iff.1 there).1
  have nonzero : nextLeader party party.leader ≠ 0 := by
    obtain ⟨player, found, _⟩ := (leader_of_iff _ _ _).1 ((listed _).1 member)
    exact sound.nonzero found
  have follows := (after.agrees.listed index _ here nonzero party.leader).1
    (sound.agrees.led index party there active)
  obtain ⟨removed, gone⟩ := remove_member_step after index _ here nonzero party.leader different
    follows (lively.imp_right Or.inl)
  exact ⟨_, rfl, step, removed, gone⟩

/-- Leaving is at most two changes; only the leader of a party of two with an open
invitation strands the other member. A forced leaver is out. -/
theorem leave_party_steps (sound : Sound world) (member : UInt32) (forced : Bool) :
    (∃ between, Step False world between ∧
      Step (StrandsMember world member forced) between (leaveParty world member forced)) ∧
    (forced = true → leaderOf (leaveParty world member forced).players member = none) := by
  have stays : leaveParty world member forced = world →
      (∃ between, Step False world between ∧
        Step (StrandsMember world member forced) between (leaveParty world member forced)) := by
    intro same
    rw [same]
    exact ⟨world, Step.refl _ _, Step.refl _ _⟩
  rcases found : world.players member with _ | player
  · have same : leaveParty world member forced = world := by simp only [leaveParty, found]
    refine ⟨stays same, fun _ => ?_⟩
    rw [same]
    simp [leaderOf, found]
  by_cases outside : player.getPartyLeader world.roundNr false = 0
  · have same : leaveParty world member forced = world := by
      simp only [leaveParty, found, if_pos outside]
    refine ⟨stays same, fun _ => ?_⟩
    rw [same]
    rcases follows : leaderOf world.players member with _ | leader
    · rfl
    have current := @follows_current _ _ _ _ world.roundNr found follows
    obtain ⟨_, _, _, _, nonzero⟩ := (leader_of_iff _ _ _).1 follows
    exact absurd (current.symm.trans outside) nonzero
  by_cases refused : forced = false ∧ world.roundNr < player.earliestLogoutRound
  · have same : leaveParty world member forced = world := by
      simp only [leaveParty, found, if_neg outside, if_pos refused]
    refine ⟨stays same, fun free => ?_⟩
    rw [refused.1] at free
    cases free
  have follows := current_leader found rfl outside
  obtain ⟨_, index, party, there, led⟩ := sound.agrees.covered member _ follows
  have active : party.leader ≠ 0 := led.symm ▸ outside
  have search := get_party_active sound.agrees index party there active
  have inside := (sound.agrees.listed index party there active member).2 (led ▸ follows)
  have some_ := length_pos_of_mem inside
  rw [led] at search
  simp only [leaveParty, found, if_neg outside, if_neg refused, search]
  split_ifs with alone leads
  · -- one member, or two and no invitation
    rw [← led] at search ⊢
    have step := @disband_party_spec (StrandsMember world member forced) world sound index
      party search active
    refine ⟨⟨world, Step.refl _ _, step⟩, fun _ => ?_⟩
    have nodup := sound.agrees.nodup index party there active
    have leaders := leader_of_disbanded party.member nodup party.leader sound.started
      (sound.agrees.listed index party there active)
    simp only [disbandParty, search, leaders, relead]
    rw [if_pos (led ▸ follows)]
  · have leader : party.leader = member := led.trans leads
    subst leader
    have lively : StrandsMember world party.leader forced ∨ 3 ≤ party.member.length := by
      by_cases three : 3 ≤ party.member.length
      · exact Or.inr three
      left
      rw [not_or, not_and] at alone
      have two : party.member.length = 2 := by omega
      refine ⟨player, found, refused, index, party, there, rfl, two, ?_⟩
      intro none
      exact alone.2 two (by simp [none])
    obtain ⟨between, rfl, first, second, gone⟩ := leader_leaves sound index party there
      active (by omega) lively
    exact ⟨⟨_, first, second⟩, fun _ => gone⟩
  · have different : member ≠ party.leader := fun same => leads (led.symm.trans same.symm)
    have lively : StrandsMember world member forced ∨ 3 ≤ party.member.length ∨
        party.invitedPlayer ≠ [] := by
      right
      by_cases three : 3 ≤ party.member.length
      · exact Or.inl three
      right
      intro none
      rw [not_or, not_and] at alone
      exact alone.2 (by omega) (by simp [none])
    obtain ⟨step, gone⟩ := remove_member_step sound index party there active member
      different (led ▸ follows) lively
    exact ⟨⟨world, Step.refl _ _, step⟩, fun _ => gone⟩

end Steps

end TibiaGame.PartySteps
