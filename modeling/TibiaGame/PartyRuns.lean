import TibiaGame.PartySteps

/-!
# Runs of party operations

Requests of any players in any order, with players that come and go. Both
records of membership always agree. A party may be left with one member and no
invitation, and only in one way.
-/

namespace TibiaGame.PartyRuns

open PartyModel PartyAgreement PartySteps Function

section Consistency

variable {world : Parties}

theorem leader_of_gone (players : UInt32 → Option Player) (id : UInt32)
    (alone : leaderOf players id = none) : leaderOf (update players id none) = leaderOf players := by
  funext other
  by_cases same : other = id
  · rw [same, alone]
    simp [leaderOf]
  · simp [leaderOf, same]

theorem login_sound (sound : Sound world) (id : UInt32) (nonzero : id ≠ 0) :
    Sound (login world id) := by
  unfold login
  cases found : world.players id with
  | some player => exact sound
  | none =>
    have leaders : leaderOf (update world.players id (some ⟨0, 0, 0⟩)) =
        leaderOf world.players := by
      funext other
      by_cases same : other = id
      · simp [leaderOf, same, found]
      · simp [leaderOf, same]
    constructor
    · exact leaders ▸ sound.agrees
    · exact sound.started
    · exact (update_of_ne (Ne.symm nonzero) _ _).trans sound.nobody

/-- What a player who is not forced to leave anything leaves behind. -/
theorem logout_spec (sound : Sound world) (id : UInt32) :
    ∃ between, Sound between ∧ leaderOf between.players id = none ∧
      (between = world ∨ between = leaveParty world id true) ∧
      logout world id = { between with players := update between.players id none } := by
  unfold logout
  rcases found : world.players id with _ | player
  · refine ⟨world, sound, by simp [leaderOf, found], Or.inl rfl, ?_⟩
    have same : update world.players id none = world.players := by
      rw [← found, update_eq_self]
    simp only [same]
  simp only
  obtain ⟨⟨between, first, second⟩, gone⟩ := leave_party_steps sound id true
  split_ifs with inParty
  · exact ⟨_, second.sound (first.sound sound), gone rfl, Or.inr rfl, rfl⟩
  refine ⟨world, sound, ?_, Or.inl rfl, rfl⟩
  rcases follows : leaderOf world.players id with _ | leader
  · rfl
  have current := @follows_current _ _ _ _ world.roundNr found follows
  obtain ⟨_, _, _, _, nonzero⟩ := (leader_of_iff _ _ _).1 follows
  exact absurd (current.symm.trans (not_not.1 inParty)) nonzero

theorem block_logout_leaders (players : UInt32 → Option Player) (id round : UInt32) :
    leaderOf (update players id ((players id).map fun player =>
      { player with earliestLogoutRound := round })) = leaderOf players := by
  funext other
  by_cases same : other = id
  · cases found : players id with
    | none => simp [leaderOf, same, found]
    | some player => simp [leaderOf, same, found]
  · simp [leaderOf, same]

theorem party_call_sound (sound : Sound world) (call : PartyCall) :
    Sound (partyCall world call) := by
  cases call with
  | inviteToParty host guest => exact (invite_to_party_step sound host guest).sound sound
  | revokeInvitation host guest => exact (revoke_invitation_step sound host guest).sound sound
  | joinParty guest host => exact (join_party_step sound guest host).sound sound
  | passLeadership old new => exact (pass_leadership_step sound old new).sound sound
  | leaveParty member forced =>
    obtain ⟨⟨between, first, second⟩, _⟩ := leave_party_steps sound member forced
    exact second.sound (first.sound sound)
  | disbandParty leader => exact (disband_party_step sound leader leader.2).sound sound
  | login id => exact login_sound sound id id.2
  | logout id =>
    obtain ⟨between, sound', alone, _, spec⟩ := logout_spec sound id
    simp only [partyCall, spec]
    constructor
    · rw [leader_of_gone between.players id alone]
      exact sound'.agrees
    · exact sound'.started
    · by_cases zero : (0 : UInt32) = id
      · simp [← zero]
      · simp [update_of_ne zero, sound'.nobody]
  | blockLogout id round =>
    constructor
    · exact (block_logout_leaders world.players id round) ▸ sound.agrees
    · exact sound.started
    · by_cases zero : (0 : UInt32) = id
      · simp [partyCall, ← zero, sound.nobody]
      · simp [partyCall, update_of_ne zero, sound.nobody]
  | round roundNr => exact ⟨sound.agrees, roundNr.2, sound.nobody⟩

theorem no_parties_sound : Sound noParties where
  agrees := by
    constructor <;> intros <;> simp_all [noParties, leaderOf]
  started := by decide
  nobody := rfl

theorem run_parties_sound (calls : List PartyCall) : Sound (runParties calls) := by
  induction calls using List.reverseRecOn with
  | nil => exact no_parties_sound
  | append_singleton calls call induction =>
    have next := party_call_sound induction call
    rwa [runParties, List.foldl_append]

/-- The member lists of active parties are disjoint and without repetition, each has
its leader, and they list exactly the players that have this leader and have not left. -/
structure Consistent (world : Parties) : Prop where
  disjoint : ∀ (index other : Nat) party party', world.partyArray[index]? = some party →
    world.partyArray[other]? = some party' → index ≠ other → party.leader ≠ 0 →
    party'.leader ≠ 0 → party.member.Disjoint party'.member
  nodup : ∀ (index : Nat) party, world.partyArray[index]? = some party → party.leader ≠ 0 →
    party.member.Nodup
  led : ∀ (index : Nat) party, world.partyArray[index]? = some party → party.leader ≠ 0 →
    party.leader ∈ party.member
  listed : ∀ id player leader, world.players id = some player → leader ≠ 0 →
    (player.partyLeader = leader ∧ player.partyLeavingRound = 0 ↔
      ∃ (index : Nat) (party : Party), world.partyArray[index]? = some party ∧
        party.leader = leader ∧ id ∈ party.member)
  online : ∀ (index : Nat) party, world.partyArray[index]? = some party → party.leader ≠ 0 →
    ∀ id ∈ party.member, (world.players id).isSome

theorem sound_consistent (sound : Sound world) : Consistent world := by
  have agrees := sound.agrees
  constructor
  · intro index other party party' found found' different active active' id member member'
    have follows := (agrees.listed index party found active id).1 member
    have follows' := (agrees.listed other party' found' active' id).1 member'
    rw [follows] at follows'
    exact different (agrees.distinct index other party party' found found' active
      (Option.some.inj follows'))
  · exact agrees.nodup
  · exact agrees.led
  · intro id player leader found nonzero
    constructor
    · intro ⟨same, now⟩
      have follows := (leader_of_iff world.players id leader).2 ⟨player, found, now, same, nonzero⟩
      obtain ⟨_, index, party, there, led⟩ := agrees.covered id leader follows
      refine ⟨index, party, there, led, ?_⟩
      exact (agrees.listed index party there (led ▸ nonzero) id).2 (led ▸ follows)
    intro ⟨index, party, there, led, member⟩
    have follows := (agrees.listed index party there (led ▸ nonzero) id).1 member
    obtain ⟨player', found', now, same, _⟩ := (leader_of_iff _ _ _).1 follows
    rw [found] at found'
    rw [Option.some.inj found']
    exact ⟨same.trans led, now⟩
  · intro index party found active id member
    have follows := (agrees.listed index party found active id).1 member
    obtain ⟨player, online, _⟩ := (leader_of_iff _ _ _).1 follows
    rw [online]
    rfl

/-- Whatever the players do, the table and the players name the same parties. -/
theorem parties_are_consistent (calls : List PartyCall) : Consistent (runParties calls) :=
  sound_consistent (run_parties_sound calls)

end Consistency

section Liveliness

variable {world : Parties}

/-- The call by which the leader of a party of two goes while an invitation is open. -/
def StrandsCall (world : Parties) : PartyCall → Prop
  | .leaveParty member forced => StrandsMember world member forced
  | .logout id => StrandsMember world id true
  | _ => False

theorem leave_party_lively (sound : Sound world) (member : UInt32) (forced : Bool)
    (kept : ¬ StrandsMember world member forced) (lively : Lively world.partyArray) :
    Lively (leaveParty world member forced).partyArray := by
  obtain ⟨⟨between, first, second⟩, _⟩ := leave_party_steps sound member forced
  have sound' := first.sound sound
  have lively' := first.effect.lively sound.agrees lively
  exact (second.effect.weaken kept).lively sound'.agrees lively'

theorem party_call_lively (sound : Sound world) (call : PartyCall)
    (kept : ¬ StrandsCall world call) (lively : Lively world.partyArray) :
    Lively (partyCall world call).partyArray := by
  cases call with
  | inviteToParty host guest =>
    exact (invite_to_party_step sound host guest).effect.lively sound.agrees lively
  | revokeInvitation host guest =>
    exact (revoke_invitation_step sound host guest).effect.lively sound.agrees lively
  | joinParty guest host =>
    exact (join_party_step sound guest host).effect.lively sound.agrees lively
  | passLeadership old new =>
    exact (pass_leadership_step sound old new).effect.lively sound.agrees lively
  | leaveParty member forced => exact leave_party_lively sound member forced kept lively
  | disbandParty leader =>
    exact (disband_party_step sound leader leader.2).effect.lively sound.agrees lively
  | login id =>
    simp only [partyCall, login]
    cases world.players id with
    | none => exact lively
    | some player => exact lively
  | logout id =>
    obtain ⟨between, _, _, origin, spec⟩ := logout_spec sound id
    simp only [partyCall, spec]
    rcases origin with same | left
    · exact same ▸ lively
    rw [left]
    exact leave_party_lively sound id true kept lively
  | blockLogout id round => exact lively
  | round roundNr => exact lively

/-- The leader who strands the other member leaves a party of one behind. -/
theorem strands_member (sound : Sound world) (member : UInt32) (forced : Bool)
    (strands : StrandsMember world member forced) :
    ¬ Lively (leaveParty world member forced).partyArray := by
  obtain ⟨player, found, free, index, party, there, rfl, two, invited⟩ := strands
  have active := sound.nonzero found
  have nodup := sound.agrees.nodup index party there active
  have inside := sound.agrees.led index party there active
  have follows := (sound.agrees.listed index party there active _).1 inside
  have current := @follows_current _ _ _ _ world.roundNr found follows
  have search := get_party_active sound.agrees index party there active
  have stays : ¬ (party.member.length = 1 ∨
      (party.member.length = 2 ∧ party.invitedPlayer.length = 0)) := by
    intro ends
    rcases ends with one | none
    · omega
    · exact invited (List.length_eq_zero_iff.1 none.2)
  obtain ⟨next, different⟩ := next_leader_spec party party.leader nodup (by omega)
  have passed := pass_leadership_spec sound index party there active _ next different
  have here : (passLeadership world party.leader (nextLeader party party.leader)).partyArray[index]? =
      some { party with leader := nextLeader party party.leader, invitedPlayer := [] } := by
    rw [passed]
    exact List.getElem?_set_self (List.getElem?_eq_some_iff.1 there).1
  have step := pass_leadership_step sound party.leader (nextLeader party party.leader)
  obtain ⟨player', found'⟩ := Option.isSome_iff_exists.1 (step.online party.leader ▸ found ▸ rfl :
    ((passLeadership world party.leader (nextLeader party party.leader)).players
      party.leader).isSome = true)
  have removed := remove_member_spec _ index _ here party.leader player' found' inside
  intro lively
  simp only [leaveParty, found, current, if_neg active, if_neg free, search, if_neg stays,
    if_true] at lively
  rw [removed] at lively
  have nonzero : nextLeader party party.leader ≠ 0 := by
    obtain ⟨_, online, _⟩ := (leader_of_iff _ _ _).1
      ((sound.agrees.listed index party there active _).1 next)
    exact sound.nonzero online
  have alone := lively index _
    (List.getElem?_set_self (List.getElem?_eq_some_iff.1 here).1) nonzero
  have one : (party.member.erase party.leader).length = 1 := by
    rw [List.length_erase_of_mem inside, two]
  simp [one] at alone

theorem strands_call (sound : Sound world) (call : PartyCall) (strands : StrandsCall world call) :
    ¬ Lively (partyCall world call).partyArray := by
  cases call with
  | leaveParty member forced => exact strands_member sound member forced strands
  | logout id =>
    obtain ⟨between, _, alone, origin, spec⟩ := logout_spec sound id
    simp only [partyCall, spec]
    rcases origin with same | left
    · obtain ⟨player, found, _, index, party, there, rfl, _⟩ := strands
      have active := sound.nonzero found
      have follows := sound.agrees.leader_follows there active
      rw [same, follows] at alone
      cases alone
    rw [left]
    exact strands_member sound id true strands
  | inviteToParty host guest => exact strands.elim
  | revokeInvitation host guest => exact strands.elim
  | joinParty guest host => exact strands.elim
  | passLeadership old new => exact strands.elim
  | disbandParty leader => exact strands.elim
  | login id => exact strands.elim
  | blockLogout id round => exact strands.elim
  | round roundNr => exact strands.elim

theorem no_parties_lively : Lively noParties.partyArray := by
  intro index party found
  simp [noParties] at found

/-- After every call of a run each active party has two members or an invitation if
and only if no call of the run strands a member. -/
theorem no_empty_party_iff (calls : List PartyCall) :
    (∀ earlier later, calls = earlier ++ later → Lively (runParties earlier).partyArray) ↔
      ∀ earlier call later, calls = earlier ++ call :: later →
        ¬ StrandsCall (runParties earlier) call := by
  have snoc : ∀ earlier call, runParties (earlier ++ [call]) =
      partyCall (runParties earlier) call := by
    intro earlier call
    rw [runParties, List.foldl_append]
    rfl
  constructor
  · intro lively earlier call later split strands
    apply strands_call (run_parties_sound earlier) call strands
    rw [← snoc]
    exact lively (earlier ++ [call]) later (by simp [split])
  · intro kept earlier
    induction earlier using List.reverseRecOn with
    | nil => exact fun _ _ => no_parties_lively
    | append_singleton earlier call induction =>
      intro later split
      rw [snoc]
      have before := induction (call :: later) (by simp [split])
      exact party_call_lively (run_parties_sound earlier) call
        (kept earlier call later (by simp [split])) before

/-- Player 1 has joined with player 2 and invited player 3, then leaves: player 2 stays
alone in a party without invitations. -/
theorem leader_leaves_one_behind :
    ¬ Lively (runParties [.login ⟨1, by decide⟩, .login ⟨2, by decide⟩, .login ⟨3, by decide⟩,
      .inviteToParty 1 2, .joinParty 2 1, .inviteToParty 1 3, .leaveParty 1 false]).partyArray := by
  intro lively
  have alone := lively 0 ⟨2, [2], []⟩ (by decide) (by decide)
  simp at alone

end Liveliness

end TibiaGame.PartyRuns
