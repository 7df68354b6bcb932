import TibiaGame.PartyModel

/-!
# The two records of party membership

A function from players to leaders says who is in whose party. The fields of the
players are one such function; the party table agrees with it. Every party
operation changes one entry of the table and the function in the same way.
-/

namespace TibiaGame.PartyAgreement

open PartyModel Function

/-- The leader of the party that a player is in, by the player's own fields. -/
def leaderOf (players : UInt32 → Option Player) (id : UInt32) : Option UInt32 :=
  (players id).bind fun player =>
    if player.partyLeavingRound = 0 ∧ player.partyLeader ≠ 0 then some player.partyLeader else none

/-- The table lists under every leader exactly the players that follow it. -/
structure Agrees (leader : UInt32 → Option UInt32) (partyArray : List Party) : Prop where
  nodup : ∀ (index : Nat) party, partyArray[index]? = some party → party.leader ≠ 0 →
    party.member.Nodup
  led : ∀ (index : Nat) party, partyArray[index]? = some party → party.leader ≠ 0 →
    party.leader ∈ party.member
  listed : ∀ (index : Nat) party, partyArray[index]? = some party → party.leader ≠ 0 →
    ∀ id, id ∈ party.member ↔ leader id = some party.leader
  covered : ∀ id number, leader id = some number →
    number ≠ 0 ∧ ∃ (index : Nat) (party : Party),
      partyArray[index]? = some party ∧ party.leader = number
  distinct : ∀ (index other : Nat) party party', partyArray[index]? = some party →
    partyArray[other]? = some party' → party.leader ≠ 0 → party.leader = party'.leader →
    index = other

structure Written (partyArray : List Party) (index : Nat) (party : Party) (after : List Party) :
    Prop where
  here : after[index]? = some party
  elsewhere : ∀ other, other ≠ index → after[other]? = partyArray[other]?

section Tables

variable {leader leader' : UInt32 → Option UInt32} {partyArray after : List Party} {index : Nat}
  {party old : Party}

theorem written_set (found : partyArray[index]? = some old) :
    Written partyArray index party (partyArray.set index party) where
  here := List.getElem?_set_self (List.getElem?_eq_some_iff.1 found).1
  elsewhere := fun _ distinct => List.getElem?_set_ne (Ne.symm distinct)

theorem written_append : Written partyArray partyArray.length party (partyArray ++ [party]) where
  here := by simp
  elsewhere := by
    intro other distinct
    rcases Nat.lt_or_ge other partyArray.length with inside | outside
    · exact List.getElem?_append_left inside
    rw [List.getElem?_eq_none outside, List.getElem?_eq_none]
    simp only [List.length_append, List.length_singleton]
    omega

section

variable (agrees : Agrees leader partyArray)
include agrees

theorem Agrees.leader_follows (found : partyArray[index]? = some party) (active : party.leader ≠ 0) :
    leader party.leader = some party.leader :=
  (agrees.listed index party found active party.leader).1 (agrees.led index party found active)

/-- An entry is written and the membership changed so that both still agree. -/
theorem Agrees.write (written : Written partyArray index party after)
    (others : ∀ (other : Nat) party', other ≠ index → partyArray[other]? = some party' →
      party'.leader ≠ 0 → party'.leader ≠ party.leader ∧
        ∀ id, leader' id = some party'.leader ↔ leader id = some party'.leader)
    (own : party.leader ≠ 0 → party.member.Nodup ∧ party.leader ∈ party.member ∧
      ∀ id, id ∈ party.member ↔ leader' id = some party.leader)
    (covered : ∀ id number, leader' id = some number → (number = party.leader ∧ number ≠ 0) ∨
      (leader id = some number ∧ ∀ old, partyArray[index]? = some old → old.leader ≠ number)) :
    Agrees leader' after := by
  have cases_of : ∀ (place : Nat) found, after[place]? = some found →
      (place = index ∧ found = party) ∨
        (place ≠ index ∧ partyArray[place]? = some found) := by
    intro place found value
    by_cases same : place = index
    · rw [same, written.here] at value
      exact Or.inl ⟨same, (Option.some.inj value).symm⟩
    rw [written.elsewhere place same] at value
    exact Or.inr ⟨same, value⟩
  constructor
  · intro place found value active
    rcases cases_of place found value with new | before
    · rw [new.2] at active ⊢
      exact (own active).1
    · exact agrees.nodup place found before.2 active
  · intro place found value active
    rcases cases_of place found value with new | before
    · rw [new.2] at active ⊢
      exact (own active).2.1
    · exact agrees.led place found before.2 active
  · intro place found value active id
    rcases cases_of place found value with new | before
    · rw [new.2] at active ⊢
      exact (own active).2.2 id
    rw [(others place found before.1 before.2 active).2 id]
    exact agrees.listed place found before.2 active id
  · intro id number follows
    rcases covered id number follows with new | before
    · exact ⟨new.2, index, party, written.here, new.1.symm⟩
    obtain ⟨nonzero, place, found, value, same⟩ := agrees.covered id number before.1
    have elsewhere : place ≠ index := by
      intro equal
      rw [equal] at value
      exact before.2 found value same
    exact ⟨nonzero, place, found, (written.elsewhere place elsewhere).trans value, same⟩
  · intro place other found found' value value' active same
    rcases cases_of place found value with new | before
    · rcases cases_of other found' value' with new' | before'
      · rw [new.1, new'.1]
      have active' : found'.leader ≠ 0 := same ▸ active
      have different := (others other found' before'.1 before'.2 active').1
      rw [new.2] at same
      exact absurd same.symm different
    rcases cases_of other found' value' with new' | before'
    · have different := (others place found before.1 before.2 active).1
      rw [new'.2] at same
      exact absurd same different
    · exact agrees.distinct place other found found' before.2 before'.2 active same

theorem Agrees.other_leader (found : partyArray[index]? = some old) (active : old.leader ≠ 0)
    (other : Nat) (party' : Party) (elsewhere : other ≠ index)
    (found' : partyArray[other]? = some party') : party'.leader ≠ old.leader := by
  intro same
  exact elsewhere (agrees.distinct index other old party' found found' active same.symm).symm

theorem Agrees.found_party (host guest : UInt32) (nonzero : host ≠ 0) (alone : leader host = none)
    (free : ∀ old, partyArray[index]? = some old → old.leader = 0)
    (written : Written partyArray index ⟨host, [host], [guest]⟩ after) :
    Agrees (update leader host (some host)) after := by
  apply agrees.write written
  · intro other party' elsewhere found active
    have different : party'.leader ≠ host := by
      intro same
      have follows := agrees.leader_follows found active
      rw [same, alone] at follows
      cases follows
    refine ⟨different, ?_⟩
    intro id
    by_cases same : id = host
    · rw [same, update_self, alone]
      simp [Ne.symm different]
    · rw [update_of_ne same]
  · intro _
    refine ⟨List.nodup_singleton _, List.mem_singleton_self _, ?_⟩
    intro id
    by_cases same : id = host
    · simp [same]
    have nobody : leader id ≠ some host := by
      intro follows
      obtain ⟨_, place, party', found, led⟩ := agrees.covered id host follows
      have own := agrees.leader_follows found (led ▸ nonzero)
      rw [led, alone] at own
      cases own
    simp [same, nobody]
  · intro id number follows
    by_cases same : id = host
    · rw [same, update_self] at follows
      have equal := Option.some.inj follows
      exact Or.inl ⟨equal.symm, equal ▸ nonzero⟩
    rw [update_of_ne same] at follows
    refine Or.inr ⟨follows, ?_⟩
    intro old found led
    exact (agrees.covered id number follows).1 (led ▸ free old found)

theorem Agrees.reinvite (found : partyArray[index]? = some old) (active : old.leader ≠ 0)
    (invited : List UInt32) :
    Agrees leader (partyArray.set index { old with invitedPlayer := invited }) := by
  apply agrees.write (written_set found)
  · intro other party' elsewhere found' _
    exact ⟨agrees.other_leader found active other party' elsewhere found', fun _ => Iff.rfl⟩
  · intro _
    exact ⟨agrees.nodup index old found active, agrees.led index old found active,
      agrees.listed index old found active⟩
  · intro id number follows
    by_cases same : number = old.leader
    · exact Or.inl ⟨same, same ▸ active⟩
    refine Or.inr ⟨follows, ?_⟩
    intro old' found' led
    rw [found] at found'
    exact same (Option.some.inj found' ▸ led.symm)

theorem Agrees.join (found : partyArray[index]? = some old) (active : old.leader ≠ 0)
    (guest : UInt32) (alone : leader guest = none) (invited : List UInt32) :
    Agrees (update leader guest (some old.leader)) (partyArray.set index
      { old with member := old.member ++ [guest], invitedPlayer := invited }) := by
  have outside : guest ∉ old.member := by
    intro member
    have follows := (agrees.listed index old found active guest).1 member
    rw [alone] at follows
    cases follows
  apply agrees.write (written_set found)
  · intro other party' elsewhere found' _
    have different := agrees.other_leader found active other party' elsewhere found'
    refine ⟨different, ?_⟩
    intro id
    by_cases same : id = guest
    · rw [same, update_self, alone]
      simp [Ne.symm different]
    · rw [update_of_ne same]
  · intro _
    refine ⟨?_, ?_, ?_⟩
    · apply List.nodup_append.2
      refine ⟨agrees.nodup index old found active, List.nodup_singleton _, ?_⟩
      intro member inside last new same
      rw [List.mem_singleton.1 new] at same
      exact outside (same ▸ inside)
    · exact List.mem_append_left _ (agrees.led index old found active)
    · intro id
      by_cases same : id = guest
      · simp [same]
      · simpa [same, update_of_ne same] using agrees.listed index old found active id
  · intro id number follows
    by_cases same : number = old.leader
    · exact Or.inl ⟨same, same ▸ active⟩
    right
    by_cases new : id = guest
    · rw [new, update_self] at follows
      exact absurd (Option.some.inj follows).symm same
    rw [update_of_ne new] at follows
    refine ⟨follows, ?_⟩
    intro old' found' led
    rw [found] at found'
    exact same (Option.some.inj found' ▸ led.symm)

end

/-- The followers of one leader, with a new leader or with none. -/
def relead (leader : UInt32 → Option UInt32) (old : UInt32) (new : Option UInt32) (id : UInt32) :
    Option UInt32 :=
  if leader id = some old then new else leader id

variable (agrees : Agrees leader partyArray) (found : partyArray[index]? = some old)
    (active : old.leader ≠ 0)
include agrees found active

theorem Agrees.pass (newLeader : UInt32) (nonzero : newLeader ≠ 0)
    (follows : leader newLeader = some old.leader) (different : old.leader ≠ newLeader) :
    Agrees (relead leader old.leader (some newLeader)) (partyArray.set index
      { old with leader := newLeader, invitedPlayer := [] }) := by
  have nobody : ∀ id, leader id ≠ some newLeader := by
    intro id same
    obtain ⟨_, place, party', found', led⟩ := agrees.covered id newLeader same
    have own := agrees.leader_follows found' (led ▸ nonzero)
    rw [led, follows] at own
    exact different (Option.some.inj own)
  apply agrees.write (written_set found)
  · intro other party' elsewhere found' active'
    have other_leader := agrees.other_leader found active other party' elsewhere found'
    have own := agrees.leader_follows found' active'
    have not_new : party'.leader ≠ newLeader := fun same => nobody _ (same ▸ own)
    refine ⟨not_new, ?_⟩
    intro id
    unfold relead
    split_ifs with member
    · rw [member]
      simp [Ne.symm not_new, Ne.symm other_leader]
    · exact Iff.rfl
  · intro _
    refine ⟨agrees.nodup index old found active, ?_, ?_⟩
    · exact (agrees.listed index old found active newLeader).2 follows
    intro id
    have listed := agrees.listed index old found active id
    unfold relead
    split_ifs with member
    · simpa using listed.2 member
    · exact iff_of_false (fun inside => member (listed.1 inside)) (nobody id)
  · intro id number follows'
    unfold relead at follows'
    split_ifs at follows' with member
    · have same := Option.some.inj follows'
      exact Or.inl ⟨same.symm, same ▸ nonzero⟩
    refine Or.inr ⟨follows', ?_⟩
    intro old' found' led
    rw [found] at found'
    rw [← Option.some.inj found'] at led
    exact member (led ▸ follows')

theorem Agrees.remove (member : UInt32) (different : member ≠ old.leader)
    (follows : leader member = some old.leader) :
    Agrees (update leader member none) (partyArray.set index
      { old with member := old.member.erase member }) := by
  have nodup := agrees.nodup index old found active
  apply agrees.write (written_set found)
  · intro other party' elsewhere found' _
    have other_leader := agrees.other_leader found active other party' elsewhere found'
    refine ⟨other_leader, ?_⟩
    intro id
    by_cases same : id = member
    · rw [same, update_self, follows]
      simp [Ne.symm other_leader]
    · rw [update_of_ne same]
  · intro _
    refine ⟨nodup.erase member, ?_, ?_⟩
    · exact (nodup.mem_erase_iff).2 ⟨Ne.symm different, agrees.led index old found active⟩
    intro id
    by_cases same : id = member
    · simp [same, nodup.mem_erase_iff]
    simpa [same, nodup.mem_erase_iff, update_of_ne same] using
      agrees.listed index old found active id
  · intro id number follows'
    by_cases same : id = member
    · rw [same, update_self] at follows'
      cases follows'
    rw [update_of_ne same] at follows'
    by_cases led : number = old.leader
    · exact Or.inl ⟨led, led ▸ active⟩
    refine Or.inr ⟨follows', ?_⟩
    intro old' found' led'
    rw [found] at found'
    exact led (Option.some.inj found' ▸ led'.symm)

theorem Agrees.disband (free : Party) (empty : free.leader = 0) :
    Agrees (relead leader old.leader none) (partyArray.set index free) := by
  apply agrees.write (written_set found)
  · intro other party' elsewhere found' active'
    have other_leader := agrees.other_leader found active other party' elsewhere found'
    refine ⟨empty ▸ active', ?_⟩
    intro id
    unfold relead
    split_ifs with member
    · rw [member]
      simp [Ne.symm other_leader]
    · exact Iff.rfl
  · intro used
    exact absurd empty used
  · intro id number follows
    unfold relead at follows
    split_ifs at follows with member
    refine Or.inr ⟨follows, ?_⟩
    intro old' found' led
    rw [found] at found'
    rw [← Option.some.inj found'] at led
    exact member (led ▸ follows)

end Tables

end TibiaGame.PartyAgreement
