import Mathlib.Tactic
import TibiaGame.CoinChange

/-!
# Shares of experience

A creature keeps the last twenty of its attackers with the damage that they did, and beside them
the damage of all attackers. When it dies its experience points go to the attackers in the
shares of their damage. From `combat.cpp`.
-/

namespace TibiaGame.ExperienceShares

open Function

structure CombatEntry where
  id : UInt32
  damage : UInt32
  timeStamp : UInt32
  deriving DecidableEq

/-- The fields of a `TCombat` that the list of attackers consists of. -/
structure Combat where
  combatDamage : UInt32
  actCombatEntry : Fin 20
  combatList : Fin 20 → CombatEntry

def newCombat : Combat where
  combatDamage := 0
  actCombatEntry := 0
  combatList := fun _ => ⟨0, 0, 0⟩

def Combat.find (combat : Combat) (attacker : UInt32) : Option (Fin 20) :=
  (List.finRange 20).find? fun entry => (combat.combatList entry).id == attacker

def nextEntry (entry : Fin 20) : Fin 20 := if h : entry.val + 1 < 20 then ⟨entry.val + 1, h⟩ else 0

def Combat.addDamageToCombatList (combat : Combat) (roundNr attacker damage : UInt32) : Combat :=
  match combat.find attacker with
  | some entry => { combat with
      combatDamage := combat.combatDamage + damage
      combatList := Function.update combat.combatList entry { combat.combatList entry with
        damage := (combat.combatList entry).damage + damage
        timeStamp := roundNr } }
  | none => { combat with
      combatDamage := combat.combatDamage + damage
      combatList :=
        Function.update combat.combatList combat.actCombatEntry ⟨attacker, damage, roundNr⟩
      actCombatEntry := nextEntry combat.actCombatEntry }

/-- What `DistributeExperiencePoints` reads of a creature: `level` is its `SKILL_LEVEL`, `soul` the
value of its soul timer, and `partyLeader` and `promoted` are those of a player. -/
structure Creature where
  isDead : Bool
  isPlayer : Bool
  level : Int32
  soul : Int32
  partyLeader : UInt32
  promoted : Bool
  deriving DecidableEq

structure SoulTimer where
  cycle : Int32
  count : Int32
  maxCount : Int32
  deriving DecidableEq

/-- The calls for one attacker: the amount for `Increase`, and the timer that starts. -/
structure Award where
  attackerID : UInt32
  amount : Int32
  soulTimer : Option SoulTimer
  deriving DecidableEq

def getCreature (creatures : UInt32 → Option Creature) (creatureID : UInt32) : Option Creature :=
  if creatureID = 0 then none else creatures creatureID

def inPartyWith (player other : Creature) : Bool :=
  player.partyLeader != 0 && player.partyLeader == other.partyLeader

def duelAmount (master attacker : Creature) (amount : Int32) : Option Int32 :=
  if inPartyWith master attacker then none
  else
    let maxLevel := master.level * 11 / 10
    if attacker.level ≥ maxLevel then none
    else some ((maxLevel - attacker.level) * amount / master.level)

def startedTimer (attacker : Creature) (amount : Int32) : Option SoulTimer :=
  if attacker.isPlayer && decide (amount ≥ attacker.level) then
    let interval : Int32 := if attacker.promoted then 15 else 120
    let count := attacker.soul % interval
    some ⟨240 / interval, if count = 0 then interval else count, interval⟩
  else none

def Combat.share (combat : Combat) (exp : UInt32) (entry : Fin 20) : Int32 :=
  (exp * (combat.combatList entry).damage / combat.combatDamage).toInt32

def Combat.award (combat : Combat) (creatures : UInt32 → Option Creature) (master : Creature)
    (exp : UInt32) (entry : Fin 20) : Option Award :=
  let id := (combat.combatList entry).id
  match getCreature creatures id with
  | none => none
  | some attacker =>
      if attacker.isDead then none
      else
        let share := combat.share exp entry
        let amount :=
          if master.isPlayer && attacker.isPlayer then duelAmount master attacker share
          else some share
        match amount with
        | none => none
        | some amount =>
            if amount > 0 then some ⟨id, amount, startedTimer attacker amount⟩ else none

/-- An award changes only the attacker, who has no other entry. -/
def Combat.distributeExperiencePoints (combat : Combat) (creatures : UInt32 → Option Creature)
    (master : Creature) (exp : UInt32) : List Award :=
  if combat.combatDamage = 0 then []
  else (List.finRange 20).filterMap (combat.award creatures master exp)

structure Hit where
  round : UInt32
  attacker : UInt32
  damage : UInt32
  deriving DecidableEq

def Combat.suffer (combat : Combat) (hits : List Hit) : Combat :=
  hits.foldl (fun combat hit => combat.addDamageToCombatList hit.round hit.attacker hit.damage)
    combat

def sufferedDamage (hits : List Hit) : Nat := (hits.map fun hit => hit.damage.toNat).sum

def isDuel (master attacker : Creature) : Bool := master.isPlayer && attacker.isPlayer

def given (awards : List Award) (attackerID : UInt32) : Int :=
  (awards.map fun award => if award.attackerID = attackerID then award.amount.toInt else 0).sum

/-- What is given to all attackers that are not players who have killed a player. -/
def totalGiven (creatures : UInt32 → Option Creature) (master : Creature) (awards : List Award) :
    Int :=
  (awards.map fun award =>
    if (getCreature creatures award.attackerID).all fun attacker => !isDuel master attacker then
      award.amount.toInt else 0).sum

structure Attacks (combat : Combat) (creatures : UInt32 → Option Creature) (master : Creature)
    (entry : Fin 20) (attacker : Creature) : Prop where
  known : getCreature creatures (combat.combatList entry).id = some attacker
  alive : attacker.isDead = false
  noDuel : isDuel master attacker = false

/-- The entries are for different attackers and do not have more than the damage of all, who get
their shares of the experience points, rounded down, and together not more than there are. -/
structure Shared (combat : Combat) (creatures : UInt32 → Option Creature) (master : Creature)
    (exp : UInt32) : Prop where
  distinct : ∀ entry other, (combat.combatList entry).id ≠ 0 →
    (combat.combatList entry).id = (combat.combatList other).id → entry = other
  covered : ∑ entry, (combat.combatList entry).damage.toNat ≤ combat.combatDamage.toNat
  shares : ∀ entry attacker, Attacks combat creatures master entry attacker →
    given (combat.distributeExperiencePoints creatures master exp)
        (combat.combatList entry).id =
      (exp.toNat * (combat.combatList entry).damage.toNat / combat.combatDamage.toNat : Nat)
  total : totalGiven creatures master
    (combat.distributeExperiencePoints creatures master exp) ≤ exp.toNat

variable {combat : Combat} {creatures : UInt32 → Option Creature} {master attacker : Creature}
  {exp : UInt32} {entry other : Fin 20} {hits : List Hit} {hit : Hit} {suffered : Nat}

/-- The list after hits with the damage `suffered`. -/
structure Recorded (combat : Combat) (suffered : Nat) : Prop where
  distinct : ∀ entry other, (combat.combatList entry).id ≠ 0 →
    (combat.combatList entry).id = (combat.combatList other).id → entry = other
  counted : combat.combatDamage.toNat = suffered
  covered : ∑ entry, (combat.combatList entry).damage.toNat ≤ suffered

theorem new_recorded : Recorded newCombat 0 where
  distinct := fun _ _ someone => (someone rfl).elim
  counted := rfl
  covered := by simp [newCombat]

theorem sum_written (entry : Fin 20) (list : Fin 20 → CombatEntry) (written : CombatEntry) :
    ∑ place, (update list entry written place).damage.toNat + (list entry).damage.toNat =
      ∑ place, (list place).damage.toNat + written.damage.toNat := by
  rw [← Finset.add_sum_erase Finset.univ _ (Finset.mem_univ entry),
    ← Finset.add_sum_erase Finset.univ (fun place => (list place).damage.toNat)
      (Finset.mem_univ entry), update_self]
  have others : ∑ place ∈ Finset.univ.erase entry,
      (update list entry written place).damage.toNat =
        ∑ place ∈ Finset.univ.erase entry, (list place).damage.toNat := by
    apply Finset.sum_congr rfl
    intro place inside
    rw [update_of_ne (Finset.ne_of_mem_erase inside)]
  rw [others]
  omega

theorem find_none (missing : combat.find hit.attacker = none) :
    (combat.combatList entry).id ≠ hit.attacker := by
  have different := List.find?_eq_none.mp missing entry (List.mem_finRange entry)
  simpa using different

theorem find_some (found : combat.find hit.attacker = some entry) :
    (combat.combatList entry).id = hit.attacker := by
  have same := List.find?_some found
  simpa using same

/-- One hit: its attacker has the damage added, or takes the place of another attacker. -/
theorem add_recorded (recorded : Recorded combat suffered)
    (fits : suffered + hit.damage.toNat < 2 ^ 32) :
    Recorded (combat.addDamageToCombatList hit.round hit.attacker hit.damage)
      (suffered + hit.damage.toNat) := by
  have counted : (combat.combatDamage + hit.damage).toNat = suffered + hit.damage.toNat := by
    rw [UInt32.toNat_add, recorded.counted, Nat.mod_eq_of_lt fits]
  have covered := recorded.covered
  rw [Combat.addDamageToCombatList]
  cases search : combat.find hit.attacker with
  | some place =>
    have here := find_some search
    have own : (combat.combatList place).damage.toNat ≤ suffered :=
      (Finset.single_le_sum (fun _ _ => Nat.zero_le _) (Finset.mem_univ place)).trans covered
    have added : ((combat.combatList place).damage + hit.damage).toNat =
        (combat.combatList place).damage.toNat + hit.damage.toNat := by
      rw [UInt32.toNat_add, Nat.mod_eq_of_lt (by omega)]
    have sameIDs : ∀ node, (update combat.combatList place
        { combat.combatList place with
          damage := (combat.combatList place).damage + hit.damage
          timeStamp := hit.round } node).id = (combat.combatList node).id := by
      intro node
      by_cases isPlace : node = place
      · rw [isPlace, update_self]
      · rw [update_of_ne isPlace]
    refine ⟨?_, counted, ?_⟩
    · intro first second
      dsimp only
      rw [sameIDs, sameIDs]
      exact recorded.distinct first second
    have written := sum_written place combat.combatList
      { combat.combatList place with
        damage := (combat.combatList place).damage + hit.damage
        timeStamp := hit.round }
    dsimp only at written ⊢
    rw [added] at written
    omega
  | none =>
    refine ⟨?_, counted, ?_⟩
    · intro first second
      dsimp only
      by_cases isFirst : first = combat.actCombatEntry
      · by_cases isSecond : second = combat.actCombatEntry
        · intro _ _
          rw [isFirst, isSecond]
        rw [isFirst, update_self, update_of_ne isSecond]
        exact fun _ same => absurd same.symm (find_none search)
      by_cases isSecond : second = combat.actCombatEntry
      · rw [isSecond, update_self, update_of_ne isFirst]
        exact fun _ same => absurd same (find_none search)
      rw [update_of_ne isFirst, update_of_ne isSecond]
      exact recorded.distinct first second
    have written := sum_written combat.actCombatEntry combat.combatList
      ⟨hit.attacker, hit.damage, hit.round⟩
    dsimp only at written ⊢
    omega

theorem suffer_recorded (recorded : Recorded combat suffered)
    (fits : suffered + sufferedDamage hits < 2 ^ 32) :
    Recorded (combat.suffer hits) (suffered + sufferedDamage hits) := by
  induction hits generalizing combat suffered with
  | nil => exact recorded
  | cons hit rest ih =>
    have split : sufferedDamage (hit :: rest) = hit.damage.toNat + sufferedDamage rest := rfl
    rw [split] at fits ⊢
    have first := add_recorded recorded (show suffered + hit.damage.toNat < 2 ^ 32 by omega)
    rw [← Nat.add_assoc]
    exact ih first (by omega)

/-- The product of the experience points and the damage of an attacker fits in 32 bits. -/
def Fits (combat : Combat) (exp : UInt32) (entry : Fin 20) : Prop :=
  exp.toNat * (combat.combatList entry).damage.toNat < 2 ^ 32

theorem Attacks.someone (attacks : Attacks combat creatures master entry attacker) :
    (combat.combatList entry).id ≠ 0 := by
  intro nobody
  have known := attacks.known
  rw [getCreature, if_pos nobody] at known
  cases known

def Combat.amount (combat : Combat) (creatures : UInt32 → Option Creature) (master : Creature)
    (exp : UInt32) (entry : Fin 20) : Int :=
  ((combat.award creatures master exp entry).map fun award => award.amount.toInt).getD 0

theorem award_id {award : Award} (awarded : combat.award creatures master exp entry = some award) :
    award.attackerID = (combat.combatList entry).id := by
  unfold Combat.award at awarded
  dsimp only at awarded
  repeat' split at awarded
  all_goals first
    | cases awarded; rfl
    | cases awarded

theorem sum_awards (awarded : Fin 20 → Option Award) (value : Award → Int) :
    (((List.finRange 20).filterMap awarded).map value).sum =
      ∑ entry, ((awarded entry).map value).getD 0 := by
  rw [Fin.sum_univ_def]
  induction List.finRange 20 with
  | nil => rfl
  | cons entry rest ih =>
    rw [List.map_cons, List.sum_cons, ← ih, List.filterMap_cons]
    cases awarded entry with
    | none => simp
    | some award => simp

/-- With distinct entries an attacker is given what its entry comes to. -/
theorem given_amount (recorded : Recorded combat suffered)
    (someone : (combat.combatList entry).id ≠ 0) (damage : combat.combatDamage ≠ 0) :
    given (combat.distributeExperiencePoints creatures master exp)
      (combat.combatList entry).id = combat.amount creatures master exp entry := by
  rw [given, Combat.distributeExperiencePoints, if_neg damage, sum_awards, Combat.amount,
    Finset.sum_eq_single entry]
  · rcases awarded : combat.award creatures master exp entry with _ | award
    · rfl
    rw [Option.map_some, Option.map_some, Option.getD_some, Option.getD_some,
      if_pos (award_id awarded)]
  · intro place _ different
    rcases awarded : combat.award creatures master exp place with _ | award
    · rfl
    rw [Option.map_some, Option.getD_some, if_neg]
    rw [award_id awarded]
    exact fun same => different (recorded.distinct entry place someone same.symm).symm
  · exact fun outside => absurd (Finset.mem_univ entry) outside

/-- An attacker of no duel is awarded the share, where it is more than nothing. -/
theorem amount_attacks (attacks : Attacks combat creatures master entry attacker) :
    combat.amount creatures master exp entry =
      if combat.share exp entry > 0 then (combat.share exp entry).toInt else 0 := by
  have noDuel : ¬(master.isPlayer && attacker.isPlayer) = true := by
    rw [← isDuel, attacks.noDuel]
    exact Bool.false_ne_true
  rw [Combat.amount, Combat.award]
  simp only [attacks.known, attacks.alive, Bool.false_eq_true, if_false, if_neg noDuel]
  split_ifs <;> rfl

def wrappedShare (combat : Combat) (exp : UInt32) (entry : Fin 20) : Nat :=
  exp.toNat * (combat.combatList entry).damage.toNat % 2 ^ 32 / combat.combatDamage.toNat

theorem to_int_bmod (value : UInt32) : value.toInt32.toInt = Int.bmod value.toNat (2 ^ 32) := by
  exact BitVec.toInt_eq_toNat_bmod value.toBitVec

theorem share_value : (combat.share exp entry).toInt =
    Int.bmod (wrappedShare combat exp entry) (2 ^ 32) := by
  rw [Combat.share, to_int_bmod, UInt32.toNat_div, UInt32.toNat_mul]
  rfl

theorem amount_le (attacks : Attacks combat creatures master entry attacker) :
    combat.amount creatures master exp entry ≤ wrappedShare combat exp entry := by
  rw [amount_attacks attacks, share_value]
  split_ifs
  · rw [Int.bmod_def]
    split_ifs <;> omega
  · exact Int.natCast_nonneg _

theorem amount_fits (attacks : Attacks combat creatures master entry attacker)
    (fits : Fits combat exp entry) (few : exp.toNat < 2 ^ 31)
    (part : (combat.combatList entry).damage.toNat ≤ combat.combatDamage.toNat) :
    combat.amount creatures master exp entry =
      (exp.toNat * (combat.combatList entry).damage.toNat / combat.combatDamage.toNat : Nat) := by
  have exact_product : wrappedShare combat exp entry =
      exp.toNat * (combat.combatList entry).damage.toNat / combat.combatDamage.toNat := by
    rw [wrappedShare, Nat.mod_eq_of_lt fits]
  have atMost : wrappedShare combat exp entry ≤ exp.toNat := by
    rw [exact_product]
    exact Nat.div_le_of_le_mul (by
      rw [Nat.mul_comm combat.combatDamage.toNat]
      exact Nat.mul_le_mul_left _ part)
  have value : (combat.share exp entry).toInt = wrappedShare combat exp entry := by
    rw [share_value]
    apply Int.bmod_eq_of_le <;> omega
  rw [amount_attacks attacks, ← exact_product]
  split_ifs with positive
  · exact value
  · rw [gt_iff_lt, Int32.lt_iff_toInt_lt, value] at positive
    have nothing : (0 : Int32).toInt = 0 := rfl
    omega

theorem amount_wrapped (attacks : Attacks combat creatures master entry attacker)
    (wraps : ¬Fits combat exp entry) (damage : combat.combatDamage ≠ 0) :
    combat.amount creatures master exp entry ≠
      (exp.toNat * (combat.combatList entry).damage.toNat / combat.combatDamage.toNat : Nat) := by
  have positive : 0 < combat.combatDamage.toNat := by
    apply Nat.pos_of_ne_zero
    exact fun zero => damage (UInt32.toNat_inj.mp zero)
  have small := combat.combatDamage.toNat_lt
  have lower : combat.amount creatures master exp entry ≤ wrappedShare combat exp entry :=
    amount_le attacks
  rw [Fits] at wraps
  generalize product_eq : exp.toNat * (combat.combatList entry).damage.toNat = product at *
  have below : product % 2 ^ 32 + combat.combatDamage.toNat ≤ product := by omega
  have quotient := Nat.div_le_div_right (c := combat.combatDamage.toNat) below
  rw [Nat.add_div_right _ positive] at quotient
  rw [wrappedShare, product_eq] at lower
  omega

theorem floors_le (damages : Fin 20 → Nat) {total : Nat} (exp : Nat) (positive : 0 < total)
    (covered : ∑ entry, damages entry ≤ total) : ∑ entry, exp * damages entry / total ≤ exp := by
  apply Nat.le_of_mul_le_mul_left _ positive
  calc total * ∑ entry, exp * damages entry / total
      = ∑ entry, total * (exp * damages entry / total) := Finset.mul_sum _ _ _
    _ ≤ ∑ entry, exp * damages entry :=
        Finset.sum_le_sum fun entry _ => Nat.mul_div_le _ _
    _ = exp * ∑ entry, damages entry := (Finset.mul_sum _ _ _).symm
    _ ≤ exp * total := Nat.mul_le_mul_left _ covered
    _ = total * exp := Nat.mul_comm _ _

theorem part_le (recorded : Recorded combat suffered) (few : exp.toNat < 2 ^ 31)
    (fits : ∀ entry attacker, Attacks combat creatures master entry attacker →
      Fits combat exp entry) (entry : Fin 20) :
    ((combat.award creatures master exp entry).map fun award =>
        if (getCreature creatures award.attackerID).all fun attacker =>
          !isDuel master attacker then award.amount.toInt else 0).getD 0 ≤
      (exp.toNat * (combat.combatList entry).damage.toNat / combat.combatDamage.toNat : Nat) := by
  rcases awarded : combat.award creatures master exp entry with _ | award
  · exact Int.natCast_nonneg _
  rw [Option.map_some, Option.getD_some, award_id awarded]
  rcases known : getCreature creatures (combat.combatList entry).id with _ | attacker
  · unfold Combat.award at awarded
    simp only [known] at awarded
    cases awarded
  have alive : attacker.isDead = false := by
    by_contra dead
    unfold Combat.award at awarded
    simp only [known, if_pos (show attacker.isDead = true by simpa using dead)] at awarded
    cases awarded
  cases duel : isDuel master attacker with
  | true =>
    simp only [Option.all_some, duel, Bool.not_true, Bool.false_eq_true, if_false]
    exact Int.natCast_nonneg _
  | false =>
    have attacks : Attacks combat creatures master entry attacker := ⟨known, alive, duel⟩
    have part : (combat.combatList entry).damage.toNat ≤ combat.combatDamage.toNat := by
      rw [recorded.counted]
      exact (Finset.single_le_sum (fun _ _ => Nat.zero_le _)
        (Finset.mem_univ entry)).trans recorded.covered
    have amount := amount_fits attacks (fits entry attacker attacks) few part
    rw [Combat.amount, awarded, Option.map_some, Option.getD_some] at amount
    rw [Option.all_some, duel, if_pos Bool.not_false, amount]

theorem total_le (recorded : Recorded combat suffered) (few : exp.toNat < 2 ^ 31)
    (fits : ∀ entry attacker, Attacks combat creatures master entry attacker →
      Fits combat exp entry) :
    totalGiven creatures master (combat.distributeExperiencePoints creatures master exp) ≤
      exp.toNat := by
  rw [Combat.distributeExperiencePoints]
  split_ifs with nothing
  · exact Int.natCast_nonneg _
  rw [totalGiven, sum_awards]
  have positive : 0 < combat.combatDamage.toNat :=
    Nat.pos_of_ne_zero fun zero => nothing (UInt32.toNat_inj.mp zero)
  have covered : ∑ entry, (combat.combatList entry).damage.toNat ≤ combat.combatDamage.toNat := by
    rw [recorded.counted]
    exact recorded.covered
  have parts := Finset.sum_le_sum fun (entry : Fin 20) (_ : entry ∈ Finset.univ) =>
    part_le recorded few fits entry
  rw [← Nat.cast_sum] at parts
  have floors := floors_le (fun entry => (combat.combatList entry).damage.toNat) exp.toNat
    positive covered
  omega

/-- The experience points are shared as they should be where no product of them with the damage of
an attacker goes beyond 32 bits, and only there. -/
theorem experience_is_shared_iff (damage : sufferedDamage hits < 2 ^ 32) (few : exp.toNat < 2 ^ 31) :
    Shared (newCombat.suffer hits) creatures master exp ↔
      ∀ entry attacker, Attacks (newCombat.suffer hits) creatures master entry attacker →
        Fits (newCombat.suffer hits) exp entry := by
  have recorded := suffer_recorded new_recorded (show 0 + sufferedDamage hits < 2 ^ 32 by omega)
  generalize newCombat.suffer hits = combat at *
  have covered : ∑ entry, (combat.combatList entry).damage.toNat ≤ combat.combatDamage.toNat := by
    rw [recorded.counted]
    exact recorded.covered
  have part : ∀ entry, (combat.combatList entry).damage.toNat ≤ combat.combatDamage.toNat :=
    fun entry => (Finset.single_le_sum (fun _ _ => Nat.zero_le _) (Finset.mem_univ entry)).trans
      covered
  constructor
  · intro shared entry attacker attacks
    by_contra wraps
    have some_damage : combat.combatDamage ≠ 0 := by
      intro nothing
      apply wraps
      have none_here := part entry
      rw [nothing, show (0 : UInt32).toNat = 0 from rfl, Nat.le_zero] at none_here
      rw [Fits, none_here, Nat.mul_zero]
      decide
    have share := shared.shares entry attacker attacks
    rw [given_amount recorded attacks.someone some_damage] at share
    exact amount_wrapped attacks wraps some_damage share
  · intro fits
    refine ⟨recorded.distinct, covered, ?_, total_le recorded few fits⟩
    intro entry attacker attacks
    by_cases nothing : combat.combatDamage = 0
    · rw [Combat.distributeExperiencePoints, if_pos nothing, nothing,
        show (0 : UInt32).toNat = 0 from rfl, Nat.div_zero]
      rfl
    · rw [given_amount recorded attacks.someone nothing]
      exact amount_fits attacks (fits entry attacker attacks) few (part entry)

def veteran : Creature := ⟨true, true, 137, 0, 0, false⟩

def dragon : Creature := ⟨false, false, 50, 0, 0, false⟩

def creaturesNearby : UInt32 → Option Creature := fun id => if id = 7 then some dragon else none

theorem small_share_fits : Shared (newCombat.suffer [⟨1, 7, 100⟩]) creaturesNearby veteran 5000 := by
  apply (experience_is_shared_iff (by decide) (by decide)).mpr
  intro entry attacker _
  have fits : ∀ entry, (5000 : UInt32).toNat *
      ((newCombat.suffer [⟨1, 7, 100⟩]).combatList entry).damage.toNat < 2 ^ 32 := by decide
  exact fits entry

/-- With 2000000 points and 3000 of damage the product is above the 32 bits. -/
theorem large_share_wraps : ¬∀ (hits : List Hit) (creatures : UInt32 → Option Creature)
    (master : Creature) (exp : UInt32), (∀ hit ∈ hits, hit.attacker ≠ 0) →
    sufferedDamage hits < 2 ^ 31 → exp.toNat < 2 ^ 31 →
    Shared (newCombat.suffer hits) creatures master exp := by
  intro always
  have shared := always [⟨1, 7, 3000⟩] creaturesNearby veteran 2000000 (by decide) (by decide)
    (by decide)
  have share := shared.shares 0 dragon ⟨by decide, rfl, rfl⟩
  revert share
  decide

end TibiaGame.ExperienceShares
