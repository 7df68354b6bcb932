import Mathlib.Tactic
import TibiaGame.Library.Thresholds

/-!
# The level of a character

`SkillLevel` keeps the level, the experience points and the thresholds of this level and the
next one. Every change of the level is handed on to hit points, mana, speed and capacity.
-/

namespace TibiaGame.SkillLevels

open Library.Thresholds

/-- A sum in an `int`. -/
def int32 (value : Int) : Int := Int.bmod value (2 ^ 32)

/-- `SkillAdd`: a skill that grows by `AddLevel` with every level. -/
structure SkillAdd where
  act : Int
  max : Int
  addLevel : Int
  deriving DecidableEq

def SkillAdd.advance (skill : SkillAdd) (range : Int) : SkillAdd :=
  let increment := range * skill.addLevel
  let max := skill.max + increment
  let act := skill.act + increment
  { skill with act := if act > max then max else act, max := max }

/-- The skills of the creature that `SkillLevel::Jump` advances. -/
structure Master where
  hitpoints : SkillAdd
  mana : SkillAdd
  goStrength : SkillAdd
  carryStrength : SkillAdd
  deriving DecidableEq

def Master.advance (master : Master) (range : Int) : Master where
  hitpoints := master.hitpoints.advance range
  mana := master.mana.advance range
  goStrength := master.goStrength.advance range
  carryStrength := master.carryStrength.advance range

/-- `jumps` are the ranges that `Jump` was called with. -/
structure SkillLevel where
  act : Int
  exp : Int
  lastLevel : Int
  nextLevel : Int
  delta : Int
  master : Master
  jumps : List Int
  deriving DecidableEq

def SkillLevel.getExpForLevel (skill : SkillLevel) (level : Int) : Int :=
  if level < 1 then 0
  else if skill.delta ≤ 0 then 0
  else if level > 500 then -1
  else (((level - 6) * level + 17) * level - 12).tdiv 6 * skill.delta

def SkillLevel.jump (skill : SkillLevel) (range : Int) : SkillLevel :=
  { skill with master := skill.master.advance range, jumps := skill.jumps ++ [range] }

/-- The loop of `Increase`. -/
def SkillLevel.increaseLoop : Nat → SkillLevel → Int → Option (SkillLevel × Int)
  | 0, _, _ => none
  | fuel + 1, skill, range =>
      if skill.exp ≥ skill.nextLevel then
        let act := skill.act + 1
        let lastLevel := skill.nextLevel
        let nextLevel := skill.getExpForLevel (act + 1)
        if nextLevel < 0 then
          -- "Skill about to overflow": the loop is left before `Range` counts this level
          some ({ skill with
            act := act
            lastLevel := lastLevel
            nextLevel := skill.exp
            exp := skill.exp - 1000000 }, range)
        else
          increaseLoop fuel
            { skill with act := act, lastLevel := lastLevel, nextLevel := nextLevel } (range + 1)
      else some (skill, range)

/-- The loop of `Decrease`. -/
def SkillLevel.decreaseLoop : Nat → SkillLevel → Int → Option (SkillLevel × Int)
  | 0, _, _ => none
  | fuel + 1, skill, range =>
      if skill.exp < skill.lastLevel then
        let act := skill.act - 1
        let nextLevel := skill.lastLevel
        let lastLevel := skill.getExpForLevel act
        decreaseLoop fuel
          { skill with act := act, lastLevel := lastLevel, nextLevel := nextLevel } (range - 1)
      else some (skill, range)

def SkillLevel.finish (skill : SkillLevel) (range : Int) : SkillLevel :=
  if range ≠ 0 then skill.jump range else skill

def SkillLevel.increase (fuel : Nat) (skill : SkillLevel) (amount : Int32) : Option SkillLevel :=
  if amount.toInt < 0 then some skill
  else
    (increaseLoop fuel { skill with exp := int32 (skill.exp + amount.toInt) } 0).map fun done =>
      done.1.finish done.2

def SkillLevel.decrease (fuel : Nat) (skill : SkillLevel) (amount : Int32) : Option SkillLevel :=
  if amount.toInt < 0 then some skill
  else if amount.toInt > skill.exp ∧ skill.exp > 100000 then some skill
  else
    let exp := if amount.toInt < skill.exp then skill.exp - amount.toInt else 0
    (decreaseLoop fuel { skill with exp := exp } 0).map fun done => done.1.finish done.2

inductive Call where
  | increase (amount : Int32)
  | decrease (amount : Int32)
  deriving DecidableEq

def SkillLevel.call (fuel : Nat) (skill : SkillLevel) : Call → Option SkillLevel
  | .increase amount => skill.increase fuel amount
  | .decrease amount => skill.decrease fuel amount

def SkillLevel.run (fuel : Nat) (skill : SkillLevel) : List Call → Option SkillLevel
  | [] => some skill
  | call :: rest => (skill.call fuel call).bind fun after => after.run fuel rest

/-- The experience points alone: what a call adds or takes away. -/
def expAfter (exp : Int) : Call → Int
  | .increase amount => if amount.toInt < 0 then exp else exp + amount.toInt
  | .decrease amount =>
      if amount.toInt < 0 then exp
      else if amount.toInt > exp ∧ exp > 100000 then exp
      else if amount.toInt < exp then exp - amount.toInt else 0

def StaysBelow (limit : Int) : Int → List Call → Prop
  | _, [] => True
  | exp, call :: rest => expAfter exp call < limit ∧ StaysBelow limit (expAfter exp call) rest

/-- The thresholds are those of the level, and the experience points lie between them. -/
structure SkillLevel.Steady (skill : SkillLevel) : Prop where
  last : skill.lastLevel = skill.getExpForLevel skill.act
  next : skill.nextLevel = skill.getExpForLevel (skill.act + 1)
  reached : skill.lastLevel ≤ skill.exp
  short : skill.exp < skill.nextLevel

/-- The level of the same skill at another time: the thresholds are those of the level. -/
def SkillLevel.onLevel (skill : SkillLevel) (level : Int) : SkillLevel :=
  { skill with
    act := level
    lastLevel := skill.getExpForLevel level
    nextLevel := skill.getExpForLevel (level + 1) }

variable {skill after : SkillLevel} {level : Int}

section Thresholds

variable (positive : 0 < skill.delta)

include positive

theorem exp_for_level (low : 1 ≤ level) (high : level ≤ 500) :
    6 * skill.getExpForLevel level =
      (((level - 6) * level + 17) * level - 12) * skill.delta := by
  have divides : (6 : Int) ∣ ((level - 6) * level + 17) * level - 12 := by
    have cases : level % 6 = 0 ∨ level % 6 = 1 ∨ level % 6 = 2 ∨ level % 6 = 3 ∨ level % 6 = 4 ∨
        level % 6 = 5 := by omega
    apply Int.dvd_of_emod_eq_zero
    rcases cases with rest | rest | rest | rest | rest | rest <;>
      simp [Int.sub_emod, Int.add_emod, Int.mul_emod, rest]
  rw [SkillLevel.getExpForLevel, if_neg (by omega), if_neg (by omega), if_neg (by omega),
    ← Int.mul_assoc, Int.mul_tdiv_cancel' divides]

theorem exp_rises : RisingBetween skill.getExpForLevel 1 500 := by
  intro level low high
  have this := exp_for_level positive low (by omega)
  have next := exp_for_level positive (show 1 ≤ level + 1 by omega) (by omega)
  have more : 0 < (level * (level - 3) + 4) * skill.delta := by
    apply Int.mul_pos _ positive
    nlinarith only [sq_nonneg (2 * level - 3)]
  have difference : 6 * skill.getExpForLevel (level + 1) - 6 * skill.getExpForLevel level =
      3 * ((level * (level - 3) + 4) * skill.delta) := by
    rw [this, next]
    ring
  omega

theorem exp_first : skill.getExpForLevel 1 = 0 := by
  have first := exp_for_level positive (Int.le_refl 1) (by decide)
  omega

theorem exp_nonneg (low : 1 ≤ level) (high : level ≤ 500) : 0 ≤ skill.getExpForLevel level := by
  rw [← exp_first positive]
  exact (exp_rises positive).le (Int.le_refl 1) low high

theorem exp_limit (small : skill.delta ≤ 100) :
    1000000 ≤ skill.getExpForLevel 500 ∧ skill.getExpForLevel 500 < 2 ^ 31 := by
  have limit := exp_for_level positive (show 1 ≤ (500 : Int) by decide) (Int.le_refl 500)
  omega

end Thresholds

@[simp] theorem onLevel_act : (skill.onLevel level).act = level := rfl

@[simp] theorem onLevel_exp : (skill.onLevel level).exp = skill.exp := rfl

@[simp] theorem onLevel_last : (skill.onLevel level).lastLevel = skill.getExpForLevel level := rfl

@[simp] theorem onLevel_next :
    (skill.onLevel level).nextLevel = skill.getExpForLevel (level + 1) := rfl

@[simp] theorem onLevel_thresholds :
    (skill.onLevel level).getExpForLevel = skill.getExpForLevel := rfl

theorem SkillLevel.Steady.stands (steady : skill.Steady) :
    Stands skill.getExpForLevel skill.exp skill.act where
  reached := by
    rw [← steady.last]
    exact steady.reached
  short := by
    rw [← steady.next]
    exact steady.short

theorem SkillLevel.Steady.onLevel (steady : skill.Steady) : skill.onLevel skill.act = skill := by
  rw [SkillLevel.onLevel, ← steady.last, ← steady.next]

/-- Below the first level no threshold is missing, and above the limit every one is `-1`. -/
theorem SkillLevel.Steady.act_within (steady : skill.Steady) (positive : 0 < skill.delta) :
    1 ≤ skill.act ∧ skill.act < 500 := by
  have stands := steady.stands
  have reached := stands.reached
  have short := stands.short
  constructor
  · by_contra low
    have last : skill.getExpForLevel skill.act = 0 := by
      rw [SkillLevel.getExpForLevel, if_pos (by omega)]
    have next : skill.getExpForLevel (skill.act + 1) = 0 := by
      by_cases first : skill.act + 1 = 1
      · rw [first, exp_first positive]
      · rw [SkillLevel.getExpForLevel, if_pos (by omega)]
    omega
  by_contra high
  have next : skill.getExpForLevel (skill.act + 1) = -1 := by
    rw [SkillLevel.getExpForLevel, if_neg (by omega), if_neg (by omega), if_pos (by omega)]
  have last : -1 ≤ skill.getExpForLevel skill.act := by
    by_cases limit : skill.act = 500
    · have nonneg := exp_nonneg positive (show 1 ≤ (500 : Int) by decide) (Int.le_refl 500)
      rw [limit]
      omega
    · rw [SkillLevel.getExpForLevel, if_neg (by omega), if_neg (by omega), if_pos (by omega)]
  omega

section Loops

variable {fuel : Nat} {range : Int}

/-- Short of the limit the loop climbs to the level of the experience points. -/
theorem increaseLoop_climb (positive : 0 < skill.delta)
    (below : skill.exp < skill.getExpForLevel 500) (low : 1 ≤ level) (high : level < 500) :
    SkillLevel.increaseLoop fuel (skill.onLevel level) range =
      (climb skill.getExpForLevel skill.exp fuel level).map fun found =>
        (skill.onLevel found, range + (found - level)) := by
  induction fuel generalizing level range with
  | zero => rfl
  | succ fuel ih =>
    rw [SkillLevel.increaseLoop, climb, onLevel_exp, onLevel_next, onLevel_act,
      onLevel_thresholds]
    by_cases reached : skill.getExpForLevel (level + 1) ≤ skill.exp
    · have within : level + 1 < 500 := by
        by_contra limit
        rw [show level + 1 = 500 by omega] at reached
        omega
      have nonneg := exp_nonneg positive (show 1 ≤ level + 1 + 1 by omega) (by omega)
      rw [if_pos reached, if_pos reached, if_neg (Int.not_lt.mpr nonneg)]
      have rest := @ih (level + 1) (range + 1) (by omega) within
      apply Eq.trans rest
      congr 1
      funext found
      rw [show range + 1 + (found - (level + 1)) = range + (found - level) by omega]
    rw [if_neg reached, if_neg reached]
    simp only [Option.map_some, Int.sub_self, Int.add_zero]

/-- At the limit the loop is left on level 500, which it has not counted. -/
theorem increaseLoop_overflow (positive : 0 < skill.delta)
    (reached : skill.getExpForLevel 500 ≤ skill.exp) (low : 1 ≤ level) (high : level < 500)
    (enough : 499 - level < fuel) :
    SkillLevel.increaseLoop fuel (skill.onLevel level) range =
      some ({ skill with
        act := 500
        lastLevel := skill.getExpForLevel 500
        nextLevel := skill.exp
        exp := skill.exp - 1000000 }, range + (499 - level)) := by
  induction fuel generalizing level range with
  | zero => omega
  | succ fuel ih =>
    have passed : skill.getExpForLevel (level + 1) ≤ skill.exp := by
      have upTo := (exp_rises positive).le (show 1 ≤ level + 1 by omega)
        (show level + 1 ≤ 500 by omega) (Int.le_refl 500)
      omega
    rw [SkillLevel.increaseLoop, onLevel_exp, onLevel_next, onLevel_act, onLevel_thresholds,
      if_pos passed]
    by_cases last : level = 499
    · have negative : skill.getExpForLevel (499 + 1 + 1) < 0 := by
        rw [SkillLevel.getExpForLevel, if_neg (by decide), if_neg (by omega),
          if_pos (by decide)]
        decide
      rw [last, if_pos negative]
      simp only [SkillLevel.onLevel, Int.sub_self, Int.add_zero, Int.reduceAdd]
    have nonneg := exp_nonneg positive (show 1 ≤ level + 1 + 1 by omega) (by omega)
    rw [if_neg (Int.not_lt.mpr nonneg)]
    apply Eq.trans (@ih (level + 1) (range + 1) (by omega) (by omega) (by omega))
    rw [show range + 1 + (499 - (level + 1)) = range + (499 - level) by omega]

theorem decreaseLoop_descend :
    SkillLevel.decreaseLoop fuel (skill.onLevel level) range =
      (descend skill.getExpForLevel skill.exp fuel level).map fun found =>
        (skill.onLevel found, range + (found - level)) := by
  induction fuel generalizing level range with
  | zero => rfl
  | succ fuel ih =>
    rw [SkillLevel.decreaseLoop, descend, onLevel_exp, onLevel_last, onLevel_act,
      onLevel_thresholds]
    by_cases short : skill.exp < skill.getExpForLevel level
    · rw [if_pos short, if_pos short]
      have same : ({ skill.onLevel level with
          act := level - 1
          lastLevel := skill.getExpForLevel (level - 1)
          nextLevel := skill.getExpForLevel level } : SkillLevel) =
          skill.onLevel (level - 1) := by
        simp only [SkillLevel.onLevel, Int.sub_add_cancel]
      apply Eq.trans (congrArg (SkillLevel.decreaseLoop fuel · (range - 1)) same)
      rw [ih]
      congr 1
      funext found
      rw [show range - 1 + (found - (level - 1)) = range + (found - level) by omega]
    rw [if_neg short, if_neg short]
    simp only [Option.map_some, Int.sub_self, Int.add_zero]

end Loops

def SkillLevel.settle (skill : SkillLevel) (exp level : Int) : SkillLevel :=
  (({ skill with exp := exp } : SkillLevel).onLevel level).finish (level - skill.act)

/-- What a run keeps: the ranges add up to the change of the level, and the experience points
lie between the thresholds. -/
structure Consistent (before after : SkillLevel) : Prop where
  counted : after.jumps.sum - before.jumps.sum = after.act - before.act
  reached : after.lastLevel ≤ after.exp
  short : after.exp < after.nextLevel

section Points

variable {skill : SkillAdd} {master : Master} {first second : Int}

theorem SkillAdd.advance_add :
    (skill.advance first).advance second = skill.advance (first + second) := by
  unfold SkillAdd.advance
  simp only [Int.add_mul]
  congr 1
  · split_ifs <;> omega
  · omega

theorem SkillAdd.advance_zero (within : skill.act ≤ skill.max) : skill.advance 0 = skill := by
  unfold SkillAdd.advance
  simp only [Int.zero_mul, Int.add_zero, if_neg (Int.not_lt.mpr within)]

structure Master.Within (master : Master) : Prop where
  hitpoints : master.hitpoints.act ≤ master.hitpoints.max
  mana : master.mana.act ≤ master.mana.max
  goStrength : master.goStrength.act ≤ master.goStrength.max
  carryStrength : master.carryStrength.act ≤ master.carryStrength.max

theorem Master.advance_add :
    (master.advance first).advance second = master.advance (first + second) := by
  unfold Master.advance
  simp only [SkillAdd.advance_add]

theorem Master.advance_zero (within : master.Within) : master.advance 0 = master := by
  unfold Master.advance
  rw [SkillAdd.advance_zero within.hitpoints, SkillAdd.advance_zero within.mana,
    SkillAdd.advance_zero within.goStrength, SkillAdd.advance_zero within.carryStrength]

theorem SkillAdd.advance_within {skill : SkillAdd} :
    (skill.advance first).act ≤ (skill.advance first).max := by
  unfold SkillAdd.advance
  dsimp only
  split_ifs <;> omega

theorem Master.advance_stays : (master.advance first).Within :=
  ⟨SkillAdd.advance_within, SkillAdd.advance_within, SkillAdd.advance_within,
    SkillAdd.advance_within⟩

end Points

section Settling

variable {exp : Int}

theorem settle_fields : (skill.settle exp level).act = level ∧ (skill.settle exp level).exp = exp ∧
    (skill.settle exp level).lastLevel = skill.getExpForLevel level ∧
    (skill.settle exp level).nextLevel = skill.getExpForLevel (level + 1) ∧
    (skill.settle exp level).delta = skill.delta := by
  unfold SkillLevel.settle SkillLevel.finish
  split <;> exact ⟨rfl, rfl, rfl, rfl, rfl⟩

theorem settle_thresholds : (skill.settle exp level).getExpForLevel = skill.getExpForLevel := by
  funext other
  unfold SkillLevel.getExpForLevel
  rw [settle_fields.2.2.2.2]

theorem settle_jumps :
    (skill.settle exp level).jumps.sum = skill.jumps.sum + (level - skill.act) := by
  unfold SkillLevel.settle SkillLevel.finish
  by_cases same : level - skill.act = 0
  · rw [if_neg (not_not.mpr same), same, Int.add_zero]
    rfl
  rw [if_pos same]
  exact (List.sum_append).trans (congrArg (_ + ·) (List.sum_singleton))

theorem settle_master (within : skill.master.Within) :
    (skill.settle exp level).master = skill.master.advance (level - skill.act) := by
  unfold SkillLevel.settle SkillLevel.finish
  by_cases same : level - skill.act = 0
  · rw [if_neg (not_not.mpr same), same, Master.advance_zero within]
    rfl
  rw [if_pos same]
  rfl

theorem settle_steady (stands : Stands skill.getExpForLevel exp level) :
    (skill.settle exp level).Steady := by
  rcases @settle_fields skill level exp with
    ⟨act, points, last, next, _⟩
  constructor
  · rw [settle_thresholds, last, act]
  · rw [settle_thresholds, next, act]
  · rw [last, points]
    exact stands.reached
  · rw [next, points]
    exact stands.short

theorem settle_consistent (stands : Stands skill.getExpForLevel exp level) :
    Consistent skill (skill.settle exp level) where
  counted := by
    rw [settle_jumps, settle_fields.1]
    omega
  reached := (settle_steady stands).reached
  short := (settle_steady stands).short

theorem SkillLevel.Steady.started (steady : skill.Steady) (exp : Int) :
    ({ skill with exp := exp } : SkillLevel) =
      ({ skill with exp := exp } : SkillLevel).onLevel skill.act := by
  simp only [steady.last, steady.next]
  rfl

theorem SkillLevel.Steady.settle_self (steady : skill.Steady) :
    skill.settle skill.exp skill.act = skill := by
  rw [SkillLevel.settle, Int.sub_self]
  exact steady.onLevel

end Settling

theorem int32_exact {value : Int} (low : 0 ≤ value) (high : value < 2 ^ 31) :
    int32 value = value := by
  apply Int.bmod_eq_of_le <;> omega

section Calls

variable {amount : Int32} {call : Call}

variable (positive : 0 < skill.delta)
include positive

theorem increase_settles (small : skill.delta ≤ 100) (steady : skill.Steady)
    (added : 0 ≤ amount.toInt) (below : skill.exp + amount.toInt < skill.getExpForLevel 500) :
    ∃ level, Stands skill.getExpForLevel (skill.exp + amount.toInt) level ∧
      ∀ fuel ≥ 500, skill.increase fuel amount =
        some (skill.settle (skill.exp + amount.toInt) level) := by
  have limit := exp_limit positive small
  rcases steady.act_within positive with ⟨low, high⟩
  have rising := (exp_rises positive).le (Int.le_refl 1) low (Int.le_of_lt high)
  have first := exp_first positive
  have reached := steady.stands.reached
  have exact : int32 (skill.exp + amount.toInt) = skill.exp + amount.toInt :=
    int32_exact (by omega) (by omega)
  rcases stands_somewhere (show skill.getExpForLevel skill.act ≤ skill.exp + amount.toInt by omega)
    (Int.le_of_lt high) below with ⟨level, upTo, within, stands⟩
  refine ⟨level, stands, ?_⟩
  intro fuel enough
  rw [SkillLevel.increase, if_neg (Int.not_lt.mpr added), exact]
  have climbed := @increaseLoop_climb { skill with exp := skill.exp + amount.toInt } skill.act fuel
    0 positive below low high
  have found : climb skill.getExpForLevel (skill.exp + amount.toInt) fuel skill.act = some level :=
    climb_finds (exp_rises positive) stands within low upTo (by omega)
  rw [steady.started, climbed]
  apply Eq.trans (congrArg (Option.map _ ∘ Option.map _) found)
  simp only [Function.comp_apply, Option.map_some, Int.zero_add]
  rfl

/-- From the experience points of a level downwards the loop stops at the first level at the
latest, because no experience points are negative. -/
theorem descend_settles (steady : skill.Steady) {exp : Int} (nonneg : 0 ≤ exp)
    (fewer : exp ≤ skill.exp) :
    ∃ level, Stands skill.getExpForLevel exp level ∧ ∀ fuel ≥ 500,
      (SkillLevel.decreaseLoop fuel { skill with exp := exp } 0).map
        (fun done => done.1.finish done.2) = some (skill.settle exp level) := by
  rcases steady.act_within positive with ⟨low, high⟩
  have short := steady.stands.short
  have first := exp_first positive
  rcases stands_somewhere (show skill.getExpForLevel 1 ≤ exp by omega)
    (show 1 ≤ skill.act + 1 by omega) (show exp < skill.getExpForLevel (skill.act + 1) by omega)
    with ⟨level, above, within, stands⟩
  refine ⟨level, stands, ?_⟩
  intro fuel enough
  rw [steady.started, decreaseLoop_descend]
  have found : descend skill.getExpForLevel exp fuel skill.act = some level :=
    descend_finds (exp_rises positive) stands above (by omega) (by omega) (by omega)
  apply Eq.trans (congrArg (Option.map _ ∘ Option.map _) found)
  simp only [Function.comp_apply, Option.map_some, Int.zero_add]
  rfl

theorem decrease_settles (steady : skill.Steady) :
    ∃ level, Stands skill.getExpForLevel (expAfter skill.exp (.decrease amount)) level ∧
      ∀ fuel ≥ 500, skill.decrease fuel amount =
        some (skill.settle (expAfter skill.exp (.decrease amount)) level) := by
  have first := exp_nonneg positive (steady.act_within positive).1
    (Int.le_of_lt (steady.act_within positive).2)
  have reached := steady.stands.reached
  unfold SkillLevel.decrease expAfter
  by_cases negative : amount.toInt < 0
  · simp only [if_pos negative]
    exact ⟨skill.act, steady.stands, fun _ _ => congrArg some steady.settle_self.symm⟩
  by_cases large : amount.toInt > skill.exp ∧ skill.exp > 100000
  · simp only [if_neg negative, if_pos large]
    exact ⟨skill.act, steady.stands, fun _ _ => congrArg some steady.settle_self.symm⟩
  simp only [if_neg negative, if_neg large]
  apply descend_settles positive steady <;> split <;> omega

theorem call_settles (small : skill.delta ≤ 100) (steady : skill.Steady)
    (below : expAfter skill.exp call < skill.getExpForLevel 500) :
    ∃ level, Stands skill.getExpForLevel (expAfter skill.exp call) level ∧
      ∀ fuel ≥ 500, skill.call fuel call = some (skill.settle (expAfter skill.exp call) level) := by
  cases call with
  | decrease amount => exact decrease_settles positive steady
  | increase amount =>
    simp only [expAfter] at below ⊢
    by_cases negative : amount.toInt < 0
    · rw [if_pos negative]
      refine ⟨skill.act, steady.stands, ?_⟩
      intro fuel enough
      rw [SkillLevel.call, SkillLevel.increase, if_pos negative, steady.settle_self]
    rw [if_neg negative] at below ⊢
    exact increase_settles positive small steady (Int.not_lt.mp negative) below

/-- A call that brings the experience points to the limit leaves the level ahead of the counted
ranges, or the experience points negative. -/
theorem call_breaks (small : skill.delta ≤ 100) (steady : skill.Steady)
    (above : ¬expAfter skill.exp call < skill.getExpForLevel 500) :
    ∃ after, (∀ fuel ≥ 500, skill.call fuel call = some after) ∧ ¬Consistent skill after := by
  rcases steady.act_within positive with ⟨low, high⟩
  have limit := exp_limit positive small
  have nonneg := exp_nonneg positive low (Int.le_of_lt high)
  have short := (exp_rises positive).le (show 1 ≤ skill.act + 1 by omega)
    (show skill.act + 1 ≤ 500 by omega) (Int.le_refl 500)
  have under := steady.stands.short
  cases call with
  | decrease amount =>
    exfalso
    apply above
    simp only [expAfter]
    split_ifs <;> omega
  | increase amount =>
    simp only [expAfter] at above
    by_cases negative : amount.toInt < 0
    · rw [if_pos negative] at above
      omega
    rw [if_neg negative] at above
    have amountHigh : amount.toInt < 2 ^ 31 := amount.toInt_lt
    by_cases exact : skill.exp + amount.toInt < 2 ^ 31
    · refine ⟨{ skill with
        act := 500
        lastLevel := skill.getExpForLevel 500
        nextLevel := skill.exp + amount.toInt
        exp := skill.exp + amount.toInt - 1000000 : SkillLevel }.finish (499 - skill.act), ?_, ?_⟩
      · intro fuel enough
        rw [SkillLevel.call, SkillLevel.increase, if_neg negative,
          int32_exact (by omega) exact, steady.started]
        have left := @increaseLoop_overflow { skill with exp := skill.exp + amount.toInt }
          skill.act fuel 0 positive (Int.not_lt.mp above) low high (by omega)
        rw [left, Option.map_some, Int.zero_add]
        rfl
      · intro consistent
        have counted := consistent.counted
        unfold SkillLevel.finish SkillLevel.jump at counted
        split_ifs at counted
        · simp only [List.sum_append, List.sum_singleton] at counted
          omega
        · simp only at counted
          omega
    have wrapped : int32 (skill.exp + amount.toInt) < 0 := by
      rw [int32, Int.bmod_def, Int.emod_eq_of_lt (by omega) (by omega)]
      omega
    refine ⟨{ skill with exp := int32 (skill.exp + amount.toInt) }, ?_, ?_⟩
    · intro fuel enough
      rcases fuel with _ | fuel
      · omega
      have stays : ¬int32 (skill.exp + amount.toInt) ≥ skill.nextLevel := by
        have next := steady.short
        have last := steady.last
        have start := steady.reached
        omega
      rw [SkillLevel.call, SkillLevel.increase, if_neg negative,
        SkillLevel.increaseLoop, if_neg stays]
      rfl
    intro consistent
    have kept : skill.lastLevel ≤ int32 (skill.exp + amount.toInt) := consistent.reached
    have last := steady.last
    omega

end Calls

section Runs

variable {calls done : List Call}

theorem run_single {fuel : Nat} {call : Call} : skill.run fuel [call] = skill.call fuel call := by
  rw [SkillLevel.run]
  cases skill.call fuel call <;> rfl

theorem stays_below_start {limit exp : Int} (before : done <+: calls)
    (below : StaysBelow limit exp calls) : StaysBelow limit exp done := by
  induction done generalizing exp calls with
  | nil => trivial
  | cons call done ih =>
    cases before with
    | intro rest same =>
      rw [← same] at below
      exact ⟨below.1, ih (List.prefix_append done rest) below.2⟩

theorem Consistent.trans {between : SkillLevel} (early : Consistent skill between)
    (late : Consistent between after) : Consistent skill after where
  counted := by
    have before := early.counted
    have behind := late.counted
    omega
  reached := late.reached
  short := late.short

section

variable (positive : 0 < skill.delta) (small : skill.delta ≤ 100) (steady : skill.Steady)
include positive small steady

theorem run_settles (below : StaysBelow (skill.getExpForLevel 500) skill.exp calls) :
    ∃ after, (∀ fuel ≥ 500, skill.run fuel calls = some after) ∧ after.Steady ∧
      after.delta = skill.delta ∧ Consistent skill after := by
  induction calls generalizing skill with
  | nil =>
    refine ⟨skill, fun _ _ => rfl, steady, rfl, ?_, steady.reached, steady.short⟩
    omega
  | cons call rest ih =>
    rcases call_settles positive small steady below.1 with ⟨level, stands, called⟩
    have delta := (@settle_fields skill level (expAfter skill.exp call)).2.2.2.2
    have later : StaysBelow ((skill.settle (expAfter skill.exp call) level).getExpForLevel 500)
        (skill.settle (expAfter skill.exp call) level).exp rest := by
      rw [settle_thresholds, settle_fields.2.1]
      exact below.2
    rcases ih (delta ▸ positive) (delta ▸ small) (settle_steady stands) later with
      ⟨after, ran, settled, same, consistent⟩
    refine ⟨after, ?_, settled, same.trans delta, (settle_consistent stands).trans consistent⟩
    intro fuel enough
    rw [SkillLevel.run, called fuel enough]
    exact ran fuel enough

/-- The experience points decide the level, so taking away what was added restores it. -/
theorem increase_decrease_restores (amount : Int32)
    (below : expAfter skill.exp (.increase amount) < skill.getExpForLevel 500) :
    ∃ restored, (∀ fuel ≥ 500,
        skill.run fuel [.increase amount, .decrease amount] = some restored) ∧
      restored.act = skill.act ∧ restored.exp = skill.exp ∧
      restored.lastLevel = skill.lastLevel ∧ restored.nextLevel = skill.nextLevel := by
  rcases steady.act_within positive with ⟨low, high⟩
  have nonneg := exp_nonneg positive low (Int.le_of_lt high)
  have reached := steady.stands.reached
  rcases call_settles positive small steady below with ⟨raised, stands, increased⟩
  have fields := @settle_fields skill raised (expAfter skill.exp (.increase amount))
  have more := settle_steady stands
  generalize grown : skill.settle (expAfter skill.exp (.increase amount)) raised = between at *
  have delta := fields.2.2.2.2
  have thresholds : between.getExpForLevel = skill.getExpForLevel := by
    rw [← grown, settle_thresholds]
  rcases @decrease_settles between amount (delta ▸ positive) more with ⟨level, back, decreased⟩
  have exp : expAfter between.exp (.decrease amount) = skill.exp := by
    rw [fields.2.1]
    simp only [expAfter]
    split_ifs <;> omega
  rw [exp] at back decreased
  rw [thresholds] at back
  have lowered : (skill.settle skill.exp level).Steady := settle_steady back
  have kept : 0 < (skill.settle skill.exp level).delta := by
    rw [settle_fields.2.2.2.2]
    exact positive
  have within := lowered.act_within kept
  rw [settle_fields.1] at within
  have same : level = skill.act :=
    stands_once (exp_rises positive) steady.stands high low back within.1 within.2
  refine ⟨between.settle skill.exp level, ?_, ?_⟩
  · intro fuel enough
    rw [SkillLevel.run, SkillLevel.call, ← SkillLevel.call, increased fuel enough]
    apply Eq.trans run_single
    exact decreased fuel enough
  · rw [settle_fields.1, settle_fields.2.1, settle_fields.2.2.1, settle_fields.2.2.2.1,
      thresholds, same]
    exact ⟨rfl, rfl, steady.last.symm, steady.next.symm⟩

end

/-- Below the limit both loops end, and after every call the level is the one of the experience
points, by as many ranges as it has changed. -/
theorem level_bookkeeping (skill : SkillLevel) (calls : List Call) (positive : 0 < skill.delta)
    (small : skill.delta ≤ 100) (steady : skill.Steady)
    (below : StaysBelow (skill.getExpForLevel 500) skill.exp calls) :
    ∀ done, done <+: calls → ∃ after, (∀ fuel ≥ 500, skill.run fuel done = some after) ∧
      after.Steady ∧ after.delta = skill.delta ∧ 1 ≤ after.act ∧
      after.jumps.sum - skill.jumps.sum = after.act - skill.act ∧
      ∀ amount, expAfter after.exp (.increase amount) < skill.getExpForLevel 500 →
        ∃ restored, (∀ fuel ≥ 500,
            after.run fuel [.increase amount, .decrease amount] = some restored) ∧
          restored.act = after.act ∧ restored.exp = after.exp ∧
          restored.lastLevel = after.lastLevel ∧ restored.nextLevel = after.nextLevel := by
  intro done before
  rcases run_settles positive small steady (stays_below_start before below) with
    ⟨after, ran, settled, delta, consistent⟩
  have positiveAfter : 0 < after.delta := delta ▸ positive
  refine ⟨after, ran, settled, delta, (settled.act_within positiveAfter).1, consistent.counted, ?_⟩
  intro amount within
  apply increase_decrease_restores positiveAfter (delta ▸ small) settled amount
  have thresholds : after.getExpForLevel 500 = skill.getExpForLevel 500 := by
    rw [SkillLevel.getExpForLevel, delta, SkillLevel.getExpForLevel]
  rw [thresholds]
  exact within

end Runs

def newcomer : SkillLevel where
  act := 1
  exp := 92
  lastLevel := 0
  nextLevel := 100
  delta := 100
  master :=
    { hitpoints := ⟨150, 150, 5⟩
      mana := ⟨0, 0, 5⟩
      goStrength := ⟨70, 70, 1⟩
      carryStrength := ⟨40000, 40000, 1000⟩ }
  jumps := []

theorem newcomer_steady : newcomer.Steady := ⟨by decide, by decide, by decide, by decide⟩

theorem level_bookkeeping_newcomer :
    ∃ after, (∀ fuel ≥ 500, newcomer.run fuel [.increase 110, .decrease 100] = some after) ∧
      after.Steady ∧ after.jumps.sum - newcomer.jumps.sum = after.act - newcomer.act := by
  have below : StaysBelow (newcomer.getExpForLevel 500) newcomer.exp
      [.increase 110, .decrease 100] := ⟨by decide, by decide, trivial⟩
  rcases level_bookkeeping newcomer [.increase 110, .decrease 100] (by decide) (by decide)
    newcomer_steady below _ List.prefix_rfl with ⟨after, ran, settled, _, _, counted, _⟩
  exact ⟨after, ran, settled, counted⟩

section Overflow

variable {calls : List Call}

/-- The guard of `Increase` breaks the bookkeeping in every run that brings the experience
points to the limit, and only then. -/
theorem levels_consistent_iff (skill : SkillLevel) (calls : List Call) (positive : 0 < skill.delta)
    (small : skill.delta ≤ 100) (steady : skill.Steady) :
    (∀ done, done <+: calls → ∃ after, (∀ fuel ≥ 500, skill.run fuel done = some after) ∧
        Consistent skill after) ↔
      StaysBelow (skill.getExpForLevel 500) skill.exp calls := by
  constructor
  · intro every
    induction calls generalizing skill with
    | nil => trivial
    | cons call rest ih =>
      have below : expAfter skill.exp call < skill.getExpForLevel 500 := by
        by_contra above
        rcases call_breaks positive small steady above with ⟨broken, called, wrong⟩
        rcases every [call] (List.prefix_append [call] rest) with ⟨after, ran, consistent⟩
        have same := (ran 500 (Nat.le_refl 500)).symm.trans
          (run_single.trans (called 500 (Nat.le_refl 500)))
        rw [Option.some.inj same] at consistent
        exact wrong consistent
      rcases call_settles positive small steady below with ⟨level, stands, called⟩
      have fields := @settle_fields skill level (expAfter skill.exp call)
      have delta := fields.2.2.2.2
      have later := ih (skill.settle (expAfter skill.exp call) level) (delta ▸ positive)
        (delta ▸ small) (settle_steady stands)
      rw [settle_thresholds, fields.2.1] at later
      refine ⟨below, later ?_⟩
      intro done before
      rcases every (call :: done) (List.cons_prefix_cons.mpr ⟨rfl, before⟩) with
        ⟨after, ran, consistent⟩
      refine ⟨after, ?_, ?_, consistent.reached, consistent.short⟩
      · intro fuel enough
        have whole := ran fuel enough
        rw [SkillLevel.run, called fuel enough] at whole
        exact whole
      · have whole := consistent.counted
        have first := (settle_consistent stands).counted
        omega
  · intro below done before
    rcases run_settles positive small steady (stays_below_start before below) with
      ⟨after, ran, _, _, consistent⟩
    exact ⟨after, ran, consistent⟩

theorem levels_consistent_iff_newcomer :
    (∀ done, done <+: [Call.increase 110] → ∃ after,
        (∀ fuel ≥ 500, newcomer.run fuel done = some after) ∧ Consistent newcomer after) ↔
      StaysBelow (newcomer.getExpForLevel 500) newcomer.exp [Call.increase 110] :=
  levels_consistent_iff newcomer [.increase 110] (by decide) (by decide) newcomer_steady

/-- A character on level 499 who is short of the limit by 100 points. -/
def veteran : SkillLevel :=
  { newcomer with
    act := 499
    exp := 2058474700
    lastLevel := 2046099400
    nextLevel := 2058474800 }

/-- The guard takes this character to level 500, but hit points and the others do not follow,
and the experience points fall below the threshold of the new level. -/
theorem overflow_loses_a_range :
    veteran.Steady ∧
    ¬∀ done, done <+: [Call.increase 100] → ∃ after,
      (∀ fuel ≥ 500, veteran.run fuel done = some after) ∧ Consistent veteran after := by
  constructor
  · exact ⟨by decide, by decide, by decide, by decide⟩
  · intro every
    rcases every _ List.prefix_rfl with ⟨after, ran, consistent⟩
    have left : veteran.run 500 [.increase 100] = some { veteran with
        act := 500
        exp := 2057474800
        lastLevel := 2058474800
        nextLevel := 2058474800 } := by decide
    have same := Option.some.inj ((ran 500 (Nat.le_refl 500)).symm.trans left)
    have reached := consistent.reached
    rw [same] at reached
    exact absurd reached (by decide)

end Overflow

end TibiaGame.SkillLevels
