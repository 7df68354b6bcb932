import Mathlib.Tactic
import TibiaGame.Library.CountedArray
import TibiaGame.SkillLevels

/-!
# The timers of skills

A skill with a timer counts down and lets an event happen whenever its count has run out. A
creature keeps the skills with timers in an array of which the first entries are in use, and
takes one out by moving the last of them into its place.
-/

namespace TibiaGame.SkillTimers

open SkillLevels Library.CountedArray List Function

/-- The timer of a `TSkill`. -/
structure Skill where
  cycle : Int
  count : Int
  maxCount : Int
  factorPercent : Int
  deriving DecidableEq

/-- What a call of `Process` returns, what it makes of the skill before the event, and the
range of the event if there is one. -/
structure Processed where
  result : Bool
  skill : Skill
  event : Option Int
  deriving DecidableEq

def Skill.process (skill : Skill) : Processed :=
  if skill.cycle = 0 then ⟨true, skill, none⟩
  else if skill.count ≤ 0 then
    let range := if skill.cycle < 0 then 1 else -1
    ⟨false, { skill with count := skill.maxCount, cycle := skill.cycle + range }, some range⟩
  else ⟨false, { skill with count := skill.count - 1 }, none⟩

/-- `SkillPoison::Process`: a share of the cycle, but at least one. -/
def Skill.processPoison (skill : Skill) : Processed :=
  if skill.cycle = 0 then ⟨true, skill, none⟩
  else if skill.count ≤ 0 then
    let share := (int32 (skill.cycle * skill.factorPercent)).tdiv 1000
    let range := if share = 0 then (if skill.cycle > 0 then 1 else -1) else share
    ⟨false, { skill with count := skill.maxCount, cycle := skill.cycle - range }, some range⟩
  else ⟨false, { skill with count := skill.count - 1 }, none⟩

def Skill.setTimer (skill : Skill) (cycle count maxCount : Int) : Skill :=
  { skill with cycle := cycle, count := count, maxCount := maxCount }

/-- `SkillPoison::SetTimer`, which keeps the additional value as the percentage. -/
def Skill.setTimerPoison (skill : Skill) (cycle count maxCount additionalValue : Int) : Skill :=
  let additionalValue := if additionalValue = -1 then 50 else additionalValue
  let additionalValue := if additionalValue < 10 then 10 else additionalValue
  let additionalValue := if additionalValue > 1000 then 1000 else additionalValue
  { skill.setTimer cycle count maxCount with factorPercent := additionalValue }

def Skill.delTimer (skill : Skill) : Skill := skill.setTimer 0 0 0

section Poison

variable {skill : Skill}

/-- Repeated calls of `Process` without a poison field, and the ranges of their events. -/
def processes : Nat → Skill → Skill × List Int
  | 0, skill => (skill, [])
  | calls + 1, skill =>
      let before := processes calls skill
      let processed := before.1.processPoison
      (processed.skill, before.2 ++ processed.event.toList)

/-- A cycle that is not negative, and no product that leaves the `int`s. -/
structure Poisoned (skill : Skill) : Prop where
  nonneg : 0 ≤ skill.cycle
  small : skill.cycle ≤ 2000000
  least : 10 ≤ skill.factorPercent
  most : skill.factorPercent ≤ 1000

theorem set_timer_poisoned {cycle count maxCount additionalValue : Int} (low : 1 ≤ cycle)
    (high : cycle ≤ 2000000) :
    Poisoned (skill.setTimerPoison cycle count maxCount additionalValue) := by
  constructor
  · exact Int.le_of_lt low
  · exact high
  all_goals
    unfold Skill.setTimerPoison
    dsimp only
    split_ifs <;> omega

theorem share_bounds (poisoned : Poisoned skill) :
    0 ≤ (int32 (skill.cycle * skill.factorPercent)).tdiv 1000 ∧
      (int32 (skill.cycle * skill.factorPercent)).tdiv 1000 ≤ skill.cycle := by
  have nonneg := poisoned.nonneg
  have small := poisoned.small
  have least := poisoned.least
  have most := poisoned.most
  have above : 0 ≤ skill.cycle * skill.factorPercent := Int.mul_nonneg nonneg (by omega)
  have within : skill.cycle * skill.factorPercent ≤ skill.cycle * 1000 :=
    Int.mul_le_mul_of_nonneg_left most nonneg
  rw [int32_exact above (by omega), Int.tdiv_eq_ediv_of_nonneg above]
  omega

theorem process_poison_step (poisoned : Poisoned skill) :
    Poisoned skill.processPoison.skill ∧
      skill.processPoison.skill.cycle + skill.processPoison.event.toList.sum = skill.cycle ∧
      ∀ range ∈ skill.processPoison.event.toList, 0 < range := by
  unfold Skill.processPoison
  by_cases ended : skill.cycle = 0
  · rw [if_pos ended]
    refine ⟨poisoned, by simp, by simp⟩
  rw [if_neg ended]
  have share := share_bounds poisoned
  have nonneg := poisoned.nonneg
  have small := poisoned.small
  by_cases due : skill.count ≤ 0
  · rw [if_pos due]
    dsimp only
    generalize (int32 (skill.cycle * skill.factorPercent)).tdiv 1000 = part at share
    refine ⟨⟨?_, ?_, poisoned.least, poisoned.most⟩, ?_, ?_⟩
    · dsimp only
      split_ifs <;> omega
    · dsimp only
      split_ifs <;> omega
    · simp
    · intro range member
      rw [Option.mem_toList] at member
      rw [← Option.some.inj member]
      split_ifs <;> omega
  rw [if_neg due]
  exact ⟨⟨nonneg, small, poisoned.least, poisoned.most⟩, by simp, by simp⟩

theorem processes_step (poisoned : Poisoned skill) (calls : Nat) :
    Poisoned (processes calls skill).1 ∧
      (processes calls skill).1.cycle + (processes calls skill).2.sum = skill.cycle ∧
      ∀ range ∈ (processes calls skill).2, 0 < range := by
  induction calls with
  | zero => exact ⟨poisoned, by simp [processes], by simp [processes]⟩
  | succ calls ih =>
    rcases ih with ⟨before, kept, positive⟩
    rcases process_poison_step before with ⟨after, taken, more⟩
    refine ⟨after, ?_, ?_⟩
    · rw [processes, sum_append]
      dsimp only
      omega
    intro range member
    rw [processes] at member
    rcases mem_append.mp member with old | new
    · exact positive range old
    · exact more range new

theorem processes_succ (calls : Nat) (skill : Skill) :
    (processes (calls + 1) skill).1 = (processes calls skill).1.processPoison.skill := rfl

theorem processes_add (first second : Nat) (skill : Skill) :
    (processes (second + first) skill).1 = (processes second (processes first skill).1).1 := by
  induction second with
  | zero =>
    rw [Nat.zero_add]
    rfl
  | succ second ih => rw [Nat.add_right_comm, processes_succ, ih, processes_succ]

/-- While the count runs down nothing else changes, and then the cycle gets smaller. -/
theorem cycle_falls (poisoned : Poisoned skill) (sick : skill.cycle ≠ 0) :
    ∃ calls, (processes calls skill).1.cycle < skill.cycle := by
  generalize left : skill.count.toNat = waiting
  induction waiting generalizing skill with
  | zero =>
    refine ⟨1, ?_⟩
    have step := process_poison_step poisoned
    have taken : ∃ range, skill.processPoison.event = some range := by
      rw [Skill.processPoison, if_neg sick, if_pos (show skill.count ≤ 0 by omega)]
      exact ⟨_, rfl⟩
    rcases taken with ⟨range, event⟩
    rw [event] at step
    have positive := step.2.2 range (by simp)
    have sum := step.2.1
    simp only [Option.toList_some, sum_singleton] at sum
    change skill.processPoison.skill.cycle < skill.cycle
    omega
  | succ waiting ih =>
    have later : skill.processPoison.skill = { skill with count := skill.count - 1 } := by
      rw [Skill.processPoison, if_neg sick, if_neg (show ¬skill.count ≤ 0 by omega)]
    have next := (process_poison_step poisoned).1
    rw [later] at next
    rcases ih next sick (by dsimp only; omega) with ⟨calls, fallen⟩
    refine ⟨calls + 1, ?_⟩
    rw [processes_add, processes_succ, processes, later]
    exact fallen

theorem cycle_ends (poisoned : Poisoned skill) : ∃ calls, (processes calls skill).1.cycle = 0 := by
  generalize whole : skill.cycle.toNat = bound
  induction bound using Nat.strong_induction_on generalizing skill with
  | _ bound ih =>
    by_cases sick : skill.cycle = 0
    · exact ⟨0, sick⟩
    rcases cycle_falls poisoned sick with ⟨calls, fallen⟩
    have next := (processes_step poisoned calls).1
    have nonneg := next.nonneg
    rcases ih _ (by omega) next rfl with ⟨more, ended⟩
    refine ⟨more + calls, ?_⟩
    rw [processes_add]
    exact ended

theorem process_poison_result : skill.processPoison.result = decide (skill.cycle = 0) := by
  by_cases ended : skill.cycle = 0
  · rw [Skill.processPoison, if_pos ended, decide_eq_true ended]
  rw [Skill.processPoison, if_neg ended, decide_eq_false ended]
  split <;> rfl

/-- The damage of poison is its cycle, in positive shares, after finitely many calls. -/
theorem poison_conserves (skill : Skill) (cycle count maxCount additionalValue : Int)
    (low : 1 ≤ cycle) (high : cycle ≤ 2000000) :
    (∀ calls, 0 ≤ (processes calls
        (skill.setTimerPoison cycle count maxCount additionalValue)).1.cycle ∧
      ∀ range ∈ (processes calls
        (skill.setTimerPoison cycle count maxCount additionalValue)).2, 0 < range) ∧
    ∃ last, (∀ calls < last, (processes calls
          (skill.setTimerPoison cycle count maxCount additionalValue)).1.processPoison.result
            = false) ∧
      (processes last
          (skill.setTimerPoison cycle count maxCount additionalValue)).1.processPoison.result
            = true ∧
      (processes last
          (skill.setTimerPoison cycle count maxCount additionalValue)).2.sum = cycle := by
  have poisoned := @set_timer_poisoned skill cycle count maxCount additionalValue low high
  have start : (skill.setTimerPoison cycle count maxCount additionalValue).cycle = cycle := rfl
  generalize skill.setTimerPoison cycle count maxCount additionalValue = poison at poisoned start
  have ends := cycle_ends poisoned
  refine ⟨?_, Nat.find ends, ?_, ?_, ?_⟩
  · intro calls
    have step := processes_step poisoned calls
    exact ⟨step.1.nonneg, step.2.2⟩
  · intro calls early
    rw [process_poison_result]
    exact decide_eq_false (Nat.find_min ends early)
  · rw [process_poison_result]
    exact decide_eq_true (Nat.find_spec ends)
  · have kept := (processes_step poisoned (Nat.find ends)).2.1
    rw [Nat.find_spec ends] at kept
    omega

theorem poison_conserves_arrow :
    ∃ last, (processes last
      ((⟨0, 0, 0, 50⟩ : Skill).setTimerPoison 100 3 3 (-1))).1.processPoison.result = true ∧
      (processes last ((⟨0, 0, 0, 50⟩ : Skill).setTimerPoison 100 3 3 (-1))).2.sum = 100 := by
  rcases (poison_conserves ⟨0, 0, 0, 50⟩ 100 3 3 (-1) (by decide) (by decide)).2 with
    ⟨last, _, ended, sum⟩
  exact ⟨last, ended, sum⟩

end Poison

def skillIllusion : Nat := 16

def skillPoison : Nat := 17

def skillBurning : Nat := 18

/-- `NARRAY(Skills)`, which is also the length of `TimerList`. -/
def skillCount : Nat := 25

/-- `SkillBase`. All skills of a creature exist, and have it as their master. `timerList` holds
numbers of skills, and `none` is `NULL`. -/
structure SkillBase where
  skills : Nat → Skill
  timerList : Nat → Option Nat
  firstFreeTimer : Nat

def SkillBase.timers (base : SkillBase) : Counted (Option Nat) :=
  ⟨base.timerList, base.firstFreeTimer⟩

inductive TimerCall where
  | setTimer (skNr : Nat) (cycle count maxCount additionalValue : Int)
  | delTimer (skNr : Nat)
  deriving DecidableEq

def TimerCall.skNr : TimerCall → Nat
  | setTimer skNr _ _ _ _ => skNr
  | delTimer skNr => skNr

def SkillBase.setSkill (base : SkillBase) (skNr : Nat) (skill : Skill) : SkillBase :=
  { base with skills := Function.update base.skills skNr skill }

def SkillBase.swapAndPop (base : SkillBase) (index : Nat) : SkillBase :=
  let last := base.firstFreeTimer - 1
  { base with
    firstFreeTimer := last
    timerList :=
      Function.update (Function.update base.timerList index (base.timerList last)) last none }

/-- The first place of a skill in the part of the list in use. -/
def SkillBase.find (base : SkillBase) (skNr : Nat) : Option Nat := base.timers.find (some skNr)

def SkillBase.delTimer (base : SkillBase) (skNr : Nat) : SkillBase :=
  if skNr ≥ skillCount then base
  else
    let cleared := base.setSkill skNr (base.skills skNr).delTimer
    match cleared.find skNr with
    | none => cleared
    | some index => cleared.swapAndPop index

def SkillBase.push (base : SkillBase) (skNr : Nat) : SkillBase :=
  { base with
    timerList := Function.update base.timerList base.firstFreeTimer (some skNr)
    firstFreeTimer := base.firstFreeTimer + 1 }

/-- The virtual `SetTimer` of the skill. -/
def SkillBase.skillSetTimer (base : SkillBase) (skNr : Nat)
    (cycle count maxCount additionalValue : Int) : SkillBase :=
  if skNr = skillPoison then
    base.setSkill skNr ((base.skills skNr).setTimerPoison cycle count maxCount additionalValue)
  else base.setSkill skNr ((base.skills skNr).setTimer cycle count maxCount)

def SkillBase.setTimer (base : SkillBase) (skNr : Nat)
    (cycle count maxCount additionalValue : Int) : SkillBase :=
  if skNr ≥ skillCount then base
  else
    ((base.delTimer skNr).skillSetTimer skNr cycle count maxCount additionalValue).push skNr

def SkillBase.call (base : SkillBase) : TimerCall → SkillBase
  | .setTimer skNr cycle count maxCount additionalValue =>
      base.setTimer skNr cycle count maxCount additionalValue
  | .delTimer skNr => base.delTimer skNr

/-- What happens in an event: the timers it sets and deletes on the way, in their order, and
the poison fields under the creature. -/
structure Happening where
  calls : List TimerCall
  fields : Nat
  deriving DecidableEq

/-- The part of `TCreature::Damage` that touches a timer of the damaged creature: one that is
no player becomes visible. -/
def damageCalls (player invisible : Bool) : List TimerCall :=
  if !player && invisible then [.setTimer skillIllusion 0 0 0 (-1)] else []

/-- What `ProcessSkills` does: a skill is processed, or an event of the skill at the index calls
for a timer, with the list as it was before the call. -/
inductive Entry where
  | processed (skNr : Nat)
  | called (index : Nat) (before : SkillBase) (call : TimerCall)

def callAll (index : Nat) : SkillBase → List TimerCall → SkillBase × List Entry
  | base, [] => (base, [])
  | base, call :: rest =>
      let after := callAll index (base.call call) rest
      (after.1, .called index base call :: after.2)

/-- The virtual `Process` of the skill. -/
def SkillBase.process (base : SkillBase) (skNr : Nat) : Processed :=
  if skNr = skillPoison then (base.skills skNr).processPoison else (base.skills skNr).process

/-- `Event`: `SkillPoison::Event` adds the poison fields to the cycle after the damage. -/
def SkillBase.event (base : SkillBase) (index skNr : Nat) (happening : Happening) :
    SkillBase × List Entry :=
  let after := callAll index base happening.calls
  if skNr = skillPoison then
    let skill := after.1.skills skNr
    (after.1.setSkill skNr { skill with cycle := skill.cycle + happening.fields }, after.2)
  else after

/-- The loop of `ProcessSkills`. Each event takes the next happening, and nothing happens in
the events after the last one. -/
def SkillBase.processLoop : Nat → SkillBase → Nat → List Happening →
    Option (SkillBase × List Entry)
  | 0, _, _, _ => none
  | fuel + 1, base, index, happenings =>
      if index < base.firstFreeTimer then
        match base.timerList index with
        | none => processLoop fuel base (index + 1) happenings
        | some skNr =>
            let processed := base.process skNr
            let base := base.setSkill skNr processed.skill
            if processed.result then
              (processLoop fuel (base.swapAndPop index) index happenings).map fun rest =>
                (rest.1, .processed skNr :: rest.2)
            else if processed.event.isSome then
              let happening := happenings.headD ⟨[], 0⟩
              let after := base.event index skNr happening
              (processLoop fuel after.1 (index + 1) happenings.tail).map fun rest =>
                (rest.1, .processed skNr :: (after.2 ++ rest.2))
            else
              (processLoop fuel base (index + 1) happenings).map fun rest =>
                (rest.1, .processed skNr :: rest.2)
      else some (base, [])

/-- Every happening brings at most one more round through the list. -/
def SkillBase.processSkills (base : SkillBase) (happenings : List Happening) :
    Option (SkillBase × List Entry) :=
  base.processLoop ((happenings.length + 1) * (skillCount + 1)) 0 happenings

def SkillBase.At (base : SkillBase) (place skNr : Nat) : Prop :=
  place < base.firstFreeTimer ∧ base.timerList place = some skNr

def SkillBase.Lists (base : SkillBase) (skNr : Nat) : Prop := ∃ place, base.At place skNr

/-- No `NULL` and no skill twice. -/
structure SkillBase.Sound (base : SkillBase) : Prop where
  filled : ∀ place < base.firstFreeTimer, ∃ skNr < skillCount, base.At place skNr
  distinct : base.timers.Distinct

def SkillBase.Waiting (base : SkillBase) (index skNr : Nat) : Prop :=
  ∃ place, index ≤ place ∧ base.At place skNr

/-- The skill that a call for a timer moves from behind the index to the index or before it. -/
def SkillBase.overtaken (base : SkillBase) (index skNr : Nat) : Option Nat :=
  match base.find skNr with
  | none => none
  | some place =>
      if place ≤ index ∧ index < base.firstFreeTimer - 1 then
        base.timerList (base.firstFreeTimer - 1)
      else none

/-- The place of a skill after the timer of another one has been taken out. -/
def SkillBase.moved (base : SkillBase) (skNr place : Nat) : Nat :=
  match base.find skNr with
  | none => place
  | some hole => if place = base.firstFreeTimer - 1 then hole else place

variable {base : SkillBase} {index place skNr other : Nat}

theorem find_at (found : base.find skNr = some place) : base.At place skNr :=
  find_some found

theorem find_missing (missing : base.find skNr = none) : ¬base.Lists skNr :=
  find_none missing

theorem SkillBase.Sound.once (sound : base.Sound) {left right : Nat} (first : base.At left skNr)
    (second : base.At right skNr) : left = right :=
  sound.distinct left first.1 right second.1 (first.2.trans second.2.symm)

theorem SkillBase.Sound.number (sound : base.Sound) (there : base.At place skNr) :
    skNr < skillCount := by
  rcases sound.filled place there.1 with ⟨found, small, same⟩
  rw [← Option.some.inj (same.2.symm.trans there.2)]
  exact small

theorem SkillBase.Sound.room (sound : base.Sound) : base.firstFreeTimer ≤ skillCount := by
  have numbers : ∀ place ∈ Finset.range base.firstFreeTimer,
      (base.timerList place).getD 0 ∈ Finset.range skillCount := by
    intro place member
    rcases sound.filled place (Finset.mem_range.mp member) with ⟨skNr, small, there⟩
    rw [there.2]
    exact Finset.mem_range.mpr small
  have injective : Set.InjOn (fun place => (base.timerList place).getD 0)
      (Finset.range base.firstFreeTimer) := by
    intro left leftMember right rightMember same
    rcases sound.filled left (Finset.mem_range.mp leftMember) with ⟨_, _, leftThere⟩
    rcases sound.filled right (Finset.mem_range.mp rightMember) with ⟨_, _, rightThere⟩
    simp only [leftThere.2, rightThere.2, Option.getD_some] at same
    rw [same] at leftThere
    exact sound.once leftThere rightThere
  have fewer := Finset.card_le_card_of_injOn _ numbers injective
  rw [Finset.card_range, Finset.card_range] at fewer
  exact fewer

theorem pop_list (below : place < base.firstFreeTimer - 1) :
    (base.swapAndPop index).timerList place =
      base.timerList (if place = index then base.firstFreeTimer - 1 else place) := by
  apply Eq.trans (update_of_ne (Nat.ne_of_lt below) _ _)
  by_cases here : place = index
  · rw [if_pos here, here, update_self]
  · rw [if_neg here, update_of_ne here]

theorem pop_at (there : base.At index skNr) (different : other ≠ skNr) :
    (base.swapAndPop index).At place other ↔
      ∃ before, base.At before other ∧
        (if before = base.firstFreeTimer - 1 then index else before) = place := by
  have within := there.1
  constructor
  · intro now
    have below : place < base.firstFreeTimer - 1 := now.1
    have same := now.2
    rw [pop_list below] at same
    refine ⟨if place = index then base.firstFreeTimer - 1 else place, ⟨?_, same⟩, ?_⟩
    all_goals split_ifs <;> omega
  intro earlier
  rcases earlier with ⟨before, was, moved⟩
  have inside := was.1
  have apart : before ≠ index := by
    intro here
    rw [here] at was
    exact different (Option.some.inj (was.2.symm.trans there.2))
  have below : place < base.firstFreeTimer - 1 := by
    rw [← moved]
    split_ifs <;> omega
  refine ⟨below, ?_⟩
  rw [pop_list below, ← was.2]
  congr 1
  rw [← moved]
  split_ifs <;> omega

theorem pop_gone (sound : base.Sound) (there : base.At index skNr) :
    ¬(base.swapAndPop index).At place skNr := by
  intro now
  have below : place < base.firstFreeTimer - 1 := now.1
  have same := now.2
  rw [pop_list below] at same
  have places := sound.once ⟨by split_ifs <;> omega, same⟩ there
  split_ifs at places <;> omega

theorem pop_sound (sound : base.Sound) (within : index < base.firstFreeTimer) :
    (base.swapAndPop index).Sound where
  filled := by
    intro place below
    have inside : place < base.firstFreeTimer - 1 := below
    rcases sound.filled (if place = index then base.firstFreeTimer - 1 else place)
      (by split_ifs <;> omega) with ⟨skNr, small, there⟩
    refine ⟨skNr, small, below, ?_⟩
    rw [pop_list inside]
    exact there.2
  distinct := by
    intro left leftWithin right rightWithin same
    have leftBelow : left < base.firstFreeTimer - 1 := leftWithin
    have rightBelow : right < base.firstFreeTimer - 1 := rightWithin
    have lists : (base.swapAndPop index).timerList left =
      (base.swapAndPop index).timerList right := same
    rw [pop_list leftBelow, pop_list rightBelow] at lists
    have places := sound.distinct _ (show _ < base.firstFreeTimer by split_ifs <;> omega) _
      (show _ < base.firstFreeTimer by split_ifs <;> omega) lists
    split_ifs at places <;> omega

theorem moved_missing (missing : base.find skNr = none) : base.moved skNr place = place := by
  rw [SkillBase.moved, missing]

theorem moved_found {hole : Nat} (found : base.find skNr = some hole) :
    base.moved skNr place = if place = base.firstFreeTimer - 1 then hole else place := by
  rw [SkillBase.moved, found]

theorem del_missing (missing : base.find skNr = none) :
    (base.delTimer skNr).timers = base.timers := by
  unfold SkillBase.delTimer
  split_ifs
  · rfl
  have same : (base.setSkill skNr (base.skills skNr).delTimer).find skNr = none := missing
  dsimp only
  rw [same]
  rfl

theorem del_found {hole : Nat} (found : base.find skNr = some hole) (small : skNr < skillCount) :
    (base.delTimer skNr).timers = (base.swapAndPop hole).timers := by
  have same : (base.setSkill skNr (base.skills skNr).delTimer).find skNr = some hole := found
  rw [SkillBase.delTimer, if_neg (Nat.not_le.mpr small)]
  dsimp only
  rw [same]
  rfl

theorem at_congr {left right : SkillBase} (same : left.timers = right.timers) :
    left.At place skNr ↔ right.At place skNr := by
  have counts : left.firstFreeTimer = right.firstFreeTimer := congrArg Counted.count same
  have lists : left.timerList = right.timerList := congrArg Counted.entry same
  rw [SkillBase.At, SkillBase.At, counts, lists]

theorem sound_congr {left right : SkillBase} (same : left.timers = right.timers)
    (sound : right.Sound) : left.Sound where
  filled := by
    intro place within
    have counts : left.firstFreeTimer = right.firstFreeTimer := congrArg Counted.count same
    rcases sound.filled place (counts ▸ within) with ⟨skNr, small, there⟩
    exact ⟨skNr, small, (at_congr same).mpr there⟩
  distinct := by
    rw [same]
    exact sound.distinct

theorem del_at (sound : base.Sound) (different : other ≠ skNr) :
    (base.delTimer skNr).At place other ↔
      ∃ before, base.At before other ∧ base.moved skNr before = place := by
  rcases found : base.find skNr with _ | hole
  · simp only [moved_missing found, exists_eq_right]
    exact at_congr (del_missing found)
  have there := find_at found
  simp only [moved_found found]
  apply (at_congr (del_found found (sound.number there))).trans
  exact pop_at there different

theorem del_sound (sound : base.Sound) : (base.delTimer skNr).Sound := by
  rcases found : base.find skNr with _ | hole
  · exact sound_congr (del_missing found) sound
  have there := find_at found
  exact sound_congr (del_found found (sound.number there)) (pop_sound sound there.1)

theorem del_gone (sound : base.Sound) : ¬(base.delTimer skNr).Lists skNr := by
  intro lists
  rcases lists with ⟨place, there⟩
  rcases found : base.find skNr with _ | hole
  · exact find_missing found ⟨place, (at_congr (del_missing found)).mp there⟩
  have hole_at := find_at found
  exact pop_gone sound hole_at
    ((at_congr (del_found found (sound.number hole_at))).mp there)

theorem set_timers (small : skNr < skillCount) {cycle count maxCount additionalValue : Int} :
    (base.setTimer skNr cycle count maxCount additionalValue).timers =
      (base.delTimer skNr).timers.add (some skNr) := by
  rw [SkillBase.setTimer, if_neg (Nat.not_le.mpr small), SkillBase.skillSetTimer]
  split_ifs <;> rfl

theorem set_at (different : other ≠ skNr) {cycle count maxCount additionalValue : Int} :
    (base.setTimer skNr cycle count maxCount additionalValue).At place other ↔
      (base.delTimer skNr).At place other := by
  by_cases large : skNr ≥ skillCount
  · rw [SkillBase.setTimer, if_pos large, SkillBase.delTimer, if_pos large]
  have timers := @set_timers base skNr (Nat.not_le.mp large) cycle count maxCount additionalValue
  have counts : (base.setTimer skNr cycle count maxCount additionalValue).firstFreeTimer =
      (base.delTimer skNr).firstFreeTimer + 1 := congrArg Counted.count timers
  have lists : (base.setTimer skNr cycle count maxCount additionalValue).timerList place =
      ((base.delTimer skNr).timers.add (some skNr)).entry place :=
    congrArg (fun timers => Counted.entry timers place) timers
  rw [SkillBase.At, SkillBase.At, counts, lists]
  constructor
  · intro now
    rcases Nat.lt_or_eq_of_le (Nat.le_of_lt_succ now.1) with old | fresh
    · exact ⟨old, (add_old old).symm.trans now.2⟩
    have new := now.2
    rw [fresh] at new
    exact absurd (Option.some.inj (add_new.symm.trans new)).symm different
  · intro before
    exact ⟨Nat.lt_succ_of_lt before.1, (add_old before.1).trans before.2⟩

theorem set_sound (sound : base.Sound) {cycle count maxCount additionalValue : Int} :
    (base.setTimer skNr cycle count maxCount additionalValue).Sound := by
  by_cases large : skNr ≥ skillCount
  · rw [SkillBase.setTimer, if_pos large]
    exact sound
  have small := Nat.not_le.mp large
  have pushed : ((base.delTimer skNr).push skNr).Sound := by
    constructor
    · intro place within
      rcases Nat.lt_or_eq_of_le (Nat.le_of_lt_succ within) with old | fresh
      · rcases (del_sound sound).filled place old with ⟨found, less, there⟩
        refine ⟨found, less, within, ?_⟩
        exact (update_of_ne (Nat.ne_of_lt old) _ _).trans there.2
      refine ⟨skNr, small, within, ?_⟩
      rw [fresh]
      exact update_self _ _ _
    · exact distinct_add (del_sound sound).distinct (del_gone sound)
  exact sound_congr (set_timers small) pushed

section Calls

variable {call : TimerCall} {calls : List TimerCall}

theorem call_sound (sound : base.Sound) : (base.call call).Sound := by
  cases call with
  | setTimer => exact set_sound sound
  | delTimer => exact del_sound sound

theorem call_at (sound : base.Sound) (different : other ≠ call.skNr) :
    (base.call call).At place other ↔
      ∃ before, base.At before other ∧ base.moved call.skNr before = place := by
  cases call with
  | setTimer => exact (set_at different).trans (del_at sound different)
  | delTimer => exact del_at sound different

theorem overtaken_waiting (overtaken : base.overtaken index skNr = some other) :
    base.Waiting (index + 1) other := by
  unfold SkillBase.overtaken at overtaken
  rcases found : base.find skNr with _ | hole
  · rw [found] at overtaken
    cases overtaken
  rw [found] at overtaken
  dsimp only at overtaken
  split_ifs at overtaken with behind
  exact ⟨base.firstFreeTimer - 1, behind.2, by omega, overtaken⟩

theorem call_waiting (sound : base.Sound) (different : other ≠ call.skNr) :
    (base.call call).Waiting (index + 1) other ↔
      base.Waiting (index + 1) other ∧ base.overtaken index call.skNr ≠ some other := by
  simp only [SkillBase.Waiting, call_at sound different]
  rcases found : base.find call.skNr with _ | hole
  · simp only [moved_missing found, exists_eq_right, SkillBase.overtaken, found]
    exact ⟨fun waiting => ⟨waiting, Option.some_ne_none other |>.symm⟩, And.left⟩
  have inside := (find_at found).1
  simp only [moved_found found, SkillBase.overtaken, found]
  constructor
  · intro now
    rcases now with ⟨place, after, before, was, moved⟩
    refine ⟨⟨before, ?_, was⟩, ?_⟩
    · split_ifs at moved <;> omega
    split_ifs with behind
    · intro last
      have same := sound.once was ⟨by omega, last⟩
      rw [if_pos same] at moved
      omega
    · exact (Option.some_ne_none other).symm
  intro both
  rcases both with ⟨⟨before, ahead, was⟩, kept⟩
  refine ⟨_, ?_, before, was, rfl⟩
  split_ifs with last
  · by_contra behind
    apply kept
    rw [if_pos (by omega), ← last]
    exact was.2
  · exact ahead

end Calls

def Entry.processes (skNr : Nat) : Entry → Bool
  | processed found => found == skNr
  | called _ _ _ => false

def Entry.touches (skNr : Nat) : Entry → Prop
  | processed _ => False
  | called _ _ call => call.skNr = skNr

instance (skNr : Nat) (entry : Entry) : Decidable (entry.touches skNr) := by
  cases entry <;> unfold Entry.touches <;> infer_instance

def Entry.overtakes (skNr : Nat) : Entry → Prop
  | processed _ => False
  | called index before call => before.overtaken index call.skNr = some skNr

def visits (log : List Entry) (skNr : Nat) : Nat := log.countP (Entry.processes skNr)

def Touched (log : List Entry) (skNr : Nat) : Prop := ∃ entry ∈ log, entry.touches skNr

instance (log : List Entry) (skNr : Nat) : Decidable (Touched log skNr) :=
  inferInstanceAs (Decidable (∃ entry ∈ log, entry.touches skNr))

/-- The skill was waiting when a call for another timer moved it to the index or before it. -/
def Overtaken (log : List Entry) (skNr : Nat) : Prop := ∃ entry ∈ log, entry.overtakes skNr

section Logs

variable {entry : Entry} {log rest : List Entry} {calls : List TimerCall}

theorem visits_append : visits (log ++ rest) skNr = visits log skNr + visits rest skNr :=
  countP_append

theorem touched_cons : Touched (entry :: log) skNr ↔ entry.touches skNr ∨ Touched log skNr := by
  simp only [Touched, mem_cons, or_and_right, exists_or, exists_eq_left]

theorem overtaken_cons :
    Overtaken (entry :: log) skNr ↔ entry.overtakes skNr ∨ Overtaken log skNr := by
  simp only [Overtaken, mem_cons, or_and_right, exists_or, exists_eq_left]

theorem touched_append : Touched (log ++ rest) skNr ↔ Touched log skNr ∨ Touched rest skNr := by
  simp only [Touched, mem_append, or_and_right, exists_or]

theorem overtaken_append :
    Overtaken (log ++ rest) skNr ↔ Overtaken log skNr ∨ Overtaken rest skNr := by
  simp only [Overtaken, mem_append, or_and_right, exists_or]

theorem calls_sound (sound : base.Sound) : (callAll index base calls).1.Sound := by
  induction calls generalizing base with
  | nil => exact sound
  | cons call calls ih => exact ih (call_sound sound)

theorem calls_process_nothing : visits (callAll index base calls).2 skNr = 0 := by
  induction calls generalizing base with
  | nil => rfl
  | cons call calls ih => exact ih

theorem calls_waiting (sound : base.Sound)
    (untouched : ¬Touched (callAll index base calls).2 skNr) :
    ((callAll index base calls).1.Waiting (index + 1) skNr ↔
      base.Waiting (index + 1) skNr ∧ ¬Overtaken (callAll index base calls).2 skNr) ∧
    (Overtaken (callAll index base calls).2 skNr → base.Waiting (index + 1) skNr) := by
  induction calls generalizing base with
  | nil => simp [callAll, Overtaken]
  | cons call calls ih =>
    rw [callAll] at untouched ⊢
    rw [touched_cons, not_or] at untouched
    have different : skNr ≠ call.skNr := Ne.symm untouched.1
    rcases ih (call_sound sound) untouched.2 with ⟨kept, overtaken⟩
    have step := @call_waiting base index skNr call sound different
    rw [overtaken_cons]
    constructor
    · rw [kept, step, not_or, and_assoc]
      rfl
    intro either
    rcases either with now | later
    · exact overtaken_waiting now
    · exact (step.mp (overtaken later)).1

end Logs

section Rounds

variable {happening : Happening} {happenings : List Happening} {fuel : Nat}
  {after : SkillBase} {log : List Entry}

theorem event_log :
    (base.event index skNr happening).2 = (callAll index base happening.calls).2 := by
  unfold SkillBase.event
  split_ifs <;> rfl

theorem event_timers :
    (base.event index skNr happening).1.timers =
      (callAll index base happening.calls).1.timers := by
  unfold SkillBase.event
  split_ifs <;> rfl

theorem waiting_congr {left right : SkillBase} (same : left.timers = right.timers) :
    left.Waiting index skNr ↔ right.Waiting index skNr := by
  simp only [SkillBase.Waiting, at_congr same]

theorem waiting_next (there : base.At index other) (different : skNr ≠ other) :
    base.Waiting (index + 1) skNr ↔ base.Waiting index skNr := by
  constructor
  · intro waiting
    rcases waiting with ⟨place, ahead, was⟩
    exact ⟨place, by omega, was⟩
  intro waiting
  rcases waiting with ⟨place, ahead, was⟩
  refine ⟨place, ?_, was⟩
  apply Nat.lt_of_le_of_ne ahead
  intro here
  rw [← here] at was
  exact different (Option.some.inj (was.2.symm.trans there.2))

theorem waiting_behind (sound : base.Sound) (there : base.At index skNr) :
    ¬base.Waiting (index + 1) skNr := by
  intro waiting
  rcases waiting with ⟨place, ahead, was⟩
  have same := sound.once was there
  omega

theorem waiting_popped (there : base.At index other) (different : skNr ≠ other) :
    (base.swapAndPop index).Waiting index skNr ↔ base.Waiting index skNr := by
  have within := there.1
  simp only [SkillBase.Waiting, pop_at there different]
  constructor
  · intro waiting
    rcases waiting with ⟨place, ahead, before, was, moved⟩
    refine ⟨before, ?_, was⟩
    split_ifs at moved <;> omega
  intro waiting
  rcases waiting with ⟨before, ahead, was⟩
  refine ⟨_, ?_, before, was, rfl⟩
  split_ifs <;> omega

/-- A round of the loop takes out the skill at the index or goes on behind it. -/
inductive SkillBase.Round (base : SkillBase) (index : Nat) (happenings : List Happening) :
    SkillBase → Nat → List Happening → List Entry → Prop where
  | done (skNr : Nat) (next : SkillBase) (there : base.At index skNr)
      (same : next.timers = (base.swapAndPop index).timers) :
      Round base index happenings next index happenings [.processed skNr]
  | quiet (skNr : Nat) (next : SkillBase) (there : base.At index skNr)
      (same : next.timers = base.timers) :
      Round base index happenings next (index + 1) happenings [.processed skNr]
  | event (skNr : Nat) (start next : SkillBase) (there : base.At index skNr)
      (begun : start.timers = base.timers)
      (same : next.timers = (callAll index start (happenings.headD ⟨[], 0⟩).calls).1.timers) :
      Round base index happenings next (index + 1) happenings.tail
        (.processed skNr :: (callAll index start (happenings.headD ⟨[], 0⟩).calls).2)

/-- The loop is left behind the last timer, and otherwise takes a round. -/
theorem loop_round (sound : base.Sound) (within : index < base.firstFreeTimer) :
    ∃ next nextIndex rest entries, base.Round index happenings next nextIndex rest entries ∧
      ∀ fuel, base.processLoop (fuel + 1) index happenings =
        (next.processLoop fuel nextIndex rest).map fun later =>
          (later.1, entries ++ later.2) := by
  rcases sound.filled index within with ⟨skNr, _, there⟩
  have listed := there.2
  by_cases ended : (base.process skNr).result = true
  · refine ⟨_, _, _, _, .done skNr
      ((base.setSkill skNr (base.process skNr).skill).swapAndPop index) there rfl, ?_⟩
    intro fuel
    rw [SkillBase.processLoop, if_pos within, listed]
    dsimp only
    rw [if_pos ended]
    rfl
  by_cases due : (base.process skNr).event.isSome = true
  · refine ⟨_, _, _, _, .event skNr (base.setSkill skNr (base.process skNr).skill)
      ((base.setSkill skNr (base.process skNr).skill).event index skNr
        (happenings.headD ⟨[], 0⟩)).1 there rfl event_timers, ?_⟩
    intro fuel
    rw [SkillBase.processLoop, if_pos within, listed]
    dsimp only
    rw [if_neg ended, if_pos due, event_log]
    rfl
  refine ⟨_, _, _, _, .quiet skNr (base.setSkill skNr (base.process skNr).skill) there rfl, ?_⟩
  intro fuel
  rw [SkillBase.processLoop, if_pos within, listed]
  dsimp only
  rw [if_neg ended, if_neg due]
  rfl

variable {next : SkillBase} {nextIndex : Nat} {rest : List Happening} {entries : List Entry}

variable (sound : base.Sound)
include sound

theorem round_sound (round : base.Round index happenings next nextIndex rest entries) :
    next.Sound := by
  cases round with
  | done skNr next there same => exact sound_congr same (pop_sound sound there.1)
  | quiet skNr next there same => exact sound_congr same sound
  | event skNr start next there begun same =>
    exact sound_congr same (calls_sound (sound_congr begun sound))

/-- Every round without a happening brings the index and the end of the list closer. -/
theorem round_shorter (within : index < base.firstFreeTimer)
    (round : base.Round index happenings next nextIndex rest entries) :
    rest.length * (skillCount + 1) + (next.firstFreeTimer - nextIndex) <
      happenings.length * (skillCount + 1) + (base.firstFreeTimer - index) := by
  have room := (round_sound sound round).room
  cases round with
  | done skNr next there same =>
    have count : next.firstFreeTimer = base.firstFreeTimer - 1 := congrArg Counted.count same
    omega
  | quiet skNr next there same =>
    have count : next.firstFreeTimer = base.firstFreeTimer := congrArg Counted.count same
    omega
  | event skNr start next there begun same =>
    rcases happenings with _ | ⟨happening, rest⟩
    · have count : next.firstFreeTimer = base.firstFreeTimer :=
        congrArg Counted.count (same.trans begun)
      dsimp only [tail_nil]
      omega
    dsimp only [tail_cons, length_cons]
    rw [Nat.succ_mul]
    omega

theorem loop_returns
    (enough : happenings.length * (skillCount + 1) + (base.firstFreeTimer - index) < fuel) :
    ∃ after log, base.processLoop fuel index happenings = some (after, log) ∧ after.Sound := by
  induction fuel generalizing base index happenings with
  | zero => omega
  | succ fuel ih =>
    by_cases within : index < base.firstFreeTimer
    · rcases @loop_round base index happenings sound within with
        ⟨next, nextIndex, rest, entries, round, looped⟩
      have shorter := round_shorter sound within round
      rcases ih (round_sound sound round) (Nat.lt_of_lt_of_le shorter (Nat.le_of_lt_succ enough))
        with ⟨after, log, returned, good⟩
      refine ⟨after, entries ++ log, ?_, good⟩
      rw [looped, returned]
      rfl
    refine ⟨base, [], ?_, sound⟩
    rw [SkillBase.processLoop, if_neg within]

theorem process_skills_returns :
    ∃ after log, base.processSkills happenings = some (after, log) ∧ after.Sound := by
  apply loop_returns sound
  have room := sound.room
  rw [Nat.succ_mul]
  omega

theorem round_waiting (round : base.Round index happenings next nextIndex rest entries)
    (untouched : ¬Touched entries skNr) :
    (¬base.Waiting index skNr ∧ ¬next.Waiting nextIndex skNr ∧ visits entries skNr = 0 ∧
        ¬Overtaken entries skNr) ∨
    (base.Waiting index skNr ∧ next.Waiting nextIndex skNr ∧ visits entries skNr = 0 ∧
        ¬Overtaken entries skNr) ∨
    (base.Waiting index skNr ∧ ¬next.Waiting nextIndex skNr ∧
        (visits entries skNr = 1 ∧ ¬Overtaken entries skNr ∨
          visits entries skNr = 0 ∧ Overtaken entries skNr)) := by
  have alone : ∀ found, visits [.processed found] skNr = if found = skNr then 1 else 0 := by
    intro found
    simp [visits, Entry.processes, countP_cons]
  have never : ∀ found, ¬Overtaken [.processed found] skNr := by
    intro found overtaken
    simp [Entry.overtakes, Overtaken] at overtaken
  cases round with
  | done found next there same =>
    rw [waiting_congr same, alone]
    by_cases here : found = skNr
    · rw [here] at there
      right; right
      refine ⟨⟨index, Nat.le_refl _, there⟩, ?_, Or.inl ⟨if_pos here, never found⟩⟩
      intro waiting
      rcases waiting with ⟨place, _, now⟩
      exact pop_gone sound there now
    rw [waiting_popped there (Ne.symm here), if_neg here]
    by_cases waiting : base.Waiting index skNr
    · exact Or.inr (Or.inl ⟨waiting, waiting, rfl, never found⟩)
    · exact Or.inl ⟨waiting, waiting, rfl, never found⟩
  | quiet found next there same =>
    rw [waiting_congr same, alone]
    by_cases here : found = skNr
    · rw [here] at there
      right; right
      exact ⟨⟨index, Nat.le_refl _, there⟩, waiting_behind sound there,
        Or.inl ⟨if_pos here, never found⟩⟩
    rw [waiting_next there (Ne.symm here), if_neg here]
    by_cases waiting : base.Waiting index skNr
    · exact Or.inr (Or.inl ⟨waiting, waiting, rfl, never found⟩)
    · exact Or.inl ⟨waiting, waiting, rfl, never found⟩
  | event found start next there begun same =>
    rw [touched_cons, not_or] at untouched
    rcases calls_waiting (sound_congr begun sound) untouched.2 with ⟨kept, overtaken⟩
    have total : visits (.processed found :: (callAll index start
        (happenings.headD ⟨[], 0⟩).calls).2) skNr = if found = skNr then 1 else 0 := by
      rw [← alone found, ← singleton_append, visits_append, calls_process_nothing,
        Nat.add_zero]
    have passed : Overtaken (.processed found :: (callAll index start
        (happenings.headD ⟨[], 0⟩).calls).2) skNr ↔
        Overtaken (callAll index start (happenings.headD ⟨[], 0⟩).calls).2 skNr := by
      rw [overtaken_cons]
      simp only [Entry.overtakes, false_or]
    rw [waiting_congr same, total, passed, kept, waiting_congr begun]
    rw [waiting_congr begun] at overtaken
    by_cases here : found = skNr
    · rw [here] at there
      have behind := waiting_behind sound there
      right; right
      exact ⟨⟨index, Nat.le_refl _, there⟩, fun waiting => behind waiting.1,
        Or.inl ⟨if_pos here, fun late => behind (overtaken late)⟩⟩
    rw [waiting_next there (Ne.symm here)] at overtaken ⊢
    rw [if_neg here]
    by_cases waiting : base.Waiting index skNr
    · by_cases late : Overtaken (callAll index start
        (happenings.headD ⟨[], 0⟩).calls).2 skNr
      · exact Or.inr (Or.inr ⟨waiting, fun both => both.2 late, Or.inr ⟨rfl, late⟩⟩)
      · exact Or.inr (Or.inl ⟨waiting, ⟨waiting, late⟩, rfl, late⟩)
    · exact Or.inl ⟨waiting, fun both => waiting both.1, rfl, fun late => waiting (overtaken late)⟩

/-- A skill that nobody sets or deletes is processed once if it is waiting, unless it is
overtaken, and then it is not processed at all. -/
theorem loop_visits (returned : base.processLoop fuel index happenings = some (after, log))
    (untouched : ¬Touched log skNr) :
    (¬base.Waiting index skNr → visits log skNr = 0 ∧ ¬Overtaken log skNr) ∧
    (base.Waiting index skNr →
      visits log skNr = 1 ∧ ¬Overtaken log skNr ∨ visits log skNr = 0 ∧ Overtaken log skNr) := by
  induction fuel generalizing base index happenings log with
  | zero => cases returned
  | succ fuel ih =>
    by_cases within : index < base.firstFreeTimer
    · rcases @loop_round base index happenings sound within with
        ⟨next, nextIndex, rest, entries, round, looped⟩
      rw [looped] at returned
      rcases later : next.processLoop fuel nextIndex rest with _ | pair
      · rw [later] at returned
        cases returned
      rw [later] at returned
      cases returned
      rw [touched_append, not_or] at untouched
      have remaining := ih (round_sound sound round) later untouched.2
      rw [visits_append, overtaken_append, not_or]
      rcases round_waiting sound round untouched.1 with passed | waits
      · have nothing := remaining.1 passed.2.1
        refine ⟨fun _ => ⟨?_, passed.2.2.2, nothing.2⟩, fun waiting => absurd waiting passed.1⟩
        rw [passed.2.2.1, nothing.1]
      refine ⟨fun gone => ?_, fun _ => ?_⟩
      · rcases waits with still | now
        · exact absurd still.1 gone
        · exact absurd now.1 gone
      rcases waits with still | now
      · rw [still.2.2.1, Nat.zero_add]
        rcases remaining.2 still.2.1 with once | never
        · exact Or.inl ⟨once.1, still.2.2.2, once.2⟩
        · exact Or.inr ⟨never.1, Or.inr never.2⟩
      have nothing := remaining.1 now.2.1
      rw [nothing.1, Nat.add_zero]
      rcases now.2.2 with once | never
      · exact Or.inl ⟨once.1, once.2, nothing.2⟩
      · exact Or.inr ⟨never.1, Or.inl never.2⟩
    rw [SkillBase.processLoop, if_neg within] at returned
    cases returned
    constructor
    · intro _
      exact ⟨rfl, by simp [Overtaken]⟩
    intro waiting
    rcases waiting with ⟨place, ahead, was⟩
    have inside := was.1
    omega

end Rounds

inductive Operation where
  | call (call : TimerCall)
  | processSkills (happenings : List Happening)

def SkillBase.operate (base : SkillBase) : Operation → Option SkillBase
  | .call call => some (base.call call)
  | .processSkills happenings => (base.processSkills happenings).map Prod.fst

def SkillBase.run (base : SkillBase) : List Operation → Option SkillBase
  | [] => some base
  | operation :: rest => (base.operate operation).bind fun after => after.run rest

/-- `SkillBase::SkillBase` and the skills that the creature makes. -/
def SkillBase.new (skills : Nat → Skill) : SkillBase := ⟨skills, fun _ => none, 0⟩

section Runs

variable {operations : List Operation}

theorem new_sound (skills : Nat → Skill) : (SkillBase.new skills).Sound where
  filled := by
    nofun
  distinct := distinct_nothing rfl

theorem run_sound (sound : base.Sound) :
    ∃ after, base.run operations = some after ∧ after.Sound := by
  induction operations generalizing base with
  | nil => exact ⟨base, rfl, sound⟩
  | cons operation rest ih =>
    cases operation with
    | call call => exact ih (call_sound sound)
    | processSkills happenings =>
      rcases @process_skills_returns base happenings sound with ⟨after, log, returned, good⟩
      rw [SkillBase.run, SkillBase.operate, returned]
      exact ih good

/-- After any operations the list holds no `NULL` and no skill twice, and a call of
`ProcessSkills` processes every skill that stays untouched exactly once if and only if no event
takes a timer out at the index or before it while an untouched skill behind the index is last. -/
theorem timer_list_processing (skills : Nat → Skill) (operations : List Operation) :
    ∃ base, (SkillBase.new skills).run operations = some base ∧
      (∀ place < base.firstFreeTimer, base.timerList place ≠ none) ∧
      (∀ left < base.firstFreeTimer, ∀ right < base.firstFreeTimer,
        base.timerList left = base.timerList right → left = right) ∧
      ∀ happenings, ∃ after log, base.processSkills happenings = some (after, log) ∧
        ((∀ skNr, base.Lists skNr → ¬Touched log skNr → visits log skNr = 1) ↔
          ∀ skNr, Overtaken log skNr → Touched log skNr) := by
  rcases @run_sound _ operations (new_sound skills) with ⟨base, ran, sound⟩
  refine ⟨base, ran, ?_, sound.distinct, ?_⟩
  · intro place within empty
    rcases sound.filled place within with ⟨skNr, _, there⟩
    exact Option.some_ne_none skNr (there.2.symm.trans empty)
  · intro happenings
    rcases @process_skills_returns base happenings sound with ⟨after, log, returned, _⟩
    refine ⟨after, log, returned, ?_⟩
    constructor
    · intro once skNr overtaken
      by_contra untouched
      rcases loop_visits sound returned untouched with ⟨idle, waits⟩
      by_cases waiting : base.Waiting 0 skNr
      · rcases waiting with ⟨place, _, there⟩
        have visited := once skNr ⟨place, there⟩ untouched
        rcases waits ⟨place, Nat.zero_le _, there⟩ with kept | passed
        · exact kept.2 overtaken
        · omega
      · exact (idle waiting).2 overtaken
    · intro touched skNr lists untouched
      rcases lists with ⟨place, there⟩
      rcases (loop_visits sound returned untouched).2 ⟨place, Nat.zero_le _, there⟩ with kept | passed
      · exact kept.1
      · exact absurd (touched skNr passed.2) untouched

/-- An invisible monster that is poisoned and burns: after three rounds poison is due. -/
def sickMonster : List Operation :=
  [.call (.setTimer skillIllusion 1 200 200 (-1)), .call (.setTimer skillPoison 50 3 3 (-1)),
    .call (.setTimer skillBurning 5 8 8 (-1)), .processSkills [], .processSkills [],
    .processSkills []]

/-- The damage of the poison ends the illusion in front of it, burning moves into its place and
is not processed. -/
theorem burning_is_not_processed :
    ∃ base after log, (SkillBase.new fun _ => ⟨0, 0, 0, 1000⟩).run sickMonster = some base ∧
      base.processSkills [⟨damageCalls false true, 0⟩] = some (after, log) ∧
      base.Lists skillBurning ∧ ¬Touched log skillBurning ∧ visits log skillBurning = 0 := by
  refine ⟨_, _, _, rfl, rfl, ⟨2, by decide, rfl⟩, by decide, rfl⟩

end Runs

end TibiaGame.SkillTimers
