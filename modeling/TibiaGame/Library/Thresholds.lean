import Mathlib.Tactic

/-!
# Levels with rising thresholds

Every level has a threshold, and from a lowest to a highest level the thresholds rise. A value
stands on the level whose threshold it has reached while it is still short of the next one.
One loop looks for this level from below and one from above.
-/

namespace TibiaGame.Library.Thresholds

variable {threshold : Int → Int} {lowest highest level found value : Int}

def RisingBetween (threshold : Int → Int) (lowest highest : Int) : Prop :=
  ∀ level, lowest ≤ level → level < highest → threshold level < threshold (level + 1)

structure Stands (threshold : Int → Int) (value level : Int) : Prop where
  reached : threshold level ≤ value
  short : value < threshold (level + 1)

def climb (threshold : Int → Int) (value : Int) : Nat → Int → Option Int
  | 0, _ => none
  | fuel + 1, level =>
      if threshold (level + 1) ≤ value then climb threshold value fuel (level + 1) else some level

def descend (threshold : Int → Int) (value : Int) : Nat → Int → Option Int
  | 0, _ => none
  | fuel + 1, level =>
      if value < threshold level then descend threshold value fuel (level - 1) else some level

theorem RisingBetween.le (rising : RisingBetween threshold lowest highest) {left right : Int}
    (low : lowest ≤ left) (upTo : left ≤ right) (high : right ≤ highest) :
    threshold left ≤ threshold right := by
  induction right, upTo using Int.leInduction with
  | base => exact Int.le_refl _
  | succ right upTo ih =>
    have step := rising right (by omega) (by omega)
    omega

section Standing

variable (rising : RisingBetween threshold lowest highest) (stands : Stands threshold value found)
  (within : found < highest)

include rising stands

theorem short_above (low : lowest ≤ found) (above : found < level) (high : level ≤ highest) :
    value < threshold level := by
  have after := rising.le (by omega) (show found + 1 ≤ level by omega) high
  have short := stands.short
  omega

theorem descend_finds {fuel : Nat} (low : lowest ≤ found) (downTo : found ≤ level)
    (high : level ≤ highest) (enough : level - found < fuel) :
    descend threshold value fuel level = some found := by
  induction fuel generalizing level with
  | zero => omega
  | succ fuel ih =>
    rw [descend]
    by_cases there : level = found
    · rw [there, if_neg (Int.not_lt.mpr stands.reached)]
    rw [if_pos (short_above rising stands low (by omega) high)]
    exact ih (by omega) (by omega) (by omega)

include within

theorem reached_below (low : lowest ≤ level) (upTo : level ≤ found) : threshold level ≤ value := by
  have before := rising.le low upTo (Int.le_of_lt within)
  have reached := stands.reached
  omega

theorem stands_once (low : lowest ≤ found) (other : Stands threshold value level)
    (otherLow : lowest ≤ level) (otherWithin : level < highest) : level = found := by
  by_contra different
  rcases Int.lt_or_gt_of_ne different with less | more
  · have reached := reached_below rising stands within (show lowest ≤ level + 1 by omega)
      (by omega)
    have short := other.short
    omega
  have short := short_above rising stands low more (Int.le_of_lt otherWithin)
  have reached := other.reached
  omega

theorem climb_finds {fuel : Nat} (low : lowest ≤ level) (upTo : level ≤ found)
    (enough : found - level < fuel) : climb threshold value fuel level = some found := by
  induction fuel generalizing level with
  | zero => omega
  | succ fuel ih =>
    rw [climb]
    by_cases there : level = found
    · rw [there, if_neg (Int.not_le.mpr stands.short)]
    rw [if_pos (reached_below rising stands within (by omega) (by omega))]
    exact ih (by omega) (by omega) (by omega)

end Standing

/-- Between the lowest and the highest threshold a value stands on some level. -/
theorem stands_somewhere (reached : threshold lowest ≤ value) (upTo : lowest ≤ highest)
    (short : value < threshold highest) :
    ∃ level, lowest ≤ level ∧ level < highest ∧ Stands threshold value level := by
  induction highest, upTo using Int.leInduction with
  | base => omega
  | succ highest upTo ih =>
    by_cases earlier : value < threshold highest
    · rcases ih earlier with ⟨level, low, less, stands⟩
      exact ⟨level, low, by omega, stands⟩
    · exact ⟨highest, upTo, by omega, by omega, short⟩

end TibiaGame.Library.Thresholds
