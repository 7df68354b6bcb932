import Mathlib.Tactic

/-!
# Counted loops

A loop over an index below a bound, which grows by the same step in every round. With a step of
one it ends behind the bound; with a step of zero it never ends once it has begun.
-/

namespace TibiaGame.Library.CountedLoop

universe u

variable {State : Type u}

def forLoop (bound step : Nat) (body : Nat → State → State) : Nat → Nat → State → Option State
  | 0, _, _ => none
  | fuel + 1, index, state =>
      if index < bound then forLoop bound step body fuel (index + step) (body index state)
      else some state

variable {bound : Nat} {body : Nat → State → State}

/-- The state behind the rounds from an index on. -/
def rounds (body : Nat → State → State) (index : Nat) : Nat → State → State
  | 0, state => state
  | count + 1, state => rounds body (index + 1) count (body index state)

theorem for_loop_rounds {fuel index : Nat} {state : State} (upTo : index ≤ bound)
    (enough : bound - index < fuel) :
    forLoop bound 1 body fuel index state = some (rounds body index (bound - index) state) := by
  induction fuel generalizing index state with
  | zero => omega
  | succ fuel ih =>
    rw [forLoop]
    by_cases inside : index < bound
    · rw [if_pos inside, ih (by omega) (by omega), show bound - index = bound - (index + 1) + 1 by omega,
        rounds]
    · rw [if_neg inside, show bound - index = 0 by omega, rounds]

theorem for_loop_ends {fuel : Nat} {state : State} (enough : bound < fuel) :
    forLoop bound 1 body fuel 0 state = some (rounds body 0 bound state) :=
  for_loop_rounds (Nat.zero_le bound) enough

theorem rounds_invariant (invariant : Nat → State → Prop) {index count : Nat} {state : State}
    (start : invariant index state)
    (step : ∀ place state, place < index + count → invariant place state →
      invariant (place + 1) (body place state)) :
    invariant (index + count) (rounds body index count state) := by
  induction count generalizing index state with
  | zero => exact start
  | succ count ih =>
    rw [rounds, show index + (count + 1) = index + 1 + count by omega]
    apply ih (step index state (by omega) start)
    intro place state inside holds
    exact step place state (by omega) holds

theorem for_loop_stuck {fuel index : Nat} {state : State} (inside : index < bound) :
    forLoop bound 0 body fuel index state = none := by
  induction fuel generalizing state with
  | zero => rfl
  | succ fuel ih => rw [forLoop, if_pos inside, Nat.add_zero, ih]

end TibiaGame.Library.CountedLoop
