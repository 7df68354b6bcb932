import Mathlib.Tactic
import Mathlib.Logic.Equiv.Basic

/-!
# Binary min-heaps with one disturbed position

Positions are the integers from 1 to `size`, and the parent of `p` is `p / 2`.
A key may be out of order at one position only. Exchanging it with its parent or
with its smaller child moves the disturbance there; when neither exchange is
due the whole range is a heap. Nothing here depends on what an entry stores
beside its key.
-/

namespace TibiaGame.Library.BinaryHeap

open Function

variable {Key : Type*} {key : Int → Key}

/-- The keys after the entries at `a` and `b` have changed places. -/
def exchange (key : Int → Key) (a b : Int) : Int → Key := key ∘ Equiv.swap a b

theorem exchange_left (a b : Int) : exchange key a b a = key b := by
  simp [exchange]

theorem exchange_right (a b : Int) : exchange key a b b = key a := by
  simp [exchange]

theorem exchange_other {a b p : Int} (notLeft : p ≠ a) (notRight : p ≠ b) :
    exchange key a b p = key p := by
  simp [exchange, Equiv.swap_apply_of_ne_of_ne notLeft notRight]

variable [LinearOrder Key] {size pos : Int}

/-- No position is before its parent. -/
def Heap (key : Int → Key) (size : Int) : Prop :=
  ∀ p, 2 ≤ p → p ≤ size → key (p / 2) ≤ key p

/-- The first entry is not after any other. -/
theorem Heap.first_le (heap : Heap key size) {p : Int} (lower : 1 ≤ p) (upper : p ≤ size) :
    key 1 ≤ key p := by
  by_cases isFirst : p = 1
  · rw [isFirst]
  have above := heap p (by omega) upper
  have parent := Heap.first_le heap (by omega : 1 ≤ p / 2) (by omega)
  exact parent.trans above
termination_by p.toNat

/-- Only the two levels around `pos` may be out of order, and the entries below
`pos` are not before the one above it. -/
structure HeapExcept (key : Int → Key) (size pos : Int) : Prop where
  apart : ∀ p, 2 ≤ p → p ≤ size → p ≠ pos → p / 2 ≠ pos → key (p / 2) ≤ key p
  across : 2 ≤ pos → ∀ p, 2 ≤ p → p ≤ size → p / 2 = pos → key (pos / 2) ≤ key p

/-- The entry at `pos` is not before its parent. -/
def AboveSettled (key : Int → Key) (pos : Int) : Prop := 2 ≤ pos → key (pos / 2) ≤ key pos

theorem Heap.except_update (heap : Heap key size) {newSize : Int} (shrunk : newSize ≤ size)
    (value : Key) : HeapExcept (update key pos value) newSize pos where
  apart := by
    intro p lower upper notPos parentNotPos
    rw [update_of_ne parentNotPos, update_of_ne notPos]
    exact heap p lower (by omega)
  across := by
    intro posLower p lower upper parent
    have above := heap pos posLower (by omega)
    have below := heap p lower (by omega)
    rw [parent] at below
    rw [update_of_ne (by omega), update_of_ne (by omega)]
    exact above.trans below

theorem Heap.except_append (heap : Heap key size) (value : Key) :
    HeapExcept (update key (size + 1) value) (size + 1) (size + 1) where
  apart := by
    intro p lower upper notPos parentNotPos
    rw [update_of_ne parentNotPos, update_of_ne notPos]
    exact heap p lower (by omega)
  across := by
    intro posLower p lower upper parent
    omega

theorem HeapExcept.sift_up (hole : HeapExcept key size pos) (inner : 2 ≤ pos)
    (bounded : pos ≤ size) (disorder : key pos < key (pos / 2)) :
    HeapExcept (exchange key pos (pos / 2)) size (pos / 2) where
  apart := by
    intro p lower upper notParent parentNotParent
    have notPos : p ≠ pos := by
      rintro rfl
      exact parentNotParent rfl
    rw [exchange_other notPos notParent]
    by_cases below : p / 2 = pos
    · rw [below, exchange_left]
      exact hole.across inner p lower upper below
    rw [exchange_other below parentNotParent]
    exact hole.apart p lower upper notPos below
  across := by
    intro parentInner p lower upper parent
    have parentEdge : key (pos / 2 / 2) ≤ key (pos / 2) :=
      hole.apart (pos / 2) parentInner (by omega) (by omega) (by omega)
    rw [exchange_other (by omega : pos / 2 / 2 ≠ pos) (by omega)]
    by_cases same : p = pos
    · rw [same, exchange_left]
      exact parentEdge
    rw [exchange_other same (by omega)]
    have siblingEdge := hole.apart p lower upper same (by omega)
    rw [parent] at siblingEdge
    exact parentEdge.trans siblingEdge

theorem HeapExcept.sift_down (hole : HeapExcept key size pos) {child : Int}
    (childParent : child / 2 = pos) (childLower : 2 ≤ child) (childUpper : child ≤ size)
    (smallest : ∀ p, 2 ≤ p → p ≤ size → p / 2 = pos → key child ≤ key p) :
    HeapExcept (exchange key pos child) size child where
  apart := by
    intro p lower upper notChild parentNotChild
    by_cases same : p = pos
    · rw [same, exchange_left, exchange_other (by omega) (by omega)]
      exact hole.across (by omega) child childLower childUpper childParent
    rw [exchange_other same notChild]
    by_cases below : p / 2 = pos
    · rw [below, exchange_left]
      exact smallest p lower upper below
    rw [exchange_other below parentNotChild]
    exact hole.apart p lower upper same below
  across := by
    intro childInner p lower upper parent
    rw [childParent, exchange_left, exchange_other (by omega) (by omega)]
    have edge := hole.apart p lower upper (by omega) (by omega)
    rwa [parent] at edge

theorem exchange_above_settled {child : Int} (childParent : child / 2 = pos)
    (disorder : key child < key pos) : AboveSettled (exchange key pos child) child := by
  intro _
  rw [childParent, exchange_left, exchange_right]
  exact disorder.le

theorem HeapExcept.congr {other : Int → Key} (hole : HeapExcept key size pos)
    (same : ∀ p, 1 ≤ p → p ≤ size → other p = key p) (bounded : pos ≤ size) :
    HeapExcept other size pos where
  apart := by
    intro p lower upper notPos parentNotPos
    rw [same p (by omega) upper, same (p / 2) (by omega) (by omega)]
    exact hole.apart p lower upper notPos parentNotPos
  across := by
    intro inner p lower upper parent
    rw [same p (by omega) upper, same (pos / 2) (by omega) (by omega)]
    exact hole.across inner p lower upper parent

/-- A disturbance that is neither above nor below its place is none. -/
theorem HeapExcept.heap (hole : HeapExcept key size pos) (above : AboveSettled key pos)
    (below : ∀ p, 2 ≤ p → p ≤ size → p / 2 = pos → key pos ≤ key p) : Heap key size := by
  intro p lower upper
  by_cases same : p = pos
  · subst same
    exact above lower
  by_cases child : p / 2 = pos
  · rw [child]
    exact below p lower upper child
  · exact hole.apart p lower upper same child

end TibiaGame.Library.BinaryHeap
