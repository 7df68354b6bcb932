import Mathlib.Tactic

/-!
# Singly linked lists

A list is stored as a start position and a `next` function that ends in `nil`.
Taking a member out or putting one in changes `next` at one or two positions;
the lemmas say what list is stored afterwards, given `next` at the members.
-/

namespace TibiaGame.Library.LinkedList

open List

variable {Pos : Type*} {nil : Pos} {next newNext : Pos → Pos} {start : Pos}

/-- The positions met when `next` is followed from `start` up to `nil`. -/
def Chain (nil : Pos) (next : Pos → Pos) : Pos → List Pos → Prop
  | start, [] => start = nil
  | start, p :: rest => start = p ∧ p ≠ nil ∧ Chain nil next (next p) rest

/-- The first member, or `nil` for the empty list. -/
def headOf (nil : Pos) : List Pos → Pos
  | [] => nil
  | p :: _ => p

/-- The last member, or `before` when there is none. -/
def lastOf : Pos → List Pos → Pos
  | before, [] => before
  | _, p :: rest => lastOf p rest

@[simp] theorem head_of_nil : headOf nil ([] : List Pos) = nil := rfl

@[simp] theorem head_of_cons (p : Pos) (rest : List Pos) : headOf nil (p :: rest) = p := rfl

@[simp] theorem last_of_nil (before : Pos) : lastOf before ([] : List Pos) = before := rfl

@[simp] theorem last_of_cons (before p : Pos) (rest : List Pos) :
    lastOf before (p :: rest) = lastOf p rest := rfl

theorem last_of_mem (p : Pos) (rest : List Pos) : lastOf p rest ∈ p :: rest := by
  induction rest generalizing p with
  | nil => simp
  | cons q other ih =>
    exact mem_cons_of_mem p (ih q)

theorem chain_start {members : List Pos} (chain : Chain nil next start members) :
    start = headOf nil members := by
  cases members with
  | nil => exact chain
  | cons p rest => exact chain.1

theorem chain_unique {left right : List Pos} (leftChain : Chain nil next start left)
    (rightChain : Chain nil next start right) : left = right := by
  induction left generalizing start right with
  | nil =>
    cases right with
    | nil => rfl
    | cons p rest => exact (rightChain.2.1 (rightChain.1.symm.trans leftChain)).elim
  | cons p rest ih =>
    rcases right with _ | ⟨q, other⟩
    · exact (leftChain.2.1 (leftChain.1.symm.trans rightChain)).elim
    have same : p = q := leftChain.1.symm.trans rightChain.1
    subst same
    rw [ih leftChain.2.2 rightChain.2.2]

theorem chain_ne_nil {members : List Pos} (chain : Chain nil next start members) {p : Pos}
    (member : p ∈ members) : p ≠ nil := by
  induction members generalizing start with
  | nil => cases member
  | cons q rest ih =>
    rcases mem_cons.mp member with rfl | later
    · exact chain.2.1
    · exact ih chain.2.2 later

theorem chain_congr {members : List Pos} (chain : Chain nil next start members)
    (same : ∀ p ∈ members, newNext p = next p) : Chain nil newNext start members := by
  induction members generalizing start with
  | nil => exact chain
  | cons p rest ih =>
    rcases chain with ⟨atStart, inner, later⟩
    refine ⟨atStart, inner, ?_⟩
    rw [same p (by simp)]
    apply ih later
    intro q member
    exact same q (mem_cons_of_mem p member)

/-- Chains are closed under `next`, so whatever lies behind a member is a member. -/
theorem chain_next_mem {members : List Pos} {p : Pos} (chain : Chain nil next start members)
    (found : p ∈ members) (inner : next p ≠ nil) : next p ∈ members := by
  induction members generalizing start with
  | nil => cases found
  | cons q rest ih =>
    rcases mem_cons.mp found with rfl | later
    · rcases rest with _ | ⟨r, other⟩
      · exact (inner chain.2.2).elim
      rw [chain.2.2.1]
      simp
    · exact mem_cons_of_mem _ (ih chain.2.2 later)

/-- The tail of a chain is a chain from its own first member. -/
theorem chain_suffix {front back : List Pos} (chain : Chain nil next start (front ++ back)) :
    Chain nil next (headOf nil back) back := by
  induction front generalizing start with
  | nil =>
    have here := chain_start chain
    rwa [here] at chain
  | cons p rest ih => exact ih chain.2.2

/-- A change of `next` at the last member of `front` alone exchanges what follows it. -/
theorem chain_replace {front back newBack : List Pos}
    (chain : Chain nil next start (front ++ back)) (nodup : front.Nodup)
    (kept : ∀ p ∈ front, p ≠ lastOf nil front → newNext p = next p)
    (joined : front ≠ [] → newNext (lastOf nil front) = headOf nil newBack)
    (newChain : Chain nil newNext (headOf nil newBack) newBack) :
    Chain nil newNext (headOf nil (front ++ newBack)) (front ++ newBack) := by
  induction front generalizing start with
  | nil => exact newChain
  | cons p rest ih =>
    rcases chain with ⟨_, inner, later⟩
    refine ⟨rfl, inner, ?_⟩
    rcases rest with _ | ⟨q, other⟩
    · have here := joined (by simp)
      simp only [last_of_cons, last_of_nil] at here
      rw [here]
      exact newChain
    have notLast : p ≠ lastOf nil (p :: q :: other) := by
      rw [last_of_cons, last_of_cons]
      intro same
      exact (nodup_cons.mp nodup).1 (same ▸ last_of_mem q other)
    have tail := ih later (nodup_cons.mp nodup).2
      (by
        intro r member notEnd
        apply kept r (mem_cons_of_mem p member)
        rwa [last_of_cons, last_of_cons, ← last_of_cons nil])
      (by
        intro _
        have here := joined (by simp)
        rwa [last_of_cons, last_of_cons, ← last_of_cons nil] at here)
    rw [kept p (by simp) notLast, later.1]
    exact tail

/-- A new member between `front` and `back`. -/
theorem chain_insert {front back : List Pos} {fresh : Pos}
    (chain : Chain nil next start (front ++ back)) (nodup : (front ++ back).Nodup)
    (notNil : fresh ≠ nil) (kept : ∀ p ∈ front ++ back, p ≠ lastOf nil front → newNext p = next p)
    (joined : front ≠ [] → newNext (lastOf nil front) = fresh)
    (freshNext : newNext fresh = headOf nil back) :
    Chain nil newNext (headOf nil (front ++ fresh :: back)) (front ++ fresh :: back) := by
  rcases nodup_append.mp nodup with ⟨frontNodup, _, apart⟩
  have backKept : ∀ p ∈ back, newNext p = next p := by
    intro p member
    apply kept p (mem_append_right _ member)
    rcases front with _ | ⟨q, rest⟩
    · rintro rfl
      exact chain_ne_nil chain member rfl
    rw [last_of_cons]
    intro same
    exact apart _ (last_of_mem q rest) _ member same.symm
  apply chain_replace chain frontNodup
  · intro p member
    exact kept p (mem_append_left _ member)
  · exact joined
  · refine ⟨rfl, notNil, ?_⟩
    rw [freshNext]
    exact chain_congr (chain_suffix chain) backKept

/-- A member between `front` and `back` is taken out. -/
theorem chain_remove {front back : List Pos} {gone : Pos}
    (chain : Chain nil next start (front ++ gone :: back)) (nodup : (front ++ gone :: back).Nodup)
    (kept : ∀ p ∈ front ++ back, p ≠ lastOf nil front → newNext p = next p)
    (joined : front ≠ [] → newNext (lastOf nil front) = next gone) :
    Chain nil newNext (headOf nil (front ++ back)) (front ++ back) := by
  rcases nodup_append.mp nodup with ⟨frontNodup, _, apart⟩
  have tail := chain_suffix chain
  have backStart : next gone = headOf nil back := chain_start tail.2.2
  have backKept : ∀ p ∈ back, newNext p = next p := by
    intro p member
    apply kept p (mem_append_right _ member)
    rcases front with _ | ⟨q, rest⟩
    · rintro rfl
      exact chain_ne_nil tail.2.2 member rfl
    rw [last_of_cons]
    intro same
    exact apart _ (last_of_mem q rest) _ (mem_cons_of_mem gone member) same.symm
  apply chain_replace chain frontNodup
  · intro p member
    exact kept p (mem_append_left _ member)
  · intro some_front
    rw [joined some_front, backStart]
  · rw [← backStart]
    exact chain_congr tail.2.2 backKept

end TibiaGame.Library.LinkedList
