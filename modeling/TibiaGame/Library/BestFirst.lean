import Mathlib.Algebra.BigOperators.Group.Finset.Basic
import TibiaGame.Library.OrderedInsertion

/-!
# Best-first search with a consistent estimate

Nodes wait in a queue that is ordered by the length of the way to them and an estimate of the rest.
The first one is taken out and improves its neighbors, unless the goal has already been reached on
a way that is no longer than the cheapest step on from it. When the estimate is consistent, a node
that was taken out is never improved again, and in the end the way to the goal is a shortest one.
-/

namespace TibiaGame.Library.BestFirst

open Library.OrderedInsertion List Function

variable {Node : Type}

/-- The steps from a node with their prices, the nodes that may be entered, the cheapest step from
a node, the estimate of the rest of the way, the goal, and the nodes that surround the others. -/
structure Problem (Node : Type) where
  next : Node → List (Node × Int)
  enter : Node → Bool
  least : Node → Int
  estimate : Node → Int
  goal : Node
  wall : Node → Bool

/-- Nodes without a length or a rank have not been reached or not been queued. -/
structure Search (Node : Type) where
  length : Node → Option Int
  rank : Node → Option Int
  before : Node → Option Node
  queue : List Node
  lost : Bool

section Operations

variable [DecidableEq Node]

def Problem.listed (problem : Problem Node) (node : Node) : Bool :=
  node != problem.goal && problem.enter node

def remove (search : Search Node) (node : Node) : Search Node :=
  if node ∈ search.queue then { search with queue := search.queue.erase node }
  else { search with lost := true }

def passes (rank : Node → Option Int) (bound : Int) (node : Node) : Bool :=
  (rank node).any (· < bound)

/-- The node is put in front of the first one that is not ranked before it. -/
def enlist (search : Search Node) (node : Node) (rank : Int) : Search Node :=
  let ranks := Function.update search.rank node (some rank)
  { search with
    rank := ranks
    queue := search.queue.takeWhile (passes ranks rank) ++
      node :: search.queue.dropWhile (passes ranks rank) }

def reach (search : Search Node) (node target : Node) (length : Int) : Search Node :=
  { search with
    length := Function.update search.length target (some length)
    before := Function.update search.before target (some node) }

def enqueue (problem : Problem Node) (search : Search Node) (target : Node) (length : Int) :
    Search Node :=
  let search := if (search.rank target).isSome then remove search target else search
  enlist search target (length + problem.estimate target)

def improve (problem : Problem Node) (node : Node) (search : Search Node) (target : Node)
    (length : Int) : Search Node :=
  if (search.length target).all (length < ·) then
    if problem.listed target then enqueue problem (reach search node target length) target length
    else reach search node target length
  else search

def expand (problem : Problem Node) (search : Search Node) (node : Node) (rest : List Node) :
    Search Node :=
  let search := { search with queue := rest }
  let length := (search.length node).getD 0
  if (search.length problem.goal).any (· ≤ length + problem.least node) then search
  else (problem.next node).foldl (fun search target =>
    improve problem node search target.1 (length + target.2)) search

def run (problem : Problem Node) : Nat → Search Node → Option (Search Node)
  | 0, _ => none
  | fuel + 1, search =>
      match search.queue with
      | [] => some search
      | node :: rest => run problem fuel (expand problem search node rest)

def first (problem : Problem Node) (start : Node) : Search Node where
  length node := if node = start then some 0 else if problem.wall node then some (-1) else none
  rank node := if problem.wall node then some (-1) else none
  before _ := none
  queue := [start]
  lost := false

end Operations

section Invariant

variable {problem : Problem Node} {start node : Node} {closed : Finset Node}
  {search : Search Node} {most : Node → Int}

/-- A way from a node to the start: the nodes that are entered on it, and its price. -/
inductive Way (problem : Problem Node) (start : Node) : Node → List Node → Int → Prop where
  | here : Way problem start start [] 0
  | step {node target : Node} {path : List Node} {cost price : Int} :
      Way problem start node path cost → problem.enter node = true →
      (target, price) ∈ problem.next node → problem.wall target = false →
      Way problem start target (node :: path) (cost + price)

/-- The nodes that follow one another behind a node. -/
inductive Trail (before : Node → Option Node) : Node → List Node → Prop where
  | last {node : Node} : before node = none → Trail before node []
  | step {node other : Node} {path : List Node} : before node = some other →
      Trail before other path → Trail before node (other :: path)

def full (problem : Problem Node) (search : Search Node) (node : Node) : Int :=
  (search.length node).getD 0 + problem.estimate node

variable [DecidableEq Node]

/-- Steps cost something, and the estimate falls by no more than the price of a step. -/
structure Consistent (problem : Problem Node) (most : Node → Int) : Prop where
  positive : ∀ node, problem.enter node = true →
    0 < problem.least node ∧ problem.least node ≤ most node
  priced : ∀ node target price, problem.enter node = true → (target, price) ∈ problem.next node →
    problem.least node ≤ price ∧ price ≤ most node
  falls : ∀ node target price, problem.enter node = true → (target, price) ∈ problem.next node →
    problem.enter target = true → target ≠ problem.goal →
    problem.estimate node ≤ price + problem.estimate target
  outside : ∀ node, problem.enter node = true → problem.wall node = false

/-- The lengths are those of ways that lead through nodes that have been taken out. -/
structure Measured (problem : Problem Node) (most : Node → Int) (start : Node)
    (closed : Finset Node) (search : Search Node) : Prop where
  origin : search.length start = some 0
  walls : ∀ node, problem.wall node = true → search.length node = some (-1)
  bounded : ∀ node value, problem.wall node = false → search.length node = some value →
    0 ≤ value ∧ value ≤ ∑ other ∈ closed, most other
  chain : ∀ node value, problem.wall node = false → search.length node = some value →
    node = start ∧ value = 0 ∧ search.before node = none ∨
      ∃ other length price, search.before node = some other ∧ other ∈ closed ∧
        search.length other = some length ∧ (node, price) ∈ problem.next other ∧
        value = length + price

/-- The nodes that have been reached are in the queue or have been taken out of it, and the queue
is ordered. -/
structure Queued (problem : Problem Node) (start : Node) (closed : Finset Node)
    (search : Search Node) : Prop where
  found : search.lost = false
  listed : ∀ node, node ∈ closed ∨ node ∈ search.queue → problem.listed node = true
  once : search.queue.Nodup
  apart : ∀ node, node ∈ search.queue → node ∉ closed
  reached : ∀ node, node ∈ closed ∨ node ∈ search.queue → ∃ value, search.length node = some value
  known : ∀ node value, problem.listed node = true → search.length node = some value →
    node ∈ closed ∨ node ∈ search.queue
  ranked : ∀ node, node ∈ search.queue → node ≠ start →
    search.rank node = some (full problem search node)
  unranked : ∀ node, problem.listed node = true → node ∉ closed → node ∉ search.queue →
    search.rank node = none
  ordered : OrderedBy (full problem search) search.queue
  behind : ∀ early, early ∈ closed → ∀ late, late ∈ search.queue →
    full problem search early ≤ full problem search late

/-- Lengths become smaller only, and those of nodes that have been taken out are settled. -/
structure Progress (closed : Finset Node) (before after : Search Node) : Prop where
  kept : ∀ node, node ∈ closed → after.length node = before.length node
  lower : ∀ node old, before.length node = some old →
    ∃ new, new ≤ old ∧ after.length node = some new

end Invariant

section Improvements

variable {problem : Problem Node} {start node target : Node} {closed : Finset Node}
  {search : Search Node} {most : Node → Int}

theorem full_of_length {value : Int} (known : search.length node = some value) :
    full problem search node = value + problem.estimate node := by
  rw [full, known, Option.getD_some]

theorem while_congr {left right : Node → Bool} {nodes : List Node}
    (same : ∀ other, other ∈ nodes → left other = right other) :
    nodes.takeWhile left = nodes.takeWhile right ∧ nodes.dropWhile left = nodes.dropWhile right := by
  induction nodes with
  | nil => exact ⟨rfl, rfl⟩
  | cons first rest ih =>
    have here := same first mem_cons_self
    have later := ih fun other member => same other (mem_cons_of_mem first member)
    rw [takeWhile_cons, takeWhile_cons, dropWhile_cons, dropWhile_cons,
      here, later.1, later.2]
    exact ⟨rfl, rfl⟩

theorem Measured.congr {after : Search Node} (measured : Measured problem most start closed search)
    (lengths : after.length = search.length) (links : after.before = search.before) :
    Measured problem most start closed after := by
  apply Measured.mk
  · rw [lengths]
    exact measured.origin
  · rw [lengths]
    exact measured.walls
  · rw [lengths]
    exact measured.bounded
  · rw [lengths, links]
    exact measured.chain

theorem Progress.congr {after other : Search Node} (progress : Progress closed search after)
    (lengths : other.length = after.length) : Progress closed search other := by
  apply Progress.mk
  · rw [lengths]
    exact progress.kept
  · rw [lengths]
    exact progress.lower

theorem Progress.refl (closed : Finset Node) (search : Search Node) :
    Progress closed search search := by
  apply Progress.mk
  · intro node _
    rfl
  · intro node old known
    exact ⟨old, Int.le_refl old, known⟩

theorem Progress.trans {before middle after : Search Node} (early : Progress closed before middle)
    (late : Progress closed middle after) : Progress closed before after := by
  apply Progress.mk
  · intro node out
    exact (late.kept node out).trans (early.kept node out)
  intro node old known
  rcases early.lower node old known with ⟨value, low, there⟩
  rcases late.lower node value there with ⟨new, lower, found⟩
  exact ⟨new, lower.trans low, found⟩

theorem Progress.full {after : Search Node} (progress : Progress closed search after)
    (out : node ∈ closed) : full problem after node = full problem search node := by
  rw [BestFirst.full, BestFirst.full, progress.kept node out]

theorem shorter_cases (length : Int) (old : Option Int) :
    old.all (length < ·) = true ∧ (∀ value, old = some value → length < value) ∨
      old.all (length < ·) = false ∧ ∃ value, value ≤ length ∧ old = some value := by
  rcases old with _ | value
  · left
    apply And.intro
    · rfl
    · nofun
  by_cases shorter : length < value
  · left
    apply And.intro
    · rw [Option.all_some, decide_eq_true shorter]
    · intro other same
      cases same
      exact shorter
  right
  apply And.intro
  · rw [Option.all_some, decide_eq_false shorter]
  · exact ⟨value, Int.not_lt.mp shorter, rfl⟩

variable [DecidableEq Node]

theorem listed_iff : problem.listed node = true ↔
    node ≠ problem.goal ∧ problem.enter node = true := by
  rw [Problem.listed, Bool.and_eq_true, bne_iff_ne]

theorem reach_length (node target other : Node) (length : Int) :
    (reach search node target length).length other =
      if other = target then some length else search.length other := by
  simp only [reach, update_apply]

theorem reach_before (node target other : Node) (length : Int) :
    (reach search node target length).before other =
      if other = target then some node else search.before other := by
  simp only [reach, update_apply]

theorem full_reach_other {other : Node} (length : Int) (different : other ≠ target) :
    full problem (reach search node target length) other = full problem search other := by
  rw [full, full, reach_length, if_neg different]

theorem full_reach_target (length : Int) :
    full problem (reach search node target length) target = length + problem.estimate target := by
  rw [full, reach_length, if_pos rfl, Option.getD_some]

/-- The search has taken the node out and improves its neighbors. -/
structure Expanding (problem : Problem Node) (most : Node → Int) (start : Node)
    (closed : Finset Node) (node : Node) (value : Int) (search : Search Node) : Prop where
  measured : Measured problem most start closed search
  queued : Queued problem start closed search
  begun : start ∈ closed
  taken : node ∈ closed
  length : search.length node = some value
  last : ∀ early, early ∈ closed → full problem search early ≤ full problem search node
  fits : value + most node ≤ ∑ other ∈ closed, most other

/-- A shorter way to a neighbor leads to one that is not a wall and has not been taken out. -/
theorem improved_fresh {value price : Int} (consistent : Consistent problem most)
    (expanding : Expanding problem most start closed node value search)
    (edge : (target, price) ∈ problem.next node)
    (shorter : ∀ old, search.length target = some old → value + price < old) :
    problem.wall target = false ∧ target ∉ closed ∧ 0 < price := by
  have enter := (listed_iff.mp (expanding.queued.listed node (Or.inl expanding.taken))).2
  have priced := consistent.priced node target price enter edge
  have least := (consistent.positive node enter).1
  have early := (expanding.measured.bounded node value (consistent.outside node enter)
    expanding.length).1
  refine ⟨?_, ?_, by omega⟩
  · apply Bool.eq_false_of_not_eq_true
    intro wall
    have low := shorter (-1) (expanding.measured.walls target wall)
    omega
  intro out
  have listed := listed_iff.mp (expanding.queued.listed target (Or.inl out))
  cases expanding.queued.reached target (Or.inl out) with
  | intro old known =>
    have low := shorter old known
    have falls := consistent.falls node target price enter edge listed.2 listed.1
    have order := expanding.last target out
    rw [full_of_length known, full_of_length expanding.length] at order
    omega

theorem reach_measured {value price : Int} (consistent : Consistent problem most)
    (expanding : Expanding problem most start closed node value search)
    (edge : (target, price) ∈ problem.next node)
    (shorter : ∀ old, search.length target = some old → value + price < old) :
    Measured problem most start closed (reach search node target (value + price)) := by
  rcases improved_fresh consistent expanding edge shorter with ⟨open_target, fresh, positive⟩
  have measured := expanding.measured
  have enter := (listed_iff.mp (expanding.queued.listed node (Or.inl expanding.taken))).2
  have priced := (consistent.priced node target price enter edge).2
  have early := measured.bounded node value (consistent.outside node enter) expanding.length
  have other_closed : ∀ other, other ∈ closed → other ≠ target := by
    intro other out same
    rw [same] at out
    exact fresh out
  apply Measured.mk
  · rw [reach_length, if_neg (other_closed start expanding.begun)]
    exact measured.origin
  · intro other wall
    rw [reach_length, if_neg, measured.walls other wall]
    intro same
    rw [same, open_target] at wall
    cases wall
  · intro other length inside known
    rw [reach_length] at known
    split_ifs at known with same
    · cases known
      have fits := expanding.fits
      omega
    · exact measured.bounded other length inside known
  · intro other length inside known
    rw [reach_length] at known
    rw [reach_before]
    split_ifs at known ⊢ with same
    · cases known
      right
      refine ⟨node, value, price, rfl, expanding.taken, ?_, ?_, rfl⟩
      · rw [reach_length, if_neg (other_closed node expanding.taken)]
        exact expanding.length
      · rw [same]
        exact edge
    rcases measured.chain other length inside known with begins | follows
    · exact Or.inl begins
    rcases follows with ⟨previous, old, step, link, out, there, joined, sum⟩
    right
    refine ⟨previous, old, step, link, out, ?_, joined, sum⟩
    rw [reach_length, if_neg (other_closed previous out)]
    exact there

theorem reach_progress {value price : Int} (consistent : Consistent problem most)
    (expanding : Expanding problem most start closed node value search)
    (edge : (target, price) ∈ problem.next node)
    (shorter : ∀ old, search.length target = some old → value + price < old) :
    Progress closed search (reach search node target (value + price)) := by
  have fresh := (improved_fresh consistent expanding edge shorter).2.1
  apply Progress.mk
  · intro other out
    rw [reach_length, if_neg]
    intro same
    rw [same] at out
    exact fresh out
  intro other old known
  rw [reach_length]
  split_ifs with same
  · rw [same] at known
    exact ⟨value + price, Int.le_of_lt (shorter old known), rfl⟩
  · exact ⟨old, Int.le_refl old, known⟩

/-- What an insertion into the queue does. -/
structure Inserted (search : Search Node) (target : Node) (rank : Int) (after : Search Node) :
    Prop where
  length : after.length = search.length
  before : after.before = search.before
  lost : after.lost = search.lost
  ranks : after.rank = Function.update search.rank target (some rank)
  queue : after.queue = (search.queue.erase target).takeWhile
      (passes (Function.update search.rank target (some rank)) rank) ++
    target :: (search.queue.erase target).dropWhile
      (passes (Function.update search.rank target (some rank)) rank)

/-- The node that has a rank is in the queue, where it is found. -/
theorem enqueue_inserted (problem : Problem Node) (length : Int)
    (queued : (search.rank target).isSome = true ↔ target ∈ search.queue) :
    Inserted search target (length + problem.estimate target)
      (enqueue problem search target length) := by
  unfold enqueue
  by_cases member : target ∈ search.queue
  · rw [if_pos (queued.mpr member), remove, if_pos member]
    exact ⟨rfl, rfl, rfl, rfl, rfl⟩
  have unranked := queued.not.mpr member
  rw [if_neg unranked]
  apply Inserted.mk
  · rfl
  · rfl
  · rfl
  · rfl
  · rw [erase_of_not_mem member]
    rfl

theorem inserted_mem {after : Search Node} {rank : Int} (once : search.queue.Nodup)
    (inserted : Inserted search target rank after) (other : Node) :
    other ∈ after.queue ↔ other = target ∨ other ∈ search.queue := by
  rw [inserted.queue, mem_append, mem_cons, or_left_comm, ← mem_append,
    takeWhile_append_dropWhile, once.mem_erase_iff]
  constructor
  · intro either
    exact either.imp_right And.right
  intro either
  by_cases same : other = target
  · exact Or.inl same
  · exact Or.inr ⟨same, either.resolve_left same⟩

theorem inserted_nodup {after : Search Node} {rank : Int} (once : search.queue.Nodup)
    (inserted : Inserted search target rank after) : after.queue.Nodup := by
  rw [inserted.queue]
  apply (perm_middle).nodup_iff.mpr
  rw [takeWhile_append_dropWhile, nodup_cons]
  exact ⟨once.not_mem_erase, once.erase target⟩

theorem inserted_ordered {after : Search Node} {key : Node → Int} (once : search.queue.Nodup)
    (inserted : Inserted search target (key target) after)
    (ordered : OrderedBy key (search.queue.erase target))
    (ranked : ∀ other, other ∈ search.queue → other ≠ target →
      search.rank other = some (key other)) : OrderedBy key after.queue := by
  have compare : ∀ other, other ∈ search.queue.erase target →
      passes (update search.rank target (some (key target))) (key target) other =
        !decide (key target ≤ key other) := by
    intro other member
    have listed := once.mem_erase_iff.mp member
    rw [passes, update_of_ne listed.1, ranked other listed.2 listed.1, Option.any_some,
      ← decide_not]
    exact decide_eq_decide.mpr Int.not_le.symm
  have cut := while_congr compare
  rw [inserted.queue, cut.1, cut.2]
  apply ordered_search
  · exact ordered
  · intro left right stops order
    have low := of_decide_eq_true stops
    exact decide_eq_true (low.trans order)
  · intro other passed
    have low := of_decide_eq_false passed
    omega
  · intro other stops
    exact of_decide_eq_true stops

/-- The ranks and the queue change with the length of a node that is listed. -/
theorem enqueue_queued {value price : Int} {after : Search Node}
    (consistent : Consistent problem most)
    (expanding : Expanding problem most start closed node value search)
    (edge : (target, price) ∈ problem.next node)
    (shorter : ∀ old, search.length target = some old → value + price < old)
    (listed : problem.listed target = true)
    (inserted : Inserted (reach search node target (value + price)) target
      (value + price + problem.estimate target) after) : Queued problem start closed after := by
  have queued := expanding.queued
  have fresh := (improved_fresh consistent expanding edge shorter).2.1
  have enter := (listed_iff.mp (queued.listed node (Or.inl expanding.taken))).2
  have once : (reach search node target (value + price)).queue.Nodup := queued.once
  have member := inserted_mem once inserted
  have same_full : ∀ other, full problem after other =
      full problem (reach search node target (value + price)) other := by
    intro other
    rw [full, full, inserted.length]
  have here : full problem after target = value + price + problem.estimate target := by
    rw [same_full]
    exact full_reach_target (value + price)
  have there : ∀ other, other ≠ target → full problem after other = full problem search other := by
    intro other different
    rw [same_full]
    exact full_reach_other (value + price) different
  have not_taken : ∀ other, other ∈ closed → other ≠ target := by
    intro other out same
    rw [same] at out
    exact fresh out
  have not_start : ∀ other, other ∈ search.queue → other ≠ start := by
    intro other waiting same
    rw [same] at waiting
    exact queued.apart start waiting expanding.begun
  have ranked : ∀ other, other ∈ search.queue → other ≠ target →
      search.rank other = some (full problem after other) := by
    intro other waiting different
    rw [there other different]
    exact queued.ranked other waiting (not_start other waiting)
  have ordered : OrderedBy (full problem after) (search.queue.erase target) := by
    apply OrderedBy.congr (queued.ordered.sublist erase_sublist)
    intro other waiting
    exact there other (queued.once.mem_erase_iff.mp waiting).1
  apply Queued.mk
  · rw [inserted.lost]
    exact queued.found
  · intro other either
    rw [member] at either
    rcases either with out | same | waiting
    · exact queued.listed other (Or.inl out)
    · rw [same]
      exact listed
    · exact queued.listed other (Or.inr waiting)
  · exact inserted_nodup once inserted
  · intro other waiting out
    rcases (member other).mp waiting with same | before
    · exact not_taken other out same
    · exact queued.apart other before out
  · intro other either
    rw [inserted.length, reach_length]
    split_ifs with same
    · exact ⟨value + price, rfl⟩
    · rw [member] at either
      exact queued.reached other (either.imp_right fun waiting => waiting.resolve_left same)
  · intro other length known_listed known
    rw [member]
    rw [inserted.length, reach_length] at known
    split_ifs at known with same
    · exact Or.inr (Or.inl same)
    · exact (queued.known other length known_listed known).imp_right Or.inr
  · intro other waiting _
    rw [inserted.ranks, update_apply]
    split_ifs with same
    · rw [same, here]
    · have before := ((member other).mp waiting).resolve_left same
      exact ranked other before same
  · intro other known_listed out waiting
    rw [member, not_or] at waiting
    rw [inserted.ranks, update_of_ne waiting.1]
    exact queued.unranked other known_listed out waiting.2
  · rw [← here] at inserted
    exact inserted_ordered once inserted ordered ranked
  · intro early out late waiting
    rw [there early (not_taken early out)]
    by_cases same : late = target
    · have falls := consistent.falls node target price enter edge (listed_iff.mp listed).2
        (listed_iff.mp listed).1
      have order := expanding.last early out
      rw [full_of_length expanding.length] at order
      rw [same, here]
      omega
    rw [there late same]
    exact queued.behind early out late (((member late).mp waiting).resolve_left same)

theorem reach_queued {length : Int} (queued : Queued problem start closed search)
    (unlisted : ¬ problem.listed target = true) :
    Queued problem start closed (reach search node target length) := by
  have different : ∀ other, problem.listed other = true → other ≠ target := by
    intro other listed same
    rw [same] at listed
    exact unlisted listed
  have kept : ∀ other, other ∈ closed ∨ other ∈ search.queue →
      full problem (reach search node target length) other = full problem search other := by
    intro other either
    exact full_reach_other length (different other (queued.listed other either))
  apply Queued.mk
  · exact queued.found
  · exact queued.listed
  · exact queued.once
  · exact queued.apart
  · intro other either
    rw [reach_length, if_neg (different other (queued.listed other either))]
    exact queued.reached other either
  · intro other value listed known
    rw [reach_length, if_neg (different other listed)] at known
    exact queued.known other value listed known
  · intro other waiting later
    rw [kept other (Or.inr waiting)]
    exact queued.ranked other waiting later
  · exact queued.unranked
  · apply OrderedBy.congr queued.ordered
    intro other waiting
    exact kept other (Or.inr waiting)
  · intro early out late waiting
    rw [kept early (Or.inl out), kept late (Or.inr waiting)]
    exact queued.behind early out late waiting

theorem Expanding.advance {value : Int} {after : Search Node}
    (expanding : Expanding problem most start closed node value search)
    (measured : Measured problem most start closed after)
    (queued : Queued problem start closed after) (progress : Progress closed search after) :
    Expanding problem most start closed node value after := by
  apply Expanding.mk measured queued expanding.begun expanding.taken
  · rw [progress.kept node expanding.taken]
    exact expanding.length
  · intro early out
    rw [progress.full out, progress.full expanding.taken]
    exact expanding.last early out
  · exact expanding.fits

/-- A neighbor is improved, or it was already reached on a way that is no longer. -/
theorem improve_step {value price : Int} (consistent : Consistent problem most)
    (expanding : Expanding problem most start closed node value search)
    (edge : (target, price) ∈ problem.next node) :
    Expanding problem most start closed node value
        (improve problem node search target (value + price)) ∧
      Progress closed search (improve problem node search target (value + price)) ∧
      ∃ found, found ≤ value + price ∧
        (improve problem node search target (value + price)).length target = some found := by
  unfold improve
  rcases shorter_cases (value + price) (search.length target) with
    ⟨checked, shorter⟩ | ⟨checked, old, low, known⟩
  · have measured := reach_measured consistent expanding edge shorter
    have progress := reach_progress consistent expanding edge shorter
    have reached : (reach search node target (value + price)).length target =
        some (value + price) := by
      rw [reach_length, if_pos rfl]
    rw [if_pos checked]
    by_cases listed : problem.listed target = true
    · have fresh := (improved_fresh consistent expanding edge shorter).2.1
      have queued := expanding.queued
      have found : ((reach search node target (value + price)).rank target).isSome = true ↔
          target ∈ (reach search node target (value + price)).queue := by
        constructor
        · intro has_rank
          by_contra missing
          have none_yet : search.rank target = none :=
            queued.unranked target listed fresh missing
          change (search.rank target).isSome = true at has_rank
          rw [none_yet] at has_rank
          cases has_rank
        intro waiting
        have later : target ≠ start := by
          intro same
          have begun := expanding.begun
          rw [← same] at begun
          exact fresh begun
        change (search.rank target).isSome = true
        rw [queued.ranked target waiting later]
        rfl
      have inserted := enqueue_inserted problem (value + price) found
      rw [if_pos listed]
      refine ⟨?_, progress.congr inserted.length, value + price, Int.le_refl _, ?_⟩
      · exact expanding.advance (measured.congr inserted.length inserted.before)
          (enqueue_queued consistent expanding edge shorter listed inserted)
          (progress.congr inserted.length)
      · rw [inserted.length]
        exact reached
    rw [if_neg listed]
    exact ⟨expanding.advance measured (reach_queued expanding.queued listed) progress, progress,
      value + price, Int.le_refl _, reached⟩
  · rw [checked, if_neg Bool.false_ne_true]
    exact ⟨expanding, Progress.refl closed search, old, low, known⟩

end Improvements

section Expansions

variable {problem : Problem Node} {start node : Node} {closed : Finset Node}
  {search : Search Node} {most : Node → Int}

/-- The neighbors of a node are reached on ways that are no longer than over this node. -/
def Relaxed (search : Search Node) (targets : List (Node × Int))
    (value : Int) : Prop :=
  ∀ target price, (target, price) ∈ targets →
    ∃ found, found ≤ value + price ∧ search.length target = some found

/-- The goal is reached on a way that is no longer than the cheapest step on from a node. -/
def Pruned (problem : Problem Node) (search : Search Node) (node : Node) (value : Int) : Prop :=
  ∃ found, found ≤ value + problem.least node ∧ search.length problem.goal = some found

def Finished (problem : Problem Node) (search : Search Node) (node : Node) : Prop :=
  ∃ value, search.length node = some value ∧
    (Relaxed search (problem.next node) value ∨ Pruned problem search node value)

theorem Progress.finished {after : Search Node} (progress : Progress closed search after)
    (out : node ∈ closed) (finished : Finished problem search node) :
    Finished problem after node := by
  rcases finished with ⟨value, known, either⟩
  refine ⟨value, ?_, ?_⟩
  · rw [progress.kept node out]
    exact known
  rcases either with relaxed | pruned
  · left
    intro target price edge
    rcases relaxed target price edge with ⟨old, low, there⟩
    rcases progress.lower target old there with ⟨new, lower, found⟩
    exact ⟨new, lower.trans low, found⟩
  right
  rcases pruned with ⟨old, low, there⟩
  rcases progress.lower problem.goal old there with ⟨new, lower, found⟩
  exact ⟨new, lower.trans low, found⟩

variable [DecidableEq Node]

theorem improve_run {value : Int} (consistent : Consistent problem most)
    (targets : List (Node × Int)) (edges : ∀ target, target ∈ targets → target ∈ problem.next node)
    (expanding : Expanding problem most start closed node value search) :
    let after := targets.foldl (fun search target =>
      improve problem node search target.1 (value + target.2)) search
    Expanding problem most start closed node value after ∧ Progress closed search after ∧
      Relaxed after targets value := by
  induction targets generalizing search with
  | nil =>
    refine ⟨expanding, Progress.refl closed search, ?_⟩
    nofun
  | cons first rest ih =>
    rcases improve_step consistent expanding (edges first mem_cons_self) with
      ⟨next, moved, found, low, known⟩
    have later : ∀ target, target ∈ rest → target ∈ problem.next node := by
      intro target member
      exact edges target (mem_cons_of_mem first member)
    rcases ih later next with ⟨after, further, relaxed⟩
    refine ⟨after, moved.trans further, ?_⟩
    intro target price member
    rcases mem_cons.mp member with equal | listed
    · rcases further.lower first.1 found known with ⟨new, lower, there⟩
      cases equal
      exact ⟨new, lower.trans low, there⟩
    · exact relaxed target price listed

/-- What holds between two expansions. -/
structure Explored (problem : Problem Node) (most : Node → Int) (start : Node)
    (closed : Finset Node) (search : Search Node) : Prop where
  measured : Measured problem most start closed search
  queued : Queued problem start closed search
  begun : start ∈ closed ∨ closed = ∅ ∧ search.queue = [start]
  finished : ∀ node, node ∈ closed → Finished problem search node

variable (consistent : Consistent problem most)
include consistent

theorem take_expanding {rest : List Node} (explored : Explored problem most start closed search)
    (queue : search.queue = node :: rest) :
    node ∉ closed ∧ problem.listed node = true ∧ ∃ value, search.length node = some value ∧
      Expanding problem most start (insert node closed) node value
        { search with queue := rest } := by
  have measured := explored.measured
  have queued := explored.queued
  have member : ∀ other, other ∈ search.queue ↔ other = node ∨ other ∈ rest := by
    intro other
    rw [queue, mem_cons]
  have waiting := (member node).mpr (Or.inl rfl)
  have fresh := queued.apart node waiting
  have listed := queued.listed node (Or.inr waiting)
  have enter := (listed_iff.mp listed).2
  have positive := consistent.positive node enter
  have sum : ∑ other ∈ insert node closed, most other =
      most node + ∑ other ∈ closed, most other := Finset.sum_insert fresh
  have once := queued.once
  have ordered := queued.ordered
  rw [queue] at once ordered
  have alone := nodup_cons.mp once
  have least := pairwise_cons.mp ordered
  cases queued.reached node (Or.inr waiting) with
  | intro value known =>
  have bounded := measured.bounded node value (consistent.outside node enter) known
  refine ⟨fresh, listed, value, known, ?_⟩
  apply Expanding.mk
  · apply Measured.mk
    · exact measured.origin
    · exact measured.walls
    · intro other length inside there
      have bound := measured.bounded other length inside there
      omega
    · intro other length inside there
      apply (measured.chain other length inside there).imp_right
      intro follows
      rcases follows with ⟨previous, old, price, link, out, rest⟩
      exact ⟨previous, old, price, link, Finset.mem_insert_of_mem out, rest⟩
  · apply Queued.mk
    · exact queued.found
    · intro other either
      rw [Finset.mem_insert] at either
      rcases either with (same | out) | later
      · rw [same]
        exact listed
      · exact queued.listed other (Or.inl out)
      · exact queued.listed other (Or.inr ((member other).mpr (Or.inr later)))
    · exact alone.2
    · intro other later out
      rcases Finset.mem_insert.mp out with same | before
      · rw [same] at later
        exact alone.1 later
      · exact queued.apart other ((member other).mpr (Or.inr later)) before
    · intro other either
      rw [Finset.mem_insert] at either
      rcases either with (same | out) | later
      · rw [same]
        exact ⟨value, known⟩
      · exact queued.reached other (Or.inl out)
      · exact queued.reached other (Or.inr ((member other).mpr (Or.inr later)))
    · intro other length other_listed there
      rw [Finset.mem_insert, or_assoc, or_left_comm, ← member]
      exact queued.known other length other_listed there
    · intro other later
      exact queued.ranked other ((member other).mpr (Or.inr later))
    · intro other other_listed out later
      rw [Finset.mem_insert, not_or] at out
      apply queued.unranked other other_listed out.2
      rw [member, not_or]
      exact ⟨out.1, later⟩
    · exact least.2
    · intro early out late later
      rcases Finset.mem_insert.mp out with same | before
      · rw [same]
        exact least.1 late later
      · exact queued.behind early before late ((member late).mpr (Or.inr later))
  · rcases explored.begun with before | fresh_start
    · exact Finset.mem_insert_of_mem before
    have head := fresh_start.2
    rw [queue] at head
    cases head
    exact Finset.mem_insert_self _ closed
  · exact Finset.mem_insert_self node closed
  · exact known
  · intro early out
    rcases Finset.mem_insert.mp out with same | before
    · rw [same]
    · exact queued.behind early before node waiting
  · omega

/-- A node that is taken out of the queue is finished when it has been expanded. -/
theorem expand_step {rest : List Node} (explored : Explored problem most start closed search)
    (queue : search.queue = node :: rest) :
    node ∉ closed ∧ problem.listed node = true ∧
      Explored problem most start (insert node closed) (expand problem search node rest) := by
  rcases take_expanding consistent explored queue with
    ⟨fresh, listed, value, known, expanding⟩
  refine ⟨fresh, listed, ?_⟩
  have length : (search.length node).getD 0 = value := by
    rw [known, Option.getD_some]
  have others : ∀ after, Progress (insert node closed) { search with queue := rest } after →
      Finished problem after node →
      ∀ other, other ∈ insert node closed → Finished problem after other := by
    intro after progress finished other out
    rcases Finset.mem_insert.mp out with same | before
    · rw [same]
      exact finished
    · exact progress.finished out (explored.finished other before)
  simp only [expand, length]
  split_ifs with pruned
  · apply Explored.mk expanding.measured expanding.queued
    · exact Or.inl expanding.begun
    apply others _ (Progress.refl _ _)
    refine ⟨value, known, Or.inr ?_⟩
    rcases reached : search.length problem.goal with _ | found
    · rw [reached] at pruned
      cases pruned
    rw [reached, Option.any_some] at pruned
    exact ⟨found, of_decide_eq_true pruned, reached⟩
  rcases improve_run consistent (problem.next node) (fun _ member => member) expanding with
    ⟨after, progress, relaxed⟩
  apply Explored.mk after.measured after.queued
  · exact Or.inl after.begun
  · apply others _ progress
    exact ⟨value, after.length, Or.inl relaxed⟩

/-- Every node is taken out at most once, so the search ends with an empty queue. -/
theorem run_returns {cells : Finset Node} {fuel : Nat}
    (inside : ∀ node, problem.enter node = true → node ∈ cells)
    (explored : Explored problem most start closed search) (part : closed ⊆ cells)
    (enough : cells.card < fuel + closed.card) :
    ∃ ended all, run problem fuel search = some ended ∧ ended.queue = [] ∧ all ⊆ cells ∧
      Explored problem most start all ended := by
  induction fuel generalizing search closed with
  | zero =>
    have few := Finset.card_le_card part
    omega
  | succ fuel ih =>
    rw [run]
    rcases queue : search.queue with _ | ⟨node, rest⟩
    · exact ⟨search, closed, rfl, queue, part, explored⟩
    rcases expand_step consistent explored queue with ⟨fresh, listed, after⟩
    have more := Finset.card_insert_of_notMem fresh
    apply ih after
    · exact Finset.insert_subset (inside node (listed_iff.mp listed).2) part
    · omega

theorem first_explored (listed : problem.listed start = true) :
    Explored problem most start ∅ (first problem start) := by
  have enter := listed_iff.mp listed
  have open_start := consistent.outside start enter.2
  have length : ∀ node, (first problem start).length node =
      if node = start then some 0 else if problem.wall node then some (-1) else none := by
    intro node
    rfl
  have only : ∀ node, node ∈ (∅ : Finset Node) ∨ node ∈ (first problem start).queue →
      node = start := by
    intro node either
    rcases either with impossible | member
    · exact absurd impossible (Finset.notMem_empty node)
    · exact mem_singleton.mp member
  have reached : ∀ node value, problem.wall node = false →
      (first problem start).length node = some value → node = start ∧ value = 0 := by
    intro node value inside known
    simp only [length, inside, Bool.false_eq_true, if_false] at known
    split_ifs at known with same
    cases known
    exact ⟨same, rfl⟩
  apply Explored.mk
  · apply Measured.mk
    · rw [length, if_pos rfl]
    · intro node wall
      rw [length, if_neg, if_pos wall]
      intro same
      rw [same, open_start] at wall
      cases wall
    · intro node value inside known
      rw [(reached node value inside known).2, Finset.sum_empty]
      exact ⟨Int.le_refl 0, Int.le_refl 0⟩
    · intro node value inside known
      exact Or.inl ⟨(reached node value inside known).1, (reached node value inside known).2, rfl⟩
  · apply Queued.mk
    · rfl
    · intro node either
      rw [only node either]
      exact listed
    · exact nodup_singleton start
    · intro node _
      exact Finset.notMem_empty node
    · intro node either
      rw [only node either]
      exact ⟨0, by rw [length, if_pos rfl]⟩
    · intro node value node_listed known
      have inside := consistent.outside node (listed_iff.mp node_listed).2
      rw [(reached node value inside known).1]
      exact Or.inr (mem_singleton.mpr rfl)
    · intro node member later
      exact absurd (mem_singleton.mp member) later
    · intro node node_listed _ _
      have inside := consistent.outside node (listed_iff.mp node_listed).2
      simp only [first, inside, Bool.false_eq_true, if_false]
    · exact pairwise_singleton _ start
    · intro early impossible
      exact absurd impossible (Finset.notMem_empty early)
  · exact Or.inr ⟨rfl, rfl⟩
  · intro node impossible
    exact absurd impossible (Finset.notMem_empty node)

end Expansions

section Ways

variable {problem : Problem Node} {start node : Node} {closed : Finset Node}
  {search : Search Node} {most : Node → Int}

/-- Behind each node that was reached is a way of its length. -/
theorem reached_way [DecidableEq Node] {value : Int} (consistent : Consistent problem most)
    (explored : Explored problem most start closed search) (inside : problem.wall node = false)
    (known : search.length node = some value) :
    ∃ path, Trail search.before node path ∧ Way problem start node path value := by
  have measured := explored.measured
  have bound := (measured.bounded node value inside known).1
  induction steps : value.toNat using Nat.strongRecOn generalizing node value with
  | ind steps ih =>
    rcases measured.chain node value inside known with begins | follows
    · rcases begins with ⟨same, zero, last⟩
      rw [same, zero]
      rw [same] at last
      exact ⟨[], Trail.last last, Way.here⟩
    rcases follows with ⟨other, length, price, link, out, there, edge, sum⟩
    have enter := (listed_iff.mp (explored.queued.listed other (Or.inl out))).2
    have outside := consistent.outside other enter
    have early := (measured.bounded other length outside there).1
    have positive := (consistent.positive other enter).1
    have priced := (consistent.priced other node price enter edge).1
    rcases ih length.toNat (by omega) outside there early rfl with ⟨path, trail, way⟩
    rw [sum]
    exact ⟨other :: path, Trail.step link trail, Way.step way enter edge inside⟩

/-- In the end no way is shorter than the one to the goal, or to the node it ends at. -/
theorem way_reached [DecidableEq Node] {path : List Node} {cost : Int}
    (consistent : Consistent problem most)
    (explored : Explored problem most start closed search) (ended : search.queue = [])
    (way : Way problem start node path cost) :
    (∃ value, value ≤ cost ∧ search.length node = some value) ∨
      ∃ value, value ≤ cost ∧ search.length problem.goal = some value := by
  induction way with
  | here => exact Or.inl ⟨0, Int.le_refl 0, explored.measured.origin⟩
  | @step node target path cost price _ enter edge _ ih =>
    have positive := (consistent.positive node enter).1
    have priced := (consistent.priced node target price enter edge).1
    rcases ih with ⟨value, low, known⟩ | ⟨value, low, known⟩
    · by_cases home : node = problem.goal
      · rw [home] at known
        exact Or.inr ⟨value, by omega, known⟩
      have member := explored.queued.known node value (listed_iff.mpr ⟨home, enter⟩) known
      rw [ended, or_iff_left not_mem_nil] at member
      rcases explored.finished node member with ⟨length, there, either⟩
      rw [known] at there
      cases there
      rcases either with relaxed | ⟨found, less, reached⟩
      · rcases relaxed target price edge with ⟨found, less, reached⟩
        exact Or.inl ⟨found, by omega, reached⟩
      · exact Or.inr ⟨found, by omega, reached⟩
    · exact Or.inr ⟨value, by omega, known⟩

end Ways

end TibiaGame.Library.BestFirst
