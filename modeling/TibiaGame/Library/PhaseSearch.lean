import Mathlib.Order.Bounds.Basic
import Mathlib.Data.List.Perm.Subperm
import Mathlib.Data.List.Perm.Basic
import Mathlib.Logic.Function.Basic

/-!
# Shortest paths, phase after phase

Nodes get the phase in which they are to be visited. In each phase all nodes are swept over, and
those of the phase give later phases to the nodes they lead to, without a look at the phase these
already have. In a graph with two sides, where a step to the same side costs two and one to the
other side costs one, each phase that is assigned is still the cost of a shortest path.
-/

namespace TibiaGame.Library.PhaseSearch

open List

variable {Node : Type}

structure Graph (Node : Type) where
  leads : Node → Bool
  next : Node → List (Node × Nat)

inductive Path (graph : Graph Node) (start : Node) : Node → Nat → Prop where
  | start : Path graph start start 0
  | step {node other : Node} {cost price : Nat} : Path graph start node cost →
      graph.leads node = true → (other, price) ∈ graph.next node →
      Path graph start other (cost + price)

def Shortest (graph : Graph Node) (start node : Node) (cost : Nat) : Prop :=
  IsLeast {other | Path graph start node other} cost

/-- A step costs nothing, one or two, and leads to the same node, to the other side or to the same
side. -/
structure TwoSided (graph : Graph Node) (side : Node → Nat) : Prop where
  cheap : ∀ node other price, (other, price) ∈ graph.next node → price ≤ 2
  still : ∀ node other, (other, 0) ∈ graph.next node → other = node
  sides : ∀ node other price, (other, price) ∈ graph.next node →
    side other % 2 = (side node + price) % 2

/-- The phases of the nodes, none where there is none yet, and all that have been assigned. -/
structure Marks (Node : Type) where
  phases : Node → Option Nat
  log : List (Node × Nat)

section Operations

variable [DecidableEq Node]

def mark (marks : Marks Node) (node : Node) (phase : Nat) : Marks Node :=
  ⟨Function.update marks.phases node (some phase), marks.log ++ [(node, phase)]⟩

def assign (phase : Nat) (marks : Marks Node) (target : Node × Nat) : Marks Node :=
  if (marks.phases target.1).all (phase < ·) then mark marks target.1 (phase + target.2)
  else marks

def expand (graph : Graph Node) (phase : Nat) (marks : Marks Node) (node : Node) : Marks Node :=
  (graph.next node).foldl (assign phase) marks

def visit (graph : Graph Node) (phase : Nat) (marks : Marks Node) (node : Node) : Marks Node :=
  if marks.phases node = some phase then
    if graph.leads node then expand graph phase marks node else marks
  else marks

def begin (start : Node) : Marks Node :=
  mark ⟨fun _ => none, []⟩ start 0

end Operations

section Steps

variable {graph : Graph Node} {start node : Node} {side : Node → Nat} {phase : Nat}
  {marks : Marks Node}

/-- The nodes that a node leads to have phases that are no later than over this node. -/
def Relaxed (graph : Graph Node) (marks : Marks Node) (node : Node) (value : Nat) : Prop :=
  ∀ other price, (other, price) ∈ graph.next node →
    ∃ found, found ≤ value + price ∧ marks.phases other = some found

/-- What holds while the nodes of a phase are visited. -/
structure Settled (graph : Graph Node) (start : Node) (phase : Nat) (marks : Marks Node) :
    Prop where
  shortest : ∀ node value, marks.phases node = some value → Shortest graph start node value
  least : ∀ node cost, Path graph start node cost → cost ≤ phase →
    ∃ value, value ≤ cost ∧ marks.phases node = some value
  relaxed : ∀ node value, marks.phases node = some value → value < phase →
    graph.leads node = true → Relaxed graph marks node value
  bounded : ∀ node value, marks.phases node = some value → value ≤ phase + 2
  kept : ∀ node value, marks.phases node = some value ↔ (node, value) ∈ marks.log

theorem path_side (sided : TwoSided graph side) {cost : Nat} (path : Path graph start node cost) :
    side node % 2 = (side start + cost) % 2 := by
  induction path with
  | start => rfl
  | step _ _ edge ih =>
    have here := sided.sides _ _ _ edge
    omega

theorem shortest_unique {left right : Nat} (first : Shortest graph start node left)
    (second : Shortest graph start node right) : left = right :=
  IsLeast.unique first second

/-- What is assigned is the cost of a shortest path: a shorter one would have a cost between the
phase and it, and end on the wrong side. -/
theorem assigned_shortest (sided : TwoSided graph side) (settled : Settled graph start phase marks)
    (here : marks.phases node = some phase) (leads : graph.leads node = true)
    {target : Node × Nat} (edge : target ∈ graph.next node)
    (later : ∀ value, marks.phases target.1 = some value → phase < value) :
    Shortest graph start target.1 (phase + target.2) := by
  have path : Path graph start target.1 (phase + target.2) :=
    Path.step (settled.shortest node phase here).1 leads edge
  apply And.intro
  · exact path
  intro cost other
  by_contra shorter
  have cheap := sided.cheap node target.1 target.2 edge
  by_cases early : cost ≤ phase
  · rcases settled.least target.1 cost other early with ⟨value, low, known⟩
    have high := later value known
    omega
  have even := path_side sided path
  have odd := path_side sided other
  omega

/-- Phases become lower only, and those up to the current one are settled. -/
structure Progress (phase : Nat) (before after : Marks Node) : Prop where
  steady : ∀ node value, value ≤ phase →
    (after.phases node = some value ↔ before.phases node = some value)
  lower : ∀ node old, before.phases node = some old →
    ∃ new, new ≤ old ∧ after.phases node = some new

theorem Progress.refl (phase : Nat) (marks : Marks Node) : Progress phase marks marks := by
  apply Progress.mk
  · intro node value _
    exact Iff.rfl
  · intro node old known
    exact ⟨old, Nat.le_refl old, known⟩

theorem Progress.trans {first second third : Marks Node} (early : Progress phase first second)
    (late : Progress phase second third) : Progress phase first third := by
  apply Progress.mk
  · intro node value low
    exact (late.steady node value low).trans (early.steady node value low)
  intro node old known
  rcases early.lower node old known with ⟨middle, low, there⟩
  rcases late.lower node middle there with ⟨new, lower, found⟩
  exact ⟨new, lower.trans low, found⟩

theorem Progress.relaxed {before after : Marks Node} (progress : Progress phase before after)
    {value : Nat} (relaxed : Relaxed graph before node value) : Relaxed graph after node value := by
  intro other price edge
  rcases relaxed other price edge with ⟨old, low, known⟩
  rcases progress.lower other old known with ⟨new, lower, found⟩
  exact ⟨new, lower.trans low, found⟩

variable [DecidableEq Node]

/-- A phase is assigned over a phase that is already there, or this one is not later than the
current phase. -/
theorem assign_cases (phase : Nat) (marks : Marks Node) (target : Node × Nat) :
    (∃ value, value ≤ phase ∧ marks.phases target.1 = some value ∧
        assign phase marks target = marks) ∨
      ((∀ value, marks.phases target.1 = some value → phase < value) ∧
        assign phase marks target = mark marks target.1 (phase + target.2)) := by
  unfold assign
  rcases known : marks.phases target.1 with _ | value
  · right
    apply And.intro
    · nofun
    · rfl
  by_cases later : phase < value
  · right
    apply And.intro
    · intro other same
      cases same
      exact later
    · simp only [Option.all_some, later, decide_true, if_true]
  left
  exact ⟨value, Nat.le_of_not_lt later, rfl,
    by simp only [Option.all_some, later, decide_false, Bool.false_eq_true, if_false]⟩

theorem mark_phases (marks : Marks Node) (node other : Node) (value : Nat) :
    (mark marks node value).phases other =
      if other = node then some value else marks.phases other := by
  simp only [mark, Function.update_apply]

theorem mem_mark_log (marks : Marks Node) (node other : Node) (value found : Nat) :
    (other, found) ∈ (mark marks node value).log ↔
      (other, found) ∈ marks.log ∨ other = node ∧ found = value := by
  simp only [mark, mem_append, mem_singleton, Prod.mk.injEq]

theorem mark_progress (settled : Settled graph start phase marks) {target : Node} {value : Nat}
    (short : Shortest graph start target value) (current : phase < value)
    (later : ∀ old, marks.phases target = some old → phase < old) :
    Progress phase marks (mark marks target value) := by
  apply Progress.mk
  · intro other found low
    rw [mark_phases]
    split_ifs with same
    · constructor
      · intro equal
        cases equal
        omega
      intro known
      rw [same] at known
      have high := later found known
      omega
    · exact Iff.rfl
  intro other old known
  by_cases same : other = target
  · refine ⟨value, ?_, by rw [mark_phases, if_pos same]⟩
    rw [same] at known
    exact short.2 (settled.shortest target old known).1
  · exact ⟨old, Nat.le_refl old, by rw [mark_phases, if_neg same]; exact known⟩

/-- A node that is marked with the cost of a shortest path, and had only later phases than the
current one, keeps what is settled. -/
theorem mark_settled (settled : Settled graph start phase marks) {target : Node} {value : Nat}
    (short : Shortest graph start target value) (current : phase < value) (near : value ≤ phase + 2)
    (later : ∀ old, marks.phases target = some old → phase < old) :
    Settled graph start phase (mark marks target value) := by
  have progress := mark_progress settled short current later
  apply Settled.mk
  · intro other found known
    rw [mark_phases] at known
    split_ifs at known with same
    · cases known
      rw [same]
      exact short
    · exact settled.shortest other found known
  · intro other cost path early
    rcases settled.least other cost path early with ⟨old, low, known⟩
    exact ⟨old, low, (progress.steady other old (low.trans early)).mpr known⟩
  · intro other found known early leads
    have before := (progress.steady other found (Nat.le_of_lt early)).mp known
    exact progress.relaxed (settled.relaxed other found before early leads)
  · intro other found known
    rw [mark_phases] at known
    split_ifs at known with same
    · cases known
      exact near
    · exact settled.bounded other found known
  · intro other found
    rw [mark_phases, mem_mark_log, ← settled.kept]
    by_cases same : other = target
    · rw [if_pos same, same]
      constructor
      · intro equal
        cases equal
        exact Or.inr ⟨rfl, rfl⟩
      intro either
      rcases either with known | equal
      · rw [shortest_unique short (settled.shortest target found known)]
      · rw [equal.2]
    rw [if_neg same]
    constructor
    · exact Or.inl
    · intro either
      exact either.resolve_right fun equal => same equal.1

end Steps

section Runs

variable {graph : Graph Node} {start node : Node} {side : Node → Nat} {phase : Nat}
  {marks : Marks Node}

/-- A phase of which some nodes have been visited. -/
structure Swept (graph : Graph Node) (start : Node) (phase : Nat) (before : Marks Node)
    (seen : List Node) (after : Marks Node) : Prop where
  settled : Settled graph start phase after
  progress : Progress phase before after
  relaxed : ∀ node, node ∈ seen → after.phases node = some phase → graph.leads node = true →
    Relaxed graph after node phase

theorem Swept.begin (settled : Settled graph start phase marks) :
    Swept graph start phase marks [] marks := by
  apply Swept.mk settled (Progress.refl phase marks)
  nofun

/-- When all nodes of a phase have been visited, the next phase may begin. -/
theorem Swept.advance {before after : Marks Node} {seen : List Node} (sided : TwoSided graph side)
    (swept : Swept graph start phase before seen after)
    (all : ∀ node, after.phases node = some phase → node ∈ seen) :
    Settled graph start (phase + 1) after := by
  have settled := swept.settled
  have relaxed : ∀ node value, after.phases node = some value → value < phase + 1 →
      graph.leads node = true → Relaxed graph after node value := by
    intro node value known low leads
    rcases Nat.lt_succ_iff_lt_or_eq.mp low with early | now
    · exact settled.relaxed node value known early leads
    rw [now] at known ⊢
    exact swept.relaxed node (all node known) known leads
  apply Settled.mk settled.shortest
  · intro node cost path
    induction path with
    | start =>
      intro _
      exact settled.least start 0 Path.start (Nat.zero_le phase)
    | @step node other cost price path leads edge ih =>
      intro early
      by_cases free : price = 0
      · rw [free] at edge early ⊢
        rw [sided.still node other edge]
        exact ih early
      rcases ih (by omega) with ⟨value, low, known⟩
      rcases relaxed node value known (by omega) leads other price edge with
        ⟨found, less, there⟩
      exact ⟨found, by omega, there⟩
  · exact relaxed
  · intro node value known
    have bound := settled.bounded node value known
    omega
  · exact settled.kept

theorem path_free (sided : TwoSided graph side) {cost : Nat} (path : Path graph start node cost)
    (free : cost = 0) : node = start := by
  induction path with
  | start => rfl
  | step _ _ edge ih =>
    rw [(Nat.add_eq_zero_iff.mp free).2] at edge
    rw [sided.still _ _ edge]
    exact ih (Nat.add_eq_zero_iff.mp free).1

/-- There are no more phases with a node than nodes. -/
theorem phases_le_nodes {nodes : List Node} {count : Nat}
    (filled : ∀ earlier, earlier < count → ∃ node, node ∈ nodes ∧
      marks.phases node = some earlier) : count ≤ nodes.length := by
  have member : List.range count ⊆ nodes.filterMap marks.phases := by
    intro earlier inside
    rcases filled earlier (mem_range.mp inside) with ⟨node, listed, known⟩
    exact mem_filterMap.mpr ⟨node, listed, known⟩
  have short := (subperm_of_subset nodup_range member).length_le
  rw [length_range] at short
  exact short.trans (length_filterMap_le _ _)

variable [DecidableEq Node]

variable (sided : TwoSided graph side)
include sided

theorem assign_step (settled : Settled graph start phase marks)
    (here : marks.phases node = some phase) (leads : graph.leads node = true) {target : Node × Nat}
    (edge : target ∈ graph.next node) :
    Settled graph start phase (assign phase marks target) ∧
      Progress phase marks (assign phase marks target) ∧
      ∃ found, found ≤ phase + target.2 ∧
        (assign phase marks target).phases target.1 = some found := by
  rcases assign_cases phase marks target with ⟨value, low, known, kept⟩ | ⟨later, marked⟩
  · rw [kept]
    exact ⟨settled, Progress.refl phase marks, value, by omega, known⟩
  have short := assigned_shortest sided settled here leads edge later
  have cheap := sided.cheap node target.1 target.2 edge
  have moves : target.2 ≠ 0 := by
    intro free
    have same : target.1 = node := by
      apply sided.still node target.1
      rw [← free]
      exact edge
    have high := later phase (by rw [same]; exact here)
    omega
  rw [marked]
  refine ⟨mark_settled settled short (by omega) (by omega) later,
    mark_progress settled short (by omega) later, phase + target.2, Nat.le_refl _, ?_⟩
  rw [mark_phases, if_pos rfl]

theorem expand_run (targets : List (Node × Nat))
    (edges : ∀ target, target ∈ targets → target ∈ graph.next node)
    (settled : Settled graph start phase marks) (here : marks.phases node = some phase)
    (leads : graph.leads node = true) :
    Settled graph start phase (targets.foldl (assign phase) marks) ∧
      Progress phase marks (targets.foldl (assign phase) marks) ∧
      ∀ target, target ∈ targets → ∃ found, found ≤ phase + target.2 ∧
        (targets.foldl (assign phase) marks).phases target.1 = some found := by
  induction targets generalizing marks with
  | nil =>
    refine ⟨settled, Progress.refl phase marks, ?_⟩
    nofun
  | cons first rest ih =>
    rcases assign_step sided settled here leads (edges first mem_cons_self) with
      ⟨kept, moved, found, low, known⟩
    have still := (moved.steady node phase (Nat.le_refl phase)).mpr here
    rcases ih (fun target member => edges target (mem_cons_of_mem first member)) kept still
      with ⟨after, further, reached⟩
    refine ⟨after, moved.trans further, ?_⟩
    intro target member
    rcases mem_cons.mp member with equal | later
    · rcases further.lower first.1 found known with ⟨new, lower, there⟩
      rw [equal]
      exact ⟨new, lower.trans low, there⟩
    · exact reached target later

theorem visit_step (node : Node) (settled : Settled graph start phase marks) :
    Settled graph start phase (visit graph phase marks node) ∧
      Progress phase marks (visit graph phase marks node) ∧
      (marks.phases node = some phase → graph.leads node = true →
        Relaxed graph (visit graph phase marks node) node phase) := by
  unfold visit
  split_ifs with here leads
  · rcases expand_run sided (graph.next node) (fun _ member => member) settled here leads with
      ⟨kept, moved, reached⟩
    refine ⟨kept, moved, ?_⟩
    intro _ _ other price edge
    exact reached (other, price) edge
  · refine ⟨settled, Progress.refl phase marks, ?_⟩
    intro _ impossible
    exact absurd impossible leads
  · refine ⟨settled, Progress.refl phase marks, ?_⟩
    intro impossible
    exact absurd impossible here

theorem Swept.visit {before after : Marks Node} {seen : List Node}
    (swept : Swept graph start phase before seen after) (node : Node) :
    Swept graph start phase before (seen ++ [node]) (visit graph phase after node) := by
  rcases visit_step sided node swept.settled with ⟨settled, moved, relaxed⟩
  apply Swept.mk settled (swept.progress.trans moved)
  intro other member here leads
  have earlier := (moved.steady other phase (Nat.le_refl phase)).mp here
  rcases mem_append.mp member with old | new
  · exact moved.relaxed (swept.relaxed other old earlier leads)
  cases mem_singleton.mp new
  exact relaxed earlier leads

theorem begin_settled : Settled graph start 0 (begin start) := by
  have only : ∀ node value, (begin start).phases node = some value ↔ node = start ∧ value = 0 := by
    intro node value
    rw [begin, mark_phases]
    split_ifs with same
    · simp only [Option.some.injEq, same, true_and, eq_comm]
    · simp only [same, false_and]
  apply Settled.mk
  · intro node value known
    rw [((only node value).mp known).1, ((only node value).mp known).2]
    exact ⟨Path.start, fun other _ => Nat.zero_le other⟩
  · intro node cost path early
    have free := Nat.le_zero.mp early
    exact ⟨0, Nat.zero_le cost, (only node 0).mpr ⟨path_free sided path free, rfl⟩⟩
  · intro node value _ impossible
    exact absurd impossible (Nat.not_lt_zero value)
  · intro node value known
    rw [((only node value).mp known).2]
    exact Nat.zero_le 2
  · intro node value
    rw [only, begin, mem_mark_log]
    simp only [not_mem_nil, false_or]

end Runs

end TibiaGame.Library.PhaseSearch
