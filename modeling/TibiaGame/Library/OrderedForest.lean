import Mathlib.Tactic
import Mathlib.Logic.Relation
import Mathlib.Data.Set.Card

/-!
# Ordered forests

A forest is given by the list of children of every node. Acyclicity is a depth
that rises along the edges, and nobody has two parents. Pruning takes a node and
everything below it out of the forest.
-/

namespace TibiaGame.Library.OrderedForest

open Relation

variable {Node : Type*} {kids newKids : Node → List Node} {a b c p x : Node}

/-- `x` is `a` itself or lies inside it, at any depth. -/
def Below (kids : Node → List Node) : Node → Node → Prop :=
  ReflTransGen fun parent child => child ∈ kids parent

def Ranked (kids : Node → List Node) : Prop :=
  ∃ depth : Node → Nat, ∀ parent child, child ∈ kids parent → depth parent < depth child

def SingleParent (kids : Node → List Node) : Prop :=
  ∀ parent other child, child ∈ kids parent → child ∈ kids other → parent = other

theorem below_refl (kids : Node → List Node) (a : Node) : Below kids a a := ReflTransGen.refl

theorem below_step (under : Below kids a b) (edge : c ∈ kids b) : Below kids a c :=
  ReflTransGen.tail under edge

theorem below_child (edge : b ∈ kids a) : Below kids a b := below_step (below_refl kids a) edge

theorem below_trans (first : Below kids a b) (second : Below kids b c) : Below kids a c :=
  ReflTransGen.trans first second

theorem below_depth {depth : Node → Nat}
    (rises : ∀ parent child, child ∈ kids parent → depth parent < depth child)
    (under : Below kids a b) : depth a ≤ depth b := by
  induction under with
  | refl => exact le_rfl
  | tail _ edge ih => exact ih.trans (rises _ _ edge).le

theorem Ranked.parent_not_below (ranked : Ranked kids) (edge : b ∈ kids a) : ¬ Below kids b a := by
  rcases ranked with ⟨depth, rises⟩
  intro under
  have := below_depth rises under
  have := rises a b edge
  omega

theorem Ranked.below_antisymm (ranked : Ranked kids) (down : Below kids a b) (up : Below kids b a) :
    a = b := by
  cases down with
  | refl => rfl
  | tail above edge => exact (ranked.parent_not_below edge (below_trans up above)).elim

theorem Ranked.not_own_child (ranked : Ranked kids) : a ∉ kids a := by
  intro edge
  exact ranked.parent_not_below edge (below_refl kids a)

theorem Ranked.mono (ranked : Ranked kids) (fewer : ∀ node, ∀ child ∈ newKids node, child ∈ kids node) :
    Ranked newKids := by
  rcases ranked with ⟨depth, rises⟩
  exact ⟨depth, fun parent child edge => rises parent child (fewer parent child edge)⟩

theorem below_mono (fewer : ∀ node, ∀ child ∈ newKids node, child ∈ kids node)
    (under : Below newKids a x) : Below kids a x := by
  induction under with
  | refl => exact below_refl kids a
  | tail _ edge ih => exact below_step ih (fewer _ _ edge)

/-- What lies inside a node depends only on the lists inside it. -/
theorem below_congr (same : ∀ node, Below kids a node → newKids node = kids node) :
    Below newKids a x ↔ Below kids a x := by
  constructor
  · intro under
    induction under with
    | refl => exact below_refl kids a
    | tail _ edge ih =>
      rw [same _ ih] at edge
      exact below_step ih edge
  intro under
  induction under with
  | refl => exact below_refl newKids a
  | @tail middle last inner edge ih =>
    apply below_step ih
    rw [same middle inner]
    exact edge

/-- Whatever is inside a node is the node itself or has its parent inside it. -/
theorem below_cases (single : SingleParent kids) (under : Below kids a x) (edge : x ∈ kids p) :
    x = a ∨ Below kids a p := by
  cases under with
  | refl => exact .inl rfl
  | tail inner last =>
    right
    rw [single _ _ _ edge last]
    exact inner

theorem below_of_child (under : Below kids a x) (different : x ≠ a) :
    ∃ child ∈ kids a, Below kids child x := by
  rcases ReflTransGen.cases_head under with same | ⟨child, edge, rest⟩
  · exact (different same.symm).elim
  · exact ⟨child, edge, rest⟩

/-- With single parents the nodes above a node are on one path. -/
theorem below_comparable (single : SingleParent kids) (left : Below kids a x)
    (right : Below kids b x) : Below kids a b ∨ Below kids b a := by
  have rightUnique : Relator.RightUnique (Function.swap fun parent child => child ∈ kids parent) := by
    intro child parent parent' edge edge'
    exact single _ _ _ edge edge'
  have comparable := ReflTransGen.total_of_right_unique rightUnique
    (reflTransGen_swap.mpr left) (reflTransGen_swap.mpr right)
  rcases comparable with swapped | swapped
  · exact .inr (reflTransGen_swap.mp swapped)
  · exact .inl (reflTransGen_swap.mp swapped)

theorem siblings_disjoint (single : SingleParent kids) (ranked : Ranked kids) (left : a ∈ kids p)
    (right : b ∈ kids p) (different : a ≠ b) (under : Below kids a x) : ¬ Below kids b x := by
  intro other
  rcases below_comparable single under other with inside | inside
  · rcases below_cases single inside right with same | parentInside
    · exact different same.symm
    · exact ranked.parent_not_below left parentInside
  rcases below_cases single inside left with same | parentInside
  · exact different same
  · exact ranked.parent_not_below right parentInside

/-- A node without a parent lies inside itself only. -/
theorem below_root (root : ∀ node, x ∉ kids node) (under : Below kids a x) : a = x := by
  cases under with
  | refl => rfl
  | tail _ edge => exact (root _ edge).elim

theorem roots_disjoint (single : SingleParent kids) (left : ∀ node, a ∉ kids node)
    (right : ∀ node, b ∉ kids node) (different : a ≠ b) (under : Below kids a x) :
    ¬ Below kids b x := by
  intro other
  rcases below_comparable single under other with inside | inside
  · exact different (below_root right inside)
  · exact different (below_root left inside).symm

/-- A node without a parent becomes a child of a node that does not lie inside it. -/
theorem Ranked.insert (ranked : Ranked kids) (single : SingleParent kids)
    (orphan : ∀ node, a ∉ kids node) (outside : ¬ Below kids a p)
    (edges : ∀ node child, child ∈ newKids node → child ∈ kids node ∨ node = p ∧ child = a) :
    Ranked newKids := by
  classical
  rcases ranked with ⟨depth, rises⟩
  refine ⟨fun node => if Below kids a node then depth node + depth p + 1 else depth node, ?_⟩
  intro parent child edge
  beta_reduce
  rcases edges parent child edge with old | ⟨rfl, rfl⟩
  · have rise := rises parent child old
    by_cases inside : Below kids a parent
    · rw [if_pos inside, if_pos (below_step inside old)]
      omega
    have outsideChild : ¬ Below kids a child := by
      intro under
      rcases below_cases single under old with rfl | parentInside
      · exact orphan parent old
      · exact inside parentInside
    rw [if_neg inside, if_neg outsideChild]
    exact rise
  rw [if_neg outside, if_pos (below_refl kids child)]
  omega

variable [DecidableEq Node]

open Classical in
/-- The forest without `gone` and what lies inside it. -/
noncomputable def prune (kids : Node → List Node) (gone : Node) : Node → List Node := fun node =>
  if Below kids gone node then [] else (kids node).erase gone

theorem prune_inside (under : Below kids a x) : prune kids a x = [] := by
  rw [prune, if_pos under]

theorem prune_outside (outside : ¬ Below kids a x) : prune kids a x = (kids x).erase a := by
  rw [prune, if_neg outside]

theorem prune_elsewhere (outside : ¬ Below kids a x) (notChild : a ∉ kids x) :
    prune kids a x = kids x := by
  rw [prune_outside outside, List.erase_of_not_mem notChild]

/-- Pruning one of two disjoint parts leaves the other as it is. -/
theorem below_prune_disjoint (apart : ∀ node, Below kids b node → ¬ Below kids a node) :
    Below (prune kids a) b x ↔ Below kids b x := by
  apply below_congr
  intro node inside
  apply prune_elsewhere (apart node inside)
  intro edge
  exact apart a (below_step inside edge) (below_refl kids a)

theorem prune_subset (node : Node) : ∀ child ∈ prune kids a node, child ∈ kids node := by
  intro child member
  by_cases inside : Below kids a node
  · rw [prune_inside inside] at member
    cases member
  rw [prune_outside inside] at member
  exact List.mem_of_mem_erase member

theorem prune_gone (nodup : ∀ node, (kids node).Nodup) (node : Node) : a ∉ prune kids a node := by
  by_cases inside : Below kids a node
  · rw [prune_inside inside]
    exact List.not_mem_nil
  rw [prune_outside inside]
  exact (nodup node).not_mem_erase

/-- Pruning a part splits what lies inside a node into the part and the rest. -/
theorem below_prune_or (under : Below kids a x) : Below (prune kids c) a x ∨ Below kids c x := by
  induction under with
  | refl => exact .inl (below_refl _ a)
  | @tail middle last _ edge ih =>
    by_cases inside : Below kids c middle
    · exact .inr (below_step inside edge)
    rcases ih with left | right
    · by_cases isPart : last = c
      · rw [isPart]
        exact .inr (below_refl kids c)
      left
      apply below_step left
      rw [prune_outside inside]
      exact (List.mem_erase_of_ne isPart).mpr edge
    · exact (inside right).elim

theorem below_of_prune (under : Below (prune kids c) a x) : Below kids a x :=
  below_mono prune_subset under

/-- Pruning a child first changes nothing about pruning its parent. -/
theorem prune_child (single : SingleParent kids) (edge : c ∈ kids a) :
    prune (prune kids c) a = prune kids a := by
  funext node
  by_cases inside : Below kids a node
  · rw [prune_inside inside]
    by_cases still : Below (prune kids c) a node
    · rw [prune_inside still]
    rw [prune_outside still]
    rcases below_prune_or inside with left | part
    · exact (still left).elim
    rw [prune_inside part]
    rfl
  have outsidePart : ¬ Below kids c node := by
    intro part
    exact inside (below_trans (below_child edge) part)
  have notParent : c ∉ kids node := by
    intro other
    rw [single _ _ _ other edge] at inside
    exact inside (below_refl kids a)
  rw [prune_outside (fun still => inside (below_of_prune still)), prune_outside inside,
    prune_elsewhere outsidePart notParent]

/-- A node without parent and children is not there as far as the lists go. -/
theorem prune_leaf (orphan : ∀ node, a ∉ kids node) (empty : kids a = []) : prune kids a = kids := by
  funext node
  by_cases inside : Below kids a node
  · rw [prune_inside inside]
    by_cases here : node = a
    · rw [here, empty]
    rcases below_of_child inside here with ⟨child, edge, _⟩
    rw [empty] at edge
    cases edge
  · exact prune_elsewhere inside (orphan node)

theorem below_leaf (empty : kids a = []) : Below kids a x ↔ x = a := by
  constructor
  · intro under
    by_contra different
    rcases below_of_child under different with ⟨child, edge, _⟩
    rw [empty] at edge
    cases edge
  · rintro rfl
    exact below_refl kids x

end TibiaGame.Library.OrderedForest
