import TibiaGame.Library.ForestChanges

/-!
# What lies inside a node has a weight

The load of a node is the sum of the weights of all that lies inside it. A node that
comes or goes takes its load along, and loads change with the weights of single nodes.
-/

namespace TibiaGame.Library.ForestSums

open Library.OrderedForest Library.ForestChanges

variable {Node Sum : Type} [AddCommMonoid Sum] {kids newKids : Node → List Node}
  {weight newWeight : Node → Sum} {a p r x : Node}

/-- What a node weighs together with all that lies inside it. -/
noncomputable def load (kids : Node → List Node) (weight : Node → Sum) (r : Node) : Sum :=
  ∑ᶠ x ∈ {x | Below kids r x}, weight x

/-- The load of a node, if it is part of another one. -/
noncomputable def part (kids : Node → List Node) (weight : Node → Sum) (r node a : Node) : Sum :=
  open Classical in if Below kids r node then load kids weight a else 0

theorem part_inside {node : Node} (inside : Below kids r node) :
    part kids weight r node a = load kids weight a := if_pos inside

theorem part_outside {node : Node} (outside : ¬ Below kids r node) :
    part kids weight r node a = 0 := if_neg outside

section Rows

theorem load_leaf [DecidableEq Node] (empty : kids a = []) : load kids weight a = weight a := by
  have alone : {x | Below kids a x} = {a} := by
    ext x
    exact below_leaf empty
  rw [load, alone, finsum_mem_singleton]

variable [Finite Node]

/-- The loads of nodes that have nothing in common. -/
theorem disjoint_load (row : List Node) (nodup : row.Nodup)
    (apart : ∀ left ∈ row, ∀ right ∈ row, left ≠ right → ∀ x, Below kids left x →
      ¬ Below kids right x) :
    ∑ᶠ x ∈ {x | ∃ node ∈ row, Below kids node x}, weight x = (row.map (load kids weight)).sum := by
  induction row with
  | nil => simp
  | cons node others ih =>
    have split : {x | ∃ other ∈ node :: others, Below kids other x} =
        {x | Below kids node x} ∪ {x | ∃ other ∈ others, Below kids other x} := by
      ext x
      simp
    have disjoint : Disjoint {x | Below kids node x}
        {x | ∃ other ∈ others, Below kids other x} := by
      apply Set.disjoint_left.mpr
      intro x inside outside
      rcases outside with ⟨other, member, under⟩
      apply apart node List.mem_cons_self other (List.mem_cons_of_mem node member) _ x inside under
      intro same
      rw [same] at nodup
      exact (List.nodup_cons.mp nodup).1 member
    rw [split, finsum_mem_union disjoint (Set.toFinite _) (Set.toFinite _), List.map_cons,
      List.sum_cons, ih (List.nodup_cons.mp nodup).2 fun left leftIn right rightIn =>
        apart left (List.mem_cons_of_mem node leftIn) right (List.mem_cons_of_mem node rightIn), load]

theorem siblings_load (single : SingleParent kids) (ranked : Ranked kids) (siblings : List Node)
    (nodup : siblings.Nodup) (children : ∀ child ∈ siblings, child ∈ kids p) :
    ∑ᶠ x ∈ {x | ∃ child ∈ siblings, Below kids child x}, weight x =
      (siblings.map (load kids weight)).sum := by
  apply disjoint_load siblings nodup
  intro left leftIn right rightIn different x
  exact siblings_disjoint single ranked (children left leftIn) (children right rightIn) different

/-- A node weighs what it weighs itself and what its children weigh. -/
theorem load_children (single : SingleParent kids) (ranked : Ranked kids) (nodup : (kids a).Nodup) :
    load kids weight a = weight a + ((kids a).map (load kids weight)).sum := by
  have split : {x | Below kids a x} = insert a {x | ∃ child ∈ kids a, Below kids child x} := by
    ext x
    simp only [Set.mem_ofPred_eq, Set.mem_insert_iff]
    constructor
    · intro under
      by_cases same : x = a
      · exact .inl same
      · exact .inr (below_of_child under same)
    intro either
    rcases either with same | inside
    · rw [same]
      exact below_refl kids a
    rcases inside with ⟨child, edge, under⟩
    exact below_trans (below_child edge) under
  have outside : a ∉ {x | ∃ child ∈ kids a, Below kids child x} := by
    intro inside
    rcases inside with ⟨child, edge, under⟩
    exact ranked.parent_not_below edge under
  rw [load, split, finsum_mem_insert _ outside (Set.toFinite _),
    siblings_load single ranked (kids a) nodup fun _ edge => edge]

end Rows

theorem load_congr (below : ∀ x, Below newKids r x ↔ Below kids r x)
    (same : ∀ x, Below kids r x → newWeight x = weight x) :
    load newKids newWeight r = load kids weight r := by
  apply finsum_mem_congr
  · ext x
    exact below x
  · exact same

/-- One node inside has another weight. -/
theorem load_change [Finite Node] (inside : Below kids r x)
    (others : ∀ node, Below kids r node → node ≠ x → newWeight node = weight node) :
    load kids newWeight r + weight x = load kids weight r + newWeight x := by
  have member : x ∈ {node | Below kids r node} := inside
  have split : {node | Below kids r node} = insert x ({node | Below kids r node} \ {x}) := by
    rw [Set.insert_sdiff_singleton, Set.insert_eq_of_mem member]
  have outside : x ∉ {node | Below kids r node} \ {x} := fun both => both.2 rfl
  have rest : ∑ᶠ node ∈ {node | Below kids r node} \ {x}, newWeight node =
      ∑ᶠ node ∈ {node | Below kids r node} \ {x}, weight node := by
    apply finsum_mem_congr rfl
    intro node both
    exact others node both.1 both.2
  rw [load, load, split, finsum_mem_insert _ outside (Set.toFinite _),
    finsum_mem_insert _ outside (Set.toFinite _), rest]
  abel

section Moves

variable [Finite Node]

theorem load_split (single : SingleParent kids) (outside : ¬ Below kids a r) :
    load kids weight r =
      ∑ᶠ x ∈ {x | Below kids r x ∧ ¬ Below kids a x}, weight x + part kids weight r a a := by
  by_cases holds : Below kids r a
  · have parts : {x | Below kids r x} =
        {x | Below kids r x ∧ ¬ Below kids a x} ∪ {x | Below kids a x} := by
      ext x
      constructor
      · intro under
        by_cases inside : Below kids a x
        · exact .inr inside
        · exact .inl ⟨under, inside⟩
      intro either
      rcases either with both | inside
      · exact both.1
      · exact below_trans holds inside
    have disjoint : Disjoint {x | Below kids r x ∧ ¬ Below kids a x} {x | Below kids a x} :=
      Set.disjoint_left.mpr fun x both inside => both.2 inside
    rw [part_inside holds, load, parts,
      finsum_mem_union disjoint (Set.toFinite _) (Set.toFinite _), load]
  have same : {x | Below kids r x} = {x | Below kids r x ∧ ¬ Below kids a x} := by
    ext x
    constructor
    · intro under
      constructor
      · exact under
      intro inside
      rcases below_comparable single under inside with above | above
      · exact holds above
      · exact outside above
    · exact And.left
  rw [part_outside holds, add_zero, load, ← same]

variable [DecidableEq Node]

theorem departs_load (weight : Node → Sum) (departs : Departs kids newKids a) (single : SingleParent kids)
    (outside : ¬ Below kids a r) :
    load newKids weight r + part kids weight r a a = load kids weight r := by
  have same : {x | Below newKids r x} = {x | Below kids r x ∧ ¬ Below kids a x} := by
    ext x
    exact departs.below single outside
  rw [load_split single outside, load, same]

theorem arrives_load (weight : Node → Sum) (arrives : Arrives kids newKids a p) (single : SingleParent kids)
    (ranked : Ranked kids) (apart : ¬ Below kids a p) (outside : ¬ Below kids a r) :
    load newKids weight r + part kids weight r a a =
      load kids weight r + part kids weight r p a := by
  have parts : load newKids weight r =
      ∑ᶠ x ∈ {x | Below kids r x ∧ ¬ Below kids a x}, weight x + part kids weight r p a := by
    by_cases goes : Below kids r p
    · have same : {x | Below newKids r x} =
          {x | Below kids r x ∧ ¬ Below kids a x} ∪ {x | Below kids a x} := by
        ext x
        simp only [Set.mem_ofPred_eq, Set.mem_union]
        rw [arrives.below_outside single ranked apart outside, and_comm, and_iff_left goes]
      have disjoint : Disjoint {x | Below kids r x ∧ ¬ Below kids a x} {x | Below kids a x} :=
        Set.disjoint_left.mpr fun x both inside => both.2 inside
      rw [part_inside goes, load, same,
        finsum_mem_union disjoint (Set.toFinite _) (Set.toFinite _), load]
    have same : {x | Below newKids r x} = {x | Below kids r x ∧ ¬ Below kids a x} := by
      ext x
      simp only [Set.mem_ofPred_eq]
      rw [arrives.below_outside single ranked apart outside, and_comm]
      constructor
      · intro either
        rcases either with both | stays
        · exact both
        · exact (goes stays.2).elim
      · exact .inl
    rw [part_outside goes, add_zero, load, same]
  rw [parts, load_split single outside]
  abel

omit [Finite Node] in
/-- The node itself weighs as much as before. -/
theorem arrives_load_inside (weight : Node → Sum) (arrives : Arrives kids newKids a p) (ranked : Ranked kids)
    (apart : ¬ Below kids a p) (inside : Below kids a r) :
    load newKids weight r = load kids weight r :=
  load_congr (fun _ => arrives.below_inside ranked apart inside) fun _ _ => rfl

end Moves

section Counts

variable [Finite Node]

/-- Nodes are counted where each of them weighs one. -/
theorem load_one (kids : Node → List Node) :
    load kids (fun _ => 1) = fun r => {x | Below kids r x}.ncard := by
  funext r
  rw [load, finsum_mem_eq_finite_toFinset_sum _ (Set.toFinite _), Finset.sum_const, smul_eq_mul,
    mul_one, Set.ncard_eq_toFinset_card _ (Set.toFinite _)]

theorem part_one (kids : Node → List Node) (r node a : Node) :
    part kids (fun _ => 1) r node a = share kids r node a := by
  rw [part, share, load_one]

theorem siblings_count (single : SingleParent kids) (ranked : Ranked kids) (siblings : List Node)
    (nodup : siblings.Nodup) (children : ∀ child ∈ siblings, child ∈ kids p) :
    {x | ∃ child ∈ siblings, Below kids child x}.ncard =
      (siblings.map fun child => {x | Below kids child x}.ncard).sum := by
  have loads : ∑ᶠ x ∈ {x | ∃ child ∈ siblings, Below kids child x}, 1 =
      (siblings.map (load kids fun _ => 1)).sum :=
    siblings_load single ranked siblings nodup children
  rw [finsum_mem_eq_finite_toFinset_sum _ (Set.toFinite _), Finset.sum_const, smul_eq_mul, mul_one,
    ← Set.ncard_eq_toFinset_card _ (Set.toFinite _)] at loads
  simpa only [load_one] using loads

/-- A node holds itself and what its children hold. -/
theorem below_count (single : SingleParent kids) (ranked : Ranked kids)
    (nodup : (kids a).Nodup) : {x | Below kids a x}.ncard =
      1 + ((kids a).map fun child => {x | Below kids child x}.ncard).sum := by
  have loads : load kids (fun _ => 1) a = 1 + ((kids a).map (load kids fun _ => 1)).sum :=
    load_children single ranked nodup
  simpa only [load_one] using loads

variable [DecidableEq Node]

theorem arrives_counted (arrives : Arrives kids newKids a p) (single : SingleParent kids)
    (ranked : Ranked kids) (apart : ¬ Below kids a p) (outside : ¬ Below kids a r) :
    {x | Below newKids r x}.ncard + share kids r a a =
      {x | Below kids r x}.ncard + share kids r p a := by
  have loads := arrives_load (fun _ => 1) arrives single ranked apart outside
  simpa only [load_one, part_one] using loads

end Counts

end TibiaGame.Library.ForestSums
