import TibiaGame.Library.OrderedForest

/-!
# A child comes or goes

In a forest of ordered lists a node is put under a parent, from elsewhere or as a new
one, or it goes with all that lies inside it. What lies inside another node afterwards
is said by what lay inside it before.
-/

namespace TibiaGame.Library.ForestChanges

open Library.OrderedForest

variable {Node : Type} {kids newKids lastKids : Node → List Node} {a p q r x : Node}

open Classical in
/-- One node more for each that goes along, where the node comes from or goes to. -/
noncomputable def share (kids : Node → List Node) (r node a : Node) : Nat :=
  if Below kids r node then {x | Below kids a x}.ncard else 0

section Followed

variable {opens otherOpens : Node → Bool}

/-- The rows that a walk goes into; it passes by the others. -/
def followed (opens : Node → Bool) (kids : Node → List Node) : Node → List Node :=
  fun node => if opens node then kids node else []

theorem followed_open {node : Node} (isOpen : opens node = true) :
    followed opens kids node = kids node := if_pos isOpen

theorem followed_subset (node : Node) : ∀ child ∈ followed opens kids node, child ∈ kids node := by
  intro child edge
  unfold followed at edge
  split_ifs at edge
  · exact edge
  · cases edge

/-- Only the nodes that have children matter. -/
theorem followed_congr (same : ∀ node, kids node ≠ [] → opens node = otherOpens node) :
    followed opens kids = followed otherOpens kids := by
  funext node
  unfold followed
  by_cases empty : kids node = []
  · rw [empty, ite_self, ite_self]
  · rw [same node empty]

/-- What a walk from `r` finds inside a node below `r`, it finds from that node too. -/
theorem followed_below (single : SingleParent kids) (ranked : Ranked kids) (above : Below kids r a)
    (found : Below (followed opens kids) r x) (inside : Below kids a x) :
    Below (followed opens kids) a x := by
  induction found with
  | refl =>
    rw [ranked.below_antisymm inside above]
    exact below_refl _ r
  | tail _ edge ih =>
    rcases below_cases single inside (followed_subset _ _ edge) with same | further
    · rw [same]
      exact below_refl _ a
    · exact below_step (ih further) edge

end Followed

variable [DecidableEq Node]

/-- The node is a child of `p` and of no other; the other children keep their order. -/
structure Arrives (kids newKids : Node → List Node) (a p : Node) : Prop where
  row : ∀ node, (newKids node).filter (· ≠ a) = (kids node).filter (· ≠ a)
  place : ∀ node, a ∈ newKids node ↔ node = p

/-- The node and what lies inside it are gone. -/
structure Departs (kids newKids : Node → List Node) (a : Node) : Prop where
  inside : ∀ node, Below kids a node → newKids node = []
  outside : ∀ node, ¬ Below kids a node → newKids node = (kids node).filter (· ≠ a)

theorem filter_away {row : List Node} (away : a ∉ row) : row.filter (· ≠ a) = row := by
  apply List.filter_eq_self.mpr
  intro node member
  apply decide_eq_true
  intro same
  rw [same] at member
  exact away member

theorem Arrives.keeps (arrives : Arrives kids newKids a p) {node child : Node}
    (different : child ≠ a) : child ∈ newKids node ↔ child ∈ kids node := by
  have same : child ∈ (newKids node).filter (· ≠ a) ↔ child ∈ (kids node).filter (· ≠ a) := by
    rw [arrives.row]
  simpa [different] using same

theorem Arrives.member (arrives : Arrives kids newKids a p) (node child : Node) :
    child ∈ newKids node ↔ child = a ∧ node = p ∨ child ≠ a ∧ child ∈ kids node := by
  by_cases here : child = a
  · rw [here, arrives.place]
    simp
  rw [arrives.keeps here]
  simp [here]

theorem Arrives.elsewhere (arrives : Arrives kids newKids a p) {node : Node} (away : node ≠ p)
    (notChild : a ∉ kids node) : newKids node = kids node := by
  have stays := arrives.row node
  rw [filter_away notChild] at stays
  rw [← stays, filter_away]
  intro child
  exact away ((arrives.place node).mp child)

/-- Only the last place counts. -/
theorem Arrives.trans (first : Arrives kids newKids a q) (second : Arrives newKids lastKids a p) :
    Arrives kids lastKids a p where
  row := fun node => (second.row node).trans (first.row node)
  place := second.place

/-- A node that came and went again was never there. -/
theorem Arrives.departs (arrives : Arrives kids newKids a p) (departs : Departs newKids lastKids a)
    (leaf : newKids a = []) (orphan : ∀ node, a ∉ kids node) (empty : kids a = []) :
    lastKids = kids := by
  funext node
  by_cases here : node = a
  · rw [here, empty]
    exact departs.inside a (below_refl newKids a)
  have outside : ¬ Below newKids a node := by
    rw [below_leaf leaf]
    exact here
  rw [departs.outside node outside, arrives.row, filter_away (orphan node)]

theorem Departs.member (departs : Departs kids newKids a) (single : SingleParent kids)
    (node child : Node) : child ∈ newKids node ↔ child ∈ kids node ∧ ¬ Below kids a child := by
  by_cases inside : Below kids a node
  · rw [departs.inside node inside]
    constructor
    · nofun
    · intro both
      exact (both.2 (below_step inside both.1)).elim
  rw [departs.outside node inside, List.mem_filter, decide_eq_true_eq]
  constructor
  · intro both
    constructor
    · exact both.1
    intro under
    rcases below_cases single under both.1 with same | above
    · exact both.2 same
    · exact inside above
  intro both
  constructor
  · exact both.1
  · intro same
    rw [same] at both
    exact both.2 (below_refl kids a)

theorem Departs.elsewhere (departs : Departs kids newKids a) {node : Node}
    (outside : ¬ Below kids a node) (notChild : a ∉ kids node) : newKids node = kids node := by
  rw [departs.outside node outside, filter_away notChild]

theorem prune_departs (nodup : ∀ node, (kids node).Nodup) : Departs kids (prune kids a) a where
  inside := fun _ under => prune_inside under
  outside := by
    intro node outside
    rw [prune_outside outside, (nodup node).erase_eq_filter]
    apply List.filter_congr
    intro child _
    rw [decide_not]
    rfl

theorem Departs.below (departs : Departs kids newKids a) (single : SingleParent kids)
    (outside : ¬ Below kids a r) : Below newKids r x ↔ Below kids r x ∧ ¬ Below kids a x := by
  constructor
  · intro under
    induction under with
    | refl => exact ⟨below_refl kids r, outside⟩
    | tail _ edge ih =>
      rcases (departs.member single _ _).mp edge with ⟨old, notInside⟩
      exact ⟨below_step ih.1 old, notInside⟩
  intro both
  rcases both with ⟨under, notInside⟩
  induction under with
  | refl => exact below_refl newKids r
  | tail _ edge ih =>
    have parentOutside := fun inside => notInside (below_step inside edge)
    exact below_step (ih parentOutside) ((departs.member single _ _).mpr ⟨edge, notInside⟩)

/-- Inside the node itself nothing changes. -/
theorem Arrives.below_inside (arrives : Arrives kids newKids a p) (ranked : Ranked kids)
    (apart : ¬ Below kids a p) (inside : Below kids a r) : Below newKids r x ↔ Below kids r x := by
  apply below_congr
  intro node under
  have nodeInside := below_trans inside under
  apply arrives.elsewhere
  · intro same
    rw [same] at nodeInside
    exact apart nodeInside
  · intro edge
    exact ranked.parent_not_below edge nodeInside

theorem Arrives.below_outside (arrives : Arrives kids newKids a p) (single : SingleParent kids)
    (ranked : Ranked kids) (apart : ¬ Below kids a p) (outside : ¬ Below kids a r) :
    Below newKids r x ↔ ¬ Below kids a x ∧ Below kids r x ∨ Below kids a x ∧ Below kids r p := by
  have untouched : ∀ node, ¬ Below kids a node → Below kids r node → Below newKids r node := by
    intro node notInside under
    induction under with
    | refl => exact below_refl newKids r
    | tail _ edge ih =>
      apply below_step (ih fun inside => notInside (below_step inside edge))
      apply (arrives.member _ _).mpr
      right
      constructor
      · intro same
        rw [same] at notInside
        exact notInside (below_refl kids a)
      · exact edge
  constructor
  · intro under
    induction under with
    | refl => exact .inl ⟨outside, below_refl kids r⟩
    | tail _ edge ih =>
      rcases (arrives.member _ _).mp edge with ⟨isNew, parent⟩ | ⟨notNew, old⟩
      · rw [parent] at ih
        rcases ih with ⟨_, above⟩ | ⟨inside, _⟩
        · rw [isNew]
          exact .inr ⟨below_refl kids a, above⟩
        · exact (apart inside).elim
      rcases ih with ⟨parentOutside, above⟩ | ⟨parentInside, above⟩
      · left
        constructor
        · intro inside
          rcases below_cases single inside old with same | parentInside
          · exact notNew same
          · exact parentOutside parentInside
        · exact below_step above old
      · exact .inr ⟨below_step parentInside old, above⟩
  intro either
  rcases either with ⟨notInside, under⟩ | ⟨inside, above⟩
  · exact untouched x notInside under
  have child : a ∈ newKids p := (arrives.member p a).mpr (.inl ⟨rfl, rfl⟩)
  exact below_trans (below_step (untouched p apart above) child)
    ((arrives.below_inside ranked apart (below_refl kids a)).mpr inside)

section Followed

variable {opens : Node → Bool}

theorem Arrives.followed (arrives : Arrives kids newKids a p) (takes : opens p = true) :
    Arrives (followed opens kids) (followed opens newKids) a p := by
  constructor
  · intro node
    unfold ForestChanges.followed
    split_ifs
    · exact arrives.row node
    · rfl
  intro node
  by_cases here : node = p
  · rw [here, followed_open takes, arrives.place]
  apply iff_of_false
  · intro edge
    exact here ((arrives.place node).mp (followed_subset _ _ edge))
  · exact here

theorem Departs.below_followed (departs : Departs kids newKids a) (single : SingleParent kids)
    (outside : ¬ Below kids a r) : Below (ForestChanges.followed opens newKids) r x ↔
      Below (ForestChanges.followed opens kids) r x ∧ ¬ Below kids a x := by
  have edges : ∀ node child, child ∈ ForestChanges.followed opens newKids node ↔
      child ∈ ForestChanges.followed opens kids node ∧ ¬ Below kids a child := by
    intro node child
    unfold ForestChanges.followed
    split_ifs
    · exact departs.member single node child
    · simp
  constructor
  · intro under
    induction under with
    | refl => exact ⟨below_refl _ r, outside⟩
    | tail _ edge ih =>
      rcases (edges _ _).mp edge with ⟨old, notInside⟩
      exact ⟨below_step ih.1 old, notInside⟩
  intro both
  rcases both with ⟨under, notInside⟩
  induction under with
  | refl => exact below_refl _ r
  | tail _ edge ih =>
    have parentOutside := fun inside => notInside (below_step inside (followed_subset _ _ edge))
    exact below_step (ih parentOutside) ((edges _ _).mpr ⟨edge, notInside⟩)

/-- A node that is followed alone is one less when it goes. -/
theorem Departs.count_alone [Finite Node] (departs : Departs kids newKids a) (single : SingleParent kids)
    (ranked : Ranked kids) (outside : ¬ Below kids a r) (found : Below (ForestChanges.followed opens kids) r a)
    (alone : {x | Below (ForestChanges.followed opens kids) a x}.ncard = 1) :
    {x | Below (ForestChanges.followed opens newKids) r x}.ncard + 1 =
      {x | Below (ForestChanges.followed opens kids) r x}.ncard := by
  have above : Below kids r a := below_mono followed_subset found
  have only : ∀ x, Below (ForestChanges.followed opens kids) r x → (Below kids a x ↔ x = a) := by
    intro x under
    constructor
    · intro inside
      rcases Set.ncard_eq_one.mp alone with ⟨one, singleton⟩
      have first : a = one := Set.mem_singleton_iff.mp (singleton ▸ below_refl _ a)
      have second : x = one :=
        Set.mem_singleton_iff.mp (singleton ▸ followed_below single ranked above under inside)
      rw [second, first]
    · intro same
      rw [same]
      exact below_refl kids a
  have left : {x | Below (ForestChanges.followed opens newKids) r x} =
      {x | Below (ForestChanges.followed opens kids) r x} \ {a} := by
    ext x
    rw [Set.mem_ofPred_eq, departs.below_followed single outside, Set.mem_sdiff, Set.mem_ofPred_eq,
      Set.mem_singleton_iff]
    apply and_congr_right
    intro under
    rw [only x under]
  have member : a ∈ {x | Below (ForestChanges.followed opens kids) r x} := found
  rw [left, Set.ncard_sdiff_singleton_add_one member]

end Followed

end TibiaGame.Library.ForestChanges
