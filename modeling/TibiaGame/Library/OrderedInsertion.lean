import Mathlib.Tactic
import Mathlib.Data.List.TakeWhile

/-!
# Ordered lists

A list is ordered by a key. A search that stops at the first member of a larger
key finds a place where a new member keeps the order, and a member may change its
key within the bounds of its neighbours.
-/

namespace TibiaGame.Library.OrderedInsertion

variable {Item Key : Type*} [LinearOrder Key] {key newKey : Item → Key} {members : List Item}
  {x : Item}

def OrderedBy (key : Item → Key) (members : List Item) : Prop :=
  members.Pairwise fun left right => key left ≤ key right

instance : Decidable (OrderedBy key members) :=
  inferInstanceAs (Decidable (members.Pairwise fun left right => key left ≤ key right))

theorem OrderedBy.sublist {fewer : List Item} (ordered : OrderedBy key members)
    (part : fewer.Sublist members) : OrderedBy key fewer :=
  List.Pairwise.sublist part ordered

theorem OrderedBy.congr (ordered : OrderedBy key members)
    (same : ∀ item ∈ members, newKey item = key item) : OrderedBy newKey members := by
  apply List.Pairwise.imp_of_mem _ ordered
  intro left right leftIn rightIn order
  rw [same left leftIn, same right rightIn]
  exact order

theorem ordered_splice {front back : List Item} (ordered : OrderedBy key (front ++ back))
    (before : ∀ item ∈ front, key item ≤ key x) (after : ∀ item ∈ back, key x ≤ key item) :
    OrderedBy key (front ++ x :: back) := by
  rcases List.pairwise_append.mp ordered with ⟨frontOrdered, backOrdered, across⟩
  apply List.pairwise_append.mpr
  refine ⟨frontOrdered, List.pairwise_cons.mpr ⟨after, backOrdered⟩, ?_⟩
  intro left leftIn right rightIn
  rcases List.mem_cons.mp rightIn with rfl | later
  · exact before left leftIn
  · exact across left leftIn right later

/-- Where the search stops, everything behind would have stopped it as well. -/
theorem stops_behind {stop : Item → Bool} (ordered : OrderedBy key members)
    (rising : ∀ left right, stop left = true → key left ≤ key right → stop right = true) :
    ∀ item ∈ members.dropWhile (fun item => !stop item), stop item = true := by
  induction members with
  | nil =>
    nofun
  | cons first rest ih =>
    rcases List.pairwise_cons.mp ordered with ⟨least, restOrdered⟩
    rcases stops : stop first with _ | _
    · rw [List.dropWhile_cons_of_pos (by simp [stops])]
      exact ih restOrdered
    rw [List.dropWhile_cons_of_neg (by simp [stops])]
    intro item member
    rcases List.mem_cons.mp member with rfl | later
    · exact stops
    · exact rising first item stops (least item later)

theorem ordered_search {stop : Item → Bool} (ordered : OrderedBy key members)
    (rising : ∀ left right, stop left = true → key left ≤ key right → stop right = true)
    (passed : ∀ item, stop item = false → key item ≤ key x)
    (stopped : ∀ item, stop item = true → key x ≤ key item) :
    OrderedBy key (members.takeWhile (fun item => !stop item) ++
      x :: members.dropWhile fun item => !stop item) := by
  apply ordered_splice
  · rw [List.takeWhile_append_dropWhile]
    exact ordered
  · intro item member
    apply passed
    simpa using List.mem_takeWhile_imp member
  · intro item member
    exact stopped item (stops_behind ordered rising item member)

end TibiaGame.Library.OrderedInsertion
