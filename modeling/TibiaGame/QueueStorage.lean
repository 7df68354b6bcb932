import TibiaGame.GrowingVector
import TibiaGame.PriorityQueue

/-!
# The priority queue in its vector

The operations of `priority_queue` with every `at` they make. A pointer that `at` has returned is
good as long as later calls leave the array in its place.
-/

namespace TibiaGame.QueueStorage

open GrowingVector Library.BinaryHeap Function
open PriorityQueue (Entry Queue Ordered keys)

variable {Key Data : Type*}

structure Stored (Key Data : Type*) where
  entry : Vector (Entry Key Data)
  entries : Int

def create (capacity increment : Int) : Stored Key Data :=
  ⟨GrowingVector.create 1 capacity increment, 0⟩

/-- What a pointer to a cell of `earlier` points to; `none` when its array has been replaced. -/
def pointed (earlier later : Vector (Entry Key Data)) (index : Int) : Option (Entry Key Data) :=
  if later.space = earlier.space then later.cell index else none

def swap (vector : Vector (Entry Key Data)) (a b : Int) (atA atB : Entry Key Data) :
    Vector (Entry Key Data) :=
  (vector.write a (some atB)).write b (some atA)

section Operations

variable [LinearOrder Key]

/-- The loop of `insert`. -/
def siftUp (vector : Vector (Entry Key Data)) (currentIndex : Int) :
    Option (Vector (Entry Key Data)) :=
  if 1 < currentIndex then do
    let first ← vector.access currentIndex
    let second ← first.access (currentIndex / 2)
    let current ← pointed first second currentIndex
    let parent ← second.cell (currentIndex / 2)
    if parent.key ≤ current.key then some second
    else siftUp (swap second currentIndex (currentIndex / 2) current parent) (currentIndex / 2)
  else some vector
termination_by currentIndex.toNat

def insert (stored : Stored Key Data) (key : Key) (data : Data) : Option (Stored Key Data) := do
  let entries := stored.entries + 1
  let reached ← stored.entry.access entries
  let sifted ← siftUp (reached.write entries (some ⟨key, data⟩)) entries
  some ⟨sifted, entries⟩

/-- The vector after the calls, the index of the smaller child and its entry. -/
def smallest (vector : Vector (Entry Key Data)) (lastIndex currentIndex : Int) :
    Option (Vector (Entry Key Data) × Int × Entry Key Data) := do
  let first ← vector.access (currentIndex * 2)
  if currentIndex * 2 + 1 < lastIndex then
    let second ← first.access (currentIndex * 2 + 1)
    let other ← second.cell (currentIndex * 2 + 1)
    let smallest ← pointed first second (currentIndex * 2)
    if other.key < smallest.key then some (second, currentIndex * 2 + 1, other)
    else some (second, currentIndex * 2, smallest)
  else
    let smallest ← first.cell (currentIndex * 2)
    some (first, currentIndex * 2, smallest)

/-- The loop of `deleteMin`, for at most so many turns. -/
def siftDown (lastIndex : Int) : Nat → Vector (Entry Key Data) → Int →
    Option (Vector (Entry Key Data))
  | 0, _, _ => none
  | turns + 1, vector, currentIndex =>
      if lastIndex ≤ currentIndex * 2 then some vector
      else do
        let (before, smallestIndex, _) ← smallest vector lastIndex currentIndex
        let reached ← before.access currentIndex
        let current ← reached.cell currentIndex
        let smallest ← pointed before reached smallestIndex
        if current.key ≤ smallest.key then some reached
        else
          siftDown lastIndex turns (swap reached currentIndex smallestIndex current smallest)
            smallestIndex

def deleteMin (stored : Stored Key Data) : Option (Stored Key Data) :=
  if stored.entries < 1 then some stored
  else if 1 < stored.entries then do
    let lastIndex := stored.entries
    let front ← stored.entry.access 1
    let back ← front.access lastIndex
    let first ← pointed front back 1
    let last ← back.cell lastIndex
    let sifted ← siftDown lastIndex lastIndex.toNat (swap back 1 lastIndex first last) 1
    some ⟨sifted, stored.entries - 1⟩
  else some ⟨stored.entry, stored.entries - 1⟩

end Operations

/-- The vector has the entries at the indices from 1 to `size`. -/
structure Holding (vector : Vector (Entry Key Data)) (size : Int)
    (entry : Int → Entry Key Data) : Prop where
  filled : ∃ values, Filled vector none values
  cell : ∀ index, 1 ≤ index → index ≤ size → vector.cell index = some (entry index)

variable {vector : Vector (Entry Key Data)} {size lastIndex currentIndex : Int}
  {entry : Int → Entry Key Data}

theorem write_cell (vector : Vector (Entry Key Data)) (index : Int)
    (value : Option (Entry Key Data)) (other : Int) :
    (vector.write index value).cell other =
      if other = index then value else vector.cell other := by
  change update vector.entry (index - vector.start) value (other - vector.start) = _
  split_ifs with same
  · rw [same, update_self]
  · rw [update_of_ne (by omega)]
    rfl

theorem Holding.inside (holding : Holding vector size entry) {index : Int} (lower : 1 ≤ index)
    (upper : index ≤ size) : vector.min ≤ index ∧ index ≤ vector.max := by
  obtain ⟨values, filled⟩ := holding.filled
  by_contra outside
  have cell := filled.cell index
  rw [if_neg outside, holding.cell index lower upper] at cell
  cases cell

theorem access_inside {values : Int → Option (Entry Key Data)} (filled : Filled vector none values)
    {index : Int} (inside : vector.min ≤ index ∧ index ≤ vector.max) :
    vector.access index = some vector := by
  have lower := filled.lower
  have upper := filled.upper
  have front : vector.reserveFront index = vector := by
    rw [Vector.reserveFront, if_neg (by omega)]
  have back : vector.reserveBack index = vector := by
    rw [Vector.reserveBack, if_neg (by omega)]
  have low : (vector.min - index).toNat = 0 := by omega
  have high : (index - vector.max).toNat = 0 := by omega
  rw [Vector.access, front, back, low]
  change Vector.raiseMax (index - vector.max).toNat vector = some vector
  rw [high]
  rfl

theorem Holding.access (holding : Holding vector size entry) (index : Int) (lower : 1 ≤ index)
    (upper : index ≤ size) : vector.access index = some vector := by
  obtain ⟨values, filled⟩ := holding.filled
  exact access_inside filled (holding.inside lower upper)

theorem Holding.pointed (holding : Holding vector size entry) (index : Int) (lower : 1 ≤ index)
    (upper : index ≤ size) : pointed vector vector index = some (entry index) :=
  (if_pos rfl).trans (holding.cell index lower upper)

theorem Holding.swap (holding : Holding vector size entry) {a b : Int} (left : 1 ≤ a ∧ a ≤ size)
    (right : 1 ≤ b ∧ b ≤ size) :
    Holding (swap vector a b (entry a) (entry b)) size (exchange entry a b) := by
  obtain ⟨values, filled⟩ := holding.filled
  have first := write_filled filled (holding.inside left.1 left.2) (some (entry b))
  have second := write_filled first (holding.inside right.1 right.2) (some (entry a))
  refine ⟨⟨_, second⟩, fun index lower upper => ?_⟩
  rw [QueueStorage.swap, write_cell, write_cell]
  by_cases atRight : index = b
  · rw [if_pos atRight, atRight, exchange_right]
  rw [if_neg atRight]
  by_cases atLeft : index = a
  · rw [if_pos atLeft, atLeft, exchange_left]
  rw [if_neg atLeft, exchange_other atLeft atRight]
  exact holding.cell index lower upper

variable [LinearOrder Key]

theorem sift_up_holding (holding : Holding vector size entry) (lower : 1 ≤ currentIndex)
    (upper : currentIndex ≤ size) : ∃ sifted, siftUp vector currentIndex = some sifted ∧
      Holding sifted size (PriorityQueue.siftUp entry currentIndex) := by
  fun_induction PriorityQueue.siftUp entry currentIndex generalizing vector with
  | case1 entry currentIndex inner ordered =>
    refine ⟨vector, ?_, holding⟩
    rw [siftUp, if_pos inner]
    simp only [Option.bind_eq_bind, Option.bind_some, holding.access _ lower upper,
      holding.access (currentIndex / 2) (by omega) (by omega),
      holding.pointed _ lower upper,
      holding.cell (currentIndex / 2) (by omega) (by omega), if_pos ordered]
  | case2 entry currentIndex inner disorder ih =>
    have parent : 1 ≤ currentIndex / 2 ∧ currentIndex / 2 ≤ size := by omega
    obtain ⟨sifted, rest, finished⟩ := ih (holding.swap ⟨lower, upper⟩ parent) parent.1 parent.2
    refine ⟨sifted, ?_, finished⟩
    rw [siftUp, if_pos inner]
    simp only [Option.bind_eq_bind, Option.bind_some, holding.access _ lower upper,
      holding.access _ parent.1 parent.2, holding.pointed _ lower upper,
      holding.cell _ parent.1 parent.2, if_neg disorder]
    exact rest
  | case3 entry currentIndex outer =>
    refine ⟨vector, ?_, holding⟩
    rw [siftUp, if_neg outer]

theorem smallest_holding (holding : Holding vector size entry) (lower : 1 ≤ currentIndex)
    (within : lastIndex ≤ size) (bounded : currentIndex * 2 < lastIndex) :
    smallest vector lastIndex currentIndex =
      some (vector, PriorityQueue.smallestIndex entry lastIndex currentIndex,
        entry (PriorityQueue.smallestIndex entry lastIndex currentIndex)) := by
  have left : 1 ≤ currentIndex * 2 ∧ currentIndex * 2 ≤ size := by omega
  rw [smallest, holding.access _ left.1 left.2, PriorityQueue.smallestIndex]
  by_cases several : currentIndex * 2 + 1 < lastIndex
  · have right : 1 ≤ currentIndex * 2 + 1 ∧ currentIndex * 2 + 1 ≤ size := by omega
    simp only [Option.bind_eq_bind, Option.bind_some, holding.access _ right.1 right.2,
      holding.cell _ right.1 right.2, holding.pointed _ left.1 left.2, several, true_and, if_true]
    split_ifs <;> rfl
  simp only [Option.bind_eq_bind, Option.bind_some, holding.cell _ left.1 left.2, several,
    false_and, if_false]

theorem sift_down_holding (within : lastIndex ≤ size) (holding : Holding vector size entry)
    (lower : 1 ≤ currentIndex) (turns : Nat) (enough : lastIndex - currentIndex < turns)
    (some_turn : 0 < turns) :
    ∃ sifted, siftDown lastIndex turns vector currentIndex = some sifted ∧
      Holding sifted size (PriorityQueue.siftDown entry lastIndex currentIndex) := by
  fun_induction PriorityQueue.siftDown entry lastIndex currentIndex generalizing vector turns with
  | case1 entry currentIndex inner ordered =>
    obtain ⟨turns, rfl⟩ := Nat.exists_eq_succ_of_ne_zero some_turn.ne'
    have bounded := PriorityQueue.smallest_lt entry inner.2
    have further := PriorityQueue.smallest_gt entry lastIndex inner.1
    refine ⟨vector, ?_, holding⟩
    rw [siftDown, if_neg (by omega), smallest_holding holding lower within inner.2]
    simp only [Option.bind_eq_bind, Option.bind_some,
      holding.access currentIndex lower (by omega),
      holding.cell currentIndex lower (by omega),
      holding.pointed _ (by omega) (bounded.le.trans within), if_pos ordered]
  | case2 entry currentIndex inner disorder ih =>
    obtain ⟨turns, rfl⟩ := Nat.exists_eq_succ_of_ne_zero some_turn.ne'
    have bounded := PriorityQueue.smallest_lt entry inner.2
    have further := PriorityQueue.smallest_gt entry lastIndex inner.1
    obtain ⟨sifted, rest, finished⟩ :=
      ih (holding.swap ⟨lower, by omega⟩ ⟨by omega, bounded.le.trans within⟩) (by omega) turns
        (by omega) (by omega)
    refine ⟨sifted, ?_, finished⟩
    rw [siftDown, if_neg (by omega), smallest_holding holding lower within inner.2]
    simp only [Option.bind_eq_bind, Option.bind_some,
      holding.access currentIndex lower (by omega),
      holding.cell currentIndex lower (by omega),
      holding.pointed _ (by omega) (bounded.le.trans within), if_neg disorder]
    exact rest
  | case3 entry currentIndex outer =>
    obtain ⟨turns, rfl⟩ := Nat.exists_eq_succ_of_ne_zero some_turn.ne'
    refine ⟨vector, ?_, holding⟩
    rw [siftDown, if_pos (by omega)]

/-- The vector has the entries of the queue. -/
structure Represents (stored : Stored Key Data) (queue : Queue Key Data) : Prop where
  size : stored.entries = queue.entries
  holding : Holding stored.entry queue.entries queue.entry
  ordered : Ordered queue

variable {stored : Stored Key Data} {queue : Queue Key Data}

omit [LinearOrder Key] in
theorem Holding.extend (holding : Holding vector size entry) (value : Entry Key Data) :
    ∃ reached, vector.access (size + 1) = some reached ∧
      Holding (reached.write (size + 1) (some value)) (size + 1)
        (update entry (size + 1) value) := by
  obtain ⟨values, filled⟩ := holding.filled
  obtain ⟨reached, found, after, inside⟩ := access_spec filled (size + 1)
  refine ⟨reached, found, ⟨_, write_filled after inside (some value)⟩, fun index lower upper => ?_⟩
  rw [write_cell]
  by_cases last : index = size + 1
  · rw [if_pos last, last, update_self]
  rw [if_neg last, update_of_ne last]
  have cell := holding.cell index lower (by omega)
  rw [filled.cell, if_pos (holding.inside lower (by omega))] at cell
  rw [after.cell, if_pos, cell]
  by_contra outside
  rw [after.outside index outside] at cell
  cases cell

omit [LinearOrder Key] in
theorem create_holding (capacity increment : Int) (entry : Int → Entry Key Data) :
    Holding (GrowingVector.create 1 capacity increment) 0 entry :=
  ⟨⟨_, create_filled 1 capacity increment⟩, fun _ _ _ => by omega⟩

theorem insert_represents (represents : Represents stored queue) (key : Key) (data : Data) :
    ∃ after, insert stored key data = some after ∧
      Represents after (PriorityQueue.insert queue key data) := by
  have nonneg := represents.ordered.nonneg
  obtain ⟨reached, found, extended⟩ := represents.holding.extend ⟨key, data⟩
  obtain ⟨sifted, sifts, finished⟩ := sift_up_holding extended (by omega) le_rfl
  have ordered := (PriorityQueue.insert_spec represents.ordered key data).1
  refine ⟨⟨sifted, queue.entries + 1⟩, ?_, rfl, finished, ordered⟩
  rw [insert, represents.size]
  simp only [Option.bind_eq_bind, Option.bind_some, found, sifts]

theorem delete_min_represents (represents : Represents stored queue) :
    ∃ after, deleteMin stored = some after ∧ Represents after (PriorityQueue.deleteMin queue) := by
  have holding := represents.holding
  rw [deleteMin, represents.size]
  by_cases empty : queue.entries < 1
  · rw [if_pos empty, PriorityQueue.deleteMin, if_pos empty]
    exact ⟨stored, rfl, represents⟩
  have ordered := (PriorityQueue.delete_min_spec represents.ordered (not_lt.mp empty)).1
  rw [PriorityQueue.deleteMin, if_neg empty] at ordered ⊢
  rw [if_neg empty]
  by_cases several : 1 < queue.entries
  · obtain ⟨sifted, sifts, finished⟩ := sift_down_holding le_rfl
      (holding.swap ⟨le_rfl, several.le⟩ ⟨several.le, le_rfl⟩) le_rfl
      queue.entries.toNat (by omega) (by omega)
    refine ⟨⟨sifted, queue.entries - 1⟩, ?_, rfl, ⟨finished.filled, fun index lower upper => ?_⟩,
      ordered⟩
    · simp only [Option.bind_eq_bind, Option.bind_some, if_pos several,
        holding.access 1 le_rfl several.le,
        holding.access queue.entries several.le le_rfl,
        holding.pointed 1 le_rfl several.le,
        holding.cell queue.entries several.le le_rfl, sifts]
    · rw [if_pos several]
      change index ≤ queue.entries - 1 at upper
      exact finished.cell index lower (by omega)
  refine ⟨⟨stored.entry, queue.entries - 1⟩, if_neg several, rfl, ⟨holding.filled, ?_⟩, ordered⟩
  intro index lower upper
  change index ≤ queue.entries - 1 at upper
  rw [if_neg several]
  exact holding.cell index lower (by omega)

inductive Operation (Key Data : Type*) where
  | insert (key : Key) (data : Data)
  | deleteMin

/-- An operation, with the entries that have been removed so far. -/
def step : Stored Key Data × Multiset (Entry Key Data) → Operation Key Data →
    Option (Stored Key Data × Multiset (Entry Key Data))
  | (stored, removed), .insert key data => (insert stored key data).map (·, removed)
  | (stored, removed), .deleteMin => do
      let after ← deleteMin stored
      if stored.entries < 1 then some (after, removed)
      else do
        let first ← stored.entry.cell 1
        some (after, first ::ₘ removed)

def run (stored : Stored Key Data) (operations : List (Operation Key Data)) :
    Option (Stored Key Data × Multiset (Entry Key Data)) :=
  operations.foldlM step (stored, 0)

omit [LinearOrder Key] in
def inserted : List (Operation Key Data) → Multiset (Entry Key Data)
  | [] => 0
  | .insert key data :: rest => ⟨key, data⟩ ::ₘ inserted rest
  | .deleteMin :: rest => inserted rest

/-- The entries from 1 to `entries`. -/
noncomputable def Stored.items (stored : Stored Key Data) : Multiset (Entry Key Data) :=
  (Finset.Icc 1 stored.entries).val.filterMap stored.entry.cell

/-- No entry has a smaller key than its parent. -/
def IsHeap (stored : Stored Key Data) : Prop :=
  ∀ index, 1 ≤ index → index ≤ stored.entries → ∃ entry, stored.entry.cell index = some entry ∧
    (2 ≤ index → ∃ parent, stored.entry.cell (index / 2) = some parent ∧ parent.key ≤ entry.key)

/-- `deleteMin` takes the entry at index 1 away, which has a minimal key. -/
def TakesLeast (stored : Stored Key Data) : Prop :=
  0 < stored.entries → ∃ first after, stored.entry.cell 1 = some first ∧
    deleteMin stored = some after ∧ stored.items = first ::ₘ after.items ∧
    ∀ item ∈ stored.items, first.key ≤ item.key

omit [LinearOrder Key] in
theorem filter_map_cells {cell : Int → Option (Entry Key Data)} {indices : Multiset Int}
    (set : ∀ index ∈ indices, cell index = some (entry index)) :
    indices.filterMap cell = indices.map entry := by
  induction indices using Multiset.induction_on with
  | empty => rfl
  | cons index rest ih =>
    rw [Multiset.filterMap_cons_some cell index rest (set index (Multiset.mem_cons_self ..)),
      Multiset.map_cons, ih fun other member => set other (Multiset.mem_cons_of_mem member)]

theorem Represents.items (represents : Represents stored queue) : stored.items = queue.items := by
  rw [Stored.items, represents.size]
  apply filter_map_cells
  intro index member
  rw [Finset.mem_val, Finset.mem_Icc] at member
  exact represents.holding.cell index member.1 member.2

theorem Represents.is_heap (represents : Represents stored queue) : IsHeap stored := by
  intro index lower upper
  rw [represents.size] at upper
  refine ⟨_, represents.holding.cell index lower upper, fun inner => ?_⟩
  exact ⟨_, represents.holding.cell (index / 2) (by omega) (by omega),
    represents.ordered.heap index inner upper⟩

theorem Represents.takes_least (represents : Represents stored queue) : TakesLeast stored := by
  intro some_entry
  rw [represents.size] at some_entry
  obtain ⟨after, deletes, later⟩ := delete_min_represents represents
  refine ⟨queue.entry 1, after, represents.holding.cell 1 le_rfl some_entry, deletes, ?_, ?_⟩
  · rw [represents.items, later.items]
    exact (PriorityQueue.delete_min_spec represents.ordered some_entry).2
  · intro item member
    rw [represents.items] at member
    exact PriorityQueue.first_least represents.ordered member

theorem run_represents (operations : List (Operation Key Data)) :
    ∀ {stored : Stored Key Data} {queue : Queue Key Data} (removed : Multiset (Entry Key Data)),
      Represents stored queue → ∃ after later taken,
        operations.foldlM step (stored, removed) = some (after, taken) ∧
          Represents after later ∧
          after.items + taken = stored.items + removed + inserted operations := by
  induction operations with
  | nil =>
    intro stored queue removed represents
    exact ⟨stored, queue, removed, rfl, represents, (add_zero _).symm⟩
  | cons operation rest ih =>
    intro stored queue removed represents
    cases operation with
    | insert key data =>
      obtain ⟨next, inserts, extended⟩ := insert_represents represents key data
      obtain ⟨after, later, taken, runs, finished, kept⟩ := ih removed extended
      have one := (PriorityQueue.insert_spec represents.ordered key data).2
      rw [← represents.items, ← extended.items] at one
      refine ⟨after, later, taken, ?_, finished, ?_⟩
      · rw [List.foldlM_cons, step, inserts]
        exact runs
      · rw [kept, one, inserted, Multiset.cons_add, Multiset.cons_add, Multiset.add_cons]
    | deleteMin =>
      obtain ⟨next, deletes, shorter⟩ := delete_min_represents represents
      by_cases empty : stored.entries < 1
      · obtain ⟨after, later, taken, runs, finished, kept⟩ := ih removed represents
        refine ⟨after, later, taken, ?_, finished, kept⟩
        rw [List.foldlM_cons, step, deleteMin, if_pos empty]
        simp only [Option.bind_eq_bind, Option.bind_some, if_pos empty]
        exact runs
      obtain ⟨first, same, cell, sames, split, -⟩ := represents.takes_least (by omega)
      cases deletes.symm.trans sames
      obtain ⟨after, later, taken, runs, finished, kept⟩ := ih (first ::ₘ removed) shorter
      refine ⟨after, later, taken, ?_, finished, ?_⟩
      · rw [List.foldlM_cons, step, deletes]
        simp only [Option.bind_eq_bind, Option.bind_some, if_neg empty, cell]
        exact runs
      · rw [kept, split, inserted, Multiset.add_cons, Multiset.cons_add, Multiset.cons_add,
          Multiset.cons_add]

theorem queue_run [Inhabited Key] [Inhabited Data] (capacity increment : Int) (operations : List (Operation Key Data)) :
    ∃ stored removed, run (create capacity increment) operations = some (stored, removed) ∧
      IsHeap stored ∧ stored.items + removed = inserted operations ∧ TakesLeast stored ∧
      (stored.entries = 0 → deleteMin stored = some stored) := by
  have start : Represents (create capacity increment)
      ⟨fun _ => ⟨(default : Key), (default : Data)⟩, 0⟩ := by
    refine ⟨rfl, create_holding capacity increment _, le_rfl, fun p lower upper => ?_⟩
    change p ≤ 0 at upper
    omega
  obtain ⟨stored, queue, removed, runs, represents, kept⟩ := run_represents operations 0 start
  refine ⟨stored, removed, runs, represents.is_heap, ?_, represents.takes_least, fun empty => ?_⟩
  · rw [kept, start.items, add_zero]
    exact zero_add _
  · rw [deleteMin, if_pos (by omega)]

end TibiaGame.QueueStorage
