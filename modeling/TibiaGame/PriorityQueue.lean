import TibiaGame.Library.BinaryHeap

/-!
# The priority queue

`priority_queue` of `containers.h`, for any keys and data. The entries stand at the positions
from 1 to `entries`, and the first one has the smallest key.
-/

namespace TibiaGame.PriorityQueue

open Library.BinaryHeap Function

variable {Key Data : Type*}

structure Entry (Key Data : Type*) where
  key : Key
  data : Data

structure Queue (Key Data : Type*) where
  entry : Int → Entry Key Data
  entries : Int

def keys (entry : Int → Entry Key Data) : Int → Key := fun position => (entry position).key

noncomputable def Queue.items (queue : Queue Key Data) : Multiset (Entry Key Data) :=
  (Finset.Icc 1 queue.entries).val.map queue.entry

variable [LinearOrder Key]

/-- The loop of `insert`. -/
def siftUp (entry : Int → Entry Key Data) (currentIndex : Int) : Int → Entry Key Data :=
  if 1 < currentIndex then
    if (entry (currentIndex / 2)).key ≤ (entry currentIndex).key then entry
    else siftUp (exchange entry currentIndex (currentIndex / 2)) (currentIndex / 2)
  else entry
termination_by currentIndex.toNat

def insert (queue : Queue Key Data) (key : Key) (data : Data) : Queue Key Data :=
  let entries := queue.entries + 1
  ⟨siftUp (Function.update queue.entry entries ⟨key, data⟩) entries, entries⟩

def smallestIndex (entry : Int → Entry Key Data) (lastIndex currentIndex : Int) : Int :=
  if currentIndex * 2 + 1 < lastIndex ∧
      (entry (currentIndex * 2 + 1)).key < (entry (currentIndex * 2)).key then
    currentIndex * 2 + 1
  else currentIndex * 2

theorem smallest_gt (entry : Int → Entry Key Data) (lastIndex : Int) {currentIndex : Int}
    (inner : 1 ≤ currentIndex) : currentIndex < smallestIndex entry lastIndex currentIndex := by
  rw [smallestIndex]
  split_ifs
  · omega
  · omega

theorem smallest_lt (entry : Int → Entry Key Data) {lastIndex currentIndex : Int}
    (bounded : currentIndex * 2 < lastIndex) :
    smallestIndex entry lastIndex currentIndex < lastIndex := by
  rw [smallestIndex]
  split_ifs with right
  · exact right.1
  · exact bounded

/-- The loop of `deleteMin`; the entry at `lastIndex` is the one that is removed. -/
def siftDown (entry : Int → Entry Key Data) (lastIndex currentIndex : Int) :
    Int → Entry Key Data :=
  if 1 ≤ currentIndex ∧ currentIndex * 2 < lastIndex then
    if (entry currentIndex).key ≤ (entry (smallestIndex entry lastIndex currentIndex)).key then entry
    else
      siftDown (exchange entry currentIndex (smallestIndex entry lastIndex currentIndex)) lastIndex
        (smallestIndex entry lastIndex currentIndex)
  else entry
termination_by (lastIndex - currentIndex).toNat
decreasing_by
  rename_i inner _
  have further := smallest_gt entry lastIndex inner.1
  have bounded := smallest_lt entry inner.2
  omega

def deleteMin (queue : Queue Key Data) : Queue Key Data :=
  if queue.entries < 1 then queue
  else
    ⟨if 1 < queue.entries then
        siftDown (exchange queue.entry 1 queue.entries) queue.entries 1
      else queue.entry, queue.entries - 1⟩

structure Ordered (queue : Queue Key Data) : Prop where
  nonneg : 0 ≤ queue.entries
  heap : Heap (keys queue.entry) queue.entries

variable {entry : Int → Entry Key Data} {size lastIndex currentIndex : Int}
  {queue : Queue Key Data}

omit [LinearOrder Key] in
theorem keys_exchange (entry : Int → Entry Key Data) (a b : Int) :
    keys (exchange entry a b) = exchange (keys entry) a b := rfl

omit [LinearOrder Key] in
theorem items_exchange {a b : Int} (left : 1 ≤ a ∧ a ≤ size) (right : 1 ≤ b ∧ b ≤ size) :
    (Finset.Icc 1 size).val.map (exchange entry a b) = (Finset.Icc 1 size).val.map entry := by
  have moved : {position | Equiv.swap a b position ≠ position} ⊆ (Finset.Icc 1 size : Set Int) := by
    intro position different
    rw [Finset.coe_Icc, Set.mem_Icc]
    by_cases isLeft : position = a
    · rw [isLeft]
      exact left
    by_cases isRight : position = b
    · rw [isRight]
      exact right
    · exact absurd (Equiv.swap_apply_of_ne_of_ne isLeft isRight) different
  have same := congrArg Finset.val (Finset.map_perm moved)
  rw [Finset.map_val] at same
  calc (Finset.Icc 1 size).val.map (exchange entry a b)
      = ((Finset.Icc 1 size).val.map (Equiv.swap a b).toEmbedding).map entry := by
        rw [Multiset.map_map]
        rfl
    _ = (Finset.Icc 1 size).val.map entry := by rw [same]

theorem sift_up_spec (hole : HeapExcept (keys entry) size currentIndex)
    (inside : 1 ≤ currentIndex ∧ currentIndex ≤ size)
    (below : ∀ p, 2 ≤ p → p ≤ size → p / 2 = currentIndex →
      keys entry currentIndex ≤ keys entry p) :
    Heap (keys (siftUp entry currentIndex)) size ∧
      (Finset.Icc 1 size).val.map (siftUp entry currentIndex) =
        (Finset.Icc 1 size).val.map entry := by
  fun_induction siftUp entry currentIndex with
  | case1 entry currentIndex inner ordered => exact ⟨hole.heap (fun _ => ordered) below, rfl⟩
  | case2 entry currentIndex inner disorder ih =>
    have later : keys entry currentIndex < keys entry (currentIndex / 2) := not_le.mp disorder
    have parentInside : 1 ≤ currentIndex / 2 ∧ currentIndex / 2 ≤ size := by omega
    have step := ih (hole.sift_up inner inside.2 later) parentInside (by
      intro p lower upper parent
      rw [keys_exchange, exchange_right]
      by_cases same : p = currentIndex
      · rw [same, exchange_left]
        exact later.le
      rw [exchange_other same (by omega)]
      have sibling := hole.apart p lower upper same (by omega)
      rw [parent] at sibling
      exact later.le.trans sibling)
    exact ⟨step.1, step.2.trans (items_exchange inside parentInside)⟩
  | case3 entry currentIndex outer =>
    exact ⟨hole.heap (fun inner => absurd inner (by omega)) below, rfl⟩

theorem smallest_parent (entry : Int → Entry Key Data) (lastIndex currentIndex : Int) :
    smallestIndex entry lastIndex currentIndex / 2 = currentIndex := by
  rw [smallestIndex]
  split_ifs
  · omega
  · omega

theorem smallest_least {p : Int} (upper : p < lastIndex) (parent : p / 2 = currentIndex) :
    keys entry (smallestIndex entry lastIndex currentIndex) ≤ keys entry p := by
  have children : p = currentIndex * 2 ∨ p = currentIndex * 2 + 1 := by omega
  rw [smallestIndex]
  split_ifs with right
  · rcases children with isLeft | isRight
    · rw [isLeft]
      exact right.2.le
    · rw [isRight]
  rcases children with isLeft | isRight
  · rw [isLeft]
  rw [isRight] at upper ⊢
  exact not_lt.mp fun smaller => right ⟨upper, smaller⟩

theorem sift_down_spec (hole : HeapExcept (keys entry) (lastIndex - 1) currentIndex)
    (inside : 1 ≤ currentIndex ∧ currentIndex < lastIndex)
    (settled : AboveSettled (keys entry) currentIndex) :
    Heap (keys (siftDown entry lastIndex currentIndex)) (lastIndex - 1) ∧
      (Finset.Icc 1 (lastIndex - 1)).val.map (siftDown entry lastIndex currentIndex) =
        (Finset.Icc 1 (lastIndex - 1)).val.map entry := by
  fun_induction siftDown entry lastIndex currentIndex with
  | case1 entry currentIndex inner ordered =>
    refine ⟨hole.heap settled ?_, rfl⟩
    intro p lower upper parent
    exact ordered.trans (smallest_least (by omega) parent)
  | case2 entry currentIndex inner disorder ih =>
    have bounded := smallest_lt entry inner.2
    have parent := smallest_parent entry lastIndex currentIndex
    have least : ∀ p, 2 ≤ p → p ≤ lastIndex - 1 → p / 2 = currentIndex →
        keys entry (smallestIndex entry lastIndex currentIndex) ≤ keys entry p := by
      intro p _ upper isChild
      exact smallest_least (by omega) isChild
    have later : keys entry (smallestIndex entry lastIndex currentIndex) <
        keys entry currentIndex := not_le.mp disorder
    have step := ih (hole.sift_down parent (by omega) (by omega) least) ⟨by omega, bounded⟩
      (exchange_above_settled parent later)
    refine ⟨step.1, step.2.trans (items_exchange ?_ ?_)⟩
    · omega
    · omega
  | case3 entry currentIndex outer =>
    refine ⟨hole.heap settled ?_, rfl⟩
    intro p lower upper parent
    exact absurd ⟨inside.1, by omega⟩ outer

theorem insert_spec (ordered : Ordered queue) (key : Key) (data : Data) :
    Ordered (insert queue key data) ∧
      (insert queue key data).items = ⟨key, data⟩ ::ₘ queue.items := by
  have nonneg := ordered.nonneg
  have hole : HeapExcept (keys (update queue.entry (queue.entries + 1) ⟨key, data⟩))
      (queue.entries + 1) (queue.entries + 1) := by
    have appended := ordered.heap.except_append key
    apply appended.congr
    · intro p lower upper
      by_cases isNew : p = queue.entries + 1
      · rw [isNew, keys, update_self, update_self]
      rw [keys, update_of_ne isNew, update_of_ne isNew]
      rfl
    · exact le_rfl
  have sifted := sift_up_spec hole ⟨by omega, le_rfl⟩ (by
    intro p lower upper parent
    omega)
  constructor
  · exact ⟨by simp only [insert]; omega, sifted.1⟩
  have range : Finset.Icc 1 (queue.entries + 1) =
      Insert.insert (queue.entries + 1) (Finset.Icc 1 queue.entries) := by
    ext position
    rw [Finset.mem_insert, Finset.mem_Icc, Finset.mem_Icc]
    omega
  have fresh : queue.entries + 1 ∉ Finset.Icc 1 queue.entries := by
    rw [Finset.mem_Icc]
    omega
  rw [Queue.items, Queue.items, insert]
  rw [sifted.2, range, Finset.insert_val_of_notMem fresh, Multiset.map_cons,
    update_self]
  apply congrArg
  apply Multiset.map_congr rfl
  intro position member
  apply update_of_ne
  intro same
  rw [same] at member
  exact fresh member

omit [LinearOrder Key] in
theorem items_split (entry : Int → Entry Key Data) (some_entry : 1 ≤ size) :
    (Finset.Icc 1 size).val.map entry =
      entry size ::ₘ (Finset.Icc 1 (size - 1)).val.map entry := by
  have range : Finset.Icc 1 size = Insert.insert size (Finset.Icc 1 (size - 1)) := by
    ext position
    rw [Finset.mem_insert, Finset.mem_Icc, Finset.mem_Icc]
    omega
  have fresh : size ∉ Finset.Icc 1 (size - 1) := by
    rw [Finset.mem_Icc]
    omega
  rw [range, Finset.insert_val_of_notMem fresh, Multiset.map_cons]

theorem delete_min_spec (ordered : Ordered queue) (some_entry : 1 ≤ queue.entries) :
    Ordered (deleteMin queue) ∧ queue.items = queue.entry 1 ::ₘ (deleteMin queue).items := by
  have notEmpty : ¬ queue.entries < 1 := not_lt.mpr some_entry
  rw [deleteMin, if_neg notEmpty]
  by_cases several : 1 < queue.entries
  · rw [if_pos several]
    have hole : HeapExcept (keys (exchange queue.entry 1 queue.entries)) (queue.entries - 1) 1 := by
      have updated : HeapExcept (update (keys queue.entry) 1
          (keys queue.entry queue.entries)) (queue.entries - 1) 1 :=
        ordered.heap.except_update (by omega) _
      apply updated.congr
      · intro p lower upper
        rw [keys_exchange]
        by_cases isFirst : p = 1
        · rw [isFirst, exchange_left, update_self]
        · rw [exchange_other isFirst (by omega), update_of_ne isFirst]
      · omega
    have sifted := sift_down_spec hole ⟨le_rfl, several⟩ (by
      intro inner
      omega)
    refine ⟨⟨by simp only; omega, sifted.1⟩, ?_⟩
    calc queue.items
        = (Finset.Icc 1 queue.entries).val.map (exchange queue.entry 1 queue.entries) :=
          (items_exchange ⟨le_rfl, some_entry⟩ ⟨some_entry, le_rfl⟩).symm
      _ = exchange queue.entry 1 queue.entries queue.entries ::ₘ
            (Finset.Icc 1 (queue.entries - 1)).val.map (exchange queue.entry 1 queue.entries) :=
          items_split _ some_entry
      _ = queue.entry 1 ::ₘ (Finset.Icc 1 (queue.entries - 1)).val.map
            (siftDown (exchange queue.entry 1 queue.entries) queue.entries 1) := by
          rw [exchange_right, sifted.2]
  rw [if_neg several]
  have single : queue.entries = 1 := by omega
  refine ⟨⟨by simp only; omega, ?_⟩, ?_⟩
  · intro p lower upper
    simp only at upper
    omega
  · have split := items_split queue.entry some_entry
    rw [single] at split
    rw [Queue.items, Queue.items, single, split]

theorem first_least (ordered : Ordered queue) {item : Entry Key Data} (member : item ∈ queue.items) :
    (queue.entry 1).key ≤ item.key := by
  rcases Multiset.mem_map.mp member with ⟨position, inside, same⟩
  rw [← same]
  rw [Finset.mem_val, Finset.mem_Icc] at inside
  exact ordered.heap.first_le inside.1 inside.2

end TibiaGame.PriorityQueue
