import TibiaGame.CronModel
import TibiaGame.Library.BinaryHeap
import TibiaGame.Library.BucketChains
import Mathlib.Data.Multiset.Range
import Mathlib.Data.Multiset.Filter

/-!
# Heap order and hash chains of the cron store

Moving an entry is a renaming of its position, so an exchange of two entries is
the transposition of their positions, whether or not they are neighbours in one
chain. The chains therefore survive every sift, and only the heap order has to
be followed through the loops.
-/

namespace TibiaGame.CronInvariant

open GameTypes CronModel Library.BinaryHeap Library.BucketChains

def cronLinks (cron : CronStore) : Links Int (Fin 2047) where
  next := fun p => (cron.cronEntryArray p).next
  prev := fun p => (cron.cronEntryArray p).previous
  head := cron.cronHashTable
  bucket := fun p => cronBucket (cron.cronEntryArray p).obj

def Occupied (cron : CronStore) (p : Int) : Prop := 1 ≤ p ∧ p ≤ cron.cronEntries

def dueRound (cron : CronStore) (p : Int) : Nat := (cron.cronEntryArray p).roundNr.toNat

/-- Heap order, chains over exactly the occupied positions, and nothing else. -/
structure WellFormed (cron : CronStore) : Prop where
  size_nonneg : 0 ≤ cron.cronEntries
  heap : Heap (dueRound cron) cron.cronEntries
  linked : Linked (-1) (Occupied cron) (cronLinks cron)

def renameEntry (rename : Int → Int) (entry : CronEntry) : CronEntry :=
  { entry with previous := rename entry.previous, next := rename entry.next }

structure Renamed (rename : Int → Int) (live : Int → Prop) (before after : CronStore) :
    Prop where
  entry : ∀ p, live p →
    after.cronEntryArray (rename p) = renameEntry rename (before.cronEntryArray p)
  head : ∀ b, after.cronHashTable b = rename (before.cronHashTable b)
  size : after.cronEntries = before.cronEntries

def moved (destination source : Int) : Int → Int := fun p => if p = source then destination else p

theorem Renamed.trans {first second : Int → Int} {live : Int → Prop} {a b c : CronStore}
    (left : Renamed first live a b)
    (right : Renamed second (fun q => ∃ p, live p ∧ first p = q) b c) :
    Renamed (second ∘ first) live a c where
  entry := by
    intro p member
    rw [Function.comp_apply, right.entry _ ⟨p, member, rfl⟩, left.entry p member]
    rfl
  head := by
    intro bucket
    rw [right.head, left.head]
    rfl
  size := right.size.trans left.size

theorem cron_move_renames {cron : CronStore} {live : Int → Prop} {destination source : Int}
    (linked : Linked (-1) live (cronLinks cron)) (sourceLive : live source)
    (free : ¬ live destination) (notNil : destination ≠ -1) :
    Renamed (moved destination source) live cron (cronMove cron destination source) := by
  set entry := cron.cronEntryArray source with entryDef
  have nextNotDestination : entry.next ≠ destination := by
    by_cases last : entry.next = -1
    · rw [last]
      exact notNil.symm
    intro same
    exact free (same ▸ (linked.next_live source sourceLive last).1)
  have previousNotDestination : entry.previous ≠ destination := by
    by_cases outer : entry.previous = -1
    · rw [outer]
      exact notNil.symm
    intro same
    exact free (same ▸ (linked.prev_live source sourceLive outer).1)
  have sourceNotNil : source ≠ -1 := linked.ne_nil sourceLive
  have sourceNotDestination : source ≠ destination := by
    intro same
    exact free (same ▸ sourceLive)
  -- Behind the source lies exactly the position whose back link names it, and
  -- before it the one whose forward link does.
  have behind : ∀ p, live p → ((cron.cronEntryArray p).previous = source ↔ p = entry.next) := by
    intro p member
    constructor
    · intro back
      have forward := (linked.prev_live p member (by simpa [cronLinks, back] using sourceNotNil)).2
      simp only [cronLinks, back] at forward
      exact forward.symm
    · rintro rfl
      exact (linked.next_live source sourceLive (linked.ne_nil member)).2.1
  have ahead : ∀ p, live p → ((cron.cronEntryArray p).next = source ↔ p = entry.previous) := by
    intro p member
    constructor
    · intro forward
      have back := (linked.next_live p member
        (by simpa [cronLinks, forward] using sourceNotNil)).2.1
      simp only [cronLinks, forward] at back
      exact back.symm
    · rintro rfl
      exact (linked.prev_live source sourceLive (linked.ne_nil member)).2
  have copied : (setEntry cron destination entry).cronEntryArray destination = entry := by simp
  have unfolded : cronMove cron destination source =
      let mended := if entry.next ≠ -1 then
        setPrevious (setEntry cron destination entry) entry.next destination
        else setEntry cron destination entry
      if entry.previous ≠ -1 then setNext mended entry.previous destination
      else setHead mended (cronBucket entry.obj) destination := by
    have mendedEntry : (setPrevious (setEntry cron destination entry) entry.next
        destination).cronEntryArray destination = entry := by
      ext <;> simp [nextNotDestination.symm]
    simp only [cronMove, ← entryDef, copied]
    split_ifs <;> simp_all
  have entryOf : ∀ p, (cronMove cron destination source).cronEntryArray p =
      { obj := if p = destination then entry.obj else (cron.cronEntryArray p).obj
        roundNr := if p = destination then entry.roundNr else (cron.cronEntryArray p).roundNr
        previous := if p = entry.next ∧ entry.next ≠ -1 then destination
          else if p = destination then entry.previous else (cron.cronEntryArray p).previous
        next := if p = entry.previous ∧ entry.previous ≠ -1 then destination
          else if p = destination then entry.next else (cron.cronEntryArray p).next } := by
    intro p
    rw [unfolded]
    by_cases last : entry.next = -1 <;> by_cases outer : entry.previous = -1 <;>
      simp only [last, outer, ne_eq, not_true_eq_false, not_false_eq_true, if_true, if_false,
        and_true, and_false] <;>
      ext <;> simp <;> split_ifs <;> simp_all
  refine ⟨?_, ?_, ?_⟩
  · intro p member
    have notDestination : p ≠ destination := by
      intro same
      exact free (same ▸ member)
    have notNilP : p ≠ -1 := linked.ne_nil member
    rw [entryOf]
    by_cases isSource : p = source
    · subst isSource
      have previousNotSource : entry.previous ≠ p := linked.prev_ne_self member
      have nextNotSource : entry.next ≠ p := linked.next_ne_self member
      simp [moved, renameEntry, nextNotDestination.symm, previousNotDestination.symm,
        previousNotSource, nextNotSource, ← entryDef]
    have behindP := behind p member
    have aheadP := ahead p member
    simp only [moved, isSource, if_false, notDestination, renameEntry, behindP, aheadP]
    congr 1 <;> split_ifs <;> simp_all
  · intro b
    rw [unfolded]
    by_cases outer : entry.previous = -1
    · have headHere := linked.first source sourceLive outer
      simp only [outer, ne_eq, not_true_eq_false, if_false, setHead, moved]
      by_cases here : b = cronBucket entry.obj
      · subst here
        have headSource : cron.cronHashTable (cronBucket entry.obj) = source := headHere
        split_ifs <;> simp_all
      have headNotSource : cron.cronHashTable b ≠ source := by
        intro same
        apply here
        have bucketOf := (linked.head_live b (by simpa [cronLinks, same] using sourceNotNil)).2.2
        simp only [cronLinks, same] at bucketOf
        exact bucketOf.symm
      rw [Function.update_of_ne here]
      split_ifs <;> simp_all [setPrevious, setEntry]
    have headNotSource : cron.cronHashTable b ≠ source := by
      intro same
      apply outer
      have prevOf := (linked.head_live b (by simpa [cronLinks, same] using sourceNotNil)).2.1
      simpa only [cronLinks, same] using prevOf
    simp only [outer, ne_eq, not_false_eq_true, if_true, moved, headNotSource, if_false]
    split_ifs <;> simp [setNext, setPrevious, setEntry]
  · rw [unfolded]
    split_ifs <;> rfl

theorem Renamed.linked {rename : Int → Int} {live : Int → Prop} {before after : CronStore}
    (renamed : Renamed rename live before after)
    (linked : Linked (-1) live (cronLinks before)) (back : Int → Int)
    (renameNil : rename (-1) = -1) (undo : ∀ p, live p ∨ p = -1 → back (rename p) = p) :
    Linked (-1) (fun q => ∃ p, live p ∧ rename p = q) (cronLinks after) := by
  apply linked.rename rename back renameNil undo
  · intro q
    rfl
  · intro p member
    simp [cronLinks, renamed.entry p member, renameEntry]
  · intro p member
    simp [cronLinks, renamed.entry p member, renameEntry]
  · intro p member
    simp [cronLinks, renamed.entry p member, renameEntry]
  · exact renamed.head

theorem moved_undo {destination source p : Int} (free : p ≠ destination) :
    moved source destination (moved destination source p) = p := by
  unfold moved
  split_ifs <;> simp_all

theorem cron_move_linked {cron : CronStore} {live : Int → Prop} {destination source : Int}
    (linked : Linked (-1) live (cronLinks cron)) (sourceLive : live source)
    (free : ¬ live destination) (notNil : destination ≠ -1) :
    Linked (-1) (fun q => ∃ p, live p ∧ moved destination source p = q)
      (cronLinks (cronMove cron destination source)) := by
  apply (cron_move_renames linked sourceLive free notNil).linked linked (moved source destination)
  · simp [moved, (linked.ne_nil sourceLive).symm]
  · rintro p (member | rfl)
    · exact moved_undo fun same => free (same ▸ member)
    · exact moved_undo notNil.symm

/-- Only the names of linked positions and of `nil` matter for a renaming. -/
theorem Renamed.congr {first second : Int → Int} {live : Int → Prop} {before after : CronStore}
    (renamed : Renamed first live before after) (linked : Linked (-1) live (cronLinks before))
    (same : ∀ p, live p ∨ p = -1 → first p = second p) : Renamed second live before after where
  entry := by
    intro p member
    have nextSame : first (before.cronEntryArray p).next = second (before.cronEntryArray p).next := by
      apply same
      by_cases last : (before.cronEntryArray p).next = -1
      · exact .inr last
      · exact .inl (linked.next_live p member last).1
    have previousSame : first (before.cronEntryArray p).previous =
        second (before.cronEntryArray p).previous := by
      apply same
      by_cases outer : (before.cronEntryArray p).previous = -1
      · exact .inr outer
      · exact .inl (linked.prev_live p member outer).1
    rw [← same p (.inl member), renamed.entry p member]
    simp only [renameEntry, nextSame, previousSame]
  head := by
    intro b
    rw [renamed.head]
    apply same
    by_cases empty : before.cronHashTable b = -1
    · exact .inr empty
    · exact .inl (linked.head_live b empty).1
  size := renamed.size

/-- The three moves through position 0 transpose the two positions. -/
theorem cron_exchange_renames {cron : CronStore} {first second : Int}
    (linked : Linked (-1) (Occupied cron) (cronLinks cron)) (firstIn : Occupied cron first)
    (secondIn : Occupied cron second) (different : first ≠ second) :
    Renamed (Equiv.swap first second) (Occupied cron) cron (cronExchange cron first second) := by
  have scratch : ¬ Occupied cron 0 := by
    rintro ⟨lower, _⟩
    omega
  have one := cron_move_renames linked firstIn scratch (by decide)
  have oneLinked := cron_move_linked linked firstIn scratch (by decide)
  have secondLive : ∃ p, Occupied cron p ∧ moved 0 first p = second :=
    ⟨second, secondIn, by simp [moved, different.symm]⟩
  have firstFree : ¬ ∃ p, Occupied cron p ∧ moved 0 first p = first := by
    rintro ⟨p, member, same⟩
    unfold moved at same
    have := firstIn.1
    split_ifs at same with isFirst
    · omega
    · exact isFirst same
  have firstNotNil : first ≠ -1 := linked.ne_nil firstIn
  have two := cron_move_renames oneLinked secondLive firstFree firstNotNil
  have twoLinked := cron_move_linked oneLinked secondLive firstFree firstNotNil
  have scratchLive : ∃ p, (∃ q, Occupied cron q ∧ moved 0 first q = p) ∧
      moved first second p = 0 := by
    refine ⟨0, ⟨first, firstIn, by simp [moved]⟩, ?_⟩
    have := secondIn.1
    simp only [moved]
    omega
  have secondFree : ¬ ∃ p, (∃ q, Occupied cron q ∧ moved 0 first q = p) ∧
      moved first second p = second := by
    rintro ⟨p, _, same⟩
    unfold moved at same
    split_ifs at same with isSecond
    · exact different same
    · exact isSecond same
  have three := cron_move_renames twoLinked scratchLive secondFree (linked.ne_nil secondIn)
  apply (one.trans (two.trans three)).congr linked
  intro p member
  have notScratch : p ≠ 0 := by
    rcases member with inside | rfl
    · have := inside.1
      omega
    · decide
  have := firstIn.1
  have := secondIn.1
  simp only [Function.comp_apply, moved, Equiv.swap_apply_def]
  split_ifs <;> omega

def positions (size : Int) : Multiset Int :=
  (Multiset.range size.toNat).map fun index : Nat => (index : Int) + 1

theorem mem_positions {size p : Int} : p ∈ positions size ↔ 1 ≤ p ∧ p ≤ size := by
  simp only [positions, Multiset.mem_map, Multiset.mem_range]
  constructor
  · rintro ⟨index, bound, rfl⟩
    omega
  · rintro ⟨lower, upper⟩
    exact ⟨(p - 1).toNat, by omega, by omega⟩

theorem positions_nodup (size : Int) : (positions size).Nodup := by
  apply (Multiset.nodup_range _).map
  intro left right same
  simpa using same

theorem positions_succ {size : Int} (nonneg : 0 ≤ size) :
    positions (size + 1) = (size + 1) ::ₘ positions size := by
  have next : (size + 1).toNat = size.toNat + 1 := by omega
  rw [positions, next, Multiset.range_succ, Multiset.map_cons]
  congr 1
  omega

def payload (cron : CronStore) (p : Int) : Object × UInt32 :=
  ((cron.cronEntryArray p).obj, (cron.cronEntryArray p).roundNr)

/-- The pairs of object and due round the store holds, whatever their order. -/
def scheduled (cron : CronStore) : Multiset (Object × UInt32) :=
  (positions cron.cronEntries).map (payload cron)

section Exchange

variable {cron : CronStore} {first second : Int}

theorem swap_occupied (firstIn : Occupied cron first) (secondIn : Occupied cron second) (p : Int) :
    Occupied cron (Equiv.swap first second p) ↔ Occupied cron p := by
  rw [Equiv.swap_apply_def]
  split_ifs with isFirst isSecond
  · simp [isFirst, firstIn, secondIn]
  · simp [isSecond, firstIn, secondIn]
  · rfl

variable (linked : Linked (-1) (Occupied cron) (cronLinks cron)) (firstIn : Occupied cron first)
    (secondIn : Occupied cron second) (different : first ≠ second)
include linked firstIn secondIn different

theorem cron_exchange_entry (p : Int) (member : Occupied cron p) :
    (cronExchange cron first second).cronEntryArray p =
      renameEntry (Equiv.swap first second) (cron.cronEntryArray (Equiv.swap first second p)) := by
  have renamed := (cron_exchange_renames linked firstIn secondIn different).entry
    (Equiv.swap first second p) ((swap_occupied firstIn secondIn p).mpr member)
  rwa [Equiv.swap_apply_self] at renamed

theorem cron_exchange_size : (cronExchange cron first second).cronEntries = cron.cronEntries :=
  (cron_exchange_renames linked firstIn secondIn different).size

theorem cron_exchange_linked :
    Linked (-1) (Occupied (cronExchange cron first second))
      (cronLinks (cronExchange cron first second)) := by
  have renamed := cron_exchange_renames linked firstIn secondIn different
  have transported := renamed.linked linked (Equiv.swap first second)
    (Equiv.swap_apply_of_ne_of_ne (linked.ne_nil firstIn).symm (linked.ne_nil secondIn).symm)
    (fun p _ => Equiv.swap_apply_self first second p)
  have sameLive : (fun q => ∃ p, Occupied cron p ∧ Equiv.swap first second p = q) =
      Occupied (cronExchange cron first second) := by
    funext q
    apply propext
    have sameSize : Occupied (cronExchange cron first second) q ↔ Occupied cron q := by
      simp only [Occupied, renamed.size]
    rw [sameSize]
    constructor
    · rintro ⟨p, member, rfl⟩
      exact (swap_occupied firstIn secondIn p).mpr member
    · intro member
      exact ⟨_, (swap_occupied firstIn secondIn q).mpr member, Equiv.swap_apply_self _ _ q⟩
  rwa [sameLive] at transported

theorem cron_exchange_due (p : Int) (member : Occupied cron p) :
    dueRound (cronExchange cron first second) p =
      exchange (dueRound cron) first second p := by
  simp [dueRound, exchange, cron_exchange_entry linked firstIn secondIn different p member,
    renameEntry]

theorem cron_exchange_scheduled : scheduled (cronExchange cron first second) = scheduled cron := by
  have permuted : (positions cron.cronEntries).map (Equiv.swap first second) =
      positions cron.cronEntries := by
    apply (((positions_nodup _).map (Equiv.injective _)).ext (positions_nodup _)).mpr
    intro p
    rw [Multiset.mem_map, mem_positions]
    constructor
    · rintro ⟨q, member, rfl⟩
      exact (swap_occupied firstIn secondIn q).mpr (mem_positions.mp member)
    · intro member
      exact ⟨_, mem_positions.mpr ((swap_occupied firstIn secondIn p).mpr member),
        Equiv.swap_apply_self _ _ p⟩
  unfold scheduled
  rw [cron_exchange_size linked firstIn secondIn different]
  conv_rhs => rw [← permuted, Multiset.map_map]
  apply Multiset.map_congr rfl
  intro p member
  simp [payload, renameEntry,
    cron_exchange_entry linked firstIn secondIn different p (mem_positions.mp member)]

end Exchange

/-- What every stage of `CronHeapify` keeps, from a store disturbed at `position`. -/
structure Sifting (cron : CronStore) (position : Int) : Prop where
  linked : Linked (-1) (Occupied cron) (cronLinks cron)
  inside : Occupied cron position
  hole : HeapExcept (dueRound cron) cron.cronEntries position

theorem Sifting.exchange {cron : CronStore} {position other : Int} (sifting : Sifting cron position)
    (otherIn : Occupied cron other) (different : position ≠ other)
    (hole : HeapExcept (exchange (dueRound cron) position other) cron.cronEntries other) :
    Sifting (cronExchange cron position other) other := by
  have size := cron_exchange_size sifting.linked sifting.inside otherIn different
  refine ⟨cron_exchange_linked sifting.linked sifting.inside otherIn different, ?_, ?_⟩
  · simpa only [Occupied, size] using otherIn
  rw [size]
  apply hole.congr
  · intro p lower upper
    exact cron_exchange_due sifting.linked sifting.inside otherIn different p ⟨lower, upper⟩
  · exact otherIn.2

theorem sift_up_spec {cron : CronStore} {position : Int} (sifting : Sifting cron position) :
    Sifting (siftUp cron position).1 (siftUp cron position).2 ∧
      AboveSettled (dueRound (siftUp cron position).1) (siftUp cron position).2 ∧
      (siftUp cron position).1.cronEntries = cron.cronEntries ∧
      scheduled (siftUp cron position).1 = scheduled cron := by
  fun_induction siftUp cron position with
  | case1 cron position inner ordered =>
    exact ⟨sifting, fun _ => UInt32.le_iff_toNat_le.mp ordered, rfl, rfl⟩
  | case2 cron position inner disorder ih =>
    have parentIn : Occupied cron (position / 2) := by
      have := sifting.inside
      unfold Occupied at *
      omega
    have different : position ≠ position / 2 := by omega
    have later : dueRound cron position < dueRound cron (position / 2) := by
      have := UInt32.le_iff_toNat_le.not.mp disorder
      simp only [dueRound]
      omega
    have step := sifting.exchange parentIn different
      (sifting.hole.sift_up (by omega) sifting.inside.2 later)
    obtain ⟨done, settled, size, kept⟩ := ih step
    refine ⟨done, settled, ?_, ?_⟩
    · rw [size, cron_exchange_size sifting.linked sifting.inside parentIn different]
    · rw [kept, cron_exchange_scheduled sifting.linked sifting.inside parentIn different]
  | case3 cron position outer =>
    exact ⟨sifting, fun inner => (outer (by omega)).elim, rfl, rfl⟩

theorem smallest_child_parent (cron : CronStore) (last position : Int) :
    smallestChild cron last position / 2 = position := by
  unfold smallestChild
  split_ifs <;> omega

theorem smallest_child_least (cron : CronStore) {last position p : Int} (upper : p ≤ last)
    (parent : p / 2 = position) :
    dueRound cron (smallestChild cron last position) ≤ dueRound cron p := by
  have children : p = position * 2 ∨ p = position * 2 + 1 := by omega
  unfold smallestChild
  split_ifs with right
  · have smaller := UInt32.lt_iff_toNat_lt.mp right.2
    rcases children with rfl | rfl
    · exact smaller.le
    · exact le_rfl
  rcases children with rfl | rfl
  · exact le_rfl
  have notSmaller : ¬ (cron.cronEntryArray (position * 2 + 1)).roundNr <
      (cron.cronEntryArray (position * 2)).roundNr := fun smaller => right ⟨upper, smaller⟩
  exact Nat.le_of_not_lt fun smaller => notSmaller (UInt32.lt_iff_toNat_lt.mpr smaller)

theorem sift_down_spec {cron : CronStore} {last position : Int} (sifting : Sifting cron position)
    (settled : AboveSettled (dueRound cron) position) (lastIs : last = cron.cronEntries) :
    WellFormed (siftDown cron last position) ∧
      (siftDown cron last position).cronEntries = cron.cronEntries ∧
      scheduled (siftDown cron last position) = scheduled cron := by
  fun_induction siftDown cron last position with
  | case1 cron position inner ordered =>
    subst lastIs
    refine ⟨⟨by have := sifting.inside; unfold Occupied at this; omega, ?_, sifting.linked⟩,
      rfl, rfl⟩
    apply sifting.hole.heap settled
    intro p lower upper parent
    exact (UInt32.le_iff_toNat_le.mp ordered).trans (smallest_child_least cron upper parent)
  | case2 cron position inner disorder ih =>
    subst lastIs
    set child := smallestChild cron cron.cronEntries position with childIs
    have below := smallest_child_gt cron cron.cronEntries position inner.1
    have bounded := smallest_child_le cron cron.cronEntries position inner.2
    have parent := smallest_child_parent cron cron.cronEntries position
    rw [← childIs] at below bounded parent
    have childIn : Occupied cron child := ⟨by omega, bounded⟩
    have different : position ≠ child := by omega
    have later : dueRound cron child < dueRound cron position := by
      have := UInt32.le_iff_toNat_le.not.mp disorder
      simp only [dueRound]
      omega
    have size := cron_exchange_size sifting.linked sifting.inside childIn different
    have step := sifting.exchange childIn different
      (sifting.hole.sift_down parent (by omega) bounded
        (fun p _ upper at_parent => smallest_child_least cron upper at_parent))
    have stepSettled : AboveSettled (dueRound (cronExchange cron position child)) child := by
      intro inside
      rw [cron_exchange_due sifting.linked sifting.inside childIn different child childIn,
        cron_exchange_due sifting.linked sifting.inside childIn different (child / 2)
          (by rw [parent]; exact sifting.inside)]
      exact exchange_above_settled parent later inside
    obtain ⟨done, sizeKept, kept⟩ := ih step stepSettled size.symm
    refine ⟨done, sizeKept.trans size, ?_⟩
    rw [kept, cron_exchange_scheduled sifting.linked sifting.inside childIn different]
  | case3 cron position outer =>
    have inside := sifting.inside
    unfold Occupied at inside
    refine ⟨⟨by omega, ?_, sifting.linked⟩, rfl, rfl⟩
    apply sifting.hole.heap settled
    intro p lower upper parent
    exact (outer ⟨inside.1, by omega⟩).elim

theorem cron_heapify_spec {cron : CronStore} {position : Int} (sifting : Sifting cron position) :
    WellFormed (cronHeapify cron position) ∧
      (cronHeapify cron position).cronEntries = cron.cronEntries ∧
      scheduled (cronHeapify cron position) = scheduled cron := by
  obtain ⟨sifted, settled, size, kept⟩ := sift_up_spec sifting
  obtain ⟨done, sizeKept, keptDown⟩ := sift_down_spec sifted settled rfl
  exact ⟨done, sizeKept.trans size, keptDown.trans kept⟩

end TibiaGame.CronInvariant
