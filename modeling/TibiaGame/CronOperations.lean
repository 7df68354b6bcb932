import TibiaGame.CronInvariant

/-!
# What each cron operation does to the schedule

Every operation of the store is described by its effect on the multiset of
scheduled pairs; the invariant is restored by `CronHeapify` at its end.
-/

namespace TibiaGame.CronOperations

open GameTypes CronModel CronInvariant Library.BucketChains Library.LinkedList

section

variable {cron : CronStore} {position : Int}

theorem empty_well_formed : WellFormed emptyCronStore where
  size_nonneg := le_rfl
  heap := by
    intro p lower upper
    simp only [emptyCronStore] at upper
    omega
  linked := by
    have nobody : ∀ p, ¬ Occupied emptyCronStore p := by
      rintro p ⟨lower, upper⟩
      simp only [emptyCronStore] at upper
      omega
    refine ⟨nobody _, ?_, ?_, ?_, ?_, ⟨fun _ => 0, 0, ?_⟩⟩
    · intro p member
      exact (nobody p member).elim
    · intro p member
      exact (nobody p member).elim
    · intro p member
      exact (nobody p member).elim
    · intro b inner
      exact (inner rfl).elim
    · intro p member
      exact (nobody p member).elim

theorem scheduled_split {p : Int} (member : Occupied cron p) :
    scheduled cron =
      payload cron p ::ₘ ((positions cron.cronEntries).erase p).map (payload cron) := by
  have split := Multiset.cons_erase (mem_positions.mpr member)
  unfold scheduled
  conv_lhs => rw [← split]
  exact Multiset.map_cons _ _ _

theorem cron_set_spec (wellFormed : WellFormed cron) (obj : Object) (roundNr : UInt32) :
    WellFormed (cronSet cron obj roundNr) ∧
      (cronSet cron obj roundNr).cronEntries = cron.cronEntries + 1 ∧
      scheduled (cronSet cron obj roundNr) = (obj, roundNr) ::ₘ scheduled cron := by
  have nonneg := wellFormed.size_nonneg
  have linked := wellFormed.linked
  set size := cron.cronEntries with sizeIs
  set next := cron.cronHashTable (cronBucket obj) with nextIs
  set placed := setHead (setEntry { cron with cronEntries := size + 1 } (size + 1)
    ⟨obj, roundNr, -1, next⟩) (cronBucket obj) (size + 1) with placedIs
  set linkedIn := if next ≠ -1 then setPrevious placed next (size + 1) else placed with linkedInIs
  have nextOld : next ≠ -1 → next ≠ size + 1 := by
    intro inner
    have bounded := (linked.head_live (cronBucket obj) inner).1
    unfold Occupied at bounded
    simp only [cronLinks, ← nextIs] at bounded
    omega
  have linkedInSize : linkedIn.cronEntries = size + 1 := by
    rw [linkedInIs]
    split_ifs <;> rfl
  have linkedInHead : ∀ b, linkedIn.cronHashTable b =
      if b = cronBucket obj then size + 1 else cron.cronHashTable b := by
    intro b
    rw [linkedInIs]
    split_ifs <;> simp_all
  have linkedInEntry : ∀ p, linkedIn.cronEntryArray p =
      if p = size + 1 then ⟨obj, roundNr, -1, next⟩
      else if p = next ∧ next ≠ -1 then { cron.cronEntryArray p with previous := size + 1 }
      else cron.cronEntryArray p := by
    intro p
    rw [linkedInIs]
    by_cases empty : next = -1
    · simp [empty, placedIs]
    have old := nextOld empty
    ext <;> simp only [empty, ne_eq, not_false_eq_true, if_true, and_true, placedIs,
      set_previous_obj, set_previous_round, set_previous_previous, set_previous_next,
      set_head_entries, set_entry_entries] <;> split_ifs <;> simp_all
  have oldNotFresh : ∀ p, Occupied cron p → p ≠ size + 1 := by
    rintro p ⟨_, upper⟩
    omega
  have sifting : Sifting linkedIn (size + 1) := by
    refine ⟨?_, ⟨by omega, linkedInSize.ge⟩, ?_⟩
    · have freshBucket : (cronLinks linkedIn).bucket (size + 1) = cronBucket obj := by
        simp [cronLinks, linkedInEntry]
      apply linked.push_front (show size + 1 ≠ -1 by omega)
      · intro member
        exact oldNotFresh _ member rfl
      · intro q
        simp only [Occupied, linkedInSize]
        omega
      · rw [freshBucket]
        simp [cronLinks, linkedInEntry, nextIs]
      · simp [cronLinks, linkedInEntry]
      · intro q member
        simp only [cronLinks, linkedInEntry, oldNotFresh q member, if_false]
        split_ifs <;> rfl
      · intro q member isHead
        rw [freshBucket] at isHead
        have here : q = next := isHead
        have inner : next ≠ -1 := here ▸ linked.ne_nil member
        simp [cronLinks, linkedInEntry, here, nextOld inner, inner]
      · intro q member notHead
        rw [freshBucket] at notHead
        have elsewhere : q ≠ next := notHead
        simp [cronLinks, linkedInEntry, oldNotFresh q member, elsewhere]
      · intro q member
        simp only [cronLinks, linkedInEntry, oldNotFresh q member, if_false]
        split_ifs <;> rfl
      · rw [freshBucket]
        simp [cronLinks, linkedInHead]
      · intro b elsewhere
        rw [freshBucket] at elsewhere
        simp [cronLinks, linkedInHead, elsewhere]
    · rw [linkedInSize]
      apply (wellFormed.heap.except_append roundNr.toNat).congr
      · intro p _ _
        simp only [dueRound, linkedInEntry, Function.update_apply, ← sizeIs]
        split_ifs <;> rfl
      · exact le_rfl
  have payloadOld : ∀ p ∈ positions size, payload linkedIn p = payload cron p := by
    intro p member
    have notFresh := oldNotFresh p (mem_positions.mp member)
    simp only [payload, linkedInEntry, notFresh, if_false]
    split_ifs <;> rfl
  have linkedInScheduled : scheduled linkedIn = (obj, roundNr) ::ₘ scheduled cron := by
    unfold scheduled
    rw [linkedInSize, positions_succ nonneg, Multiset.map_cons,
      Multiset.map_congr rfl payloadOld, ← sizeIs]
    congr 1
    simp [payload, linkedInEntry]
  obtain ⟨done, sizeKept, kept⟩ := cron_heapify_spec sifting
  exact ⟨done, sizeKept.trans linkedInSize, kept.trans linkedInScheduled⟩

theorem cron_reschedule_spec (wellFormed : WellFormed cron) (member : Occupied cron position)
    (roundNr : UInt32) :
    WellFormed (cronReschedule cron position roundNr) ∧
      (cronReschedule cron position roundNr).cronEntries = cron.cronEntries ∧
      scheduled (cronReschedule cron position roundNr) =
        ((cron.cronEntryArray position).obj, roundNr) ::ₘ
          ((positions cron.cronEntries).erase position).map (payload cron) := by
  set changed := setEntry cron position { cron.cronEntryArray position with roundNr := roundNr }
    with changedIs
  have sameLinks : cronLinks changed = cronLinks cron := by
    simp only [cronLinks, changedIs, set_entry_entries, set_entry_heads]
    congr 1 <;> funext p <;> split_ifs with here <;> simp [here]
  have sifting : Sifting changed position := by
    refine ⟨?_, member, ?_⟩
    · rw [sameLinks]
      exact wellFormed.linked
    apply (wellFormed.heap.except_update le_rfl roundNr.toNat).congr
    · intro p _ _
      simp only [dueRound, changedIs, set_entry_entries, Function.update_apply]
      split_ifs <;> rfl
    · exact member.2
  have changedScheduled : scheduled changed =
      ((cron.cronEntryArray position).obj, roundNr) ::ₘ
        ((positions cron.cronEntries).erase position).map (payload cron) := by
    have here : Occupied changed position := member
    rw [scheduled_split here]
    congr 1
    · simp [payload, changedIs]
    · apply Multiset.map_congr rfl
      intro p other
      have notHere : p ≠ position := by
        rintro rfl
        exact (positions_nodup _).notMem_erase other
      simp [payload, changedIs, notHere]
  obtain ⟨done, size, kept⟩ := cron_heapify_spec sifting
  exact ⟨done, size, kept.trans changedScheduled⟩

theorem cron_unlink_spec (linked : Linked (-1) (Occupied cron) (cronLinks cron))
    (member : Occupied cron position) :
    Linked (-1) (fun q => Occupied cron q ∧ q ≠ position) (cronLinks (cronUnlink cron position)) ∧
      ∀ p, payload (cronUnlink cron position) p = payload cron p := by
  set entry := cron.cronEntryArray position with entryIs
  set joined := if entry.next ≠ -1 then setPrevious cron entry.next entry.previous else cron
    with joinedIs
  have entryKept : joined.cronEntryArray position = entry := by
    rw [joinedIs]
    split_ifs
    · ext <;> simp [entryIs]
    · rfl
  have unfolded : cronUnlink cron position =
      if entry.previous ≠ -1 then setNext joined entry.previous entry.next
      else setHead joined (cronBucket entry.obj) entry.next := by
    simp only [cronUnlink, ← entryIs, ← joinedIs, entryKept]
  have joinedEntry : ∀ p, joined.cronEntryArray p =
      { cron.cronEntryArray p with
        previous := if p = entry.next ∧ entry.next ≠ -1 then entry.previous
          else (cron.cronEntryArray p).previous } := by
    intro p
    rw [joinedIs]
    by_cases last : entry.next = -1
    · simp [last]
    · ext <;> simp [last]
  have joinedHeads : joined.cronHashTable = cron.cronHashTable := by
    rw [joinedIs]
    split_ifs <;> rfl
  have unlinkedEntry : ∀ p, (cronUnlink cron position).cronEntryArray p =
      { joined.cronEntryArray p with
        next := if p = entry.previous ∧ entry.previous ≠ -1 then entry.next
          else (cron.cronEntryArray p).next } := by
    intro p
    rw [unfolded]
    by_cases outer : entry.previous = -1
    · simp [outer, joinedEntry]
    · ext <;> simp [outer, joinedEntry]
  have unlinkedHead : ∀ b, (cronUnlink cron position).cronHashTable b =
      if b = cronBucket entry.obj ∧ entry.previous = -1 then entry.next
      else cron.cronHashTable b := by
    intro b
    rw [unfolded]
    by_cases outer : entry.previous = -1 <;> simp [outer, joinedHeads]
  refine ⟨?_, ?_⟩
  · apply linked.unlink member
    · intro q
      rfl
    · intro previousLive
      have inner : entry.previous ≠ -1 := linked.ne_nil previousLive
      simp [cronLinks, unlinkedEntry, ← entryIs, inner]
    · intro q _ _ notPrevious
      have elsewhere : q ≠ entry.previous := notPrevious
      simp [cronLinks, unlinkedEntry, elsewhere]
    · intro nextLive
      have inner : entry.next ≠ -1 := linked.ne_nil nextLive
      simp [cronLinks, unlinkedEntry, joinedEntry, ← entryIs, inner]
    · intro q _ _ notNext
      have elsewhere : q ≠ entry.next := notNext
      simp [cronLinks, unlinkedEntry, joinedEntry, elsewhere]
    · intro q _ _
      simp [cronLinks, unlinkedEntry, joinedEntry]
    · intro goneFirst
      have outer : entry.previous = -1 := goneFirst
      simp [cronLinks, unlinkedHead, ← entryIs, outer]
    · intro b elsewhere
      simp only [cronLinks, ← entryIs] at elsewhere ⊢
      rw [unlinkedHead, if_neg]
      rintro ⟨sameBucket, outer⟩
      exact elsewhere.elim (fun differs => differs sameBucket) (fun inner => inner outer)
  · intro p
    simp [payload, unlinkedEntry, joinedEntry]

theorem positions_pred {size : Int} (pos : 1 ≤ size) :
    positions size = size ::ₘ positions (size - 1) := by
  have split := positions_succ (show 0 ≤ size - 1 by omega)
  rwa [sub_add_cancel] at split

theorem cron_delete_spec (wellFormed : WellFormed cron) (member : Occupied cron position) :
    WellFormed (cronDelete cron position) ∧
      (cronDelete cron position).cronEntries = cron.cronEntries - 1 ∧
      scheduled cron = payload cron position ::ₘ scheduled (cronDelete cron position) := by
  obtain ⟨lower, upper⟩ := member
  obtain ⟨unlinkedLinks, unlinkedPayload⟩ := cron_unlink_spec wellFormed.linked ⟨lower, upper⟩
  set size := cron.cronEntries with sizeIs
  set unlinked := { cronUnlink cron position with cronEntries := size - 1 } with unlinkedIs
  have unlinkedDue : ∀ p, dueRound unlinked p = dueRound cron p := by
    intro p
    exact congrArg (fun pair : Object × UInt32 => pair.2.toNat) (unlinkedPayload p)
  have notOutside : ¬ (position < 1 ∨ size < position) := by omega
  by_cases isLast : position = size
  · have deleted : cronDelete cron position = unlinked := by
      rw [cronDelete, ← sizeIs, if_neg notOutside]
      simp only [isLast, ne_eq, not_true_eq_false, if_false, unlinkedIs]
    rw [deleted]
    refine ⟨⟨?_, ?_, ?_⟩, rfl, ?_⟩
    · simp only [unlinkedIs]
      omega
    · intro p pLower pUpper
      rw [unlinkedDue, unlinkedDue]
      exact wellFormed.heap p pLower (by simp only [unlinkedIs] at pUpper; omega)
    · have sameLive : (fun q => Occupied cron q ∧ q ≠ position) = Occupied unlinked := by
        funext q
        apply propext
        simp only [Occupied, unlinkedIs, ← sizeIs]
        omega
      rw [← sameLive]
      exact unlinkedLinks
    · unfold scheduled
      rw [← sizeIs, positions_pred (by omega), Multiset.map_cons, isLast]
      congr 1
      apply Multiset.map_congr rfl
      intro p _
      exact (unlinkedPayload p).symm
  have deleted : cronDelete cron position =
      cronHeapify (cronMove unlinked position size) position := by
    simp only [cronDelete, ← sizeIs, if_neg notOutside, ne_eq, isLast, not_false_eq_true,
      if_true, unlinkedIs]
  have sizeLive : Occupied cron size ∧ size ≠ position := ⟨⟨by omega, le_rfl⟩, Ne.symm isLast⟩
  have holeFree : ¬ (Occupied cron position ∧ position ≠ position) := fun both => both.2 rfl
  have notNil : position ≠ -1 := by omega
  have hereLinks : Linked (-1) (fun q => Occupied cron q ∧ q ≠ position) (cronLinks unlinked) :=
    unlinkedLinks
  have renamed := cron_move_renames hereLinks sizeLive holeFree notNil
  have movedLinks := cron_move_linked hereLinks sizeLive holeFree notNil
  set filled := cronMove unlinked position size with filledIs
  have filledSize : filled.cronEntries = size - 1 := renamed.size
  have filledPayload : ∀ p, 1 ≤ p → p ≤ size - 1 →
      payload filled p = if p = position then payload cron size else payload cron p := by
    intro p pLower pUpper
    split_ifs with here
    · have entry := renamed.entry size sizeLive
      simp only [moved, if_true] at entry
      rw [here, ← unlinkedPayload size]
      simp only [payload, entry, renameEntry]
      rfl
    have entry := renamed.entry p ⟨⟨pLower, by omega⟩, here⟩
    rw [moved, if_neg (by omega)] at entry
    rw [← unlinkedPayload p]
    simp only [payload, entry, renameEntry]
    rfl
  have sifting : Sifting filled position := by
    refine ⟨?_, ⟨lower, by omega⟩, ?_⟩
    · have sameLive : (fun q => ∃ p, (Occupied cron p ∧ p ≠ position) ∧
          moved position size p = q) = Occupied filled := by
        funext q
        apply propext
        simp only [Occupied, filledSize, ← sizeIs, moved]
        constructor
        · rintro ⟨p, ⟨inside, notHole⟩, rfl⟩
          split_ifs <;> omega
        intro inside
        by_cases here : q = position
        · exact ⟨size, by omega, by rw [if_pos rfl, here]⟩
        · exact ⟨q, by omega, by rw [if_neg (by omega)]⟩
      rwa [sameLive] at movedLinks
    rw [filledSize]
    apply (wellFormed.heap.except_update (show size - 1 ≤ size by omega)
      (dueRound cron size)).congr
    · intro p pLower pUpper
      have round := congrArg (fun pair : Object × UInt32 => pair.2.toNat)
        (filledPayload p pLower pUpper)
      simp only [dueRound, Function.update_apply]
      split_ifs at round ⊢ <;> exact round
    · omega
  obtain ⟨done, sizeKept, kept⟩ := cron_heapify_spec sifting
  rw [deleted]
  refine ⟨done, sizeKept.trans filledSize, ?_⟩
  have holeIn : position ∈ positions (size - 1) := mem_positions.mpr ⟨lower, by omega⟩
  have others : ((positions (size - 1)).erase position).map (payload filled) =
      ((positions (size - 1)).erase position).map (payload cron) := by
    apply Multiset.map_congr rfl
    intro p other
    have inside := mem_positions.mp (Multiset.mem_of_mem_erase other)
    rw [filledPayload p inside.1 inside.2, if_neg]
    rintro rfl
    exact (positions_nodup _).notMem_erase other
  rw [kept]
  unfold scheduled
  rw [filledSize, ← sizeIs, positions_pred (show 1 ≤ size by omega),
    ← Multiset.cons_erase holeIn, Multiset.map_cons, Multiset.map_cons, Multiset.map_cons, others,
    filledPayload position lower (by omega), if_pos rfl]
  exact Multiset.cons_swap _ _ _

theorem cron_search_chain {obj : Object} {members : List Int} {start : Int} {fuel : Nat}
    (chain : Chain (-1) (cronLinks cron).next start members) (enough : members.length < fuel) :
    cronSearch cron obj fuel start =
      .ok (members.find? fun p => (cron.cronEntryArray p).obj = obj) := by
  induction members generalizing start fuel with
  | nil =>
    obtain ⟨fuel, rfl⟩ := Nat.exists_eq_succ_of_ne_zero (by omega : fuel ≠ 0)
    have ended : start = -1 := chain
    simp [cronSearch, ended]
  | cons p rest ih =>
    obtain ⟨fuel, rfl⟩ := Nat.exists_eq_succ_of_ne_zero (by omega : fuel ≠ 0)
    obtain ⟨rfl, inner, later⟩ := chain
    rw [cronSearch, if_neg inner, List.find?_cons]
    by_cases found : (cron.cronEntryArray start).obj = obj
    · simp [found]
    simp only [found, if_false, decide_false]
    exact ih later (by simpa using enough)

/-- The search of `cron_change` and `cron_info` ends, and finds an entry of the
object whenever there is one. -/
theorem cron_find_spec (wellFormed : WellFormed cron) (obj : Object) :
    (cronFind cron obj = .ok none ∧
        ∀ p, Occupied cron p → (cron.cronEntryArray p).obj ≠ obj) ∨
      ∃ p, cronFind cron obj = .ok (some p) ∧ Occupied cron p ∧
        (cron.cronEntryArray p).obj = obj := by
  obtain ⟨members, chain, nodup, inBucket⟩ := wellFormed.linked.bucket_chain (cronBucket obj)
  have short : members.length < cron.cronEntries.toNat + 1 := by
    have within : (members : Multiset Int) ≤ positions cron.cronEntries := by
      apply (Multiset.le_iff_subset (Multiset.coe_nodup.mpr nodup)).mpr
      intro p member
      exact mem_positions.mpr ((inBucket p).mp member).1
    have count := Multiset.card_le_card within
    simp only [positions, Multiset.card_map, Multiset.card_range, Multiset.coe_card] at count
    omega
  have searched : cronFind cron obj =
      .ok (members.find? fun p => (cron.cronEntryArray p).obj = obj) :=
    cron_search_chain chain short
  rw [searched]
  rcases found : members.find? fun p => (cron.cronEntryArray p).obj = obj with _ | p
  · refine .inl ⟨rfl, ?_⟩
    intro p member same
    have inside : p ∈ members := (inBucket p).mpr ⟨member, by simp [cronLinks, same]⟩
    exact absurd same (by simpa using List.find?_eq_none.mp found p inside)
  refine .inr ⟨p, rfl, ((inBucket p).mp (List.mem_of_find?_eq_some found)).1, ?_⟩
  simpa using List.find?_some found

end

end TibiaGame.CronOperations
