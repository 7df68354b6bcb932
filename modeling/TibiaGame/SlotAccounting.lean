import TibiaGame.SectorSwapping
import TibiaGame.Library.LinkedList
import TibiaGame.Library.Outcome

/-!
# Where every object slot is

A slot is in the list of free slots, or one loaded or permanent entry has it.
Entries take slots from the list and give them back; nothing else moves a slot.
-/

namespace TibiaGame.SlotAccounting

open GameTypes ObjectStore SectorSwapping Library.LinkedList Function

variable {cfg : GameConfig} {store : PagedStore cfg} {index slot : Nat}

def linkOf (store : PagedStore cfg) (slot : Nat) : Nat :=
  match store.slots slot with
  | .link next => next
  | .record _ => 0

def HasSlot (store : PagedStore cfg) (index : Nat) : Prop :=
  store.hashTableType index = .loaded ∨ store.hashTableType index = .permanent

def InUse (store : PagedStore cfg) (slot : Nat) : Prop :=
  ∃ index, HasSlot store index ∧ store.hashTableData index = slot

def freeEntries (cfg : GameConfig) (types : Nat → Status) : Finset Nat :=
  (Finset.range cfg.hashTableSize).filter fun index => types index = .free

structure Accounting (store : PagedStore cfg) : Prop where
  /-- The free list has every unused slot of the blocks, once. -/
  freeList : ∃ members, Chain 0 (linkOf store) store.firstFreeObject members ∧ members.Nodup ∧
    ∀ slot, slot ∈ members ↔ 1 ≤ slot ∧ slot ≤ store.layout.slotCount ∧ ¬ InUse store slot
  distinct : ∀ left right, HasSlot store left → HasSlot store right →
    store.hashTableData left = store.hashTableData right → left = right
  inBlocks : ∀ index, HasSlot store index → 1 ≤ store.hashTableData index ∧
    store.hashTableData index ≤ store.layout.slotCount
  ownIndex : ∀ index, store.hashTableType index = .loaded →
    entryIndex cfg (readSlot store (store.hashTableData index)).objectID = index
  permanent : ∀ index, store.hashTableType index = .permanent ↔ index = 0
  counter : store.hashTableFree.toNat = (freeEntries cfg store.hashTableType).card

theorem entry_index_lt (objectID : UInt32) : entryIndex cfg objectID < cfg.hashTableSize :=
  Nat.mod_lt _ (hash_table_size_pos cfg)

section Counting

variable {types : Nat → Status} {status : Status}

theorem free_entries_taken (small : index < cfg.hashTableSize) (wasFree : types index = .free)
    (taken : status ≠ .free) :
    (freeEntries cfg (update types index status)).card + 1 =
      (freeEntries cfg types).card := by
  have member : index ∈ freeEntries cfg types :=
    Finset.mem_filter.mpr ⟨Finset.mem_range.mpr small, wasFree⟩
  have erased : freeEntries cfg (update types index status) =
      (freeEntries cfg types).erase index := by
    ext other
    by_cases here : other = index
    · simp [freeEntries, here, taken]
    · simp [freeEntries, here]
  rw [erased, Finset.card_erase_add_one member]

theorem free_entries_kept (wasTaken : types index ≠ .free) (taken : status ≠ .free) :
    freeEntries cfg (update types index status) = freeEntries cfg types := by
  ext other
  by_cases here : other = index
  · simp [freeEntries, here, taken, wasTaken]
  · simp [freeEntries, here]

theorem free_entries_given (small : index < cfg.hashTableSize) (wasTaken : types index ≠ .free) :
    (freeEntries cfg (update types index .free)).card =
      (freeEntries cfg types).card + 1 := by
  have inserted : freeEntries cfg (update types index .free) =
      insert index (freeEntries cfg types) := by
    ext other
    by_cases here : other = index
    · simp [freeEntries, here, small]
    · simp [freeEntries, here]
  have absent : index ∉ freeEntries cfg types := by
    intro member
    exact wasTaken (Finset.mem_filter.mp member).2
  rw [inserted, Finset.card_insert_of_notMem absent]

end Counting

theorem read_write_slot (store : PagedStore cfg) (slot other : Nat) (object : MapObject cfg) :
    readSlot (writeSlot store slot object) other =
      if other = slot then object else readSlot store other := by
  unfold readSlot writeSlot
  by_cases here : other = slot
  · simp [here]
  · simp [here]

section

variable (accounting : Accounting store)
include accounting

theorem Accounting.loaded_lt (loaded : store.hashTableType index = .loaded) :
    index < cfg.hashTableSize := by
  rw [← accounting.ownIndex index loaded]
  exact entry_index_lt _

theorem Accounting.loaded_pos (loaded : store.hashTableType index = .loaded) : index ≠ 0 := by
  intro zero
  rw [(accounting.permanent index).mpr zero] at loaded
  cases loaded

theorem Accounting.free_not_used (inner : store.firstFreeObject ≠ 0) :
    1 ≤ store.firstFreeObject ∧ store.firstFreeObject ≤ store.layout.slotCount ∧
      ¬ InUse store store.firstFreeObject := by
  rcases accounting.freeList with ⟨members, chain, _, exact_members⟩
  apply (exact_members _).mp
  cases members with
  | nil => exact (inner chain).elim
  | cons first rest =>
    rw [chain.1]
    exact List.mem_cons_self

theorem Accounting.congr {after : PagedStore cfg} (layout : after.layout = store.layout)
    (slots : after.slots = store.slots) (first : after.firstFreeObject = store.firstFreeObject)
    (types : after.hashTableType = store.hashTableType)
    (data : after.hashTableData = store.hashTableData)
    (counter : after.hashTableFree = store.hashTableFree) : Accounting after := by
  have links : linkOf after = linkOf store := by
    funext slot
    rw [linkOf, linkOf, slots]
  have used : ∀ slot, InUse after slot ↔ InUse store slot := by
    intro slot
    simp only [InUse, HasSlot, types, data]
  constructor
  · rcases accounting.freeList with ⟨members, chain, nodup, exact_members⟩
    refine ⟨members, ?_, nodup, ?_⟩
    · rw [links, first]
      exact chain
    · intro slot
      rw [exact_members, used, layout]
  · intro left right leftHas rightHas same
    simp only [HasSlot, types, data] at leftHas rightHas same
    exact accounting.distinct left right leftHas rightHas same
  · intro other has
    simp only [HasSlot, types] at has
    rw [data, layout]
    exact accounting.inBlocks other has
  · intro other loaded
    rw [types] at loaded
    rw [data, readSlot, slots]
    exact accounting.ownIndex other loaded
  · intro other
    rw [types]
    exact accounting.permanent other
  · rw [counter, types]
    exact accounting.counter

end

theorem read_put_slot (store : PagedStore cfg) {other : Nat} (different : other ≠ slot) :
    readSlot (putFreeObjectSlot store slot) other = readSlot store other := by
  unfold putFreeObjectSlot
  split_ifs
  · rfl
  · unfold readSlot
    simp only [update_of_ne different]

variable (accounting : Accounting store)
include accounting

theorem Accounting.none_slot : HasSlot store 0 :=
  .inr ((accounting.permanent 0).mpr rfl)

theorem Accounting.rewrite (has : HasSlot store index) {object : MapObject cfg}
    (own : store.hashTableType index = .loaded → entryIndex cfg object.objectID = index) :
    Accounting (writeSlot store (store.hashTableData index) object) := by
  have read : ∀ slot, slot ≠ store.hashTableData index →
      readSlot (writeSlot store (store.hashTableData index) object) slot = readSlot store slot := by
    intro slot different
    rw [read_write_slot, if_neg different]
  constructor
  · rcases accounting.freeList with ⟨members, chain, nodup, exact_members⟩
    refine ⟨members, ?_, nodup, exact_members⟩
    apply chain_congr chain
    intro slot member
    have different : slot ≠ store.hashTableData index := by
      intro same
      exact ((exact_members slot).mp member).2.2 ⟨index, has, same.symm⟩
    unfold linkOf writeSlot
    simp only [update_of_ne different]
  · exact accounting.distinct
  · exact accounting.inBlocks
  · intro other loaded
    show entryIndex cfg (readSlot (writeSlot store (store.hashTableData index) object)
      (store.hashTableData other)).objectID = other
    by_cases here : other = index
    · rw [here] at loaded ⊢
      rw [read_write_slot, if_pos rfl]
      exact own loaded
    have different : store.hashTableData other ≠ store.hashTableData index := by
      intro same
      exact here (accounting.distinct other index (.inl loaded) has same)
    rw [read _ different]
    exact accounting.ownIndex other loaded
  · exact accounting.permanent
  · exact accounting.counter

theorem Accounting.take (inner : store.firstFreeObject ≠ 0) {object : MapObject cfg}
    (own : entryIndex cfg object.objectID = index) (notZero : index ≠ 0)
    (vacant : ¬ HasSlot store index) {after : PagedStore cfg} (layout : after.layout = store.layout)
    (slots : after.slots = update store.slots store.firstFreeObject (.record object))
    (first : after.firstFreeObject = linkOf store store.firstFreeObject)
    (types : after.hashTableType = update store.hashTableType index .loaded)
    (data : after.hashTableData =
      update store.hashTableData index store.firstFreeObject)
    (counter : after.hashTableFree.toNat = (freeEntries cfg after.hashTableType).card) :
    Accounting after := by
  rcases accounting.free_not_used inner with ⟨lower, upper, unused⟩
  have hasSlot : ∀ other, HasSlot after other ↔ other = index ∨ HasSlot store other := by
    intro other
    unfold HasSlot
    rw [types]
    by_cases here : other = index
    all_goals simp [here]
  have dataOf : ∀ other, HasSlot store other →
      after.hashTableData other = store.hashTableData other := by
    intro other has
    rw [data, update_of_ne]
    rintro rfl
    exact vacant has
  have inUse : ∀ slot, InUse after slot ↔ slot = store.firstFreeObject ∨ InUse store slot := by
    intro slot
    constructor
    · rintro ⟨other, has, rfl⟩
      rcases (hasSlot other).mp has with rfl | had
      · left
        rw [data, update_self]
      right
      exact ⟨other, had, (dataOf other had).symm⟩
    · rintro (rfl | ⟨other, has, rfl⟩)
      · exact ⟨index, (hasSlot index).mpr (.inl rfl), by rw [data, update_self]⟩
      · exact ⟨other, (hasSlot other).mpr (.inr has), dataOf other has⟩
  have read : ∀ slot, slot ≠ store.firstFreeObject → readSlot after slot = readSlot store slot := by
    intro slot different
    unfold readSlot
    rw [slots, update_of_ne different]
  have otherData : ∀ other, HasSlot store other →
      store.hashTableData other ≠ store.firstFreeObject := by
    intro other has same
    exact unused ⟨other, has, same⟩
  constructor
  · rcases accounting.freeList with ⟨members, chain, nodup, exact_members⟩
    rcases members with _ | ⟨head, rest⟩
    · exact (inner chain).elim
    rcases chain with ⟨isFirst, _, later⟩
    have notRest := (List.nodup_cons.mp nodup).1
    refine ⟨rest, ?_, (List.nodup_cons.mp nodup).2, ?_⟩
    · rw [first, isFirst]
      apply chain_congr later
      intro slot member
      have different : slot ≠ store.firstFreeObject := by
        rw [isFirst]
        rintro rfl
        exact notRest member
      unfold linkOf
      rw [slots, update_of_ne different]
    intro slot
    have here := exact_members slot
    rw [inUse, layout, not_or]
    rw [List.mem_cons] at here
    constructor
    · intro member
      have different : slot ≠ store.firstFreeObject := by
        rw [isFirst]
        rintro rfl
        exact notRest member
      rcases here.mp (.inr member) with ⟨low, high, free⟩
      exact ⟨low, high, different, free⟩
    rintro ⟨low, high, different, free⟩
    rcases here.mpr ⟨low, high, free⟩ with same | member
    · exact (different (same.trans isFirst.symm)).elim
    · exact member
  · intro left right leftHas rightHas same
    rcases (hasSlot left).mp leftHas with rfl | leftHad
    · rcases (hasSlot right).mp rightHas with rfl | rightHad
      · rfl
      rw [data, update_self, ← data, dataOf right rightHad] at same
      exact (otherData right rightHad same.symm).elim
    rcases (hasSlot right).mp rightHas with rfl | rightHad
    · rw [dataOf left leftHad, data, update_self] at same
      exact (otherData left leftHad same).elim
    rw [dataOf left leftHad, dataOf right rightHad] at same
    exact accounting.distinct left right leftHad rightHad same
  · intro other has
    rw [layout]
    rcases (hasSlot other).mp has with rfl | had
    · rw [data, update_self]
      exact ⟨lower, upper⟩
    rw [dataOf other had]
    exact accounting.inBlocks other had
  · intro other loaded
    by_cases here : other = index
    · rw [here, data, update_self, readSlot, slots, update_self]
      exact own
    rw [types, update_of_ne here] at loaded
    rw [dataOf other (.inl loaded), read _ (otherData other (.inl loaded))]
    exact accounting.ownIndex other loaded
  · intro other
    rw [types]
    by_cases here : other = index
    · rw [here, update_self]
      simp [notZero]
    rw [update_of_ne here]
    exact accounting.permanent other
  · exact counter

theorem Accounting.giveBack (loaded : store.hashTableType index = .loaded) {status : Status}
    (gives : status = .free ∨ status = .swapped) {after : PagedStore cfg}
    (layout : after.layout = store.layout)
    (slots : after.slots = update store.slots (store.hashTableData index)
      (.link store.firstFreeObject)) (first : after.firstFreeObject = store.hashTableData index)
    (types : after.hashTableType = update store.hashTableType index status)
    (data : ∀ other, other ≠ index → after.hashTableData other = store.hashTableData other)
    (counter : after.hashTableFree.toNat = (freeEntries cfg after.hashTableType).card) :
    Accounting after := by
  have noSlot : status ≠ .loaded ∧ status ≠ .permanent := by
    rcases gives with rfl | rfl <;> decide
  have hasSlot : ∀ other, HasSlot after other ↔ other ≠ index ∧ HasSlot store other := by
    intro other
    unfold HasSlot
    rw [types]
    by_cases here : other = index
    · simp [here, noSlot]
    · simp [here]
  have otherData : ∀ other, other ≠ index → HasSlot store other →
      store.hashTableData other ≠ store.hashTableData index := by
    intro other different has same
    exact different (accounting.distinct other index has (.inl loaded) same)
  have inUse : ∀ slot, InUse after slot ↔ slot ≠ store.hashTableData index ∧ InUse store slot := by
    intro slot
    constructor
    · rintro ⟨other, has, rfl⟩
      rcases (hasSlot other).mp has with ⟨different, had⟩
      rw [data other different]
      exact ⟨otherData other different had, other, had, rfl⟩
    rintro ⟨different, other, has, rfl⟩
    have apart : other ≠ index := by
      rintro rfl
      exact different rfl
    exact ⟨other, (hasSlot other).mpr ⟨apart, has⟩, data other apart⟩
  have read : ∀ slot, slot ≠ store.hashTableData index →
      readSlot after slot = readSlot store slot := by
    intro slot different
    unfold readSlot
    rw [slots, update_of_ne different]
  rcases accounting.inBlocks index (.inl loaded) with ⟨lower, upper⟩
  constructor
  · rcases accounting.freeList with ⟨members, chain, nodup, exact_members⟩
    have notMember : store.hashTableData index ∉ members := by
      intro member
      exact ((exact_members _).mp member).2.2 ⟨index, .inl loaded, rfl⟩
    refine ⟨store.hashTableData index :: members, ?_, List.nodup_cons.mpr ⟨notMember, nodup⟩, ?_⟩
    · refine ⟨first, by omega, ?_⟩
      have head : linkOf after (store.hashTableData index) = store.firstFreeObject := by
        unfold linkOf
        rw [slots, update_self]
      rw [head]
      apply chain_congr chain
      intro slot member
      unfold linkOf
      rw [slots, update_of_ne]
      rintro rfl
      exact notMember member
    intro slot
    rw [List.mem_cons, exact_members, inUse, layout]
    by_cases here : slot = store.hashTableData index
    · simp [here, lower, upper]
    · simp [here]
  · intro left right leftHas rightHas same
    rcases (hasSlot left).mp leftHas with ⟨leftApart, leftHad⟩
    rcases (hasSlot right).mp rightHas with ⟨rightApart, rightHad⟩
    rw [data left leftApart, data right rightApart] at same
    exact accounting.distinct left right leftHad rightHad same
  · intro other has
    rcases (hasSlot other).mp has with ⟨apart, had⟩
    rw [layout, data other apart]
    exact accounting.inBlocks other had
  · intro other isLoaded
    have apart : other ≠ index := by
      rintro rfl
      rw [types, update_self] at isLoaded
      exact noSlot.1 isLoaded
    rw [types, update_of_ne apart] at isLoaded
    rw [data other apart, read _ (otherData other apart (.inl isLoaded))]
    exact accounting.ownIndex other isLoaded
  · intro other
    rw [types]
    by_cases here : other = index
    · rw [here, update_self]
      simp [noSlot, accounting.loaded_pos loaded]
    rw [update_of_ne here]
    exact accounting.permanent other
  · exact counter

end TibiaGame.SlotAccounting
