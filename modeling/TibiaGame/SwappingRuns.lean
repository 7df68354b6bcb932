import TibiaGame.PagedRuns

/-!
# Swapping is transparent and loses no slot

A run of calls on the paged store gives the same replies as the run of the same calls
with every object in memory. In every state of a run each slot is in the free list or
belongs to one entry.
-/

namespace TibiaGame.SwappingRuns

open GameTypes ObjectStore ObjectOperations Function
open ForestRuns SectorSwapping SlotAccounting SwapView SectorPaging
open SectorLoading AwakeObjects PagedRuns Library.LinkedList Library.Outcome

variable {cfg : GameConfig} {store start after : PagedStore cfg} {kids : Object → List Object}

inductive PagedCall where
  | initSector (sectorX sectorY sectorZ : Int)
  | createObject
  | deleteObject (obj : Object)
  | setAttribute (obj : Object) (attr : InstanceAttribute) (value : UInt32)
  | accessObject (obj : Object)
  | swapSector
  | nextRound (roundNr : UInt32)

inductive Reply (cfg : GameConfig) where
  | done
  | created (obj : Object)
  | read (record : MapObject cfg)

def pagedCall (store : PagedStore cfg) : PagedCall → Except Halt (Reply cfg × PagedStore cfg)
  | .initSector sectorX sectorY sectorZ =>
      (pagedInitSector store sectorX sectorY sectorZ).map (Prod.mk .done)
  | .createObject => (pagedCreate store).map fun made => (.created made.1, made.2)
  | .deleteObject obj => (pagedDelete store obj).map (Prod.mk .done)
  | .setAttribute obj attr value => (pagedSetAttribute store obj attr value).map (Prod.mk .done)
  | .accessObject obj => (pagedAccess store obj).map fun found => (.read found.1, found.2)
  | .swapSector => (swapSector pagingLimit store).map (Prod.mk .done)
  | .nextRound roundNr => .ok (.done, { store with roundNr := roundNr })

/-- The same call with every object in memory, where there is nothing to swap. -/
def plainCall (world : World cfg) : PagedCall → Except Halt (Reply cfg × World cfg)
  | .initSector sectorX sectorY sectorZ =>
      (initSector world sectorX sectorY sectorZ).map (Prod.mk .done)
  | .createObject => (createObject world).map fun made => (.created made.1, made.2)
  | .deleteObject obj => (deleteObject world obj).map (Prod.mk .done)
  | .setAttribute obj attr value => .ok (.done, setAttribute world obj attr value)
  | .accessObject obj => .ok (.read (accessObject world obj), world)
  | .swapSector => .ok (.done, world)
  | .nextRound roundNr => .ok (.done, { world with roundNr := roundNr })

def runPaged (store : PagedStore cfg) : List PagedCall → Except Halt (List (Reply cfg) × PagedStore cfg)
  | [] => .ok ([], store)
  | call :: rest => do
      let (reply, store) ← pagedCall store call
      let (replies, store) ← runPaged store rest
      .ok (reply :: replies, store)

def runPlain (world : World cfg) : List PagedCall → Except Halt (List (Reply cfg) × World cfg)
  | [] => .ok ([], world)
  | call :: rest => do
      let (reply, world) ← plainCall world call
      let (replies, world) ← runPlain world rest
      .ok (reply :: replies, world)

/-- The content of an object is changed by `place_object` and `cut_object` alone. -/
def Proper : PagedCall → Prop
  | .setAttribute _ attr _ => attr ≠ .content
  | _ => True

theorem block_chain (layout : MapLayout) (count : Nat) (small : count ≤ layout.slotCount) :
    Chain 0 (linkOf (emptyBlocks cfg layout))
      (if count = 0 then 0 else layout.slotCount - count + 1)
      (List.range' (layout.slotCount - count + 1) count) := by
  induction count with
  | zero => rfl
  | succ count ih =>
    have later := ih (by omega)
    refine ⟨rfl, by omega, ?_⟩
    have next : linkOf (emptyBlocks cfg layout) (layout.slotCount - (count + 1) + 1) =
        if count = 0 then 0 else layout.slotCount - count + 1 := by
      show (if layout.slotCount - (count + 1) + 1 < layout.slotCount then _ else 0) = _
      split_ifs <;> omega
    have same : layout.slotCount - (count + 1) + 1 + 1 = layout.slotCount - count + 1 := by
      omega
    rw [next, same]
    exact later

theorem init_map_fields (cfg : GameConfig) (layout : MapLayout) :
    initMap cfg layout = { emptyBlocks cfg layout with
      slots := update (emptyBlocks cfg layout).slots 1 (.record (blankObject 0))
      firstFreeObject := linkOf (emptyBlocks cfg layout) 1
      hashTableType := update (fun _ => .free) 0 .permanent
      hashTableData := update (fun _ => 0) 0 1 } := by
  have taken : popFreeSlot (emptyBlocks cfg layout) = (1, writeSlot
      { emptyBlocks cfg layout with firstFreeObject := linkOf (emptyBlocks cfg layout) 1 } 1
        (blankObject 0)) := by
    rfl
  rfl

theorem init_map_accounting (cfg : GameConfig) (layout : MapLayout) :
    Accounting (initMap cfg layout) := by
  have positive := layout.slotCount_pos
  have types : ∀ index, (initMap cfg layout).hashTableType index =
      if index = 0 then .permanent else .free := by
    intro index
    rw [init_map_fields]
    simp only [update_apply]
  have hasSlot : ∀ index, HasSlot (initMap cfg layout) index ↔ index = 0 := by
    intro index
    rw [HasSlot, types]
    by_cases zero : index = 0
    all_goals simp [zero]
  have data : (initMap cfg layout).hashTableData 0 = 1 := by
    rw [init_map_fields]
    rfl
  have inUse : ∀ slot, InUse (initMap cfg layout) slot ↔ slot = 1 := by
    intro slot
    constructor
    · intro used
      rcases used with ⟨index, has, same⟩
      rw [(hasSlot index).mp has, data] at same
      exact same.symm
    · intro isFirst
      exact ⟨0, (hasSlot 0).mpr rfl, data.trans isFirst.symm⟩
  constructor
  · have whole : Chain 0 (linkOf (emptyBlocks cfg layout))
        (linkOf (emptyBlocks cfg layout) 1) (List.range' 2 (layout.slotCount - 1)) := by
      have chain := @block_chain cfg layout layout.slotCount le_rfl
      rw [if_neg (by omega), Nat.sub_self, Nat.zero_add] at chain
      rw [show layout.slotCount = layout.slotCount - 1 + 1 by omega, List.range'_succ] at chain
      exact chain.2.2
    refine ⟨List.range' 2 (layout.slotCount - 1), ?_, List.nodup_range', ?_⟩
    · rw [init_map_fields]
      apply chain_congr whole
      intro slot member
      have different : slot ≠ 1 := by
        have bounds := List.mem_range'_1.mp member
        omega
      simp only [linkOf, update_of_ne different]
    intro slot
    have layoutSame : (initMap cfg layout).layout = layout := by
      rw [init_map_fields]
      rfl
    rw [inUse, layoutSame, List.mem_range'_1]
    omega
  · intro left right leftHas rightHas _
    rw [(hasSlot left).mp leftHas, (hasSlot right).mp rightHas]
  · intro index has
    have layoutSame : (initMap cfg layout).layout = layout := by
      rw [init_map_fields]
      rfl
    rw [(hasSlot index).mp has, data, layoutSame]
    omega
  · intro index loaded
    rw [types] at loaded
    split_ifs at loaded
  · intro index
    rw [types]
    by_cases zero : index = 0
    all_goals simp [zero]
  · have size := hash_table_size_pos cfg
    have counter : (initMap cfg layout).hashTableFree = UInt32.ofNat (cfg.hashTableSize - 1) := by
      rfl
    have free : freeEntries cfg (initMap cfg layout).hashTableType =
        (Finset.range cfg.hashTableSize).erase 0 := by
      ext index
      rw [freeEntries, Finset.mem_filter, types, Finset.mem_erase]
      by_cases zero : index = 0
      all_goals simp [zero]
    rw [counter, free, Finset.card_erase_of_mem (Finset.mem_range.mpr size), Finset.card_range]
    exact small_number (show cfg.hashTableSize - 1 < cfg.hashTableSize by omega)

theorem init_map_view (cfg : GameConfig) (layout : MapLayout) :
    view (initMap cfg layout) = initialWorld cfg := by
  have table : viewCell (initMap cfg layout) = permanentTable := by
    funext index
    rw [init_map_fields, viewCell, permanentTable]
    by_cases zero : index = 0
    all_goals simp [zero]
  have noneRecord : readSlot (initMap cfg layout) ((initMap cfg layout).hashTableData 0) =
      blankObject 0 := by
    rfl
  have sectors : viewSectors (initMap cfg layout) = fun _ _ _ => none := by
    rfl
  rw [view, table, noneRecord, sectors, init_map_fields]
  rfl

theorem init_map_sound (cfg : GameConfig) (layout : MapLayout) :
    Sound (initMap cfg layout) (fun _ => []) none := by
  have files : ∀ number, (initMap cfg layout).files number = none := by
    intro number
    rfl
  have sectors : ∀ x y z, (initMap cfg layout).sectors x y z = none := by
    intro x y z
    rfl
  have stored : ∀ number index, ¬ Stored (initMap cfg layout) number index := by
    intro number index isStored
    rcases isStored with ⟨record, found⟩
    rw [storedRecord, files] at found
    cases found
  have notSwapped : ∀ index, (initMap cfg layout).hashTableType index ≠ .swapped := by
    intro index
    rw [init_map_fields]
    by_cases zero : index = 0
    all_goals simp [zero]
  refine ⟨⟨init_map_accounting cfg layout, ?_, ?_, ?_⟩, ?_, ?_, ?_, ?_⟩
  · intro index swapped
    exact (notSwapped index swapped).elim
  · intro number file opened
    rw [files] at opened
    cases opened
  · intro number index record found
    exact (stored number index ⟨record, found⟩).elim
  · rw [init_map_view]
    exact initial_described cfg
  · constructor
    · intro x y z sector found
      rw [sectors] at found
      cases found
    · intro x y z sector x' y' z' sector' found
      rw [sectors] at found
      cases found
    · intro number file opened
      rw [files] at opened
      cases opened
    · intro number other file otherFile opened
      cases opened
    · exact Nat.zero_le _
  · intro number _ index isStored
    exact (stored number index isStored).elim
  · refine ⟨rfl, rfl, ?_⟩
    cases holds : (blankObject 0 : MapObject cfg).type.holdsObjects with
    | true => exact ForestSteps.content_of_holds _ holds
    | false => exact ForestSteps.content_of_plain _ holds

theorem Matches.done {result : Except Halt (PagedStore cfg)} {plain : Except Halt (World cfg)}
    (matching : Matches result plain) (reply : Reply cfg) :
    MatchesWith (result.map (Prod.mk reply)) (plain.map (Prod.mk reply)) := by
  rcases matching with full | ⟨halt, failed, plainFailed⟩ | ⟨after, newKids, returned, same, sound⟩
  · left
    rw [full]
    rfl
  · right
    left
    rw [failed, plainFailed]
    exact ⟨halt, rfl, rfl⟩
  · right
    right
    rw [returned, same]
    exact ⟨reply, after, newKids, rfl, rfl, sound⟩

theorem paged_call_matches (sound : Sound store kids none) {call : PagedCall} (proper : Proper call) :
    MatchesWith (pagedCall store call) (plainCall (view store) call) := by
  cases call with
  | initSector sectorX sectorY sectorZ =>
    exact Matches.done (init_sector_matches sound sectorX sectorY sectorZ) .done
  | createObject =>
    rcases create_matches sound with
      full | ⟨halt, failed, plainFailed⟩ | ⟨obj, after, newKids, returned, same, afterSound⟩
    · left
      rw [pagedCall, full]
      rfl
    · right
      left
      rw [pagedCall, plainCall, failed, plainFailed]
      exact ⟨halt, rfl, rfl⟩
    · right
      right
      rw [pagedCall, plainCall, returned, same]
      exact ⟨.created obj, after, newKids, rfl, rfl, afterSound⟩
  | deleteObject obj => exact Matches.done (delete_matches sound obj) .done
  | setAttribute obj attr value =>
    exact Matches.done (set_attribute_matches sound obj proper value) .done
  | accessObject obj =>
    rcases access_pages sound obj with full | ⟨middle, _, same, middleSound, _, returned⟩
    · left
      rcases result : pagedAccess store obj with halt | pair
      · rw [result] at full
        cases full
        rw [pagedCall, result]
        rfl
      rw [result] at full
      cases full
    right
    right
    rw [pagedCall, plainCall, returned, same]
    exact ⟨_, middle, kids, rfl, by rw [same], middleSound⟩
  | swapSector => exact Matches.done (swap_sector_matches sound) .done
  | nextRound roundNr =>
    have calm : Calm { store with roundNr := roundNr } :=
      PagedDeletion.Calm.congr (Sound.calm sound) rfl rfl rfl rfl rfl rfl rfl
    refine .inr (.inr ⟨.done, _, kids, rfl, rfl, calm.backed, ?_, ?_, sound.settled,
      sound.noneRecord⟩)
    · exact ⟨⟨sound.described.agreement.wellFormed, sound.described.agreement.permanent,
        sound.described.agreement.agree⟩, sound.described.forest⟩
    · exact ⟨sound.mapped.field, sound.mapped.distinct, sound.mapped.filed, sound.mapped.oneFile,
        sound.mapped.fileNumber⟩

def smallLayout : MapLayout := ⟨4096, by decide, 0, 0, 0, 0, 7, 7⟩

/-- The states reached by calls and by further calls of `unswap_sector`. -/
inductive SlotRun (start : PagedStore cfg) : PagedStore cfg → Prop
  | start : SlotRun start start
  | call {store after : PagedStore cfg} {call : PagedCall} {reply : Reply cfg}
      (earlier : SlotRun start store) (proper : Proper call)
      (called : pagedCall store call = .ok (reply, after)) : SlotRun start after
  | unswap {store after : PagedStore cfg} {number : Nat} (earlier : SlotRun start store)
      (unswapped : unswapSector pagingLimit store number = .ok after) : SlotRun start after

theorem slot_run_sound (sound : Sound start kids none) (run : SlotRun start store) :
    ∃ newKids, Sound store newKids none := by
  induction run with
  | start => exact ⟨kids, sound⟩
  | call _ proper called ih =>
    rcases ih with ⟨oldKids, oldSound⟩
    rcases paged_call_matches oldSound proper with
      full | ⟨halt, failed, _⟩ | ⟨reply, after, newKids, returned, _, afterSound⟩
    · rw [called] at full
      cases full
    · rw [called] at failed
      cases failed
    · rw [called] at returned
      cases returned
      exact ⟨newKids, afterSound⟩
  | @unswap _ _ number _ unswapped ih =>
    rcases ih with ⟨oldKids, oldSound⟩
    rcases unswap_sector_matches oldSound number with
      failed | full | ⟨halt, failed, _⟩ | ⟨after, newKids, returned, _, afterSound⟩
    · rw [unswapped] at failed
      cases failed
    · rw [unswapped] at full
      cases full
    · rw [unswapped] at failed
      cases failed
    · rw [unswapped] at returned
      cases returned
      exact ⟨newKids, afterSound⟩

theorem probe_types_hit (store : PagedStore cfg) {fuel steps : Nat} {objectID : UInt32}
    (inner : steps < fuel)
    (free : store.hashTableType (entryIndex cfg (objectID + UInt32.ofNat steps)) = .free) :
    store.hashTableType (entryIndex cfg (probeTypes store fuel objectID)) = .free := by
  induction fuel generalizing objectID steps with
  | zero => omega
  | succ fuel ih =>
    rw [probeTypes]
    split_ifs with here
    · exact here
    rcases steps with _ | steps
    · rw [show objectID + UInt32.ofNat 0 = objectID from UInt32.add_zero _] at free
      exact (here free).elim
    apply ih (Nat.lt_of_succ_lt_succ inner)
    rw [UInt32.add_assoc, UInt32.add_comm 1]
    rw [UInt32.ofNat_add] at free
    exact free

theorem probe_reaches (objectID : UInt32) {index : Nat} (small : index < cfg.hashTableSize) :
    ∃ steps, steps < cfg.hashTableSize ∧ entryIndex cfg (objectID + UInt32.ofNat steps) = index := by
  have divides : cfg.hashTableSize ∣ 2 ^ 32 := Nat.pow_dvd_pow 2 cfg.hashTableLog_lt.le
  have positive := hash_table_size_pos cfg
  have bound := hash_table_size_le cfg
  have start := Nat.mod_lt objectID.toNat positive
  refine ⟨(index + (cfg.hashTableSize - objectID.toNat % cfg.hashTableSize)) % cfg.hashTableSize,
    Nat.mod_lt _ positive, ?_⟩
  have plain : (UInt32.ofNat ((index + (cfg.hashTableSize -
      objectID.toNat % cfg.hashTableSize)) % cfg.hashTableSize)).toNat =
      (index + (cfg.hashTableSize - objectID.toNat % cfg.hashTableSize)) % cfg.hashTableSize :=
    small_number (Nat.mod_lt _ positive)
  rw [entryIndex, UInt32.toNat_add, plain, Nat.mod_mod_of_dvd _ divides, Nat.add_mod, Nat.mod_mod,
    ← Nat.add_mod]
  have sum : objectID.toNat + (index + (cfg.hashTableSize - objectID.toNat % cfg.hashTableSize)) =
      index + cfg.hashTableSize * (objectID.toNat / cfg.hashTableSize + 1) := by
    have parts := Nat.mod_add_div objectID.toNat cfg.hashTableSize
    rw [Nat.mul_add, Nat.mul_one]
    omega
  rw [sum, Nat.add_mul_mod_self_left, Nat.mod_eq_of_lt small]

/-- While the counter has not run down to a sixteenth of the table, an entry is free. -/
theorem create_asserts_nothing (sound : Sound store kids none) (large : 0 < cfg.hashTableSize / 16) :
    pagedCreate store ≠ .error .assertion := by
  intro failed
  have free : cfg.hashTableSize / 16 ≤ store.hashTableFree.toNat := by
    by_contra full
    rw [(create_view_full (by omega)).1] at failed
    cases failed
  rw [sound.backed.accounting.counter] at free
  have some_free : (freeEntries cfg store.hashTableType).Nonempty := by
    apply Finset.card_pos.mp
    omega
  rcases some_free with ⟨index, member⟩
  rw [freeEntries, Finset.mem_filter, Finset.mem_range] at member
  rcases probe_reaches store.nextObjectID member.1 with ⟨steps, inner, same⟩
  have hit := probe_types_hit store inner (by rw [same]; exact member.2)
  have plain := create_matches sound
  have notFull : ¬ store.hashTableFree.toNat < cfg.hashTableSize / 16 := by
    rw [sound.backed.accounting.counter]
    omega
  have cell := (view_free sound.backed _).mpr hit
  rw [← probe_view sound.backed] at cell
  have created : ∃ obj world, createObject (view store) = .ok (obj, world) := by
    have plainNotFull : ¬ (view store).hashTableFree.toNat < cfg.hashTableSize / 16 := notFull
    rw [createObject, if_neg plainNotFull]
    simp only [show (view store).nextObjectID = store.nextObjectID from rfl, cell]
    exact ⟨_, _, rfl⟩
  rcases created with ⟨obj, world, returned⟩
  rcases plain with full | ⟨halt, _, plainFailed⟩ | ⟨value, after, newKids, ended, _, _⟩
  · rw [failed] at full
    cases full
  · rw [returned] at plainFailed
    cases plainFailed
  · rw [failed] at ended
    cases ended

/-- From every sound state, that of `init_map` among them, and over every run: each slot is
in the free list once or belongs to one loaded or permanent entry, a loaded entry has a
record of its own number, the counter counts the free entries, and the assertion of
`create_object` does not fail. -/
theorem slots_are_accounted :
    (∀ layout, Sound (initMap cfg layout) (fun _ => []) none) ∧
      ∀ (start store : PagedStore cfg) kids, Sound start kids none → SlotRun start store →
        Accounting store ∧
          (0 < cfg.hashTableSize / 16 → pagedCreate store ≠ .error .assertion) := by
  refine ⟨init_map_sound cfg, ?_⟩
  intro start store kids sound run
  rcases slot_run_sound sound run with ⟨newKids, reachedSound⟩
  exact ⟨reachedSound.backed.accounting, create_asserts_nothing reachedSound⟩

end TibiaGame.SwappingRuns
