import Mathlib.Data.List.TakeWhile
import TibiaGame.DynamicStrings

/-!
# Blocks of the dynamic string table

The strings of a block lie side by side below `TotalTextLength`, in no order
of their entries. Adding a string, deleting one and the cleanup keep them
apart, and no operation changes the text of an entry that stays in use.
-/

namespace TibiaGame.StringCompaction

open DynamicStrings

def offsetOf (block : StringBlock) (entry : Fin 256) : Nat := (block.stringOffset entry).toNat

/-- The text of an entry, as `strlen` finds its end. -/
def content (block : StringBlock) (entry : Fin 256) : List UInt8 :=
  textAt block.text (32768 - offsetOf block entry) (offsetOf block entry)

def extent (block : StringBlock) (entry : Fin 256) : Nat := (content block entry).length + 1

def entriesOf (block : StringBlock) (kind : EntryType) : Finset (Fin 256) :=
  Finset.univ.filter fun entry => block.entryType entry = kind

@[simp]
theorem mem_entries_of (block : StringBlock) (kind : EntryType) (entry : Fin 256) :
    entry ∈ entriesOf block kind ↔ block.entryType entry = kind := by
  simp [entriesOf]

/-- No two used entries overlap, and all of them end where the next string goes. -/
structure Sound (block : StringBlock) : Prop where
  bounded : block.totalTextLength ≤ 32768
  within : ∀ entry, block.entryType entry ≠ .free →
    offsetOf block entry + extent block entry ≤ block.totalTextLength
  apart : ∀ first second, first ≠ second → block.entryType first ≠ .free →
    block.entryType second ≠ .free →
    offsetOf block first + extent block first ≤ offsetOf block second ∨
      offsetOf block second + extent block second ≤ offsetOf block first
  spare : block.freeEntries ≤ (entriesOf block .free).card
  dirty : ∀ entry, block.entryType entry = .deleted → block.dirty = true

/-- The same bytes, the final NUL among them, are the same text wherever they lie. -/
theorem text_at_same (text text' : Nat → UInt8) (room room' offset offset' : Nat)
    (ended : (textAt text room offset).length < room)
    (enough : (textAt text room offset).length < room')
    (same : ∀ place, place ≤ (textAt text room offset).length →
      text' (offset' + place) = text (offset + place)) :
    textAt text' room' offset' = textAt text room offset := by
  induction room generalizing room' offset offset' with
  | zero => exact absurd ended (Nat.not_lt_zero _)
  | succ room induction =>
    rcases room' with _ | room'
    · exact absurd enough (Nat.not_lt_zero _)
    have first : text' offset' = text offset := same 0 (Nat.zero_le _)
    by_cases nul : text offset = 0
    · simp [textAt, nul, first]
    simp only [textAt, if_neg nul, List.length_cons] at ended enough same ⊢
    rw [first, if_neg nul]
    congr 1
    apply induction
    · omega
    · omega
    · intro place bound
      have next := same (place + 1) (by omega)
      simpa only [Nat.add_assoc, Nat.add_comm 1] using next

theorem text_at_of_string (text : Nat → UInt8) (string : List UInt8) (room offset : Nat)
    (enough : string.length < room) (noNul : ∀ byte ∈ string, byte ≠ 0)
    (written : ∀ place, place ≤ string.length → text (offset + place) = string.getD place 0) :
    textAt text room offset = string := by
  induction string generalizing room offset with
  | nil =>
    obtain ⟨rest, rfl⟩ : ∃ rest, room = rest + 1 := ⟨room - 1, by simp at enough; omega⟩
    have nul : text offset = 0 := by simpa using written 0 (Nat.le_refl _)
    simp [textAt, nul]
  | cons byte string induction =>
    obtain ⟨rest, rfl⟩ : ∃ rest, room = rest + 1 := ⟨room - 1, by simp at enough; omega⟩
    have first : text offset = byte := by simpa using written 0 (Nat.zero_le _)
    have present : byte ≠ 0 := noNul byte (by simp)
    simp only [textAt, first, if_neg present]
    congr 1
    apply induction
    · simpa using enough
    · intro other member
      exact noNul other (by simp [member])
    · intro place bound
      have next := written (place + 1) (by simpa using bound)
      simpa only [Nat.add_assoc, Nat.add_comm 1, List.getD_cons_succ] using next

theorem c_string_no_nul (bytes : List UInt8) : ∀ byte ∈ cString bytes, byte ≠ 0 := by
  intro byte member
  simpa using List.mem_takeWhile_imp member

section Sound

variable {block : StringBlock}

theorem Sound.ended (sound : Sound block) (entry : Fin 256) (used : block.entryType entry ≠ .free) :
    (content block entry).length < 32768 - offsetOf block entry := by
  have below := sound.within entry used
  have bounded := sound.bounded
  simp only [extent] at below
  omega

/-- An entry whose bytes are found again, at the same place or at another, keeps its text. -/
theorem Sound.content_kept (sound : Sound block) (after : StringBlock) (entry : Fin 256)
    (used : block.entryType entry ≠ .free)
    (room : offsetOf after entry + extent block entry ≤ 32768)
    (same : ∀ place, place < extent block entry →
      after.text (offsetOf after entry + place) = block.text (offsetOf block entry + place)) :
    content after entry = content block entry := by
  have ended := sound.ended entry used
  apply text_at_same
  · exact ended
  · simp only [extent] at room
    change (content block entry).length < _
    omega
  · intro place bound
    exact same place (Nat.lt_succ_of_le bound)

end Sound

section Adding

theorem free_entry_spec (block : StringBlock) (entry : Fin 256)
    (found : freeEntry block = some entry) : block.entryType entry = .free := by
  simpa using List.find?_some found

theorem Sound.free_entry (block : StringBlock) (sound : Sound block) (room : 0 < block.freeEntries) :
    ∃ entry, freeEntry block = some entry := by
  have spare := sound.spare
  have nonempty : 0 < (entriesOf block .free).card := by omega
  obtain ⟨entry, member⟩ := Finset.card_pos.1 nonempty
  have free : block.entryType entry = .free := (mem_entries_of block .free entry).1 member
  cases found : freeEntry block with
  | some entry => exact ⟨entry, rfl⟩
  | none =>
    have none_free := List.find?_eq_none.1 found entry (List.mem_finRange entry)
    simp [free] at none_free

theorem empty_block_sound : Sound emptyBlock where
  bounded := by simp [emptyBlock]
  within := by simp [emptyBlock]
  apart := by simp [emptyBlock]
  spare := by simp [entriesOf, emptyBlock]
  dirty := by simp [emptyBlock]

variable {block : StringBlock} {entry : Fin 256} {string : List UInt8}

theorem allocate_type (other : Fin 256) (distinct : other ≠ entry) :
    (allocate block entry string).entryType other = block.entryType other := by
  simp [allocate, distinct]

theorem allocate_offset (other : Fin 256) (distinct : other ≠ entry) :
    offsetOf (allocate block entry string) other = offsetOf block other := by
  simp [allocate, offsetOf, distinct]

theorem allocate_offset_new (below : block.totalTextLength < 65536) :
    offsetOf (allocate block entry string) entry = block.totalTextLength := by
  simp only [allocate, offsetOf, Function.update_self, UInt16.toNat_ofNat']
  exact Nat.mod_eq_of_lt below

theorem allocate_content (room : block.totalTextLength + (string.length + 1) ≤ 32768)
    (noNul : ∀ byte ∈ string, byte ≠ 0) : content (allocate block entry string) entry = string := by
  have place := @allocate_offset_new block entry string (by omega)
  unfold content
  rw [place]
  apply text_at_of_string
  · omega
  · exact noNul
  · intro index bound
    have inside : block.totalTextLength ≤ block.totalTextLength + index ∧
        block.totalTextLength + index ≤ block.totalTextLength + string.length := by omega
    simp only [allocate, copyText, if_pos inside]
    congr 1
    omega

theorem Sound.allocate_content_other (sound : Sound block) (other : Fin 256)
    (distinct : other ≠ entry) (used : block.entryType other ≠ .free) :
    content (allocate block entry string) other = content block other := by
  have below := sound.within other used
  have bounded := sound.bounded
  have place := @allocate_offset block entry string other distinct
  apply sound.content_kept _ other used
  · omega
  intro index bound
  rw [place]
  have outside : ¬ (block.totalTextLength ≤ offsetOf block other + index ∧
      offsetOf block other + index ≤ block.totalTextLength + string.length) := by omega
  simp only [allocate, copyText, if_neg outside]

theorem allocate_free_entries :
    entriesOf (allocate block entry string) .free = (entriesOf block .free).erase entry := by
  ext other
  by_cases same : other = entry
  all_goals simp [allocate, same]

theorem Sound.allocate (sound : Sound block) (free : block.entryType entry = .free)
    (room : block.totalTextLength + (string.length + 1) ≤ 32768)
    (noNul : ∀ byte ∈ string, byte ≠ 0) : Sound (allocate block entry string) := by
  have place := @allocate_offset_new block entry string (by omega)
  have size : extent (DynamicStrings.allocate block entry string) entry = string.length + 1 := by
    simp only [extent, allocate_content room noNul]
  have kept : ∀ other, other ≠ entry → block.entryType other ≠ .free →
      offsetOf (DynamicStrings.allocate block entry string) other = offsetOf block other ∧
      extent (DynamicStrings.allocate block entry string) other = extent block other := by
    intro other distinct used
    constructor
    · exact allocate_offset other distinct
    · simp only [extent, sound.allocate_content_other other distinct used]
  have longer : (DynamicStrings.allocate block entry string).totalTextLength =
      block.totalTextLength + (string.length + 1) := rfl
  constructor
  · exact longer ▸ room
  · intro other used
    by_cases same : other = entry
    · subst same
      omega
    rw [allocate_type other same] at used
    have below := sound.within other used
    obtain ⟨offset, extends_⟩ := kept other same used
    omega
  · intro first second distinct used used'
    by_cases same : first = entry
    · subst same
      rw [allocate_type second (Ne.symm distinct)] at used'
      obtain ⟨offset, extends_⟩ := kept second (Ne.symm distinct) used'
      have below := sound.within second used'
      right
      omega
    rw [allocate_type first same] at used
    obtain ⟨offset, extends_⟩ := kept first same used
    by_cases same' : second = entry
    · subst same'
      have below := sound.within first used
      left
      omega
    rw [allocate_type second same'] at used'
    obtain ⟨offset', extends'⟩ := kept second same' used'
    rw [offset, offset', extends_, extends']
    exact sound.apart first second distinct used used'
  · have spare := sound.spare
    have member : entry ∈ entriesOf block .free := by simp [free]
    rw [allocate_free_entries, Finset.card_erase_of_mem member]
    simp only [DynamicStrings.allocate]
    omega
  · intro other deleted
    have distinct : other ≠ entry := by
      intro same
      simp [DynamicStrings.allocate, same] at deleted
    rw [allocate_type other distinct] at deleted
    exact sound.dirty other deleted

end Adding

section Deleting

/-- What `DeleteDynamicString` does to the block of the entry. -/
def markDeleted (block : StringBlock) (entry : Fin 256) : StringBlock :=
  { block with entryType := Function.update block.entryType entry .deleted, dirty := true }

variable {block : StringBlock} {entry : Fin 256}

theorem mark_deleted_type (other : Fin 256) (distinct : other ≠ entry) :
    (markDeleted block entry).entryType other = block.entryType other := by
  simp [markDeleted, distinct]

@[simp]
theorem mark_deleted_used (used : block.entryType entry ≠ .free) (other : Fin 256) :
    (markDeleted block entry).entryType other ≠ .free ↔ block.entryType other ≠ .free := by
  by_cases same : other = entry
  · simp [markDeleted, same, used]
  · simp [markDeleted, same]

theorem mark_deleted_free_entries (used : block.entryType entry ≠ .free) :
    entriesOf (markDeleted block entry) .free = entriesOf block .free := by
  ext other
  simpa using not_congr (mark_deleted_used used other)

theorem Sound.mark_deleted (sound : Sound block) (used : block.entryType entry ≠ .free) :
    Sound (markDeleted block entry) where
  bounded := sound.bounded
  within := fun other inUse => sound.within other ((mark_deleted_used used other).1 inUse)
  apart := fun first second distinct inUse inUse' => sound.apart first second distinct
    ((mark_deleted_used used first).1 inUse) ((mark_deleted_used used second).1 inUse')
  spare := by
    rw [mark_deleted_free_entries used]
    exact sound.spare
  dirty := fun _ _ => rfl

end Deleting

section Cleanup

/-- What the cleanup of a block may change: deleted entries become free, and
the entries that stay in use keep their texts. -/
structure Compacted (block after : StringBlock) : Prop where
  sound : Sound after
  freeEntries : after.freeEntries = block.freeEntries
  totalTextLength : after.totalTextLength = block.totalTextLength
  dirty : after.dirty = block.dirty
  kind : ∀ entry, after.entryType entry = block.entryType entry ∨
    (block.entryType entry = .deleted ∧ after.entryType entry = .free)
  content : ∀ entry, after.entryType entry ≠ .free → content after entry = content block entry

variable {block : StringBlock}

theorem Sound.compacted_refl (sound : Sound block) : Compacted block block where
  sound := sound
  freeEntries := rfl
  totalTextLength := rfl
  dirty := rfl
  kind := fun _ => Or.inl rfl
  content := fun _ _ => rfl

theorem Compacted.used {after : StringBlock} (compacted : Compacted block after) (entry : Fin 256)
    (used : after.entryType entry ≠ .free) : after.entryType entry = block.entryType entry := by
  rcases compacted.kind entry with same | freed
  · exact same
  · exact absurd freed.2 used

theorem Compacted.trans {middle after : StringBlock} (first : Compacted block middle)
    (second : Compacted middle after) : Compacted block after where
  sound := second.sound
  freeEntries := second.freeEntries.trans first.freeEntries
  totalTextLength := second.totalTextLength.trans first.totalTextLength
  dirty := second.dirty.trans first.dirty
  kind := by
    intro entry
    rcases second.kind entry with same | freed
    · rw [same]
      exact first.kind entry
    by_cases used : middle.entryType entry = .free
    · simp [used] at freed
    rw [← first.used entry used]
    exact Or.inr freed
  content := by
    intro entry used
    have used' : middle.entryType entry ≠ .free := second.used entry used ▸ used
    exact (second.content entry used).trans (first.content entry used')

theorem Sound.behind (sound : Sound block) (removed entry : Fin 256)
    (inUse : block.entryType removed ≠ .free) (inUse' : block.entryType entry ≠ .free)
    (later : offsetOf block removed < offsetOf block entry) :
    offsetOf block removed + extent block removed ≤ offsetOf block entry := by
  have distinct : removed ≠ entry := by
    intro same
    subst same
    exact lt_irrefl _ later
  rcases sound.apart removed entry distinct inUse inUse' with before | after
  · exact before
  · omega

theorem Sound.ahead (sound : Sound block) (removed entry : Fin 256) (distinct : entry ≠ removed)
    (inUse : block.entryType removed ≠ .free) (inUse' : block.entryType entry ≠ .free)
    (earlier : ¬ offsetOf block removed < offsetOf block entry) :
    offsetOf block entry + extent block entry ≤ offsetOf block removed := by
  have positive : 0 < extent block removed := Nat.succ_pos _
  rcases sound.apart removed entry (Ne.symm distinct) inUse inUse' with before | after
  · omega
  · exact after

theorem subtract_offset (offset : UInt16) (size : Nat) (fits : size ≤ offset.toNat) :
    (offset - UInt16.ofNat size).toNat = offset.toNat - size := by
  have small : size < 65536 := lt_of_le_of_lt fits offset.toNat_lt
  have same : (UInt16.ofNat size).toNat = size := by
    exact Nat.mod_eq_of_lt small
  have below : UInt16.ofNat size ≤ offset := by
    rw [UInt16.le_iff_toNat_le, same]
    exact fits
  rw [UInt16.toNat_sub_of_le _ _ below, same]

/-- The block after a deleted entry has been taken out of the text. -/
def squeeze (block : StringBlock) (removed : Fin 256) : StringBlock :=
  { block with
    entryType := Function.update block.entryType removed .free
    text := moveText block.text (offsetOf block removed) (extent block removed)
    stringOffset := fun entry =>
      if entry ≠ removed ∧ block.entryType entry ≠ .free ∧
          offsetOf block removed < offsetOf block entry then
        block.stringOffset entry - UInt16.ofNat (extent block removed)
      else block.stringOffset entry }

variable {removed : Fin 256}

theorem squeeze_type (entry : Fin 256) :
    (squeeze block removed).entryType entry =
      if entry = removed then .free else block.entryType entry := by
  by_cases same : entry = removed
  all_goals simp [squeeze, same]

theorem squeeze_used (entry : Fin 256) (used : (squeeze block removed).entryType entry ≠ .free) :
    entry ≠ removed ∧ block.entryType entry ≠ .free := by
  rw [squeeze_type] at used
  constructor
  · intro same
    exact used (if_pos same)
  intro free
  split_ifs at used
  · exact used rfl
  · exact used free

section

variable (sound : Sound block) (inUse : block.entryType removed ≠ .free) (entry : Fin 256)
    (distinct : entry ≠ removed) (used : block.entryType entry ≠ .free)
include sound inUse entry distinct used

theorem Sound.squeeze_offset :
    offsetOf (squeeze block removed) entry =
      if offsetOf block removed < offsetOf block entry then
        offsetOf block entry - extent block removed
      else offsetOf block entry := by
  by_cases later : offsetOf block removed < offsetOf block entry
  · have behind := sound.behind removed entry inUse used later
    have moved : entry ≠ removed ∧ block.entryType entry ≠ .free ∧
        offsetOf block removed < offsetOf block entry := ⟨distinct, used, later⟩
    have value : (squeeze block removed).stringOffset entry =
        block.stringOffset entry - UInt16.ofNat (extent block removed) := if_pos moved
    rw [if_pos later, offsetOf, value]
    apply subtract_offset
    change _ ≤ offsetOf block entry
    omega
  have value : (squeeze block removed).stringOffset entry = block.stringOffset entry :=
    if_neg fun moved => later moved.2.2
  rw [if_neg later, offsetOf, value, offsetOf]

/-- The bytes of a string that stays are moved together with its offset. -/
theorem Sound.squeeze_content : content (squeeze block removed) entry = content block entry := by
  have below := sound.within entry used
  have bounded := sound.bounded
  have place := sound.squeeze_offset inUse entry distinct used
  apply sound.content_kept _ entry used
  · split_ifs at place <;> omega
  intro index bound
  change moveText block.text (offsetOf block removed) (extent block removed) _ = _
  unfold moveText
  by_cases later : offsetOf block removed < offsetOf block entry
  · have behind := sound.behind removed entry inUse used later
    rw [if_pos later] at place
    rw [place, if_pos (by omega)]
    congr 1
    omega
  have ahead := sound.ahead removed entry distinct inUse used later
  rw [if_neg later] at place
  rw [place, if_neg (by omega)]

end

theorem Sound.squeeze (sound : Sound block) (inUse : block.entryType removed ≠ .free) :
    Sound (squeeze block removed) := by
  have kept : ∀ entry, (StringCompaction.squeeze block removed).entryType entry ≠ .free →
      entry ≠ removed ∧ block.entryType entry ≠ .free ∧
      extent (StringCompaction.squeeze block removed) entry = extent block entry ∧
      offsetOf (StringCompaction.squeeze block removed) entry =
        if offsetOf block removed < offsetOf block entry then
          offsetOf block entry - extent block removed
        else offsetOf block entry := by
    intro entry used
    obtain ⟨distinct, used'⟩ := squeeze_used entry used
    have place := sound.squeeze_offset inUse entry distinct used'
    refine ⟨distinct, used', ?_, place⟩
    simp only [extent, sound.squeeze_content inUse entry distinct used']
  constructor
  · exact sound.bounded
  · intro entry used
    obtain ⟨distinct, used', size, place⟩ := kept entry used
    have below := sound.within entry used'
    change _ ≤ block.totalTextLength
    split_ifs at place <;> omega
  · intro first second different used used'
    obtain ⟨distinct, used, size, place⟩ := kept first used
    obtain ⟨distinct', used', size', place'⟩ := kept second used'
    have apart := sound.apart first second different used used'
    have behind := sound.behind removed first inUse used
    have behind' := sound.behind removed second inUse used'
    have ahead := sound.ahead removed first distinct inUse used
    have ahead' := sound.ahead removed second distinct' inUse used'
    -- both strings keep their order: each is moved only together with all behind it
    split_ifs at place place' <;> omega
  · have grown : entriesOf block .free ⊆ entriesOf (StringCompaction.squeeze block removed) .free := by
      intro entry free
      have free' := (mem_entries_of block .free entry).1 free
      rw [mem_entries_of, squeeze_type]
      split_ifs
      · rfl
      · exact free'
    have more := Finset.card_le_card grown
    have spare := sound.spare
    change block.freeEntries ≤ _
    omega
  · intro entry deleted
    rw [squeeze_type] at deleted
    split_ifs at deleted
    exact sound.dirty entry deleted

theorem Sound.cleanup_deleted (sound : Sound block) (deleted : block.entryType removed = .deleted) :
    cleanupEntry block removed = some (StringCompaction.squeeze block removed) := by
  have inUse : block.entryType removed ≠ .free := by simp [deleted]
  have below := sound.within removed inUse
  have bounded := sound.bounded
  have inside : ¬ 32768 < offsetOf block removed + extent block removed := by omega
  have text : (if offsetOf block removed + extent block removed < 32768 then
      moveText block.text (offsetOf block removed) (extent block removed) else block.text) =
      moveText block.text (offsetOf block removed) (extent block removed) := by
    split_ifs with shorter
    · rfl
    · funext place
      rw [moveText, if_neg (by omega)]
  have behind : ∀ entry, Function.update block.entryType removed .free entry ≠ .free →
      offsetOf block removed < offsetOf block entry →
      offsetOf block removed + extent block removed ≤ offsetOf block entry := by
    intro entry used later
    obtain ⟨_, used'⟩ := @squeeze_used block removed entry used
    exact sound.behind removed entry inUse used' later
  simp only [offsetOf, extent, content] at inside text behind
  simp only [cleanupEntry, if_pos deleted, if_neg inside, shiftOffsets, if_pos behind,
    Option.map_some]
  congr 1
  simp only [StringCompaction.squeeze, offsetOf, extent, content, StringBlock.mk.injEq, true_and]
  refine ⟨?_, text⟩
  funext entry
  by_cases same : entry = removed
  · simp [same]
  · simp [same]

theorem Sound.cleanup_entry (sound : Sound block) (removed : Fin 256) :
    ∃ after, cleanupEntry block removed = some after ∧ Compacted block after ∧
      after.entryType removed ≠ .deleted := by
  by_cases deleted : block.entryType removed = .deleted
  · have inUse : block.entryType removed ≠ .free := by simp [deleted]
    refine ⟨_, sound.cleanup_deleted deleted, ?_, by simp [squeeze_type]⟩
    constructor
    · exact sound.squeeze inUse
    · rfl
    · rfl
    · rfl
    · intro entry
      rw [squeeze_type]
      split_ifs with same
      · exact Or.inr ⟨same ▸ deleted, rfl⟩
      · exact Or.inl rfl
    · intro entry used
      obtain ⟨distinct, used'⟩ := squeeze_used entry used
      exact sound.squeeze_content inUse entry distinct used'
  · exact ⟨block, by simp [cleanupEntry, deleted], sound.compacted_refl, deleted⟩

theorem Sound.cleanup_entries (entries : List (Fin 256)) (sound : Sound block) :
    ∃ after, entries.foldlM cleanupEntry block = some after ∧ Compacted block after ∧
      ∀ entry ∈ entries, after.entryType entry ≠ .deleted := by
  induction entries generalizing block with
  | nil => exact ⟨block, rfl, sound.compacted_refl, by simp⟩
  | cons first rest induction =>
    obtain ⟨middle, step, compacted, gone⟩ := sound.cleanup_entry first
    obtain ⟨after, steps, compacted', gone'⟩ := induction compacted.sound
    refine ⟨after, by simp [step, steps], compacted.trans compacted', ?_⟩
    intro entry member
    rcases List.mem_cons.1 member with same | later
    · subst same
      rcases compacted'.kind entry with kept | freed
      · exact kept ▸ gone
      · simp [freed.2]

    · exact gone' entry later
theorem Sound.cleanup_block (sound : Sound block) :
    ∃ after, cleanupBlock block = some after ∧ Compacted block after ∧
      ∀ entry, after.entryType entry ≠ .deleted := by
  unfold cleanupBlock
  cases dirty : block.dirty with
  | true =>
    obtain ⟨after, steps, compacted, gone⟩ := sound.cleanup_entries (List.finRange 256)
    exact ⟨after, steps, compacted, fun entry => gone entry (List.mem_finRange entry)⟩
  | false =>
    refine ⟨block, rfl, sound.compacted_refl, ?_⟩
    intro entry deleted
    simp [sound.dirty entry deleted] at dirty

end Cleanup

end TibiaGame.StringCompaction
