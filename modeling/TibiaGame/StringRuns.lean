import TibiaGame.StringCompaction

/-!
# Runs of the dynamic string table

Calls of `AddDynamicString`, `DeleteDynamicString` and `CleanupDynamicStrings`
in any order. A live string is one that was added and whose number has not been
passed to `DeleteDynamicString` since.
-/

namespace TibiaGame.StringRuns

open DynamicStrings StringCompaction List

inductive StringCall where
  | add (string : Option (List UInt8))
  | delete (number : UInt32)
  | cleanup

/-- The strings the table takes: not empty, and with their NUL no longer than a block. -/
def Storable (string : List UInt8) : Prop := string ≠ [] ∧ string.length < 32768

instance (string : List UInt8) : Decidable (Storable string) := by
  unfold Storable
  infer_instance

def liveStrings (table : StringTable) : Nat :=
  (table.map fun block => (entriesOf block .allocated).card).sum

/-- The table with the live strings and the largest number of strings it ever held. -/
structure StringRun where
  table : StringTable
  live : List (UInt32 × List UInt8)
  peak : Nat

def StringRun.goOn (run : StringRun) (table : StringTable) (live : List (UInt32 × List UInt8)) :
    StringRun where
  table := table
  live := live
  peak := max run.peak (liveStrings table)

def stringCall (run : StringRun) : StringCall → Option StringRun
  | .add string =>
      let (number, table) := addDynamicString run.table string
      let added := cString (string.getD [])
      some (run.goOn table (if Storable added then (number, added) :: run.live else run.live))
  | .delete number =>
      some (run.goOn (deleteDynamicString run.table number)
        (run.live.filter fun entry => entry.1 ≠ number))
  | .cleanup => (cleanupDynamicStrings run.table).map fun table => run.goOn table run.live

def runStrings (calls : List StringCall) : Option StringRun :=
  calls.foldlM stringCall ⟨[], [], 0⟩

theorem run_strings_snoc (calls : List StringCall) (call : StringCall) :
    runStrings (calls ++ [call]) = (runStrings calls).bind fun run => stringCall run call := by
  simp [runStrings, foldlM_append]

theorem string_call_add (run : StringRun) (string : Option (List UInt8)) :
    stringCall run (.add string) = some (run.goOn (addDynamicString run.table string).2
      (if Storable (cString (string.getD [])) then
        ((addDynamicString run.table string).1, cString (string.getD [])) :: run.live
      else run.live)) := rfl

theorem string_call_delete (run : StringRun) (number : UInt32) :
    stringCall run (.delete number) = some (run.goOn (deleteDynamicString run.table number)
      (run.live.filter fun entry => entry.1 ≠ number)) := rfl

theorem string_call_cleanup (run : StringRun) (table : StringTable)
    (cleanup : cleanupDynamicStrings run.table = some table) :
    stringCall run .cleanup = some (run.goOn table run.live) := by
  simp [stringCall, cleanup]

theorem index_of_small (number : UInt32) (positive : 0 < number.toNat)
    (small : number.toNat ≤ 2147483648) :
    (number - 1).toBitVec.toInt = ((number.toNat - 1 : Nat) : Int) := by
  have one : (1 : UInt32) ≤ number := by
    exact positive
  have bits : (number - 1).toBitVec.toNat = number.toNat - 1 :=
    UInt32.toNat_sub_of_le number 1 one
  rw [BitVec.toInt_eq_toNat_of_lt (by omega), bits]

section

variable (number : UInt32) (block : Nat) (entry : Fin 256)
    (value : number.toNat = 1 + block * 256 + entry) (small : number.toNat ≤ 2147483648)
include number block entry value small

theorem block_of_small : blockOf number = block := by
  rw [blockOf, index_of_small number (by omega) small,
    Int.tdiv_eq_ediv_of_nonneg (Int.natCast_nonneg _)]
  omega

theorem entry_of_small : entryOf number = some entry := by
  have remainder : Int.tmod (number - 1).toBitVec.toInt 256 = (entry : Nat) := by
    rw [index_of_small number (by omega) small,
      Int.tmod_eq_emod_of_nonneg (Int.natCast_nonneg _)]
    omega
  simp only [entryOf, remainder]
  simp

end

theorem located (number : UInt32) (positive : 0 < number.toNat)
    (small : number.toNat ≤ 2147483648) :
    ∃ entry : Fin 256, number.toNat = 1 + blockOf number * 256 + entry ∧
      entryOf number = some entry := by
  have value : number.toNat = 1 + (number.toNat - 1) / 256 * 256 +
      (⟨(number.toNat - 1) % 256, Nat.mod_lt _ (by decide)⟩ : Fin 256) := by
    simp only
    omega
  refine ⟨_, ?_, entry_of_small number _ _ value small⟩
  rw [block_of_small number _ _ value small]
  exact value

section Steps

def TableSound (table : StringTable) : Prop := ∀ block ∈ table, Sound block

/-- `string` is the text of an entry in use. -/
def Stored (table : StringTable) (index : Nat) (entry : Fin 256) (string : List UInt8) : Prop :=
  ∃ block, table[index]? = some block ∧ block.entryType entry = .allocated ∧
    content block entry = string

/-- What `AddDynamicString` does with a string that the table takes. -/
structure Added (table : StringTable) (string : List UInt8) (number : UInt32)
    (after : StringTable) (index : Nat) (block : StringBlock) (entry : Fin 256) : Prop where
  number : number = UInt32.ofNat (1 + index * 256 + entry)
  after : after = (if index = table.length then table ++ [emptyBlock] else table).set index
    (allocate block entry string)
  bound : index ≤ table.length
  old : index < table.length → table[index]? = some block
  fresh : index = table.length → block = emptyBlock
  sound : Sound block
  free : block.entryType entry = .free
  room : block.totalTextLength + (string.length + 1) ≤ 32768

theorem add_refused (table : StringTable) (string : Option (List UInt8))
    (refused : ¬ Storable (cString (string.getD []))) :
    addDynamicString table string = (0, table) := by
  have guard : (cString (string.getD [])).length = 0 ∨
      32768 < (cString (string.getD [])).length + 1 := by
    by_cases empty : cString (string.getD []) = []
    · simp [empty]
    right
    have long : ¬ (cString (string.getD [])).length < 32768 := fun short =>
      refused ⟨empty, short⟩
    omega
  exact if_pos guard

theorem chosen_block (table : StringTable) (size : Nat) (sound : TableSound table)
    (fits : size ≤ 32768) :
    ∃ block, (if table.findIdx (hasRoom size) = table.length then table ++ [emptyBlock]
        else table)[table.findIdx (hasRoom size)]? = some block ∧
      (table.findIdx (hasRoom size) < table.length →
        table[table.findIdx (hasRoom size)]? = some block) ∧
      (table.findIdx (hasRoom size) = table.length → block = emptyBlock) ∧
      Sound block ∧ 0 < block.freeEntries ∧ block.totalTextLength + size ≤ 32768 := by
  have inside : table.findIdx (hasRoom size) ≤ table.length := findIdx_le_length
  rcases Nat.lt_or_eq_of_le inside with earlier | last
  · have room := @findIdx_getElem _ (hasRoom size) table earlier
    simp only [hasRoom, Bool.and_eq_true, decide_eq_true_eq] at room
    refine ⟨table[table.findIdx (hasRoom size)], ?_, ?_, ?_, ?_, room.1, room.2⟩
    · rw [if_neg (Nat.ne_of_lt earlier)]
      exact List.getElem?_eq_getElem earlier
    · intro _
      exact List.getElem?_eq_getElem earlier
    · intro last
      omega
    · exact sound _ (getElem_mem earlier)

  · refine ⟨emptyBlock, by simp [last], ?_, fun _ => rfl, empty_block_sound, by decide, ?_⟩
    · intro earlier
      omega
    · simpa [emptyBlock] using fits
theorem add_spec (table : StringTable) (string : Option (List UInt8)) (sound : TableSound table)
    (storable : Storable (cString (string.getD []))) :
    ∃ index block entry, Added table (cString (string.getD []))
      (addDynamicString table string).1 (addDynamicString table string).2 index block entry := by
  have guard : ¬ ((cString (string.getD [])).length = 0 ∨
      32768 < (cString (string.getD [])).length + 1) := by
    have short := storable.2
    have present := length_pos_iff.2 storable.1
    omega
  have fits : (cString (string.getD [])).length + 1 ≤ 32768 := by omega
  obtain ⟨block, found, old, fresh, soundBlock, spare, room⟩ :=
    chosen_block table _ sound fits
  obtain ⟨entry, chosen⟩ := soundBlock.free_entry block spare
  refine ⟨table.findIdx (hasRoom ((cString (string.getD [])).length + 1)), block, entry, ?_⟩
  simp only [addDynamicString, if_neg guard, found, chosen]
  exact ⟨rfl, rfl, findIdx_le_length, old, fresh, soundBlock,
    free_entry_spec block entry chosen, room⟩

variable {table after : StringTable} {string : List UInt8} {number : UInt32} {index : Nat}
  {block : StringBlock} {entry : Fin 256}

section

variable (added : Added table string number after index block entry)
include added

theorem Added.length : after.length = max table.length (index + 1) := by
  have bound := added.bound
  rw [added.after, length_set]
  split_ifs with last
  · simp [last]
  · omega

theorem Added.new_block : after[index]? = some (allocate block entry string) := by
  have inside : index < (if index = table.length then table ++ [emptyBlock] else table).length := by
    have bound := added.bound
    split_ifs with last
    · simp [last]
    · omega
  rw [added.after, List.getElem?_set_self inside]

theorem Added.other_block (other : Nat) (distinct : other ≠ index) :
    after[other]? = table[other]? := by
  rw [added.after, List.getElem?_set_ne (Ne.symm distinct)]
  split_ifs with last
  · rcases Nat.lt_or_ge other table.length with inside | outside
    · exact List.getElem?_append_left inside
    have beyond : (table ++ [emptyBlock]).length ≤ other := by
      simp only [length_append, length_singleton]
      omega
    rw [List.getElem?_eq_none outside, List.getElem?_eq_none beyond]
  · rfl

/-- A block of the table after the step was there before, or is the one written to. -/
theorem Added.blocks (written : StringBlock) (member : written ∈ after) :
    written ∈ table ∨ written = allocate block entry string := by
  obtain ⟨place, found⟩ := mem_iff_getElem?.1 member
  by_cases same : place = index
  · rw [same, added.new_block] at found
    exact Or.inr (Option.some.inj found).symm
  rw [added.other_block place same] at found
  exact Or.inl (mem_of_getElem? found)

theorem Added.old_block (older : StringBlock) (found : table[index]? = some older) :
    older = block := by
  have inside := (List.getElem?_eq_some_iff.1 found).1
  have old := added.old inside
  exact Option.some.inj (found.symm.trans old)

theorem Added.table_sound (noNul : ∀ byte ∈ string, byte ≠ 0) (sound : TableSound table) :
    TableSound after := by
  intro written member
  rcases added.blocks written member with before | new
  · exact sound written before
  rw [new]
  exact added.sound.allocate added.free added.room noNul

theorem Added.stored_new (noNul : ∀ byte ∈ string, byte ≠ 0) : Stored after index entry string := by
  refine ⟨_, added.new_block, ?_, allocate_content added.room noNul⟩
  simp [allocate]

theorem Added.stored_kept (place : Nat) (other : Fin 256) (text : List UInt8)
    (stored : Stored table place other text) :
    Stored after place other text ∧ (place, other) ≠ (index, entry) := by
  obtain ⟨older, found, kind, content⟩ := stored
  by_cases same : place = index
  · subst same
    have old := added.old_block older found
    subst old
    have distinct : other ≠ entry := by
      intro same
      rw [same, added.free] at kind
      cases kind
    have used : older.entryType other ≠ .free := by simp [kind]
    constructor
    · refine ⟨_, added.new_block, ?_, ?_⟩
      · rw [allocate_type other distinct, kind]
      · rw [added.sound.allocate_content_other other distinct used, content]
    · simp [distinct]
  constructor
  · exact ⟨older, (added.other_block place same).trans found, kind, content⟩
  · simp [same]

end

theorem delete_spec (table : StringTable) (number : UInt32) :
    (getDynamicString table number = none ∧ deleteDynamicString table number = table) ∨
    ∃ block entry, number ≠ 0 ∧ table[blockOf number]? = some block ∧
      entryOf number = some entry ∧ block.entryType entry = .allocated ∧
      getDynamicString table number = some (content block entry) ∧
      deleteDynamicString table number =
        table.set (blockOf number) (markDeleted block entry) := by
  by_cases zero : number = 0
  · exact Or.inl ⟨if_pos zero, if_pos zero⟩
  simp only [getDynamicString, deleteDynamicString, if_neg zero]
  rcases found : table[blockOf number]? with _ | block
  · simp
  rcases inside : entryOf number with _ | entry
  · simp
  by_cases kind : block.entryType entry = .allocated
  · right
    refine ⟨block, entry, zero, rfl, rfl, kind, ?_, ?_⟩
    · simp [kind, content, offsetOf]
    · simp [kind, markDeleted]
  left
  simp [kind]

/-- A block after the cleanup: compacted, with no deleted entry left. -/
def Cleaned (block after : StringBlock) : Prop :=
  Compacted block after ∧ ∀ entry, after.entryType entry ≠ .deleted

theorem cleanup_spec (table : StringTable) (sound : TableSound table) :
    ∃ after, cleanupDynamicStrings table = some after ∧ List.Forall₂ Cleaned table after := by
  unfold cleanupDynamicStrings
  induction table with
  | nil => exact ⟨[], rfl, List.Forall₂.nil⟩
  | cons block table induction =>
    obtain ⟨cleaned, step, compacted, gone⟩ := (sound block (by simp)).cleanup_block
    obtain ⟨rest, steps, others⟩ := induction fun other member => sound other (by simp [member])
    exact ⟨cleaned :: rest, by simp [step, steps], List.Forall₂.cons ⟨compacted, gone⟩ others⟩

end Steps

section

variable (table after : StringTable) (cleaned : List.Forall₂ Cleaned table after)
include table after cleaned

theorem cleaned_block (index : Nat) (block : StringBlock) (found : table[index]? = some block) :
    ∃ block', after[index]? = some block' ∧ Cleaned block block' := by
  induction cleaned generalizing index with
  | nil => simp at found
  | cons first rest induction =>
    rcases index with _ | index
    · simp only [List.getElem?_cons_zero, Option.some.injEq] at found
      exact ⟨_, List.getElem?_cons_zero, found ▸ first⟩
    exact induction index found

theorem cleaned_member (block' : StringBlock) (member : block' ∈ after) :
    ∃ block ∈ table, Cleaned block block' := by
  induction cleaned with
  | nil => simp at member
  | cons first rest induction =>
    rcases mem_cons.1 member with same | later
    · exact ⟨_, mem_cons_self, same ▸ first⟩
    obtain ⟨block, member, cleaned⟩ := induction later
    exact ⟨block, mem_cons_of_mem _ member, cleaned⟩

theorem cleaned_stored (index : Nat) (entry : Fin 256) (string : List UInt8)
    (stored : Stored table index entry string) : Stored after index entry string := by
  obtain ⟨block, found, kind, text⟩ := stored
  obtain ⟨block', found', compacted, _⟩ := cleaned_block table after cleaned index block found
  have kept : block'.entryType entry = .allocated := by
    rcases compacted.kind entry with same | freed
    · rw [same, kind]
    · simp [kind] at freed
  have used : block'.entryType entry ≠ .free := by simp [kept]
  exact ⟨block', found', kept, (compacted.content entry used).trans text⟩

end

theorem delete_sound (table : StringTable) (number : UInt32) (sound : TableSound table) :
    TableSound (deleteDynamicString table number) := by
  rcases delete_spec table number with unchanged | marked
  · rw [unchanged.2]
    exact sound
  obtain ⟨block, entry, _, found, _, kind, _, after⟩ := marked
  intro written member
  rw [after] at member
  rcases mem_or_eq_of_mem_set member with before | new
  · exact sound written before
  rw [new]
  have used : block.entryType entry ≠ .free := by simp [kind]
  exact (sound block (mem_of_getElem? found)).mark_deleted used

theorem call_sound (run : StringRun) (call : StringCall) (sound : TableSound run.table) :
    ∃ after, stringCall run call = some after ∧ TableSound after.table ∧
      run.table.length ≤ after.table.length := by
  cases call with
  | add string =>
    refine ⟨_, string_call_add run string, ?_⟩
    by_cases storable : Storable (cString (string.getD []))
    · obtain ⟨index, block, entry, added⟩ := add_spec run.table string sound storable
      constructor
      · exact added.table_sound (c_string_no_nul _) sound
      · exact added.length ▸ Nat.le_max_left _ _
    rw [add_refused run.table string storable]
    exact ⟨sound, Nat.le_refl _⟩
  | delete number =>
    refine ⟨_, string_call_delete run number, delete_sound run.table number sound, ?_⟩
    change run.table.length ≤ (deleteDynamicString run.table number).length
    rcases delete_spec run.table number with unchanged | marked
    · rw [unchanged.2]
    obtain ⟨block, entry, _, _, _, _, _, after⟩ := marked
    rw [after, length_set]
  | cleanup =>
    obtain ⟨after, step, cleaned⟩ := cleanup_spec run.table sound
    refine ⟨_, string_call_cleanup run after step, ?_, ?_⟩
    · intro block member
      obtain ⟨old, _, compacted, _⟩ := cleaned_member run.table after cleaned block member
      exact compacted.sound
    · exact Nat.le_of_eq cleaned.length_eq

/-- No call fails: the assertion of the cleanup holds in every run. -/
theorem run_sound (calls : List StringCall) :
    ∃ run, runStrings calls = some run ∧ TableSound run.table := by
  induction calls using List.reverseRecOn with
  | nil => exact ⟨⟨[], [], 0⟩, rfl, by simp [TableSound]⟩
  | append_singleton calls call induction =>
    obtain ⟨run, result, sound⟩ := induction
    obtain ⟨after, step, sound', _⟩ := call_sound run call sound
    exact ⟨after, by simp [run_strings_snoc, result, step], sound'⟩

/-- Every live string is read back under its number, the numbers are distinct,
and the bytes of a live string, its NUL among them, lie in its block. -/
structure Correct (run : StringRun) : Prop where
  read : ∀ number string, (number, string) ∈ run.live →
    getDynamicString run.table number = some string
  distinct : (run.live.map Prod.fst).Nodup
  inside : ∀ number string, (number, string) ∈ run.live → ∃ block entry,
    run.table[blockOf number]? = some block ∧ entryOf number = some entry ∧
    offsetOf block entry + (string.length + 1) ≤ 32768

/-- Every live number is that of an entry in use that holds the string. -/
structure Agrees (run : StringRun) : Prop where
  slots : ∀ number string, (number, string) ∈ run.live → ∃ index, ∃ entry : Fin 256,
    number.toNat = 1 + index * 256 + entry ∧ Stored run.table index entry string
  distinct : (run.live.map Prod.fst).Nodup

theorem stored_small (table : StringTable) (index : Nat) (entry : Fin 256) (string : List UInt8)
    (stored : Stored table index entry string) (few : table.length < 8388608) :
    1 + index * 256 + (entry : Nat) < 2147483648 := by
  obtain ⟨block, found, _, _⟩ := stored
  have inside := (List.getElem?_eq_some_iff.1 found).1
  omega

theorem Agrees.correct (run : StringRun) (agrees : Agrees run) (sound : TableSound run.table)
    (few : run.table.length < 8388608) : Correct run := by
  have located : ∀ number string, (number, string) ∈ run.live → ∃ block entry,
      number ≠ 0 ∧ run.table[blockOf number]? = some block ∧ entryOf number = some entry ∧
      block.entryType entry = .allocated ∧ content block entry = string ∧ Sound block := by
    intro number string member
    obtain ⟨index, entry, value, stored⟩ := agrees.slots number string member
    have small := stored_small run.table index entry string stored few
    obtain ⟨block, found, kind, text⟩ := stored
    have nonzero : number ≠ 0 := by
      intro zero
      rw [zero] at value
      simp at value
      omega
    have block_of := block_of_small number index entry value (by omega)
    have entry_of := entry_of_small number index entry value (by omega)
    exact ⟨block, entry, nonzero, block_of ▸ found, entry_of, kind, text,
      sound block (mem_of_getElem? found)⟩
  constructor
  · intro number string member
    obtain ⟨block, entry, nonzero, found, inside, kind, text, _⟩ := located number string member
    simp only [getDynamicString, if_neg nonzero, found, inside, if_pos kind]
    exact congrArg some text
  · exact agrees.distinct
  · intro number string member
    obtain ⟨block, entry, _, found, inside, kind, text, soundBlock⟩ := located number string member
    have below := soundBlock.within entry (by simp [kind])
    have bounded := soundBlock.bounded
    refine ⟨block, entry, found, inside, ?_⟩
    simp only [extent, text] at below
    omega

theorem Agrees.add (run : StringRun) (string : Option (List UInt8)) (agrees : Agrees run)
    (sound : TableSound run.table) (storable : Storable (cString (string.getD [])))
    (few : (addDynamicString run.table string).2.length < 8388608) :
    Agrees (run.goOn (addDynamicString run.table string).2
      (((addDynamicString run.table string).1, cString (string.getD [])) :: run.live)) := by
  obtain ⟨index, block, entry, added⟩ := add_spec run.table string sound storable
  have new := added.stored_new (c_string_no_nul _)
  have small := stored_small _ index entry _ new few
  have value : (addDynamicString run.table string).1.toNat = 1 + index * 256 + entry := by
    rw [added.number, UInt32.toNat_ofNat']
    exact Nat.mod_eq_of_lt (by omega)
  constructor
  · intro number text member
    rcases mem_cons.1 member with same | older
    · obtain ⟨rfl, rfl⟩ := Prod.mk.inj same
      exact ⟨index, entry, value, new⟩
    obtain ⟨place, other, value', stored⟩ := agrees.slots number text older
    exact ⟨place, other, value', (added.stored_kept place other text stored).1⟩
  change (_ :: run.live.map Prod.fst).Nodup
  rw [nodup_cons]
  constructor
  · intro member
    obtain ⟨⟨number, text⟩, older, same⟩ := mem_map.1 member
    obtain ⟨place, other, value', stored⟩ := agrees.slots number text older
    have distinct := (added.stored_kept place other text stored).2
    have equal : number.toNat = (addDynamicString run.table string).1.toNat := congrArg _ same
    apply distinct
    rw [Prod.mk.injEq]
    exact ⟨by omega, Fin.ext (by omega)⟩
  · exact agrees.distinct

theorem Agrees.delete (run : StringRun) (number : UInt32) (agrees : Agrees run)
    (small : number.toNat < 2147483648) :
    Agrees (run.goOn (deleteDynamicString run.table number)
      (run.live.filter fun entry => entry.1 ≠ number)) := by
  constructor
  · intro other text member
    obtain ⟨older, distinct⟩ := mem_filter.1 member
    obtain ⟨index, entry, value, stored⟩ := agrees.slots other text older
    refine ⟨index, entry, value, ?_⟩
    change Stored (deleteDynamicString run.table number) index entry text
    rcases delete_spec run.table number with unchanged | marked
    · exact unchanged.2.symm ▸ stored
    obtain ⟨block, removed, nonzero, found, inside, kind, _, after⟩ := marked
    have positive : 0 < number.toNat := by
      apply Nat.pos_of_ne_zero
      intro zero
      exact nonzero (UInt32.toNat_inj.1 zero)
    obtain ⟨removed', value', inside'⟩ := located number positive (by omega)
    have same : removed' = removed := Option.some.inj (inside'.symm.trans inside)
    obtain ⟨block', found', kind', text'⟩ := stored
    have place := (List.getElem?_eq_some_iff.1 found).1
    rw [after]
    by_cases here : index = blockOf number
    · have elsewhere : entry ≠ removed := by
        intro equal
        have numbers : other = number := by
          apply UInt32.toNat_inj.1
          rw [value, value', here, equal, same]
        simp [numbers] at distinct
      have equal : block' = block := by
        rw [here, found] at found'
        exact (Option.some.inj found').symm
      subst here equal
      refine ⟨_, List.getElem?_set_self place, ?_, text'⟩
      rw [mark_deleted_type entry elsewhere, kind']
    refine ⟨block', ?_, kind', text'⟩
    rw [List.getElem?_set_ne (Ne.symm here), found']
  · exact agrees.distinct.sublist (List.Sublist.map _ filter_sublist)

theorem call_agrees (run after : StringRun) (call : StringCall) (agrees : Agrees run)
    (sound : TableSound run.table) (step : stringCall run call = some after)
    (proper : ∀ number, call = .delete number → number.toNat < 2147483648)
    (few : after.table.length < 8388608) : Agrees after := by
  cases call with
  | add string =>
    rw [string_call_add, Option.some.injEq] at step
    subst step
    by_cases storable : Storable (cString (string.getD []))
    · have new := agrees.add run string sound storable few
      simpa only [if_pos storable] using new
    simp only [if_neg storable, add_refused run.table string storable]
    exact ⟨agrees.slots, agrees.distinct⟩
  | delete number =>
    rw [string_call_delete, Option.some.injEq] at step
    subst step
    exact agrees.delete run number (proper number rfl)
  | cleanup =>
    obtain ⟨table, cleanup, cleaned⟩ := cleanup_spec run.table sound
    rw [string_call_cleanup run table cleanup, Option.some.injEq] at step
    subst step
    constructor
    · intro number text member
      obtain ⟨index, entry, value, stored⟩ := agrees.slots number text member
      exact ⟨index, entry, value, cleaned_stored _ _ cleaned index entry text stored⟩
    · exact agrees.distinct

theorem run_agrees (calls : List StringCall)
    (proper : ∀ number, .delete number ∈ calls → number.toNat < 2147483648) (run : StringRun)
    (result : runStrings calls = some run) (few : run.table.length < 8388608) : Agrees run := by
  induction calls using List.reverseRecOn generalizing run with
  | nil =>
    have start : _ = run := Option.some.inj result
    subst start
    exact ⟨by simp, by simp⟩
  | append_singleton calls call induction =>
    obtain ⟨before, earlier, sound⟩ := run_sound calls
    obtain ⟨after, step, _, longer⟩ := call_sound before call sound
    rw [run_strings_snoc, earlier, Option.bind_some, step] at result
    have same := Option.some.inj result
    subst same
    apply call_agrees before after call _ sound step _ few
    · apply induction
      · intro number member
        exact proper number (mem_append_left _ member)
      · exact earlier
      · omega
    · intro number same
      exact proper number (mem_append_right _ (same ▸ mem_singleton_self _))

/-- As long as the numbers fit an `int`, live strings keep their texts and their numbers. -/
theorem live_strings_are_kept (calls : List StringCall)
    (proper : ∀ number, .delete number ∈ calls → number.toNat < 2147483648) :
    ∃ run, runStrings calls = some run ∧ (run.table.length < 8388608 → Correct run) := by
  obtain ⟨run, result, sound⟩ := run_sound calls
  exact ⟨run, result, fun few => (run_agrees calls proper run result few).correct run sound few⟩

theorem two_strings_are_kept :
    ∃ run, runStrings [.add (some [97]), .add (some [98, 99]), .delete 1, .cleanup] = some run ∧
      (run.table.length < 8388608 → Correct run) :=
  live_strings_are_kept _ (by simp)

theorem adds_stay_live (count : Nat) (run : StringRun)
    (result : runStrings (List.replicate count (.add (some [97]))) = some run) :
    run.live.length = count := by
  induction count generalizing run with
  | zero =>
    have start : _ = run := Option.some.inj result
    subst start
    rfl
  | succ count induction =>
    obtain ⟨before, earlier, _⟩ := run_sound (List.replicate count (.add (some [97])))
    rw [replicate_succ', run_strings_snoc, earlier, Option.bind_some] at result
    rw [string_call_add, Option.some.injEq] at result
    subst result
    have storable : Storable (cString ((some [97]).getD [])) := by decide
    simp only [StringRun.goOn, if_pos storable, length_cons]
    rw [induction before earlier]

theorem live_numbers_bounded (run : StringRun) (correct : Correct run) :
    run.live.length < 4294967296 := by
  have nonzero : (0 : UInt32) ∉ run.live.map Prod.fst := by
    intro member
    obtain ⟨⟨number, text⟩, live, zero⟩ := mem_map.1 member
    have read := correct.read number text live
    simp [getDynamicString, show number = 0 from zero] at read
  have distinct : (0 :: run.live.map Prod.fst).Nodup := nodup_cons.2 ⟨nonzero, correct.distinct⟩
  have indices := distinct.map (f := UInt32.toFin) fun _ _ => UInt32.toFin_inj.1
  have bound := indices.length_le_card
  simpa [UInt32.size] using bound

/-- 2^32 strings do not fit the numbers, and a number from 2^31 + 1 on names an
entry of the first block: here the deletion of 2^31 + 1 removes string 1. -/
theorem numbers_overflow :
    (¬ ∀ calls : List StringCall, (∀ call ∈ calls, ∃ string, call = .add string) →
      ∀ run, runStrings calls = some run → Correct run) ∧
    ∃ run, runStrings [.add (some [97]), .delete 2147483649] = some run ∧ ¬ Correct run := by
  constructor
  · intro all
    obtain ⟨run, result, _⟩ := run_sound (List.replicate 4294967296 (.add (some [97])))
    have correct := all _ (fun _ member => ⟨_, eq_of_mem_replicate member⟩) run result
    have few := live_numbers_bounded run correct
    rw [adds_stay_live _ run result] at few
    exact lt_irrefl _ few
  · refine ⟨_, rfl, ?_⟩
    intro correct
    have read := correct.read 1 [97] (by decide)
    exact absurd read (by decide)

structure Counted (block : StringBlock) : Prop where
  freeEntries : block.freeEntries = (entriesOf block .free).card
  totalTextLength : block.totalTextLength = ∑ entry ∈ entriesOf block .allocated, extent block entry

/-- The cleanup has given everything back: the counters are right, a block
without strings takes any string, and there are no more blocks than there were
strings at the same time. -/
structure Reclaimed (run : StringRun) : Prop where
  counted : ∀ block ∈ run.table, Counted block
  accepts : ∀ block ∈ run.table, (∀ entry, block.entryType entry ≠ .allocated) →
    ∀ size, size ≤ 32768 → hasRoom size block = true ∧ (freeEntry block).isSome
  blocks : run.table.length ≤ run.peak

/-- No call of `DeleteDynamicString` finds a string. -/
def NeverDeleted (calls : List StringCall) : Prop :=
  ∀ earlier number later, calls = earlier ++ .delete number :: later →
    ∀ run, runStrings earlier = some run → getDynamicString run.table number = none

theorem never_deleted_snoc (calls : List StringCall) (call : StringCall) :
    NeverDeleted (calls ++ [call]) ↔ NeverDeleted calls ∧
      ∀ number, call = .delete number → ∀ run, runStrings calls = some run →
        getDynamicString run.table number = none := by
  constructor
  · intro never
    constructor
    · intro earlier number later split
      exact never earlier number (later ++ [call]) (by simp [split])
    · intro number same
      exact never calls number [] (by rw [same])
  intro ⟨never, last⟩ earlier number later split
  rcases eq_nil_or_concat later with none | more
  · subst none
    obtain ⟨front, same⟩ := append_inj' split rfl
    subst front
    exact last number (singleton_injective same)
  obtain ⟨rest, final, rfl⟩ := more
  have longer : calls ++ [call] = (earlier ++ .delete number :: rest) ++ [final] := by
    simp [split]
  obtain ⟨front, _⟩ := append_inj' longer rfl
  exact never earlier number rest front

structure Untouched (block : StringBlock) : Prop where
  counted : Counted block
  kept : ∀ entry, block.entryType entry ≠ .deleted
  inUse : 0 < (entriesOf block .allocated).card

/-- A block whose counters are behind its entries, or will be after the cleanup. -/
def Leaking (block : StringBlock) : Prop :=
  (∃ entry, block.entryType entry = .deleted) ∨
    block.freeEntries < (entriesOf block .free).card

def TableLeaking (table : StringTable) : Prop :=
  ∃ index : Nat, ∃ block, table[index]? = some block ∧ Leaking block

section Blocks

variable {block : StringBlock} {entry : Fin 256} {string : List UInt8}

theorem allocate_allocated_entries :
    entriesOf (allocate block entry string) .allocated =
      insert entry (entriesOf block .allocated) := by
  ext other
  by_cases same : other = entry
  all_goals simp [allocate, same]

theorem counted_empty : Counted emptyBlock where
  freeEntries := by simp [emptyBlock, entriesOf]
  totalTextLength := by simp [emptyBlock, entriesOf]

theorem counted_allocate (counted : Counted block) (sound : Sound block)
    (free : block.entryType entry = .free)
    (room : block.totalTextLength + (string.length + 1) ≤ 32768)
    (noNul : ∀ byte ∈ string, byte ≠ 0) : Counted (allocate block entry string) := by
  have outside : entry ∉ entriesOf block .allocated := by simp [free]
  have member : entry ∈ entriesOf block .free := by simp [free]
  have positive : 0 < (entriesOf block .free).card := Finset.card_pos.2 ⟨entry, member⟩
  constructor
  · rw [allocate_free_entries, Finset.card_erase_of_mem member]
    have before := counted.freeEntries
    simp only [allocate]
    omega
  rw [allocate_allocated_entries, Finset.sum_insert outside]
  have new : extent (allocate block entry string) entry = string.length + 1 := by
    simp only [extent, allocate_content room noNul]
  have old : ∑ other ∈ entriesOf block .allocated, extent (allocate block entry string) other =
      ∑ other ∈ entriesOf block .allocated, extent block other := by
    apply Finset.sum_congr rfl
    intro other allocated
    have kind := (mem_entries_of block .allocated other).1 allocated
    have distinct : other ≠ entry := by
      intro same
      simp [same, free] at kind
    simp only [extent, sound.allocate_content_other other distinct (by simp [kind])]
  have before := counted.totalTextLength
  rw [new, old]
  simp only [allocate]
  omega

theorem leaking_allocate (leaking : Leaking block) (free : block.entryType entry = .free) :
    Leaking (allocate block entry string) := by
  rcases leaking with waiting | behind
  · obtain ⟨other, deleted⟩ := waiting
    have distinct : other ≠ entry := by
      intro same
      simp [same, free] at deleted
    exact Or.inl ⟨other, (allocate_type other distinct).trans deleted⟩
  have member : entry ∈ entriesOf block .free := by simp [free]
  right
  rw [allocate_free_entries, Finset.card_erase_of_mem member]
  simp only [allocate]
  omega

theorem untouched_cleaned {after : StringBlock} (untouched : Untouched block)
    (cleaned : Cleaned block after) : Untouched after := by
  obtain ⟨compacted, gone⟩ := cleaned
  have kind : ∀ entry, after.entryType entry = block.entryType entry := by
    intro entry
    rcases compacted.kind entry with same | freed
    · exact same
    · exact absurd freed.1 (untouched.kept entry)
  have entries : ∀ kind, entriesOf after kind = entriesOf block kind := by
    intro wanted
    ext entry
    simp [kind entry]
  constructor
  · constructor
    · rw [entries, compacted.freeEntries, untouched.counted.freeEntries]
    rw [entries, compacted.totalTextLength, untouched.counted.totalTextLength]
    apply Finset.sum_congr rfl
    intro entry allocated
    have kind' := (mem_entries_of block .allocated entry).1 allocated
    have used : after.entryType entry ≠ .free := by simp [kind, kind']
    simp only [extent, compacted.content entry used]
  · exact gone
  · rw [entries]
    exact untouched.inUse

/-- The cleanup turns a deleted entry into one that the counter never counts again. -/
theorem leaking_cleaned {after : StringBlock} (leaking : Leaking block) (sound : Sound block)
    (cleaned : Cleaned block after) : after.freeEntries < (entriesOf after .free).card := by
  obtain ⟨compacted, gone⟩ := cleaned
  have grown : entriesOf block .free ⊆ entriesOf after .free := by
    intro entry free
    have free' := (mem_entries_of block .free entry).1 free
    rw [mem_entries_of]
    rcases compacted.kind entry with same | freed
    · rw [same, free']
    · exact freed.2
  rw [compacted.freeEntries]
  rcases leaking with waiting | behind
  · obtain ⟨entry, deleted⟩ := waiting
    have freed : entry ∈ entriesOf after .free := by
      rw [mem_entries_of]
      rcases compacted.kind entry with same | freed
      · exact absurd (same.trans deleted) (gone entry)
      · exact freed.2
    have before : entry ∉ entriesOf block .free := by simp [deleted]
    have more := Finset.card_lt_card (Finset.ssubset_iff_subset_ne.2 ⟨grown, by
      intro same
      exact before (same ▸ freed)⟩)
    have spare := sound.spare
    omega
  have more := Finset.card_le_card grown
  omega

end Blocks

/-- In a run without deletions every block stays as its additions made it. -/
theorem untouched_call (run after : StringRun) (call : StringCall)
    (untouched : ∀ block ∈ run.table, Untouched block) (sound : TableSound run.table)
    (missing : ∀ number, call = .delete number → getDynamicString run.table number = none)
    (step : stringCall run call = some after) : ∀ block ∈ after.table, Untouched block := by
  cases call with
  | add string =>
    rw [string_call_add, Option.some.injEq] at step
    subst step
    by_cases storable : Storable (cString (string.getD []))
    · obtain ⟨index, block, entry, added⟩ := add_spec run.table string sound storable
      intro written member
      rcases added.blocks written member with before | new
      · exact untouched written before
      subst new
      have old : Counted block ∧ ∀ other, block.entryType other ≠ .deleted := by
        rcases Nat.lt_or_eq_of_le added.bound with earlier | last
        · have here := untouched block (mem_of_getElem? (added.old earlier))
          exact ⟨here.counted, here.kept⟩
        rw [added.fresh last]
        exact ⟨counted_empty, by simp [emptyBlock]⟩
      constructor
      · exact counted_allocate old.1 added.sound added.free added.room (c_string_no_nul _)
      · intro other deleted
        by_cases same : other = entry
        · simp [allocate, same] at deleted
        rw [allocate_type other same] at deleted
        exact old.2 other deleted
      · rw [allocate_allocated_entries]
        exact Finset.card_pos.2 ⟨entry, Finset.mem_insert_self _ _⟩
    rw [add_refused run.table string storable]
    exact untouched
  | delete number =>
    rw [string_call_delete, Option.some.injEq] at step
    subst step
    rcases delete_spec run.table number with unchanged | marked
    · exact unchanged.2.symm ▸ untouched
    obtain ⟨block, entry, _, _, _, _, found, _⟩ := marked
    simp [missing number rfl] at found
  | cleanup =>
    obtain ⟨table, cleanup, cleaned⟩ := cleanup_spec run.table sound
    rw [string_call_cleanup run table cleanup, Option.some.injEq] at step
    subst step
    intro written member
    obtain ⟨block, before, cleaned⟩ := cleaned_member _ _ cleaned written member
    exact untouched_cleaned (untouched block before) cleaned

theorem delete_leaks (table : StringTable) (number : UInt32)
    (found : getDynamicString table number ≠ none) :
    TableLeaking (deleteDynamicString table number) := by
  rcases delete_spec table number with unchanged | marked
  · exact absurd unchanged.1 found
  obtain ⟨block, entry, _, found, _, _, _, after⟩ := marked
  have inside := (List.getElem?_eq_some_iff.1 found).1
  refine ⟨blockOf number, markDeleted block entry, ?_, Or.inl ⟨entry, ?_⟩⟩
  · rw [after, List.getElem?_set_self inside]
  · simp [markDeleted]

theorem leaking_call (run after : StringRun) (call : StringCall) (sound : TableSound run.table)
    (leaking : TableLeaking run.table) (step : stringCall run call = some after) :
    TableLeaking after.table := by
  obtain ⟨place, leaky, here, leaking⟩ := leaking
  cases call with
  | add string =>
    rw [string_call_add, Option.some.injEq] at step
    subst step
    by_cases storable : Storable (cString (string.getD []))
    · obtain ⟨index, block, entry, added⟩ := add_spec run.table string sound storable
      by_cases same : place = index
      · subst same
        have old := added.old_block leaky here
        subst old
        exact ⟨place, _, added.new_block, leaking_allocate leaking added.free⟩
      · exact ⟨place, leaky, (added.other_block place same).trans here, leaking⟩
    simp only [add_refused run.table string storable]
    exact ⟨place, leaky, here, leaking⟩
  | delete number =>
    rw [string_call_delete, Option.some.injEq] at step
    subst step
    rcases delete_spec run.table number with unchanged | marked
    · exact unchanged.2.symm ▸ ⟨place, leaky, here, leaking⟩
    obtain ⟨block, entry, _, _, _, _, read, _⟩ := marked
    exact delete_leaks run.table number (by simp [read])
  | cleanup =>
    obtain ⟨table, cleanup, cleaned⟩ := cleanup_spec run.table sound
    rw [string_call_cleanup run table cleanup, Option.some.injEq] at step
    subst step
    obtain ⟨block', found, cleaned⟩ := cleaned_block _ _ cleaned place leaky here
    have behind := leaking_cleaned leaking (sound leaky (mem_of_getElem? here)) cleaned
    exact ⟨place, block', found, Or.inr behind⟩

theorem run_untouched (calls : List StringCall) (never : NeverDeleted calls) (run : StringRun)
    (result : runStrings calls = some run) : ∀ block ∈ run.table, Untouched block := by
  induction calls using List.reverseRecOn generalizing run with
  | nil =>
    have start : _ = run := Option.some.inj result
    subst start
    simp
  | append_singleton calls call induction =>
    obtain ⟨before, earlier, sound⟩ := run_sound calls
    rw [run_strings_snoc, earlier, Option.bind_some] at result
    obtain ⟨never, last⟩ := (never_deleted_snoc calls call).1 never
    exact untouched_call before run call (induction never before earlier) sound
      (fun number same => last number same before earlier) result

theorem run_leaking (calls : List StringCall) (deleted : ¬ NeverDeleted calls) (run : StringRun)
    (result : runStrings calls = some run) : TableLeaking run.table := by
  induction calls using List.reverseRecOn generalizing run with
  | nil =>
    apply absurd _ deleted
    intro earlier number later split
    simp at split
  | append_singleton calls call induction =>
    obtain ⟨before, earlier, sound⟩ := run_sound calls
    rw [run_strings_snoc, earlier, Option.bind_some] at result
    by_cases never : NeverDeleted calls
    · have last : ∃ number, call = .delete number ∧
          getDynamicString before.table number ≠ none := by
        by_contra none
        apply deleted
        apply (never_deleted_snoc calls call).2
        refine ⟨never, ?_⟩
        intro number same other result'
        have equal := Option.some.inj (earlier.symm.trans result')
        subst equal
        by_contra found
        exact none ⟨number, same, found⟩
      obtain ⟨number, rfl, found⟩ := last
      rw [string_call_delete, Option.some.injEq] at result
      subst result
      exact delete_leaks before.table number found
    · exact leaking_call before run call sound (induction never before earlier) result

theorem peak_bounds (calls : List StringCall) (run : StringRun)
    (result : runStrings calls = some run) : liveStrings run.table ≤ run.peak := by
  rcases eq_nil_or_concat calls with none | more
  · subst none
    have start : _ = run := Option.some.inj result
    subst start
    exact Nat.le_refl _
  obtain ⟨earlier, call, rfl⟩ := more
  rw [concat_eq_append] at result
  obtain ⟨before, first, sound⟩ := run_sound earlier
  rw [run_strings_snoc, first, Option.bind_some] at result
  have recorded : ∃ table live, run = before.goOn table live := by
    cases call with
    | add string => exact ⟨_, _, (Option.some.inj result).symm⟩
    | delete number => exact ⟨_, _, (Option.some.inj result).symm⟩
    | cleanup =>
      obtain ⟨table, cleanup, _⟩ := cleanup_spec before.table sound
      rw [string_call_cleanup before table cleanup, Option.some.injEq] at result
      exact ⟨_, _, result.symm⟩
  obtain ⟨table, live, rfl⟩ := recorded
  exact Nat.le_max_right _ _

theorem blocks_in_use (table : StringTable) (untouched : ∀ block ∈ table, Untouched block) :
    table.length ≤ liveStrings table := by
  induction table with
  | nil => exact Nat.le_refl _
  | cons block table induction =>
    have rest := induction fun other member => untouched other (by simp [member])
    have inUse := (untouched block (by simp)).inUse
    simp only [liveStrings, map_cons, sum_cons, length_cons] at rest ⊢
    omega

theorem Untouched.reclaimed (run : StringRun) (untouched : ∀ block ∈ run.table, Untouched block)
    (peak : liveStrings run.table ≤ run.peak) : Reclaimed run where
  counted := fun block member => (untouched block member).counted
  accepts := by
    intro block member empty
    obtain ⟨entry, allocated⟩ := Finset.card_pos.1 (untouched block member).inUse
    exact absurd ((mem_entries_of block .allocated entry).1 allocated) (empty entry)
  blocks := (blocks_in_use run.table untouched).trans peak

/-- After a cleanup the counters of a table that ever lost a string are wrong. -/
theorem leaks_after_cleanup (calls : List StringCall) (deleted : ¬ NeverDeleted calls)
    (run : StringRun) (result : runStrings (calls ++ [.cleanup]) = some run) : ¬ Reclaimed run := by
  intro reclaimed
  obtain ⟨before, earlier, sound⟩ := run_sound calls
  obtain ⟨index, block, found, leaking⟩ := run_leaking calls deleted before earlier
  obtain ⟨table, cleanup, cleaned⟩ := cleanup_spec before.table sound
  rw [run_strings_snoc, earlier, Option.bind_some, string_call_cleanup before table cleanup,
    Option.some.injEq] at result
  subst result
  obtain ⟨block', found', cleaned⟩ := cleaned_block _ _ cleaned index block found
  have behind := leaking_cleaned leaking (sound block (mem_of_getElem? found)) cleaned
  have right := (reclaimed.counted block' (mem_of_getElem? found')).freeEntries
  omega

/-- `CleanupDynamicStrings` never counts what it frees: after it the table is as
it should be only if no string was ever deleted. -/
theorem reclaimed_iff_never_deleted (calls : List StringCall) :
    ∃ run, runStrings (calls ++ [.cleanup]) = some run ∧ (Reclaimed run ↔ NeverDeleted calls) := by
  obtain ⟨run, result, _⟩ := run_sound (calls ++ [.cleanup])
  refine ⟨run, result, ?_, ?_⟩
  · intro reclaimed
    by_contra deleted
    exact leaks_after_cleanup calls deleted run result reclaimed
  · intro never
    have never' : NeverDeleted (calls ++ [.cleanup]) :=
      (never_deleted_snoc calls .cleanup).2 ⟨never, by simp⟩
    exact Untouched.reclaimed run (run_untouched _ never' run result)
      (peak_bounds _ run result)

/-- One string added, deleted and cleaned up: all 256 entries are free, and 255 are counted. -/
theorem one_deletion_leaks :
    ∃ run, runStrings [.add (some [97]), .delete 1, .cleanup] = some run ∧ ¬ Reclaimed run := by
  obtain ⟨run, result, _⟩ := run_sound ([.add (some [97]), .delete 1] ++ [.cleanup])
  refine ⟨run, result, leaks_after_cleanup _ ?_ run result⟩
  intro never
  have missing := never [.add (some [97])] 1 [] rfl _ rfl
  exact absurd missing (by decide)

end TibiaGame.StringRuns
