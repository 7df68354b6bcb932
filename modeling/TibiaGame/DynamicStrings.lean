import Mathlib.Tactic

/-!
# The dynamic string table

`strings.cpp` keeps the texts of objects in blocks of 256 entries and 32768
bytes. A number names a block and an entry of it, counted from 1; the number 0
is the missing string. A deleted entry keeps its bytes until the cleanup.
-/

namespace TibiaGame.DynamicStrings

inductive EntryType where
  | free
  | allocated
  | deleted
  deriving DecidableEq, Repr

structure StringBlock where
  freeEntries : Int
  totalTextLength : Nat
  dirty : Bool
  entryType : Fin 256 → EntryType
  stringOffset : Fin 256 → UInt16
  text : Nat → UInt8

abbrev StringTable := List StringBlock

def cString (bytes : List UInt8) : List UInt8 := bytes.takeWhile (· ≠ 0)

/-- The C string that starts at `offset`, in a buffer that ends `room` bytes later. -/
def textAt (text : Nat → UInt8) : Nat → Nat → List UInt8
  | 0, _ => []
  | room + 1, offset =>
      if text offset = 0 then [] else text offset :: textAt text room (offset + 1)

/-- `memcpy` of a string and its NUL. -/
def copyText (text : Nat → UInt8) (offset : Nat) (string : List UInt8) : Nat → UInt8 :=
  fun place =>
    if offset ≤ place ∧ place ≤ offset + string.length then
      string.getD (place - offset) 0
    else text place

def emptyBlock : StringBlock where
  freeEntries := 256
  totalTextLength := 0
  dirty := false
  entryType := fun _ => .free
  stringOffset := fun _ => 0
  text := fun _ => 0

def hasRoom (size : Nat) (block : StringBlock) : Bool :=
  decide (0 < block.freeEntries) && decide (block.totalTextLength + size ≤ 32768)

def freeEntry (block : StringBlock) : Option (Fin 256) :=
  (List.finRange 256).find? fun entry => block.entryType entry == .free

def allocate (block : StringBlock) (entry : Fin 256) (string : List UInt8) : StringBlock where
  freeEntries := block.freeEntries - 1
  totalTextLength := block.totalTextLength + (string.length + 1)
  dirty := block.dirty
  entryType := Function.update block.entryType entry .allocated
  stringOffset := Function.update block.stringOffset entry (UInt16.ofNat block.totalTextLength)
  text := copyText block.text block.totalTextLength string

/-- `AddDynamicString`; a missing argument is the null pointer. -/
def addDynamicString (table : StringTable) (string : Option (List UInt8)) :
    UInt32 × StringTable :=
  let string := cString (string.getD [])
  if string.length = 0 ∨ 32768 < string.length + 1 then (0, table)
  else
    let blockIndex := table.findIdx (hasRoom (string.length + 1))
    let table := if blockIndex = table.length then table ++ [emptyBlock] else table
    match table[blockIndex]? with
    | none => (0, table)
    | some block =>
        match freeEntry block with
        | none => (0, table)
        | some entry =>
            (UInt32.ofNat (1 + blockIndex * 256 + entry),
              table.set blockIndex (allocate block entry string))

/-- `(int)(Number - 1) / 256`. The walk over the blocks stops at once for a
negative quotient, as it does for 0. -/
def blockOf (number : UInt32) : Nat := (Int.tdiv (number - 1).toBitVec.toInt 256).toNat

/-- `(int)(Number - 1) % 256`; with a negative remainder the source leaves the array. -/
def entryOf (number : UInt32) : Option (Fin 256) :=
  let entry := Int.tmod (number - 1).toBitVec.toInt 256
  if inside : 0 ≤ entry ∧ entry < 256 then some ⟨entry.toNat, by omega⟩ else none

def getDynamicString (table : StringTable) (number : UInt32) : Option (List UInt8) :=
  if number = 0 then none
  else
    match table[blockOf number]?, entryOf number with
    | some block, some entry =>
        if block.entryType entry = .allocated then
          let offset := (block.stringOffset entry).toNat
          some (textAt block.text (32768 - offset) offset)
        else none
    | _, _ => none

def deleteDynamicString (table : StringTable) (number : UInt32) : StringTable :=
  if number = 0 then table
  else
    match table[blockOf number]?, entryOf number with
    | some block, some entry =>
        if block.entryType entry = .allocated then
          table.set (blockOf number)
            { block with
              entryType := Function.update block.entryType entry .deleted
              dirty := true }
        else table
    | _, _ => table

/-- `memmove` of the bytes from `offset + size` to the end of the block down to `offset`. -/
def moveText (text : Nat → UInt8) (offset size : Nat) : Nat → UInt8 :=
  fun place => if offset ≤ place ∧ place + size < 32768 then text (place + size) else text place

/-- The offsets after `size` bytes at `offset` are gone. `none` is the failed
assertion that no other string reaches into the removed bytes. -/
def shiftOffsets (block : StringBlock) (offset size : Nat) : Option (Fin 256 → UInt16) :=
  if ∀ entry, block.entryType entry ≠ .free → offset < (block.stringOffset entry).toNat →
      offset + size ≤ (block.stringOffset entry).toNat then
    some fun entry =>
      if block.entryType entry ≠ .free ∧ offset < (block.stringOffset entry).toNat then
        block.stringOffset entry - UInt16.ofNat size
      else block.stringOffset entry
  else none

/-- One entry of the loop in `CleanupDynamicStrings`. -/
def cleanupEntry (block : StringBlock) (entry : Fin 256) : Option StringBlock :=
  if block.entryType entry = .deleted then
    let offset := (block.stringOffset entry).toNat
    let size := (textAt block.text (32768 - offset) offset).length + 1
    let freed := { block with entryType := Function.update block.entryType entry .free }
    if 32768 < offset + size then some freed
    else
      let text := if offset + size < 32768 then moveText block.text offset size else block.text
      (shiftOffsets freed offset size).map fun offsets =>
        { freed with text := text, stringOffset := offsets }
  else some block

def cleanupBlock (block : StringBlock) : Option StringBlock :=
  if block.dirty then (List.finRange 256).foldlM cleanupEntry block else some block

def cleanupDynamicStrings (table : StringTable) : Option StringTable :=
  table.mapM cleanupBlock

end TibiaGame.DynamicStrings
