import TibiaGame.Library.CircularWindow
import Mathlib.Tactic

/-!
# The ring buffer between two threads

`SPSCRingBuffer` of `spsc_ring_buffer.h`. Every atomic load, every `memcpy` and
every atomic store of `write`, `read` and `available_bytes` is a step of its own
thread; what a thread has loaded is kept in its state until the next step.
-/

namespace TibiaGame.RingBuffer

open Library.CircularWindow

structure Size where
  bytes : UInt32
  power : bytes &&& (bytes - 1) = 0
  large : 2 ≤ bytes

def Size.mask (size : Size) : UInt32 := size.bytes - 1

/-- The arguments of `write`: `data` has at least `len` bytes. -/
structure Chunk where
  data : List UInt8
  len : Int32
  readable : len.toInt ≤ data.length

def Chunk.bytes (chunk : Chunk) : List UInt8 := chunk.data.take chunk.len.toInt.toNat

inductive Producer where
  | idle
  | loadedWrite (chunk : Chunk) (w : UInt32)
  | copying (chunk : Chunk) (w : UInt32)
  | copiedHead (chunk : Chunk) (w : UInt32)
  | copied (chunk : Chunk) (w : UInt32)
  | counting (w : UInt32)

inductive Consumer where
  | idle
  | loadedRead (maxLen : Int32) (r : UInt32)
  | copying (r avail : UInt32)
  | copiedHead (r avail : UInt32) (data : List UInt8)
  | copied (r avail : UInt32) (data : List UInt8)
  | counting (w : UInt32)

/-- The buffer, both threads, and what their calls have returned so far. -/
structure Ring where
  buffer : Nat → UInt8
  writePos : UInt32
  readPos : UInt32
  producer : Producer
  consumer : Consumer
  writes : List (Chunk × Bool)
  received : List UInt8
  counts : List Int32

inductive ProducerCall where
  | write (chunk : Chunk)
  | availableBytes

inductive ConsumerCall where
  | read (maxLen : Int32)
  | availableBytes

def freeSpace (size : Size) (w r : UInt32) : UInt32 := size.bytes - 1 - (w - r)

def firstPiece (size : Size) (position : UInt32) : UInt32 := size.bytes - (position &&& size.mask)

/-- The next step of the thread that writes; `call` is what it calls when idle. -/
def producerStep (size : Size) (call : ProducerCall) (ring : Ring) : Ring :=
  match ring.producer with
  | .idle =>
      match call with
      | .write chunk =>
          if chunk.len ≤ 0 then
            { ring with writes := ring.writes ++ [(chunk, decide (chunk.len = 0))] }
          else { ring with producer := .loadedWrite chunk ring.writePos }
      | .availableBytes => { ring with producer := .counting ring.writePos }
  | .loadedWrite chunk w =>
      if freeSpace size w ring.readPos < chunk.len.toUInt32 then
        { ring with producer := .idle, writes := ring.writes ++ [(chunk, false)] }
      else { ring with producer := .copying chunk w }
  | .copying chunk w =>
      let first := firstPiece size w
      if chunk.len.toUInt32 ≤ first then
        { ring with
          buffer := copyInto ring.buffer (w &&& size.mask).toNat chunk.bytes
          producer := .copied chunk w }
      else
        { ring with
          buffer := copyInto ring.buffer (w &&& size.mask).toNat (chunk.bytes.take first.toNat)
          producer := .copiedHead chunk w }
  | .copiedHead chunk w =>
      { ring with
        buffer := copyInto ring.buffer 0 (chunk.bytes.drop (firstPiece size w).toNat)
        producer := .copied chunk w }
  | .copied chunk w =>
      { ring with
        writePos := w + chunk.len.toUInt32
        producer := .idle
        writes := ring.writes ++ [(chunk, true)] }
  | .counting w =>
      { ring with producer := .idle, counts := ring.counts ++ [(w - ring.readPos).toInt32] }

def consumerStep (size : Size) (call : ConsumerCall) (ring : Ring) : Ring :=
  match ring.consumer with
  | .idle =>
      match call with
      | .read maxLen =>
          if maxLen ≤ 0 then ring
          else { ring with consumer := .loadedRead maxLen ring.readPos }
      | .availableBytes => { ring with consumer := .counting ring.writePos }
  | .loadedRead maxLen r =>
      let avail := ring.writePos - r
      if avail = 0 then { ring with consumer := .idle }
      else if maxLen.toUInt32 < avail then
        { ring with consumer := .copying r maxLen.toUInt32 }
      else { ring with consumer := .copying r avail }
  | .copying r avail =>
      let first := firstPiece size r
      if avail ≤ first then
        { ring with
          consumer := .copied r avail (copyFrom ring.buffer (r &&& size.mask).toNat avail.toNat) }
      else
        { ring with
          consumer :=
            .copiedHead r avail (copyFrom ring.buffer (r &&& size.mask).toNat first.toNat) }
  | .copiedHead r avail data =>
      { ring with
        consumer :=
          .copied r avail (data ++ copyFrom ring.buffer 0 (avail - firstPiece size r).toNat) }
  | .copied r avail data =>
      { ring with
        readPos := r + avail
        consumer := .idle
        received := ring.received ++ data }
  | .counting w =>
      { ring with consumer := .idle, counts := ring.counts ++ [(w - ring.readPos).toInt32] }

inductive Turn where
  | producer (call : ProducerCall)
  | consumer (call : ConsumerCall)

def turnStep (size : Size) (ring : Ring) : Turn → Ring
  | .producer call => producerStep size call ring
  | .consumer call => consumerStep size call ring

def runRing (size : Size) (ring : Ring) (turns : List Turn) : Ring :=
  turns.foldl (turnStep size) ring

def startRing (buffer : Nat → UInt8) (writePos readPos : UInt32) : Ring where
  buffer := buffer
  writePos := writePos
  readPos := readPos
  producer := .idle
  consumer := .idle
  writes := []
  received := []
  counts := []

/-- The bytes of all chunks for which `write` returned true. -/
def published (writes : List (Chunk × Bool)) : List UInt8 :=
  writes.flatMap fun write => if write.2 then write.1.bytes else []

def pending (size : Size) (ring : Ring) : List UInt8 :=
  (List.range (ring.writePos - ring.readPos).toNat).map fun place =>
    ring.buffer ((ring.readPos + UInt32.ofNat place) &&& size.mask).toNat

def Size.cells (size : Size) : Nat := size.bytes.toNat

section

variable (size : Size)
include size

theorem Size.two_le : 2 ≤ size.cells := UInt32.le_iff_toNat_le.1 size.large

theorem Size.below : size.cells < 4294967296 := size.bytes.toNat_lt

theorem Size.mask_cells : size.mask.toNat = size.cells - 1 := by
  have one : (1 : UInt32) ≤ size.bytes := UInt32.le_iff_toNat_le.2 (Nat.le_of_lt size.two_le)
  exact UInt32.toNat_sub_of_le _ _ one

theorem Size.is_power : ∃ exponent, size.cells = 2 ^ exponent := by
  have two := size.two_le
  have power : size.cells &&& (size.cells - 1) = 0 := by
    have bits := congrArg UInt32.toNat size.power
    rw [← size.mask_cells]
    exact bits
  exact (Nat.and_sub_one_eq_zero_iff_isPowerOfTwo (by omega)).1 power

theorem Size.divides : size.cells ∣ 4294967296 := by
  obtain ⟨exponent, power⟩ := size.is_power
  have below := size.below
  have small : exponent < 32 := by
    apply (Nat.pow_lt_pow_iff_right (Nat.lt_succ_self 1)).1
    rw [← power]
    exact below
  rw [power]
  exact Nat.pow_dvd_pow 2 (Nat.le_of_lt small)

theorem Size.le_half : size.cells ≤ 2147483648 := by
  obtain ⟨quotient, product⟩ := size.divides
  have below := size.below
  have more : 2 ≤ quotient := by
    by_contra less
    have cases_ : quotient = 0 ∨ quotient = 1 := by omega
    rcases cases_ with zero | one
    · simp [zero] at product
    rw [one] at product
    omega
  have bound := Nat.mul_le_mul_left size.cells more
  omega

theorem Size.and_mask (position : UInt32) :
    (position &&& size.mask).toNat = position.toNat % size.cells := by
  obtain ⟨exponent, power⟩ := size.is_power
  rw [UInt32.toNat_and, size.mask_cells, power, Nat.and_two_pow_sub_one_eq_mod]

theorem Size.position_slot (base : UInt32) (index : Nat) :
    ((base + UInt32.ofNat index) &&& size.mask).toNat = slot size.cells base.toNat index := by
  rw [size.and_mask, UInt32.toNat_add, UInt32.toNat_ofNat']
  unfold slot
  rw [Nat.mod_mod_of_dvd _ size.divides, Nat.add_mod, Nat.mod_mod_of_dvd _ size.divides,
    ← Nat.add_mod]

theorem Size.first_piece (base : UInt32) (index : Nat) :
    (firstPiece size (base + UInt32.ofNat index)).toNat =
      size.cells - slot size.cells base.toNat index := by
  have below : slot size.cells base.toNat index < size.cells :=
    Nat.mod_lt _ (Nat.lt_of_lt_of_le Nat.zero_lt_two size.two_le)
  have smaller : (base + UInt32.ofNat index) &&& size.mask ≤ size.bytes := by
    rw [UInt32.le_iff_toNat_le, size.position_slot]
    exact Nat.le_of_lt below
  rw [firstPiece, UInt32.toNat_sub_of_le _ _ smaller, size.position_slot]
  rfl

end

theorem distance (base : UInt32) (front back : Nat) (order : back ≤ front)
    (near : front - back < 4294967296) :
    ((base + UInt32.ofNat front) - (base + UInt32.ofNat back)).toNat = front - back := by
  have split : UInt32.ofNat front = UInt32.ofNat back + UInt32.ofNat (front - back) := by
    rw [← UInt32.ofNat_add, Nat.add_sub_cancel' order]
  have moved : (base + UInt32.ofNat front) - (base + UInt32.ofNat back) =
      UInt32.ofNat (front - back) := by
    rw [split, ← UInt32.add_assoc, UInt32.add_comm, UInt32.add_sub_cancel]
  rw [moved, UInt32.toNat_ofNat']
  exact Nat.mod_eq_of_lt near

theorem Size.free_space (size : Size) (base : UInt32) (front back : Nat) (order : back ≤ front)
    (near : front - back < size.cells) :
    (freeSpace size (base + UInt32.ofNat front) (base + UInt32.ofNat back)).toNat =
      size.cells - 1 - (front - back) := by
  have below := size.below
  have taken := distance base front back order (by omega)
  have smaller : (base + UInt32.ofNat front) - (base + UInt32.ofNat back) ≤ size.bytes - 1 := by
    rw [UInt32.le_iff_toNat_le, taken]
    have mask := size.mask_cells
    unfold Size.mask at mask
    omega
  rw [freeSpace, UInt32.toNat_sub_of_le _ _ smaller, taken]
  have mask := size.mask_cells
  unfold Size.mask at mask
  rw [mask]

theorem positive_int (value : Int32) (positive : ¬ value ≤ 0) :
    value.toUInt32.toNat = value.toInt.toNat ∧ 0 < value.toInt := by
  have sign : 0 < value.toInt := by
    have order := Int32.le_iff_toInt_le.not.1 positive
    simpa using order
  refine ⟨?_, sign⟩
  have value_bits : value.toInt = value.toUInt32.toBitVec.toInt := rfl
  have bound := value.toUInt32.toNat_lt
  rw [BitVec.toInt_eq_toNat_cond] at value_bits
  change value.toInt = if 2 * value.toUInt32.toNat < 2 ^ 32 then (value.toUInt32.toNat : Int)
    else (value.toUInt32.toNat : Int) - (2 ^ 32 : Nat) at value_bits
  split_ifs at value_bits with half
  · omega
  · omega

theorem Chunk.bytes_length (chunk : Chunk) (positive : ¬ chunk.len ≤ 0) :
    chunk.bytes.length = chunk.len.toUInt32.toNat ∧ 0 < chunk.bytes.length := by
  obtain ⟨value, sign⟩ := positive_int chunk.len positive
  have readable := chunk.readable
  have length : chunk.bytes.length = chunk.len.toInt.toNat := by
    simp only [Chunk.bytes, List.length_take]
    omega
  rw [value, length]
  exact ⟨rfl, by omega⟩

end TibiaGame.RingBuffer
