import TibiaGame.RingBuffer

/-!
# Runs of the ring buffer

In every interleaving the bytes between the two positions are a window of one
stream: the bytes pending at the start, then the published chunks. The reader
takes them in order, and an unfinished write stays behind the window.
-/

namespace TibiaGame.RingRuns

open Library.CircularWindow RingBuffer List

/-- The bytes pending at the start and those of the published chunks. -/
def streamOf (early : List UInt8) (ring : Ring) : List UInt8 := early ++ published ring.writes

/-- What a write has done between its steps: it has room, and the bytes it has
copied lie behind the window. -/
def ProducerHolds (size : Size) (base : UInt32) (stream : List UInt8) (ring : Ring) : Prop :=
  match ring.producer with
  | .idle => True
  | .loadedWrite chunk w => w = ring.writePos ∧ ¬ chunk.len ≤ 0
  | .copying chunk w => w = ring.writePos ∧ ¬ chunk.len ≤ 0 ∧
      stream.length + chunk.bytes.length < ring.received.length + size.cells
  | .copiedHead chunk w => w = ring.writePos ∧ ¬ chunk.len ≤ 0 ∧
      stream.length + chunk.bytes.length < ring.received.length + size.cells ∧
      (firstPiece size w).toNat < chunk.bytes.length ∧
      Filled size.cells base.toNat ring.buffer stream.length chunk.bytes (firstPiece size w).toNat
  | .copied chunk w => w = ring.writePos ∧ ¬ chunk.len ≤ 0 ∧
      stream.length + chunk.bytes.length < ring.received.length + size.cells ∧
      Filled size.cells base.toNat ring.buffer stream.length chunk.bytes chunk.bytes.length
  | .counting w => w = ring.writePos

/-- What a read has done between its steps: it takes published bytes only. -/
def ConsumerHolds (size : Size) (base : UInt32) (stream : List UInt8) (ring : Ring) : Prop :=
  match ring.consumer with
  | .idle => True
  | .loadedRead maxLen r => r = ring.readPos ∧ ¬ maxLen ≤ 0
  | .copying r avail => r = ring.readPos ∧ ring.received.length + avail.toNat ≤ stream.length
  | .copiedHead r avail data => r = ring.readPos ∧
      ring.received.length + avail.toNat ≤ stream.length ∧
      (firstPiece size r).toNat < avail.toNat ∧
      data = (stream.drop ring.received.length).take (firstPiece size r).toNat
  | .copied r avail data => r = ring.readPos ∧
      ring.received.length + avail.toNat ≤ stream.length ∧
      data = (stream.drop ring.received.length).take avail.toNat
  | .counting w => ∃ front, ring.received.length ≤ front ∧ front ≤ stream.length ∧
      w = base + UInt32.ofNat front

/-- The two positions delimit what is published and not yet read. -/
structure Positioned (size : Size) (base : UInt32) (stream : List UInt8) (ring : Ring) : Prop where
  received : ring.received <+: stream
  window : Window size.cells base.toNat ring.buffer stream ring.received.length
  room : stream.length < ring.received.length + size.cells
  writePos : ring.writePos = base + UInt32.ofNat stream.length
  readPos : ring.readPos = base + UInt32.ofNat ring.received.length
  counts : ∀ count ∈ ring.counts, count.toInt < size.cells

structure Linear (size : Size) (base : UInt32) (early : List UInt8) (ring : Ring) : Prop where
  positioned : Positioned size base (streamOf early ring) ring
  producer : ProducerHolds size base (streamOf early ring) ring
  consumer : ConsumerHolds size base (streamOf early ring) ring

section Positioned

variable {size : Size} {base : UInt32} {stream : List UInt8} {ring : Ring}

section

variable (positioned : Positioned size base stream ring)
include positioned

theorem Positioned.behind : ring.received.length ≤ stream.length := positioned.received.length_le

theorem Positioned.distance :
    (ring.writePos - ring.readPos).toNat = stream.length - ring.received.length := by
  have room := positioned.room
  have below := size.below
  rw [positioned.writePos, positioned.readPos]
  exact RingBuffer.distance base _ _ positioned.behind (by omega)

/-- What lies between the positions is the unread part of the stream. -/
theorem Positioned.pending : pending size ring = stream.drop ring.received.length := by
  have behind := positioned.behind
  have read := positioned.window.read (stream.length - ring.received.length) (by omega)
  have whole : (stream.drop ring.received.length).take (stream.length - ring.received.length) =
      stream.drop ring.received.length := by
    apply take_of_length_le
    exact Nat.le_of_eq length_drop
  rw [whole] at read
  rw [← read, RingBuffer.pending, positioned.distance]
  apply map_congr_left
  intro place _
  rw [positioned.readPos, UInt32.add_assoc, ← UInt32.ofNat_add, size.position_slot]

end

theorem small_count (difference : UInt32) (small : difference.toNat < size.cells) :
    difference.toInt32.toInt < size.cells := by
  have half := size.le_half
  have bits : difference.toInt32.toInt = difference.toBitVec.toInt := rfl
  have value : difference.toBitVec.toInt = (difference.toNat : Int) := by
    apply BitVec.toInt_eq_toNat_of_lt
    change 2 * difference.toNat < 2 ^ 32
    omega
  rw [bits, value]
  exact_mod_cast small

variable (writes : List (Chunk × Bool))
include writes

theorem published_snoc (write : Chunk × Bool) :
    published (writes ++ [write]) = published writes ++ if write.2 then write.1.bytes else [] := by
  simp [published]

@[simp]
theorem published_refused (chunk : Chunk) :
    published (writes ++ [(chunk, false)]) = published writes := by
  simp [published_snoc]

@[simp]
theorem published_accepted (chunk : Chunk) :
    published (writes ++ [(chunk, true)]) = published writes ++ chunk.bytes := by
  simp [published_snoc]

theorem published_not_positive (chunk : Chunk) (result : Bool) (small : chunk.len ≤ 0) :
    published (writes ++ [(chunk, result)]) = published writes := by
  have order := Int32.le_iff_toInt_le.1 small
  have empty : chunk.bytes = [] := by
    have zero : chunk.len.toInt.toNat = 0 := by
      have bound : chunk.len.toInt ≤ 0 := by simpa using order
      omega
    rw [Chunk.bytes, zero, take_zero]
  rw [published_snoc, empty]
  simp

end Positioned

section Frames

variable {size : Size} {base : UInt32} {stream : List UInt8} {ring after : Ring}

theorem take_of_longer (stream more : List UInt8) (start count : Nat)
    (inside : start + count ≤ stream.length) :
    ((stream ++ more).drop start).take count = (stream.drop start).take count := by
  rw [drop_append_of_le_length (by omega), take_append_of_le_length]
  rw [length_drop]
  omega

theorem ConsumerHolds.frame (holds : ConsumerHolds size base stream ring) (more : List UInt8)
    (consumer : after.consumer = ring.consumer) (readPos : after.readPos = ring.readPos)
    (received : after.received = ring.received) :
    ConsumerHolds size base (stream ++ more) after := by
  unfold ConsumerHolds at holds ⊢
  rw [consumer, readPos, received]
  have longer : stream.length ≤ (stream ++ more).length := by simp
  cases state : ring.consumer with
  | idle => trivial
  | loadedRead maxLen r => simpa only [state] using holds
  | copying r avail =>
    simp only [state] at holds ⊢
    exact ⟨holds.1, holds.2.trans longer⟩
  | copiedHead r avail data =>
    simp only [state] at holds ⊢
    obtain ⟨position, inside, cut, read⟩ := holds
    refine ⟨position, inside.trans longer, cut, ?_⟩
    rw [take_of_longer stream more _ _ (by omega)]
    exact read
  | copied r avail data =>
    simp only [state] at holds ⊢
    obtain ⟨position, inside, read⟩ := holds
    refine ⟨position, inside.trans longer, ?_⟩
    rw [take_of_longer stream more _ _ inside]
    exact read
  | counting w =>
    simp only [state] at holds ⊢
    obtain ⟨front, behind, inside, value⟩ := holds
    exact ⟨front, behind, inside.trans longer, value⟩

theorem ProducerHolds.frame (holds : ProducerHolds size base stream ring)
    (producer : after.producer = ring.producer) (writePos : after.writePos = ring.writePos)
    (buffer : after.buffer = ring.buffer)
    (received : ring.received.length ≤ after.received.length) :
    ProducerHolds size base stream after := by
  unfold ProducerHolds at holds ⊢
  rw [producer, writePos, buffer]
  cases state : ring.producer with
  | idle => trivial
  | loadedWrite chunk w => simpa only [state] using holds
  | copying chunk w =>
    simp only [state] at holds ⊢
    exact ⟨holds.1, holds.2.1, by omega⟩
  | copiedHead chunk w =>
    simp only [state] at holds ⊢
    exact ⟨holds.1, holds.2.1, by omega, holds.2.2.2⟩
  | copied chunk w =>
    simp only [state] at holds ⊢
    exact ⟨holds.1, holds.2.1, by omega, holds.2.2.2⟩
  | counting w => simpa only [state] using holds

end Frames

section Writing

variable {size : Size} {base : UInt32} {early : List UInt8} {ring : Ring}

structure Unseen (size : Size) (ring after : Ring) : Prop where
  writePos : after.writePos = ring.writePos
  readPos : after.readPos = ring.readPos
  pending : pending size after = pending size ring
  published : published after.writes = published ring.writes

/-- The step of the writer that shows a whole chunk to the reader. -/
structure Publishes (size : Size) (chunk : Chunk) (ring after : Ring) : Prop where
  writes : after.writes = ring.writes ++ [(chunk, true)]
  readPos : after.readPos = ring.readPos
  pending : pending size after = pending size ring ++ chunk.bytes

variable (linear : Linear size base early ring)
include linear

section

variable (chunk : Chunk) (w : UInt32) (call : ProducerCall)

/-- A step of the writer that changes neither the positions nor the window. -/
theorem Linear.quiet_write (after : Ring)
    (window : Window size.cells base.toNat after.buffer (streamOf early ring) ring.received.length)
    (writePos : after.writePos = ring.writePos) (readPos : after.readPos = ring.readPos)
    (consumer : after.consumer = ring.consumer) (received : after.received = ring.received)
    (published : published after.writes = published ring.writes)
    (counts : ∀ count ∈ after.counts, count.toInt < size.cells)
    (producer : ProducerHolds size base (streamOf early ring) after) :
    Linear size base early after ∧ Unseen size ring after := by
  have stream : streamOf early after = streamOf early ring := by
    simp only [streamOf, published]
  have positioned : Positioned size base (streamOf early ring) after := by
    constructor
    · exact received ▸ linear.positioned.received
    · exact received ▸ window
    · exact received ▸ linear.positioned.room
    · exact writePos.trans linear.positioned.writePos
    · rw [readPos, received, linear.positioned.readPos]
    · exact counts
  constructor
  · constructor
    · exact stream ▸ positioned
    · exact stream ▸ producer
    · have same := linear.consumer.frame [] consumer readPos received
      rw [append_nil] at same
      exact stream ▸ same
  constructor
  · exact writePos
  · exact readPos
  · rw [positioned.pending, linear.positioned.pending, received]
  · exact published

theorem Linear.write_copy (state : ring.producer = .copying chunk w) :
    Linear size base early (producerStep size call ring) ∧
      Unseen size ring (producerStep size call ring) := by
  have holds := linear.producer
  simp only [ProducerHolds, state] at holds
  obtain ⟨position, positive, room⟩ := holds
  obtain ⟨length, some_⟩ := chunk.bytes_length positive
  have at_end := linear.positioned.writePos
  have below : slot size.cells base.toNat (streamOf early ring).length < size.cells :=
    Nat.mod_lt _ (Nat.lt_of_lt_of_le Nat.zero_lt_two size.two_le)
  have first : (firstPiece size w).toNat =
      size.cells - slot size.cells base.toNat (streamOf early ring).length := by
    rw [position, at_end, size.first_piece]
  have place : (w &&& size.mask).toNat =
      slot size.cells base.toNat (streamOf early ring).length := by
    rw [position, at_end, size.position_slot]
  simp only [producerStep, state, place]
  split_ifs with whole
  · rw [UInt32.le_iff_toNat_le, ← length, first] at whole
    have window := @Window.copy_head _ _ _ _ _ _ chunk.bytes linear.positioned.window
      chunk.bytes.length (by omega) (Nat.le_refl _) (by omega)
    apply linear.quiet_write
      { ring with
        buffer := copyInto ring.buffer (slot size.cells base.toNat (streamOf early ring).length)
          chunk.bytes
        producer := .copied chunk w }
      window rfl rfl rfl rfl rfl linear.positioned.counts
    refine ⟨position, positive, room, ?_⟩
    have filled := @filled_head _ size.cells base.toNat ring.buffer (streamOf early ring).length
      chunk.bytes chunk.bytes.length (Nat.le_refl _) (by omega)
    rwa [take_length] at filled
  rw [UInt32.le_iff_toNat_le, ← length, first, Nat.not_le] at whole
  have part : (chunk.bytes.take (firstPiece size w).toNat).length = (firstPiece size w).toNat := by
    rw [length_take]
    omega
  have window := @Window.copy_head _ _ _ _ _ _ (chunk.bytes.take (firstPiece size w).toNat)
    linear.positioned.window chunk.bytes.length (by omega) (by omega) (by omega)
  apply linear.quiet_write
    { ring with
      buffer := copyInto ring.buffer (slot size.cells base.toNat (streamOf early ring).length)
        (chunk.bytes.take (firstPiece size w).toNat)
      producer := .copiedHead chunk w }
    window rfl rfl rfl rfl rfl linear.positioned.counts
  refine ⟨position, positive, room, by omega, ?_⟩
  exact filled_head _ (by omega) (by omega)

theorem Linear.write_copy_tail (state : ring.producer = .copiedHead chunk w) :
    Linear size base early (producerStep size call ring) ∧
      Unseen size ring (producerStep size call ring) := by
  have holds := linear.producer
  simp only [ProducerHolds, state] at holds
  obtain ⟨position, positive, room, cut, filled⟩ := holds
  have at_end := linear.positioned.writePos
  have behind := linear.positioned.behind
  have enough : 0 < size.cells := Nat.lt_of_lt_of_le Nat.zero_lt_two size.two_le
  have below : slot size.cells base.toNat (streamOf early ring).length < size.cells :=
    Nat.mod_lt _ enough
  have first : (firstPiece size w).toNat =
      size.cells - slot size.cells base.toNat (streamOf early ring).length := by
    rw [position, at_end, size.first_piece]
  have part : (chunk.bytes.drop (firstPiece size w).toNat).length =
      chunk.bytes.length - (firstPiece size w).toNat := length_drop
  have window := @Window.copy_tail _ _ _ _ _ _ (chunk.bytes.drop (firstPiece size w).toNat)
    linear.positioned.window chunk.bytes.length (firstPiece size w).toNat (by omega) behind first
    (by omega) enough
  simp only [producerStep, state]
  apply linear.quiet_write
    { ring with
      buffer := copyInto ring.buffer 0 (chunk.bytes.drop (firstPiece size w).toNat)
      producer := .copied chunk w }
    window rfl rfl rfl rfl rfl linear.positioned.counts
  refine ⟨position, positive, room, ?_⟩
  exact filled_tail _ first (by omega) below filled

/-- The store at the end of a write puts its whole chunk into the window. -/
theorem Linear.write_store (state : ring.producer = .copied chunk w) :
    Linear size base early (producerStep size call ring) ∧
      Publishes size chunk ring (producerStep size call ring) := by
  have holds := linear.producer
  simp only [ProducerHolds, state] at holds
  obtain ⟨position, positive, room, filled⟩ := holds
  obtain ⟨length, _⟩ := chunk.bytes_length positive
  have at_end := linear.positioned.writePos
  simp only [producerStep, state]
  have stream : ∀ after : Ring, after.writes = ring.writes ++ [(chunk, true)] →
      streamOf early after = streamOf early ring ++ chunk.bytes := by
    intro after writes
    simp [streamOf, writes]
  have advanced : w + chunk.len.toUInt32 =
      base + UInt32.ofNat (streamOf early ring ++ chunk.bytes).length := by
    rw [position, at_end, length_append, UInt32.ofNat_add, UInt32.add_assoc, length,
      UInt32.ofNat_toNat]
  have positioned : Positioned size base (streamOf early ring ++ chunk.bytes)
      { ring with
        writePos := w + chunk.len.toUInt32
        producer := .idle
        writes := ring.writes ++ [(chunk, true)] } := by
    constructor
    · exact linear.positioned.received.trans (prefix_append _ _)
    · exact linear.positioned.window.append chunk.bytes (by omega) filled
    · simpa only [length_append] using room
    · exact advanced
    · exact linear.positioned.readPos
    · exact linear.positioned.counts
  constructor
  · constructor
    · rw [stream _ rfl]
      exact positioned
    · trivial
    · rw [stream _ rfl]
      exact linear.consumer.frame chunk.bytes rfl rfl rfl
  constructor
  · rfl
  · rfl
  · rw [positioned.pending, linear.positioned.pending]
    exact drop_append_of_le_length linear.positioned.behind

theorem Linear.producer_step :
    Linear size base early (producerStep size call ring) ∧
      (Unseen size ring (producerStep size call ring) ∨
        ∃ chunk, Publishes size chunk ring (producerStep size call ring)) := by
  have holds := linear.producer
  have window := linear.positioned.window
  have counts := linear.positioned.counts
  cases state : ring.producer with
  | idle =>
    cases call with
    | write chunk =>
      simp only [producerStep, state]
      split_ifs with small
      · have same := published_not_positive ring.writes chunk (decide (chunk.len = 0)) small
        have quiet := linear.quiet_write
          { ring with
            producer := .idle
            writes := ring.writes ++ [(chunk, decide (chunk.len = 0))] }
          window rfl rfl rfl rfl same counts trivial
        exact ⟨quiet.1, Or.inl quiet.2⟩
      have quiet := linear.quiet_write
        { ring with producer := .loadedWrite chunk ring.writePos }
        window rfl rfl rfl rfl rfl counts ⟨rfl, small⟩
      exact ⟨quiet.1, Or.inl quiet.2⟩
    | availableBytes =>
      simp only [producerStep, state]
      have quiet := linear.quiet_write { ring with producer := .counting ring.writePos }
        window rfl rfl rfl rfl rfl counts rfl
      exact ⟨quiet.1, Or.inl quiet.2⟩
  | loadedWrite chunk w =>
    simp only [ProducerHolds, state] at holds
    obtain ⟨position, positive⟩ := holds
    simp only [producerStep, state]
    split_ifs with full
    · have same : published (ring.writes ++ [(chunk, false)]) = published ring.writes := by simp
      have quiet := linear.quiet_write
        { ring with producer := .idle, writes := ring.writes ++ [(chunk, false)] }
        window rfl rfl rfl rfl same counts trivial
      exact ⟨quiet.1, Or.inl quiet.2⟩
    have room := linear.positioned.room
    have behind := linear.positioned.behind
    obtain ⟨length, _⟩ := chunk.bytes_length positive
    have free := size.free_space base (streamOf early ring).length ring.received.length behind
      (by omega)
    rw [← linear.positioned.writePos, ← linear.positioned.readPos, ← position] at free
    rw [UInt32.lt_iff_toNat_lt, free, ← length] at full
    have quiet := linear.quiet_write { ring with producer := .copying chunk w }
      window rfl rfl rfl rfl rfl counts ⟨position, positive, by simp only; omega⟩
    exact ⟨quiet.1, Or.inl quiet.2⟩
  | copying chunk w =>
    have quiet := linear.write_copy chunk w call state
    exact ⟨quiet.1, Or.inl quiet.2⟩
  | copiedHead chunk w =>
    have quiet := linear.write_copy_tail chunk w call state
    exact ⟨quiet.1, Or.inl quiet.2⟩
  | copied chunk w =>
    have shown := linear.write_store chunk w call state
    exact ⟨shown.1, Or.inr ⟨chunk, shown.2⟩⟩
  | counting w =>
    simp only [ProducerHolds, state] at holds
    simp only [producerStep, state]
    have room := linear.positioned.room
    have behind := linear.positioned.behind
    have distance := linear.positioned.distance
    have small : ∀ count ∈ ring.counts ++ [(w - ring.readPos).toInt32],
        count.toInt < size.cells := by
      intro count member
      rcases mem_append.1 member with before | last
      · exact counts count before
      rw [mem_singleton.1 last]
      apply small_count
      rw [holds]
      omega
    have quiet := linear.quiet_write
      { ring with producer := .idle, counts := ring.counts ++ [(w - ring.readPos).toInt32] }
      window rfl rfl rfl rfl rfl small trivial
    exact ⟨quiet.1, Or.inl quiet.2⟩

end

end Writing

section Reading

variable {size : Size} {base : UInt32} {early : List UInt8} {ring : Ring}

variable (linear : Linear size base early ring)
include linear

theorem Linear.quiet_read (consumer : Consumer) (counts : List Int32)
    (small : ∀ count ∈ counts, count.toInt < size.cells)
    (holds : ConsumerHolds size base (streamOf early ring)
      { ring with consumer := consumer, counts := counts }) :
    Linear size base early { ring with consumer := consumer, counts := counts } where
  positioned := {
    received := linear.positioned.received
    window := linear.positioned.window
    room := linear.positioned.room
    writePos := linear.positioned.writePos
    readPos := linear.positioned.readPos
    counts := small }
  producer := linear.producer
  consumer := holds

theorem Linear.read_copy (r avail : UInt32) (call : ConsumerCall)
    (state : ring.consumer = .copying r avail) :
    Linear size base early (consumerStep size call ring) := by
  have holds := linear.consumer
  simp only [ConsumerHolds, state] at holds
  obtain ⟨position, inside⟩ := holds
  have below : slot size.cells base.toNat ring.received.length < size.cells :=
    Nat.mod_lt _ (Nat.lt_of_lt_of_le Nat.zero_lt_two size.two_le)
  have first : (firstPiece size r).toNat =
      size.cells - slot size.cells base.toNat ring.received.length := by
    rw [position, linear.positioned.readPos, size.first_piece]
  have place : (r &&& size.mask).toNat = slot size.cells base.toNat ring.received.length := by
    rw [position, linear.positioned.readPos, size.position_slot]
  simp only [consumerStep, state, place]
  split_ifs with whole
  · rw [UInt32.le_iff_toNat_le, first] at whole
    apply linear.quiet_read _ _ linear.positioned.counts
    refine ⟨position, inside, ?_⟩
    exact linear.positioned.window.read_head avail.toNat inside (by omega)
  rw [UInt32.le_iff_toNat_le, first, Nat.not_le] at whole
  apply linear.quiet_read _ _ linear.positioned.counts
  refine ⟨position, inside, by omega, ?_⟩
  exact linear.positioned.window.read_head _ (by omega) (by omega)

theorem Linear.read_copy_tail (r avail : UInt32) (data : List UInt8) (call : ConsumerCall)
    (state : ring.consumer = .copiedHead r avail data) :
    Linear size base early (consumerStep size call ring) := by
  have holds := linear.consumer
  simp only [ConsumerHolds, state] at holds
  obtain ⟨position, inside, cut, read⟩ := holds
  have first : (firstPiece size r).toNat =
      size.cells - slot size.cells base.toNat ring.received.length := by
    rw [position, linear.positioned.readPos, size.first_piece]
  have order : firstPiece size r ≤ avail := UInt32.le_iff_toNat_le.2 (Nat.le_of_lt cut)
  have rest : (avail - firstPiece size r).toNat = avail.toNat - (firstPiece size r).toNat :=
    UInt32.toNat_sub_of_le _ _ order
  have whole : (firstPiece size r).toNat + (avail - firstPiece size r).toNat = avail.toNat := by
    omega
  simp only [consumerStep, state]
  apply linear.quiet_read _ _ linear.positioned.counts
  refine ⟨position, inside, ?_⟩
  have tail := linear.positioned.window.read_tail (firstPiece size r).toNat
    (avail - firstPiece size r).toNat first (by omega)
    (Nat.lt_of_lt_of_le Nat.zero_lt_two size.two_le)
  rw [whole] at tail
  rw [read]
  exact tail

/-- The store at the end of a read gives up exactly the bytes it has returned. -/
theorem Linear.read_store (r avail : UInt32) (data : List UInt8) (call : ConsumerCall)
    (state : ring.consumer = .copied r avail data) :
    Linear size base early (consumerStep size call ring) := by
  have holds := linear.consumer
  simp only [ConsumerHolds, state] at holds
  obtain ⟨position, inside, read⟩ := holds
  have before := prefix_iff_eq_take.1 linear.positioned.received
  have received : ring.received ++ data =
      (streamOf early ring).take (ring.received.length + avail.toNat) := by
    rw [take_add, ← before, read]
  have length : (ring.received ++ data).length = ring.received.length + avail.toNat := by
    rw [received, length_take]
    omega
  simp only [consumerStep, state]
  constructor
  · constructor
    · change ring.received ++ data <+: streamOf early ring
      rw [received]
      exact take_prefix _ _
    · exact linear.positioned.window.advance _ (by simp only [length]; omega)
    · have room := linear.positioned.room
      change (streamOf early ring).length < (ring.received ++ data).length + size.cells
      omega
    · exact linear.positioned.writePos
    · change r + avail = base + UInt32.ofNat (ring.received ++ data).length
      rw [length, position, linear.positioned.readPos, UInt32.ofNat_add, UInt32.add_assoc,
        UInt32.ofNat_toNat]
    · exact linear.positioned.counts
  · apply linear.producer.frame
    · rfl
    · rfl
    · rfl
    · simp only [length_append]
      omega
  · trivial

theorem Linear.consumer_step (call : ConsumerCall) :
    Linear size base early (consumerStep size call ring) := by
  have holds := linear.consumer
  have counts := linear.positioned.counts
  have room := linear.positioned.room
  have behind := linear.positioned.behind
  have distance := linear.positioned.distance
  cases state : ring.consumer with
  | idle =>
    cases call with
    | read maxLen =>
      simp only [consumerStep, state]
      split_ifs with small
      · exact linear
      · exact linear.quiet_read _ _ counts ⟨rfl, small⟩
    | availableBytes =>
      simp only [consumerStep, state]
      apply linear.quiet_read _ _ counts
      exact ⟨_, behind, Nat.le_refl _, linear.positioned.writePos⟩
  | loadedRead maxLen r =>
    simp only [ConsumerHolds, state] at holds
    obtain ⟨position, positive⟩ := holds
    rw [← position] at distance
    simp only [consumerStep, state]
    split_ifs with empty less
    · exact linear.quiet_read _ _ counts trivial
    · rw [UInt32.lt_iff_toNat_lt, distance] at less
      exact linear.quiet_read _ _ counts ⟨position, by simp only; omega⟩
    · exact linear.quiet_read _ _ counts ⟨position, by simp only [distance]; omega⟩
  | copying r avail => exact linear.read_copy r avail call state
  | copiedHead r avail data => exact linear.read_copy_tail r avail data call state
  | copied r avail data => exact linear.read_store r avail data call state
  | counting w =>
    simp only [ConsumerHolds, state] at holds
    obtain ⟨front, after, before, value⟩ := holds
    have below := size.below
    have count : (w - ring.readPos).toNat = front - ring.received.length := by
      rw [value, linear.positioned.readPos]
      exact RingBuffer.distance base front _ after (by omega)
    simp only [consumerStep, state]
    apply linear.quiet_read
    · intro other member
      rcases mem_append.1 member with earlier | last
      · exact counts other earlier
      rw [mem_singleton.1 last]
      apply small_count
      omega
    · trivial

end Reading

section Runs

variable {size : Size} {buffer : Nat → UInt8} {writePos readPos : UInt32}

/-- At the start both threads are idle, and what lies between the positions is pending. -/
theorem start_linear (few : (writePos - readPos).toNat < size.cells) :
    Linear size readPos (pending size (startRing buffer writePos readPos))
      (startRing buffer writePos readPos) := by
  have stream : streamOf (pending size (startRing buffer writePos readPos))
      (startRing buffer writePos readPos) = pending size (startRing buffer writePos readPos) := by
    simp [streamOf, published, startRing]
  have length : (pending size (startRing buffer writePos readPos)).length =
      (writePos - readPos).toNat := by
    simp [pending, startRing]
  constructor
  · rw [stream]
    constructor
    · exact nil_prefix
    · constructor
      · rw [length]
        change _ ≤ 0 + size.cells
        omega
      intro index _ inside
      rw [length] at inside
      rw [pending, List.getElem?_map]
      simp only [startRing] at inside ⊢
      rw [List.getElem?_range inside, Option.map_some, size.position_slot]
    · rw [length]
      omega
    · rw [length, UInt32.ofNat_toNat]
      change writePos = readPos + (writePos - readPos)
      rw [UInt32.add_comm, UInt32.sub_add_cancel]
    · change readPos = readPos + UInt32.ofNat 0
      simp
    · simp [startRing]
  · trivial
  · trivial

theorem run_linear {base : UInt32} {early : List UInt8} (ring : Ring) (turns : List Turn)
    (linear : Linear size base early ring) : Linear size base early (runRing size ring turns) := by
  induction turns generalizing ring with
  | nil => exact linear
  | cons turn turns induction =>
    apply induction
    cases turn with
    | producer call => exact (linear.producer_step call).1
    | consumer call => exact linear.consumer_step call

/-- From any positions with less than `Size` bytes between them, in every
interleaving: the reader receives the pending and the published bytes in order, a
step of the writer shows a whole chunk or nothing, and no more than `Size - 1`
bytes are ever available. -/
theorem ring_is_a_queue (few : (writePos - readPos).toNat < size.cells) (turns : List Turn)
    (ring : Ring) (reached : ring = runRing size (startRing buffer writePos readPos) turns) :
    ring.received <+: pending size (startRing buffer writePos readPos) ++ published ring.writes ∧
    (∀ call, Unseen size ring (producerStep size call ring) ∨
      ∃ chunk, Publishes size chunk ring (producerStep size call ring)) ∧
    (∀ count ∈ ring.counts, count.toInt ≤ size.cells - 1) ∧
    (ring.writePos - ring.readPos).toNat ≤ size.cells - 1 := by
  have linear : Linear size readPos (pending size (startRing buffer writePos readPos)) ring := by
    rw [reached]
    exact run_linear _ turns (start_linear few)
  have behind := linear.positioned.behind
  have room := linear.positioned.room
  refine ⟨linear.positioned.received, fun call => (linear.producer_step call).2, ?_, ?_⟩
  · intro count member
    have small := linear.positioned.counts count member
    omega
  · rw [linear.positioned.distance]
    omega

def twoBytes : Size := ⟨2, by decide, by decide⟩

def sixteenBytes : Size := ⟨16, by decide, by decide⟩

/-- A write across the wrap of both counters, between two loads of a read. -/
def wrappedRing : Ring :=
  runRing sixteenBytes (startRing (fun _ => 0) 4294967294 4294967294)
    [.producer (.write ⟨[1, 2, 3, 4, 5], 5, by decide⟩), .producer .availableBytes,
      .consumer (.read 9), .producer .availableBytes, .producer .availableBytes,
      .consumer (.read 9), .consumer (.read 9)]

theorem wrapped_ring_is_a_queue : wrappedRing.received <+: published wrappedRing.writes := by
  have queue := ring_is_a_queue (by decide) _ wrappedRing rfl
  exact queue.1

/-- Counters that differ at the start: the reader gets a byte that was never
written, and with more than the buffer between them more than the buffer is available. -/
theorem different_counters_read_too_much :
    (¬ (runRing twoBytes (startRing (fun _ => 0) 1 0)
        (List.replicate 4 (.consumer (.read 1)))).received <+:
      published (runRing twoBytes (startRing (fun _ => 0) 1 0)
        (List.replicate 4 (.consumer (.read 1)))).writes) ∧
    (runRing twoBytes (startRing (fun _ => 0) 5 0)
      (List.replicate 2 (.consumer .availableBytes))).counts = [5] := by
  constructor
  · decide
  · decide

end Runs

end TibiaGame.RingRuns
