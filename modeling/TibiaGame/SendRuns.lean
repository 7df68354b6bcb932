import TibiaGame.SendBuffer

/-!
# Runs of the output buffer

What is between `NextToSend` and `NextToWrite` is a window of one stream: the
committed packets, and behind them what has been stored of the packet in progress.
A packet that overflows is given up by starting the next one at `NextToCommit`.
-/

namespace TibiaGame.SendRuns

open Library.CircularWindow SendBuffer List

variable {output after : Output} {written : List UInt8}

def committedBytes (output : Output) : List UInt8 := output.committed.flatten

def streamOf (output : Output) (written : List UInt8) : List UInt8 :=
  committedBytes output ++ written

def Room (output : Output) (written data : List UInt8) : Prop :=
  (streamOf output written).length + data.length ≤ output.nextToSend + capacity

/-- The packet in progress: what has been stored of it, and that nothing is missing as long
as there was no overflow. -/
structure Packet (output : Output) (written more : List UInt8) : Prop where
  position : output.nextToWrite = (streamOf output written).length
  whole : output.overflow = false → output.packet = written ++ more

def ComposerHolds (output : Output) (written : List UInt8) : Prop :=
  match output.composer with
  | .outside | .signalling => True
  | .composing => Packet output written []
  | .storing send => Packet output written send.data ∧ Room output written send.data
  | .headStored buffer => Packet output written buffer ∧ Room output written buffer ∧
      capacity ≤ output.nextToWrite % capacity + buffer.length ∧
      Filled capacity 0 output.outData output.nextToWrite buffer
        (capacity - output.nextToWrite % capacity)
  | .stored count => ∃ data, data.length = count ∧ Packet output written data ∧
      Room output written data ∧
      Filled capacity 0 output.outData output.nextToWrite data data.length

def SenderHolds (output : Output) : Prop :=
  let sent := output.payloads.flatten
  let front := (committedBytes output).take output.nextToSend
  match output.sender with
  | .waiting | .signalled => sent = front
  | .sized dataSize =>
      sent = front ∧ output.nextToSend + dataSize ≤ (committedBytes output).length
  | .headCopied dataSize buffer =>
      sent = front ∧ output.nextToSend + dataSize ≤ (committedBytes output).length ∧
        capacity ≤ output.nextToSend % capacity + dataSize ∧
        buffer = ((committedBytes output).drop output.nextToSend).take
          (capacity - output.nextToSend % capacity)
  | .copied dataSize buffer =>
      sent = front ∧ output.nextToSend + dataSize ≤ (committedBytes output).length ∧
        buffer = ((committedBytes output).drop output.nextToSend).take dataSize
  | .written dataSize =>
      output.nextToSend + dataSize ≤ (committedBytes output).length ∧
        sent = (committedBytes output).take (output.nextToSend + dataSize)
  | .stopped => sent <+: committedBytes output

structure Streams (output : Output) (written : List UInt8) : Prop where
  window : Window capacity 0 output.outData (streamOf output written) output.nextToSend
  commit : output.nextToCommit = (committedBytes output).length
  behind : output.nextToSend ≤ output.nextToCommit
  composer : ComposerHolds output written
  sender : SenderHolds output

theorem slot_zero (position : Nat) : slot capacity 0 position = position % capacity := by
  rw [slot, Nat.zero_add]

theorem capacity_pos : 0 < capacity := by decide

theorem take_append_inside (front more : List UInt8) (count : Nat) (inside : count ≤ front.length) :
    (front ++ more).take count = front.take count :=
  take_append_of_le_length inside

theorem drop_take_inside (front more : List UInt8) (start count : Nat)
    (inside : start + count ≤ front.length) :
    ((front ++ more).drop start).take count = (front.drop start).take count := by
  rw [drop_append_of_le_length (by omega), take_append_of_le_length]
  rw [length_drop]
  omega

/-- A payload in progress is not disturbed by packets that are committed meanwhile. -/
theorem SenderHolds.frame (holds : SenderHolds output) (more : List UInt8)
    (behind : output.nextToSend ≤ (committedBytes output).length)
    (sender : after.sender = output.sender) (nextToSend : after.nextToSend = output.nextToSend)
    (payloads : after.payloads = output.payloads)
    (committed : committedBytes after = committedBytes output ++ more) : SenderHolds after := by
  have front := take_append_inside (committedBytes output) more output.nextToSend behind
  have longer : (committedBytes output ++ more).length =
      (committedBytes output).length + more.length := length_append
  unfold SenderHolds at holds ⊢
  rw [sender, nextToSend, payloads, committed, front]
  cases state : output.sender with
  | waiting => simpa only [state] using holds
  | signalled => simpa only [state] using holds
  | sized dataSize =>
    simp only [state] at holds ⊢
    exact ⟨holds.1, by omega⟩
  | headCopied dataSize buffer =>
    simp only [state] at holds ⊢
    have below : output.nextToSend % capacity < capacity := Nat.mod_lt _ capacity_pos
    rw [drop_take_inside _ _ _ _ (by omega)]
    exact ⟨holds.1, by omega, holds.2.2⟩
  | copied dataSize buffer =>
    simp only [state] at holds ⊢
    rw [drop_take_inside _ _ _ _ holds.2.1]
    exact ⟨holds.1, by omega, holds.2.2⟩
  | written dataSize =>
    simp only [state] at holds ⊢
    rw [take_append_inside _ _ _ holds.1]
    exact ⟨by omega, holds.2⟩
  | stopped =>
    simp only [state] at holds ⊢
    exact holds.trans (prefix_append _ _)

structure Uncommitted (output after : Output) : Prop where
  committed : after.committed = output.committed
  nextToSend : after.nextToSend = output.nextToSend
  nextToCommit : after.nextToCommit = output.nextToCommit
  sender : after.sender = output.sender
  payloads : after.payloads = output.payloads

theorem Streams.compose_on (streams : Streams output written) {more : List UInt8}
    (same : Uncommitted output after)
    (window : Window capacity 0 after.outData (streamOf output more) output.nextToSend)
    (composer : ComposerHolds after more) : Streams after more := by
  have bytes : committedBytes after = committedBytes output := congrArg List.flatten same.committed
  constructor
  · rw [streamOf, bytes, same.nextToSend]
    exact window
  · rw [same.nextToCommit, bytes]
    exact streams.commit
  · rw [same.nextToSend, same.nextToCommit]
    exact streams.behind
  · exact composer
  · apply streams.sender.frame [] (streams.commit ▸ streams.behind) same.sender same.nextToSend
      same.payloads
    rw [append_nil, bytes]

structure Unsent (output after : Output) : Prop where
  outData : after.outData = output.outData
  nextToWrite : after.nextToWrite = output.nextToWrite
  nextToCommit : after.nextToCommit = output.nextToCommit
  overflow : after.overflow = output.overflow
  composer : after.composer = output.composer
  packet : after.packet = output.packet
  committed : after.committed = output.committed

/-- A packet in progress only gains room when the other thread goes on. -/
theorem ComposerHolds.frame (holds : ComposerHolds output written) (same : Unsent output after)
    (further : output.nextToSend ≤ after.nextToSend) : ComposerHolds after written := by
  have stream : streamOf after written = streamOf output written := by
    rw [streamOf, streamOf, committedBytes, committedBytes, same.committed]
  have packet : ∀ more, Packet output written more → Packet after written more := by
    intro more held
    constructor
    · rw [same.nextToWrite, stream]
      exact held.position
    · rw [same.overflow, same.packet]
      exact held.whole
  have room : ∀ data, Room output written data → Room after written data := by
    intro data held
    unfold Room at held ⊢
    rw [stream]
    omega
  unfold ComposerHolds at holds ⊢
  rw [same.composer, same.outData, same.nextToWrite]
  cases state : output.composer with
  | outside => trivial
  | signalling => trivial
  | composing =>
    simp only [state] at holds ⊢
    exact packet _ holds
  | storing send =>
    simp only [state] at holds ⊢
    exact ⟨packet _ holds.1, room _ holds.2⟩
  | headStored buffer =>
    simp only [state] at holds ⊢
    exact ⟨packet _ holds.1, room _ holds.2.1, holds.2.2⟩
  | stored count =>
    simp only [state] at holds ⊢
    rcases holds with ⟨data, size, held, fits, filled⟩
    exact ⟨data, size, packet data held, room data fits, filled⟩

theorem Streams.send_on (streams : Streams output written) (same : Unsent output after)
    (further : output.nextToSend ≤ after.nextToSend ∧ after.nextToSend ≤ output.nextToCommit)
    (holds : SenderHolds after) : Streams after written := by
  have stream : streamOf after written = streamOf output written := by
    rw [streamOf, streamOf, committedBytes, committedBytes, same.committed]
  constructor
  · rw [same.outData, stream]
    exact streams.window.advance after.nextToSend further.1
  · rw [same.nextToCommit, committedBytes, same.committed]
    exact streams.commit
  · rw [same.nextToCommit]
    exact further.2
  · exact streams.composer.frame same further.1
  · exact holds

theorem store_cells_outside (outData : Nat → UInt8) (position : Nat) (data : List UInt8) (cell : Nat)
    (apart : ∀ offset < data.length, cell ≠ slot capacity 0 (position + offset)) :
    storeCells outData position data cell = outData cell := by
  induction data generalizing outData position with
  | nil => rfl
  | cons value rest ih =>
    rw [storeCells, ih]
    · apply copy_into_outside
      have first := apart 0 (by simp)
      rw [Nat.add_zero, slot_zero] at first
      simp only [length_singleton]
      omega
    · intro offset bound
      have later := apart (offset + 1) (by simpa using bound)
      rwa [Nat.add_comm offset 1, ← Nat.add_assoc] at later

theorem store_cells_filled (outData : Nat → UInt8) (position : Nat) (data : List UInt8)
    (short : data.length ≤ capacity) :
    Filled capacity 0 (storeCells outData position data) position data data.length := by
  induction data generalizing outData position with
  | nil =>
    nofun
  | cons value rest ih =>
    rw [length_cons] at short
    intro offset bound
    rcases offset with _ | offset
    · have here : storeCells (copyInto outData (position % capacity) [value]) (position + 1) rest
          (slot capacity 0 position) =
            copyInto outData (position % capacity) [value] (slot capacity 0 position) := by
        apply store_cells_outside
        intro offset bound
        rw [Nat.add_assoc]
        exact slot_ne capacity 0 position (position + (1 + offset)) (by omega) (by omega)
      have stored := copy_into_inside outData (position % capacity) [value] 0 (by simp)
      rw [Nat.add_zero] at stored ⊢
      rw [storeCells, here, slot_zero]
      exact stored.symm
    rw [length_cons] at bound
    have later := ih (copyInto outData (position % capacity) [value]) (position + 1) (by omega)
      offset (by omega)
    rw [List.getElem?_cons_succ, storeCells, Nat.add_comm offset 1, ← Nat.add_assoc]
    exact later

theorem store_cells_window {outData : Nat → UInt8} {stream data : List UInt8} {first : Nat}
    (window : Window capacity 0 outData stream first)
    (room : stream.length + data.length ≤ first + capacity) :
    Window capacity 0 (storeCells outData stream.length data) stream first := by
  apply window.frame
  intro index inside bound
  apply store_cells_outside
  intro offset near
  exact slot_ne capacity 0 index (stream.length + offset) (by omega) (by omega)

section Composing

section

variable (streams : Streams output written)
include streams

theorem Streams.order : output.nextToSend ≤ (streamOf output written).length := by
  have length : (streamOf output written).length =
      (committedBytes output).length + written.length := length_append
  have commit := streams.commit
  have behind := streams.behind
  omega

theorem begin_streams (online : Bool) : ∃ more, Streams (beginSendData output online) more := by
  have front : Window capacity 0 output.outData (streamOf output []) output.nextToSend := by
    rw [streamOf, append_nil]
    exact streams.window.restrict
  unfold beginSendData
  exists []
  simp only
  split_ifs
  · apply streams.compose_on
    · constructor <;> rfl
    · exact front
    · constructor
      · change output.nextToCommit = (streamOf output []).length
        rw [streamOf, append_nil]
        exact streams.commit
      · intro _
        rfl
  all_goals
    apply streams.compose_on
    · constructor <;> rfl
    · exact front
    · trivial

theorem start_send_streams (send : Send) (state : output.composer = .composing) :
    Streams (startSend output send) written := by
  have packet := streams.composer
  simp only [ComposerHolds, state] at packet
  have whole : output.overflow = false → output.packet ++ send.data = written ++ send.data := by
    intro fine
    rw [packet.whole fine, append_nil]
  have order := streams.order
  have position := packet.position
  unfold startSend
  simp only
  split_ifs
  · exact streams
  · apply streams.compose_on
    · constructor <;> rfl
    · exact streams.window
    · simp only [ComposerHolds, state]
      constructor
      · exact position
      · nofun
  · apply streams.compose_on
    · constructor <;> rfl
    · exact streams.window
    · constructor
      · exact ⟨position, whole⟩
      · change (streamOf output written).length + send.data.length ≤ output.nextToSend + capacity
        omega

/-- Data stored behind the window, from the position of the packet in progress on. -/
theorem Streams.stored_head {data part : List UInt8}
    (position : output.nextToWrite = (streamOf output written).length)
    (room : Room output written data) (short : part.length ≤ data.length)
    (inside : output.nextToWrite % capacity + part.length ≤ capacity) :
    Window capacity 0 (copyInto output.outData (output.nextToWrite % capacity) part)
      (streamOf output written) output.nextToSend := by
  rw [← slot_zero, position] at inside ⊢
  exact streams.window.copy_head data.length room short inside

end

theorem stored_filled (outData : Nat → UInt8) (position count : Nat) (buffer : List UInt8)
    (short : count ≤ buffer.length) (inside : position % capacity + count ≤ capacity) :
    Filled capacity 0 (copyInto outData (position % capacity) (buffer.take count)) position buffer
      count := by
  rw [← slot_zero] at inside ⊢
  exact filled_head count short inside

variable (streams : Streams output written)
include streams

theorem store_bytes_streams (buffer : List UInt8)
    (state : output.composer = .storing (.bytes buffer)) : Streams (compose output) written := by
  have holds := streams.composer
  simp only [ComposerHolds, state] at holds
  rcases holds with ⟨packet, room⟩
  change Room output written buffer at room
  have below : output.nextToWrite % capacity < capacity := Nat.mod_lt _ capacity_pos
  simp only [compose, state]
  split_ifs with whole
  · have filled := stored_filled output.outData output.nextToWrite buffer.length buffer le_rfl
      (by omega)
    rw [take_length] at filled
    apply streams.compose_on
    · constructor <;> rfl
    · exact streams.stored_head packet.position room le_rfl (by omega)
    · exact ⟨buffer, rfl, ⟨packet.position, packet.whole⟩, room, filled⟩
  have part : (buffer.take (capacity - output.nextToWrite % capacity)).length =
      capacity - output.nextToWrite % capacity := by
    rw [length_take]
    omega
  apply streams.compose_on
  · constructor <;> rfl
  · exact streams.stored_head packet.position room (by omega) (by omega)
  · constructor
    · exact ⟨packet.position, packet.whole⟩
    constructor
    · exact room
    · constructor
      · exact Nat.not_lt.mp whole
      · exact stored_filled output.outData output.nextToWrite _ buffer (by omega) (by omega)

theorem store_tail_streams (buffer : List UInt8) (state : output.composer = .headStored buffer) :
    Streams (compose output) written := by
  have holds := streams.composer
  simp only [ComposerHolds, state] at holds
  rcases holds with ⟨packet, room, wraps, head⟩
  have below : output.nextToWrite % capacity < capacity := Nat.mod_lt _ capacity_pos
  have cell : slot capacity 0 (streamOf output written).length = output.nextToWrite % capacity := by
    rw [slot_zero, packet.position]
  have part : (buffer.drop (capacity - output.nextToWrite % capacity)).length =
      buffer.length - (capacity - output.nextToWrite % capacity) := length_drop
  have order := streams.order
  have fits := room
  unfold Room at fits
  simp only [compose, state]
  apply streams.compose_on
  · constructor <;> rfl
  · apply streams.window.copy_tail buffer.length (capacity - output.nextToWrite % capacity)
    · exact room
    · exact order
    · rw [cell]
    · omega
    · exact capacity_pos
  · have filled : Filled capacity 0 (copyInto output.outData 0
        (buffer.drop (capacity - output.nextToWrite % capacity))) output.nextToWrite buffer
          buffer.length := by
      apply filled_tail (capacity - output.nextToWrite % capacity)
      · rw [slot_zero]
      · omega
      · rw [slot_zero]
        exact below
      · exact head
    exact ⟨buffer, rfl, ⟨packet.position, packet.whole⟩, room, filled⟩

theorem store_cells_streams (send : Send) (state : output.composer = .storing send)
    (short : send.data.length ≤ capacity) :
    Streams { output with
      outData := storeCells output.outData output.nextToWrite send.data
      composer := .stored send.data.length } written := by
  have holds := streams.composer
  simp only [ComposerHolds, state] at holds
  rcases holds with ⟨packet, room⟩
  apply streams.compose_on
  · constructor <;> rfl
  · rw [packet.position]
    exact store_cells_window streams.window room
  · exact ⟨send.data, rfl, ⟨packet.position, packet.whole⟩, room,
      store_cells_filled output.outData output.nextToWrite send.data short⟩

theorem advance_streams (count : Nat) (state : output.composer = .stored count) :
    ∃ more, Streams (compose output) more := by
  have holds := streams.composer
  simp only [ComposerHolds, state] at holds
  rcases holds with ⟨data, size, packet, room, filled⟩
  have longer : streamOf output (written ++ data) = streamOf output written ++ data :=
    (append_assoc _ _ _).symm
  exists written ++ data
  simp only [compose, state]
  apply streams.compose_on
  · constructor <;> rfl
  · rw [longer]
    apply streams.window.append data room
    intro offset bound
    rw [← packet.position]
    exact filled offset bound
  · constructor
    · change output.nextToWrite + count = (streamOf output (written ++ data)).length
      rw [longer, length_append, packet.position, size]
    · intro fine
      rw [append_nil]
      exact packet.whole fine

theorem compose_streams : ∃ more, Streams (compose output) more := by
  cases state : output.composer with
  | outside =>
    exists written
    simpa only [compose, state] using streams
  | composing =>
    exists written
    simpa only [compose, state] using streams
  | storing send =>
    exists written
    cases send with
    | byte value =>
      have stored := store_cells_streams streams (.byte value) state
        (by simp [Send.data, capacity])
      simpa only [compose, state] using stored
    | word value =>
      have stored := store_cells_streams streams (.word value) state
        (by simp [Send.data, capacity])
      simpa only [compose, state] using stored
    | quad value =>
      have stored := store_cells_streams streams (.quad value) state
        (by simp [Send.data, capacity])
      simpa only [compose, state] using stored
    | bytes buffer => exact store_bytes_streams streams buffer state
  | headStored buffer => exact ⟨written, store_tail_streams streams buffer state⟩
  | stored count => exact advance_streams streams count state
  | signalling =>
    exists written
    simp only [compose, state]
    apply streams.compose_on
    · constructor <;> rfl
    · exact streams.window
    · trivial

theorem finish_streams (live : Bool) (state : output.composer = .composing) :
    ∃ more, Streams (finishSendData output live) more := by
  have packet := streams.composer
  simp only [ComposerHolds, state] at packet
  unfold finishSendData
  split_ifs with dropped
  · exists written
    apply streams.compose_on
    · constructor <;> rfl
    · exact streams.window
    · trivial
  have fine : output.overflow = false := by
    cases overflow : output.overflow with
    | false => rfl
    | true => simp [overflow] at dropped
  have whole : output.packet = written := by
    rw [packet.whole fine, append_nil]
  have bytes : (output.committed ++ [output.packet]).flatten = streamOf output written := by
    rw [flatten_append, whole]
    simp [streamOf, committedBytes]
  exists []
  constructor
  · simp only [streamOf, committedBytes, append_nil, bytes]
    exact streams.window
  · simp only [committedBytes, bytes]
    exact packet.position
  · change output.nextToSend ≤ output.nextToWrite
    rw [packet.position]
    exact streams.order
  · trivial
  · have order : output.nextToSend ≤ (committedBytes output).length :=
      streams.commit ▸ streams.behind
    apply streams.sender.frame written order
    · rfl
    · rfl
    · rfl
    · exact bytes

theorem send_all_streams (live : Bool) : Streams (sendAll output live) written := by
  unfold sendAll
  split_ifs
  · apply streams.compose_on
    · constructor <;> rfl
    · exact streams.window
    · trivial
  · apply streams.compose_on
    · constructor <;> rfl
    · exact streams.window
    · apply streams.composer.frame
      · constructor <;> rfl
      · exact le_rfl
  · exact streams

end Composing

section Sending

variable (streams : Streams output written)
include streams

theorem take_signal_streams (state : output.sender = .waiting) :
    Streams { output with pending := false, sender := .signalled } written := by
  have holds := streams.sender
  simp only [SenderHolds, state] at holds
  apply streams.send_on
  · constructor <;> rfl
  · exact ⟨le_rfl, streams.behind⟩
  · exact holds

theorem stop_streams (state : output.sender = .waiting) :
    Streams { output with sender := .stopped } written := by
  have holds := streams.sender
  simp only [SenderHolds, state] at holds
  apply streams.send_on
  · constructor <;> rfl
  · exact ⟨le_rfl, streams.behind⟩
  · simp only [SenderHolds]
    rw [holds]
    exact take_prefix _ _

theorem Streams.front : Window capacity 0 output.outData (committedBytes output) output.nextToSend :=
  streams.window.restrict

theorem send_data_streams : Streams (sendData output) written := by
  have holds := streams.sender
  have commit := streams.commit
  have behind := streams.behind
  have below : output.nextToSend % capacity < capacity := Nat.mod_lt _ capacity_pos
  have cell := slot_zero output.nextToSend
  unfold SenderHolds at holds
  cases state : output.sender with
  | waiting => simpa only [sendData, state] using streams
  | stopped => simpa only [sendData, state] using streams
  | copied dataSize buffer => simpa only [sendData, state] using streams
  | signalled =>
    simp only [state] at holds
    simp only [sendData, state]
    apply streams.send_on
    · constructor <;> rfl
    · exact ⟨le_rfl, behind⟩
    · constructor
      · exact holds
      · change output.nextToSend + (output.nextToCommit - output.nextToSend) ≤
          (committedBytes output).length
        omega
  | sized dataSize =>
    simp only [state] at holds
    rcases holds with ⟨sent, inside⟩
    simp only [sendData, state]
    split_ifs with whole
    · have read := streams.front.read_head dataSize inside (by omega)
      rw [cell] at read
      apply streams.send_on
      · constructor <;> rfl
      · exact ⟨le_rfl, behind⟩
      · exact ⟨sent, inside, read⟩
    have read := streams.front.read_head (capacity - output.nextToSend % capacity) (by omega)
      (by omega)
    rw [cell] at read
    apply streams.send_on
    · constructor <;> rfl
    · exact ⟨le_rfl, behind⟩
    · exact ⟨sent, inside, Nat.not_lt.mp whole, read⟩
  | headCopied dataSize buffer =>
    simp only [state] at holds
    rcases holds with ⟨sent, inside, wraps, head⟩
    have sizes : capacity - output.nextToSend % capacity +
        (output.nextToSend % capacity + dataSize - capacity) = dataSize := by omega
    have read := streams.front.read_tail (capacity - output.nextToSend % capacity)
      (output.nextToSend % capacity + dataSize - capacity) (by rw [cell]) (by omega) capacity_pos
    rw [sizes, ← head] at read
    simp only [sendData, state]
    apply streams.send_on
    · constructor <;> rfl
    · exact ⟨le_rfl, behind⟩
    · exact ⟨sent, inside, read⟩
  | written dataSize =>
    simp only [state] at holds
    rcases holds with ⟨inside, sent⟩
    simp only [sendData, state]
    apply streams.send_on
    · constructor <;> rfl
    · exact ⟨Nat.le_add_right _ _, commit ▸ inside⟩
    · exact sent

theorem write_to_socket_streams (success : Bool) :
    Streams (writeToSocket output success) written := by
  have holds := streams.sender
  unfold SenderHolds at holds
  cases state : output.sender with
  | copied dataSize buffer =>
    simp only [state] at holds
    rcases holds with ⟨sent, inside, copy⟩
    have handed : (output.payloads ++ [buffer]).flatten =
        (committedBytes output).take (output.nextToSend + dataSize) := by
      rw [flatten_append, sent, copy, take_add]
      simp
    simp only [writeToSocket, state]
    apply streams.send_on
    · constructor <;> rfl
    · exact ⟨le_rfl, streams.behind⟩
    · cases success with
      | true => exact ⟨inside, handed⟩
      | false =>
        simp only [SenderHolds, Bool.false_eq_true, if_false]
        rw [handed]
        exact take_prefix _ _
  | waiting => simpa only [writeToSocket, state] using streams
  | signalled => simpa only [writeToSocket, state] using streams
  | sized dataSize => simpa only [writeToSocket, state] using streams
  | headCopied dataSize buffer => simpa only [writeToSocket, state] using streams
  | written dataSize => simpa only [writeToSocket, state] using streams
  | stopped => simpa only [writeToSocket, state] using streams

end Sending

theorem step_streams (streams : Streams output written) (event : Event) :
    ∃ more, Streams (step output event) more := by
  cases event with
  | beginSendData online =>
    simp only [step]
    split
    · exact begin_streams streams online
    · exact begin_streams streams online
    · exact ⟨written, streams⟩
  | send send =>
    exists written
    simp only [step]
    split
    · rename_i state
      exact start_send_streams streams send state
    · exact streams
  | compose => exact compose_streams streams
  | finishSendData live =>
    simp only [step]
    split
    · rename_i state
      exact finish_streams streams live state
    · exact ⟨written, streams⟩
  | sendAll live =>
    exists written
    simp only [step]
    split
    · exact send_all_streams streams live
    · exact send_all_streams streams live
    · exact streams
  | takeSignal =>
    exists written
    simp only [step]
    split
    · rename_i state
      split_ifs
      · exact take_signal_streams streams state
      · exact streams
    · exact streams
  | sendData => exact ⟨written, send_data_streams streams⟩
  | writeToSocket success => exact ⟨written, write_to_socket_streams streams success⟩
  | stop =>
    exists written
    simp only [step]
    split
    · rename_i state
      exact stop_streams streams state
    · exact streams

theorem start_streams (outData : Nat → UInt8) : Streams (start outData) [] := by
  constructor
  · constructor
    · exact Nat.zero_le _
    · nofun
  · rfl
  · exact Nat.zero_le _
  · trivial
  · rfl

theorem run_streams (outData : Nat → UInt8) (events : List Event) :
    ∃ written, Streams (run outData events) written := by
  induction events using List.reverseRecOn with
  | nil => exact ⟨[], start_streams outData⟩
  | append_singleton earlier event ih =>
    rcases ih with ⟨written, streams⟩
    rw [run, foldl_append]
    exact step_streams streams event

/-- The payloads are the front of what has been committed, whatever the order of steps. -/
theorem Streams.payloads_prefix (streams : Streams output written) :
    output.payloads.flatten <+: committedBytes output := by
  have holds := streams.sender
  unfold SenderHolds at holds
  cases state : output.sender with
  | waiting =>
    simp only [state] at holds
    exact holds ▸ take_prefix _ _
  | signalled =>
    simp only [state] at holds
    exact holds ▸ take_prefix _ _
  | sized dataSize =>
    simp only [state] at holds
    exact holds.1 ▸ take_prefix _ _
  | headCopied dataSize buffer =>
    simp only [state] at holds
    exact holds.1 ▸ take_prefix _ _
  | copied dataSize buffer =>
    simp only [state] at holds
    exact holds.1 ▸ take_prefix _ _
  | written dataSize =>
    simp only [state] at holds
    exact holds.2 ▸ take_prefix _ _
  | stopped =>
    simp only [state] at holds
    exact holds

/-- No packet without a payload is on its way, and none has been written. -/
structure Busy (output : Output) : Prop where
  sender : match output.sender with
    | .sized dataSize => 0 < dataSize
    | .headCopied dataSize _ => 0 < dataSize
    | .copied dataSize _ => 0 < dataSize
    | _ => True
  payloads : ∀ payload ∈ output.payloads, payload ≠ []

theorem Busy.frame (busy : Busy output) (sender : after.sender = output.sender)
    (payloads : after.payloads = output.payloads) : Busy after := by
  constructor
  · rw [sender]
    exact busy.sender
  · rw [payloads]
    exact busy.payloads

theorem compose_keeps_sender (output : Output) :
    (compose output).sender = output.sender ∧ (compose output).payloads = output.payloads := by
  unfold compose
  split
  · simp only
    split_ifs <;> exact ⟨rfl, rfl⟩
  all_goals exact ⟨rfl, rfl⟩

theorem game_keeps_sender (output : Output) (event : Event)
    (game : event ≠ .takeSignal ∧ event ≠ .sendData ∧ (∀ success, event ≠ .writeToSocket success) ∧
      event ≠ .stop) :
    (step output event).sender = output.sender ∧ (step output event).payloads = output.payloads := by
  cases event with
  | beginSendData online =>
    simp only [step, beginSendData]
    split
    · split_ifs <;> exact ⟨rfl, rfl⟩
    · split_ifs <;> exact ⟨rfl, rfl⟩
    · exact ⟨rfl, rfl⟩
  | send send =>
    simp only [step, startSend]
    split
    · split_ifs <;> exact ⟨rfl, rfl⟩
    · exact ⟨rfl, rfl⟩
  | compose => exact compose_keeps_sender output
  | finishSendData live =>
    simp only [step, finishSendData]
    split
    · split_ifs <;> exact ⟨rfl, rfl⟩
    · exact ⟨rfl, rfl⟩
  | sendAll live =>
    simp only [step, sendAll]
    split
    · split_ifs <;> exact ⟨rfl, rfl⟩
    · split_ifs <;> exact ⟨rfl, rfl⟩
    · exact ⟨rfl, rfl⟩
  | takeSignal => exact absurd rfl game.1
  | sendData => exact absurd rfl game.2.1
  | writeToSocket success => exact absurd rfl (game.2.2.1 success)
  | stop => exact absurd rfl game.2.2.2

theorem send_data_busy (busy : Busy output) (ready : ready output .sendData = true) :
    Busy (sendData output) := by
  have sender := busy.sender
  unfold sendData
  cases state : output.sender with
  | signalled =>
    simp only [SendBuffer.ready, state] at ready
    exact ⟨Nat.sub_pos_of_lt (of_decide_eq_true ready), busy.payloads⟩
  | sized dataSize =>
    simp only [state] at sender ⊢
    split_ifs <;> exact ⟨sender, busy.payloads⟩
  | headCopied dataSize buffer =>
    simp only [state] at sender ⊢
    exact ⟨sender, busy.payloads⟩
  | written dataSize => exact ⟨trivial, busy.payloads⟩
  | waiting => exact busy
  | copied dataSize buffer => exact busy
  | stopped => exact busy

section

variable (streams : Streams output written) (busy : Busy output)
include streams busy

theorem write_to_socket_busy (success : Bool) : Busy (writeToSocket output success) := by
  have sender := busy.sender
  have holds := streams.sender
  unfold SenderHolds at holds
  unfold writeToSocket
  cases state : output.sender with
  | copied dataSize buffer =>
    simp only [state] at sender holds ⊢
    rcases holds with ⟨_, inside, copy⟩
    have length : buffer.length = dataSize := by
      rw [copy, length_take, length_drop]
      omega
    constructor
    · cases success <;> trivial
    intro payload member
    rcases mem_append.mp member with earlier | last
    · exact busy.payloads payload earlier
    rw [mem_singleton.mp last]
    exact ne_nil_of_length_pos (length ▸ sender)
  | waiting => exact busy
  | signalled => exact busy
  | sized dataSize => exact busy
  | headCopied dataSize buffer => exact busy
  | written dataSize => exact busy
  | stopped => exact busy

theorem step_busy (event : Event) (ready : ready output event = true) :
    Busy (step output event) := by
  cases event with
  | takeSignal =>
    simp only [step]
    split
    · split_ifs
      · exact ⟨trivial, busy.payloads⟩
      · exact busy
    · exact busy
  | sendData => exact send_data_busy busy ready
  | writeToSocket success => exact write_to_socket_busy streams busy success
  | stop =>
    simp only [step]
    split
    · exact ⟨trivial, busy.payloads⟩
    · exact busy
  | beginSendData online =>
    have kept := game_keeps_sender output (.beginSendData online) (by simp)
    exact busy.frame kept.1 kept.2
  | send send =>
    have kept := game_keeps_sender output (.send send) (by simp)
    exact busy.frame kept.1 kept.2
  | compose =>
    have kept := game_keeps_sender output .compose (by simp)
    exact busy.frame kept.1 kept.2
  | finishSendData live =>
    have kept := game_keeps_sender output (.finishSendData live) (by simp)
    exact busy.frame kept.1 kept.2
  | sendAll live =>
    have kept := game_keeps_sender output (.sendAll live) (by simp)
    exact busy.frame kept.1 kept.2

theorem busy_from (events : List Event) (ready : allReady output events = true) :
    Busy (events.foldl step output) := by
  induction events generalizing output written with
  | nil => exact busy
  | cons event events ih =>
    rw [allReady, Bool.and_eq_true] at ready
    rcases step_streams streams event with ⟨more, next⟩
    exact ih next (step_busy streams busy event ready.1) ready.2

end

def singlePacket : List Event :=
  [.beginSendData true, .send (.byte 30), .compose, .compose, .finishSendData true, .sendAll true,
    .compose, .takeSignal, .sendData, .sendData, .writeToSocket true, .sendData]

/-- A second packet is committed and signalled after the signal of the first one has been
taken; `send_data` sends both, and the second signal finds nothing to send. -/
def lateSignal : List Event :=
  [.beginSendData true, .send (.byte 30), .compose, .compose, .finishSendData true, .sendAll true,
    .compose, .takeSignal,
    .beginSendData true, .send (.byte 30), .compose, .compose, .finishSendData true, .sendAll true,
    .compose, .sendData, .sendData, .writeToSocket true, .sendData,
    .takeSignal, .sendData, .sendData, .writeToSocket true]

end TibiaGame.SendRuns
