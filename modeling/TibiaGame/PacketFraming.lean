import TibiaGame.Library.LittleEndian
import Mathlib.Logic.Function.Iterate

/-!
# Packets on a socket

`XteaSymmetricKey` of `xtea.cpp`, and from `communication.cpp` the way a payload
is written to a socket and a command is read from one, once the connection is
past its login. What the transport answers to each call is a parameter.
-/

namespace TibiaGame.PacketFraming

open Library.LittleEndian Function List

structure XteaSymmetricKey where
  symmetricKey : Fin 4 → UInt32

/-- `Sum`, `V0` and `V1` between two rounds. -/
structure CipherState where
  sum : UInt32
  v0 : UInt32
  v1 : UInt32

def delta : UInt32 := 0x9E3779B9

/-- `m_SymmetricKey[selector & 3]`. -/
def XteaSymmetricKey.word (key : XteaSymmetricKey) (selector : UInt32) : UInt32 :=
  key.symmetricKey ⟨(selector &&& 3).toNat % 4, Nat.mod_lt _ (by decide)⟩

/-- `((V << 4) ^ (V >> 5)) + V`. -/
def spread (v : UInt32) : UInt32 := ((v <<< 4) ^^^ (v >>> 5)) + v

def XteaSymmetricKey.encryptRound (key : XteaSymmetricKey) (state : CipherState) : CipherState :=
  let v0 := state.v0 + (spread state.v1 ^^^ (state.sum + key.word state.sum))
  let sum := state.sum + delta
  let v1 := state.v1 + (spread v0 ^^^ (sum + key.word (sum >>> 11)))
  ⟨sum, v0, v1⟩

def XteaSymmetricKey.decryptRound (key : XteaSymmetricKey) (state : CipherState) : CipherState :=
  let v1 := state.v1 - (spread state.v0 ^^^ (state.sum + key.word (state.sum >>> 11)))
  let sum := state.sum - delta
  let v0 := state.v0 - (spread v1 ^^^ (sum + key.word sum))
  ⟨sum, v0, v1⟩

def XteaSymmetricKey.encryptWords (key : XteaSymmetricKey) (v0 v1 : UInt32) : CipherState :=
  key.encryptRound^[32] ⟨0, v0, v1⟩

def XteaSymmetricKey.decryptWords (key : XteaSymmetricKey) (v0 v1 : UInt32) : CipherState :=
  key.decryptRound^[32] ⟨0xC6EF3720, v0, v1⟩

/-- The loop of a caller: one block of eight bytes after the other, in place. -/
def mapBlocks (cipher : UInt32 → UInt32 → CipherState) : List UInt8 → List UInt8
  | b0 :: b1 :: b2 :: b3 :: b4 :: b5 :: b6 :: b7 :: rest =>
      let state := cipher (bytesQuad b0 b1 b2 b3) (bytesQuad b4 b5 b6 b7)
      quadBytes state.v0 ++ quadBytes state.v1 ++ mapBlocks cipher rest
  | short => short

def XteaSymmetricKey.encrypt (key : XteaSymmetricKey) : List UInt8 → List UInt8 :=
  mapBlocks key.encryptWords

def XteaSymmetricKey.decrypt (key : XteaSymmetricKey) : List UInt8 → List UInt8 :=
  mapBlocks key.decryptWords

/-- Rounding up to a multiple of eight is `& ~7` in the source. -/
def getPacketSize (dataSize : Nat) : Nat := (dataSize + 2 + 7) / 8 * 8 + 2

/-- The loop that appends random bytes; `room` is `MaxSize - Size`. -/
def addPadding (random : Nat → UInt8) : Nat → List UInt8 → List UInt8
  | 0, buffer => buffer
  | room + 1, buffer =>
      if buffer.length % 8 ≠ 2 then addPadding random room (buffer ++ [random buffer.length])
      else buffer

/-- What one call of the transport's `write` returns; `-1` leaves an `errno`. -/
inductive Written where
  | bytes (count : Nat)
  | interrupted
  | again
  | broken

/-- The bytes that reach the socket, and the return value once the loop is left. -/
structure Transfer where
  emitted : List UInt8
  result : Option Bool

def Transfer.before (emitted : List UInt8) (transfer : Transfer) : Transfer :=
  { transfer with emitted := emitted ++ transfer.emitted }

def writeBytes : List Written → Nat → List UInt8 → Transfer
  | _, _, [] => ⟨[], some true⟩
  | [], _, _ :: _ => ⟨[], none⟩
  | .bytes count :: answers, attempts, byte :: more =>
      if count = 0 then ⟨[], some false⟩
      else (writeBytes answers attempts ((byte :: more).drop count)).before
        ((byte :: more).take count)
  | .interrupted :: answers, attempts, byte :: more => writeBytes answers attempts (byte :: more)
  | .again :: answers, attempts, byte :: more =>
      if attempts = 0 then ⟨[], some false⟩ else writeBytes answers (attempts - 1) (byte :: more)
  | .broken :: _, _, _ :: _ => ⟨[], some false⟩

/-- `buffer` after padding: both sizes written, and everything behind the first encrypted. -/
def sealBuffer (key : XteaSymmetricKey) (dataSize : Nat) (buffer : List UInt8) : List UInt8 :=
  let sized := wordBytes (UInt16.ofNat (buffer.length - 2)) ++ wordBytes (UInt16.ofNat dataSize) ++
    buffer.drop 4
  sized.take 2 ++ key.encrypt (sized.drop 2)

/-- The packet that is about to be written; `none` where the assertion or the padding fails. -/
def framePacket (key : XteaSymmetricKey) (random : Nat → UInt8) (buffer : List UInt8)
    (maxSize : Nat) : Option (List UInt8) :=
  let size := buffer.length
  if 4 ≤ size ∧ size ≤ maxSize ∧ maxSize ≤ 65535 then
    let padded := addPadding random (maxSize - size) buffer
    if padded.length % 8 ≠ 2 then none else some (sealBuffer key (size - 4) padded)
  else none

def writeToSocket (key : XteaSymmetricKey) (random : Nat → UInt8) (answers : List Written)
    (buffer : List UInt8) (maxSize : Nat) : Transfer :=
  match framePacket key random buffer maxSize with
  | none => ⟨[], some false⟩
  | some packet => writeBytes answers 50 packet

/-- A buffer as the callers of `write_to_socket` prepare it: two sizes, then the payload. -/
def payloadBuffer (payload : List UInt8) : List UInt8 := [0, 0, 0, 0] ++ payload

/-- What `receive_command` makes of the bytes that the peer has sent before it closed. -/
inductive Received where
  | closed
  | refused
  | command (payload rest : List UInt8)

def inDataSize : Nat := 2048

def receiveCommand (key : XteaSymmetricKey) (stream : List UInt8) : Received :=
  match stream with
  | [] => .closed
  | [_] => .refused
  | low :: high :: body =>
      let size := (bytesWord low high).toNat
      if size = 0 ∨ size > inDataSize then .refused
      else
        let inData := body.take size
        if inData.length ≠ size then .refused
        else if size % 8 ≠ 0 then .refused
        else
          match key.decrypt inData with
          | plainLow :: plainHigh :: data =>
              let plainSize := (bytesWord plainLow plainHigh).toNat
              if plainSize = 0 ∨ plainSize + 2 > size then .refused
              else .command (data.take plainSize) (body.drop size)
          | _ => .refused

/-- A round of `decrypt` takes back the round of `encrypt` with the same `Sum`. -/
theorem decrypt_encrypt_round (key : XteaSymmetricKey) :
    LeftInverse key.decryptRound key.encryptRound := by
  intro state
  simp [XteaSymmetricKey.decryptRound, XteaSymmetricKey.encryptRound]

theorem rounds_sum (key : XteaSymmetricKey) (state : CipherState) (rounds : Nat) :
    (key.encryptRound^[rounds] state).sum = state.sum + UInt32.ofNat rounds * delta := by
  induction rounds with
  | zero => simp
  | succ rounds ih =>
    rw [iterate_succ_apply']
    change (key.encryptRound^[rounds] state).sum + delta = _
    rw [ih, UInt32.ofNat_add, UInt32.add_mul, UInt32.add_assoc]
    simp

/-- `0xC6EF3720` is the value that `Sum` has after the last round of `encrypt`. -/
theorem encrypt_words_sum (key : XteaSymmetricKey) (v0 v1 : UInt32) :
    (key.encryptWords v0 v1).sum = 0xC6EF3720 := by
  rw [XteaSymmetricKey.encryptWords, rounds_sum]
  change (0 : UInt32) + UInt32.ofNat 32 * delta = 0xC6EF3720
  decide

theorem decrypt_encrypt_words (key : XteaSymmetricKey) (v0 v1 : UInt32) :
    key.decryptWords (key.encryptWords v0 v1).v0 (key.encryptWords v0 v1).v1 = ⟨0, v0, v1⟩ := by
  have last := encrypt_words_sum key v0 v1
  rw [XteaSymmetricKey.decryptWords, ← last]
  exact (decrypt_encrypt_round key).iterate 32 _

section Blocks

variable (cipher inverse : UInt32 → UInt32 → CipherState)

@[simp] theorem map_blocks_cons (b0 b1 b2 b3 b4 b5 b6 b7 : UInt8) (rest : List UInt8) :
    mapBlocks cipher (b0 :: b1 :: b2 :: b3 :: b4 :: b5 :: b6 :: b7 :: rest) =
      quadBytes (cipher (bytesQuad b0 b1 b2 b3) (bytesQuad b4 b5 b6 b7)).v0 ++
        quadBytes (cipher (bytesQuad b0 b1 b2 b3) (bytesQuad b4 b5 b6 b7)).v1 ++
          mapBlocks cipher rest := rfl

theorem map_blocks_length (bytes : List UInt8) : (mapBlocks cipher bytes).length = bytes.length := by
  fun_induction mapBlocks cipher bytes with
  | case1 _ _ _ _ _ _ _ _ _ _ ih =>
    simp only [length_append, quad_bytes_length, ih, length_cons]
    omega
  | case2 => rfl

theorem map_blocks_quads (v0 v1 : UInt32) (rest : List UInt8) :
    mapBlocks cipher (quadBytes v0 ++ quadBytes v1 ++ rest) =
      quadBytes (cipher v0 v1).v0 ++ quadBytes (cipher v0 v1).v1 ++ mapBlocks cipher rest := by
  simp only [quadBytes, cons_append, nil_append, map_blocks_cons, bytes_quad_bytes]

theorem map_blocks_inverse (undoes : ∀ v0 v1, (inverse (cipher v0 v1).v0 (cipher v0 v1).v1).v0 = v0 ∧
    (inverse (cipher v0 v1).v0 (cipher v0 v1).v1).v1 = v1) (bytes : List UInt8) :
    mapBlocks inverse (mapBlocks cipher bytes) = bytes := by
  fun_induction mapBlocks cipher bytes with
  | case1 b0 b1 b2 b3 b4 b5 b6 b7 rest state ih =>
    have back := undoes (bytesQuad b0 b1 b2 b3) (bytesQuad b4 b5 b6 b7)
    rw [map_blocks_quads, back.1, back.2, ih, quad_bytes_of, quad_bytes_of]
    rfl
  | case2 short few =>
    unfold mapBlocks
    split
    · exact absurd rfl (few _ _ _ _ _ _ _ _ _)
    · rfl

end Blocks

theorem decrypt_encrypt (key : XteaSymmetricKey) (bytes : List UInt8) :
    key.decrypt (key.encrypt bytes) = bytes := by
  apply map_blocks_inverse
  intro v0 v1
  rw [decrypt_encrypt_words]
  exact ⟨rfl, rfl⟩

section Padding

variable (random : Nat → UInt8)

/-- With less than a block of room, and its end aligned, the padding fills the room. -/
theorem padding_fills (room : Nat) (buffer : List UInt8) (aligned : (buffer.length + room) % 8 = 2)
    (small : room < 8) : ∃ extra, addPadding random room buffer = buffer ++ extra ∧
      extra.length = room := by
  induction room generalizing buffer with
  | zero => exact ⟨[], by simp [addPadding], rfl⟩
  | succ room ih =>
    have open' : buffer.length % 8 ≠ 2 := by omega
    have longer : ((buffer ++ [random buffer.length]).length + room) % 8 = 2 := by
      rw [length_append, length_singleton, Nat.add_assoc, Nat.add_comm 1 room]
      exact aligned
    rcases ih (buffer ++ [random buffer.length]) longer (by omega) with ⟨extra, filled, size⟩
    exists random buffer.length :: extra
    constructor
    · rw [addPadding, if_pos open', filled, append_assoc]
      rfl
    · rw [length_cons, size]

theorem payload_padding (payload : List UInt8) : ∃ extra,
    addPadding random (getPacketSize payload.length - (payloadBuffer payload).length)
      (payloadBuffer payload) = payloadBuffer payload ++ extra ∧
    (payloadBuffer payload ++ extra).length = getPacketSize payload.length := by
  have size : (payloadBuffer payload).length = payload.length + 4 := by
    simp [payloadBuffer]
  have room : payload.length + 4 ≤ getPacketSize payload.length ∧
      getPacketSize payload.length < payload.length + 12 := by
    unfold getPacketSize
    omega
  have aligned : getPacketSize payload.length % 8 = 2 := by
    unfold getPacketSize
    omega
  rcases padding_fills random (getPacketSize payload.length - (payloadBuffer payload).length)
    (payloadBuffer payload) (by omega) (by omega) with ⟨extra, filled, length⟩
  exists extra
  constructor
  · exact filled
  · rw [length_append, length]
    omega

end Padding

def plainBody (payload extra : List UInt8) : List UInt8 :=
  wordBytes (UInt16.ofNat payload.length) ++ payload ++ extra

theorem seal_payload (key : XteaSymmetricKey) (payload extra : List UInt8) :
    sealBuffer key ((payloadBuffer payload).length - 4) (payloadBuffer payload ++ extra) =
      wordBytes (UInt16.ofNat (plainBody payload extra).length) ++
        key.encrypt (plainBody payload extra) := by
  have length : (payloadBuffer payload ++ extra).length - 2 = (plainBody payload extra).length := by
    simp [payloadBuffer, plainBody]
    omega
  have inner : (payloadBuffer payload).length - 4 = payload.length := by
    simp [payloadBuffer]
  rfl

theorem receive_sealed (key : XteaSymmetricKey) (payload extra rest : List UInt8)
    (nonempty : 0 < payload.length) (blocks : (plainBody payload extra).length % 8 = 0)
    (small : (plainBody payload extra).length ≤ inDataSize) :
    receiveCommand key (wordBytes (UInt16.ofNat (plainBody payload extra).length) ++
      key.encrypt (plainBody payload extra) ++ rest) = .command payload rest := by
  have length : (plainBody payload extra).length = payload.length + extra.length + 2 := by
    simp [plainBody]
    omega
  have bound : inDataSize = 2048 := rfl
  have size : (UInt16.ofNat (plainBody payload extra).length).toNat =
      (plainBody payload extra).length := by
    rw [UInt16.toNat_ofNat']
    omega
  have inner : (UInt16.ofNat payload.length).toNat = payload.length := by
    rw [UInt16.toNat_ofNat']
    omega
  have sealed : (key.encrypt (plainBody payload extra)).length = (plainBody payload extra).length :=
    map_blocks_length _ _
  have data : (key.encrypt (plainBody payload extra) ++ rest).take
      (plainBody payload extra).length = key.encrypt (plainBody payload extra) := by
    rw [← sealed, take_left]
  have after : (key.encrypt (plainBody payload extra) ++ rest).drop
      (plainBody payload extra).length = rest := by
    rw [← sealed, drop_left]
  have plain : key.decrypt (key.encrypt (plainBody payload extra)) =
      (UInt16.ofNat payload.length).toUInt8 :: (UInt16.ofNat payload.length >>> 8).toUInt8 ::
        (payload ++ extra) := by
    rw [decrypt_encrypt]
    rfl
  simp only [wordBytes, cons_append, nil_append, receiveCommand, bytes_word_bytes, size,
    data, after, sealed, plain, inner]
  rw [if_neg (by omega), if_neg (by omega), if_neg (by omega), if_neg (by omega), take_left]

theorem write_bytes_sound (answers : List Written) (attempts : Nat) (packet : List UInt8) :
    (writeBytes answers attempts packet).emitted <+: packet ∧
      ((writeBytes answers attempts packet).result = some true →
        (writeBytes answers attempts packet).emitted = packet) := by
  fun_induction writeBytes answers attempts packet with
  | case1 => simp
  | case2 => simp
  | case3 => simp
  | case4 count answers attempts byte more positive ih =>
    have whole : (byte :: more).take count ++ (byte :: more).drop count = byte :: more :=
      take_append_drop count (byte :: more)
    constructor
    · apply List.IsPrefix.trans ((prefix_append_right_inj _).mpr ih.1)
      rw [whole]
    · intro done
      change (byte :: more).take count ++ _ = byte :: more
      rw [ih.2 done, whole]
  | case5 _ _ _ _ ih => exact ih
  | case6 => simp
  | case7 _ _ _ _ _ ih => exact ih
  | case8 => simp

/-- Every payload that a command can carry arrives as it was sent: the padding ends on a
block at `MaxSize`, what reaches the socket is a part of one packet, all of it when
`write_to_socket` returns true, and `receive_command` reads the payload from it. -/
theorem payload_delivered (key : XteaSymmetricKey) (random : Nat → UInt8) (payload : List UInt8)
    (nonempty : 0 < payload.length) (small : payload.length ≤ 2046) :
    (∀ block : List UInt8, block.length = 8 → key.decrypt (key.encrypt block) = block) ∧
      (addPadding random (getPacketSize payload.length - (payloadBuffer payload).length)
        (payloadBuffer payload)).length % 8 = 2 ∧
      (addPadding random (getPacketSize payload.length - (payloadBuffer payload).length)
        (payloadBuffer payload)).length ≤ getPacketSize payload.length ∧
      ∃ packet, framePacket key random (payloadBuffer payload) (getPacketSize payload.length) =
          some packet ∧
        (∀ answers, (writeToSocket key random answers (payloadBuffer payload)
            (getPacketSize payload.length)).emitted <+: packet ∧
          ((writeToSocket key random answers (payloadBuffer payload)
              (getPacketSize payload.length)).result = some true →
            (writeToSocket key random answers (payloadBuffer payload)
              (getPacketSize payload.length)).emitted = packet)) ∧
        ∀ rest, receiveCommand key (packet ++ rest) = .command payload rest := by
  rcases payload_padding random payload with ⟨extra, filled, length⟩
  have size : (payloadBuffer payload).length = payload.length + 4 := by
    simp [payloadBuffer]
  have bounds : payload.length + 4 ≤ getPacketSize payload.length ∧
      getPacketSize payload.length ≤ 2050 ∧ getPacketSize payload.length % 8 = 2 := by
    unfold getPacketSize
    omega
  have body : (plainBody payload extra).length = getPacketSize payload.length - 2 := by
    rw [← length]
    simp [payloadBuffer, plainBody]
    omega
  have framed : framePacket key random (payloadBuffer payload) (getPacketSize payload.length) =
      some (wordBytes (UInt16.ofNat (plainBody payload extra).length) ++
        key.encrypt (plainBody payload extra)) := by
    simp only [framePacket]
    rw [if_pos (by omega), filled, length, if_neg (by omega), seal_payload]
  have limit : inDataSize = 2048 := rfl
  rw [filled, length]
  constructor
  · intro block _
    exact decrypt_encrypt key block
  · constructor
    · exact bounds.2.2
    · constructor
      · exact le_rfl
      · exists wordBytes (UInt16.ofNat (plainBody payload extra).length) ++
          key.encrypt (plainBody payload extra)
        constructor
        · exact framed
        · constructor
          · intro answers
            rw [writeToSocket, framed]
            exact write_bytes_sound answers 50 _
          · intro rest
            exact receive_sealed key payload extra rest nonempty (by omega) (by omega)

/-- A payload of one byte. -/
theorem payload_delivered_single : ∃ packet,
    framePacket ⟨fun _ => 0⟩ (fun _ => 0) (payloadBuffer [10]) (getPacketSize 1) = some packet ∧
      receiveCommand ⟨fun _ => 0⟩ packet = .command [10] [] := by
  rcases (payload_delivered ⟨fun _ => 0⟩ (fun _ => 0) [10] (by decide) (by decide)).2.2.2 with
    ⟨packet, framed, _, received⟩
  exists packet
  constructor
  · exact framed
  · have whole := received []
    rwa [append_nil] at whole

end TibiaGame.PacketFraming
