import TibiaGame.ObjectStreams
import TibiaGame.Library.ByteMemory
import TibiaGame.Library.ThrowingState

/-!
# Streams of bytes in memory

`TWriteBuffer` and `TDynamicWriteBuffer` write what `TReadBuffer` reads. What is thrown while
reading leaves `Position` where the operation that throws has found it.
-/

namespace TibiaGame.ByteStreams

open GameTypes DynamicStrings List
open ObjectStreams (stringBytes)
open Library.LittleEndian Library.ByteMemory Library.ThrowingState

section Reading

/-- `data` is the memory around `Data`, and `position` an `int`. -/
structure ReadBuffer where
  data : Int → UInt8
  size : Nat
  fitsInt : size < 2 ^ 31
  position : Int

abbrev Reading (Value : Type) : Type := Program Empty String ReadBuffer Value

def ReadBuffer.moved (buffer : ReadBuffer) (count : Int) : ReadBuffer :=
  { buffer with position := buffer.position + count }

def ReadBuffer.peek (buffer : ReadBuffer) (count : Nat) : List UInt8 :=
  (range count).map fun index : Nat => buffer.data (buffer.position + index)

def skip (count : Int) : Reading Unit := do
  let buffer ← get
  if buffer.size - buffer.position < count then throw "buffer empty"
  set (buffer.moved count)

/-- Each read makes sure of its bytes as `skip` does. -/
def take (count : Nat) : Reading (List UInt8) := do
  let buffer ← get
  skip count
  return buffer.peek count

def readByte : Reading UInt8 := do return (← take 1).getD 0 0

def readWord : Reading UInt16 := do
  let bytes ← take 2
  return bytesWord (bytes.getD 0 0) (bytes.getD 1 0)

def readQuad : Reading UInt32 := do
  let bytes ← take 4
  return bytesQuad (bytes.getD 0 0) (bytes.getD 1 0) (bytes.getD 2 0) (bytes.getD 3 0)

def readFlag : Reading Bool := do return (← readByte) != 0

/-- `given` says whether there is a buffer to read into. -/
def readBytes (given : Bool) (count : Int) : Reading (List UInt8) := do
  if !given || count ≤ 0 then throw "buffer not existing"
  take count.toNat

def eof : Reading Bool := do
  let buffer ← get
  return buffer.size ≤ buffer.position

def readLength : Reading Int := do
  let word ← readWord
  if word = 0xFFFF then return (← readQuad).toInt32.toInt
  return word.toNat

/-- What `read_string` does once it knows the length. -/
def readContent (given : Bool) (maxLength length : Int) : Reading (List UInt8) := do
  if 0 < length then
    if maxLength < 0 ∨ maxLength > length then return (← readBytes given length) ++ [0]
    else
      let bytes ← readBytes given (maxLength - 1)
      skip (length - maxLength + 1)
      return bytes ++ [0]
  else return [0]

/-- `read_string`; the result is what is stored in the buffer, the terminator at its end. -/
def readString (given : Bool) (maxLength : Int) : Reading (List UInt8) := do
  if !given || maxLength == 0 then throw "internal error"
  readContent given maxLength (← readLength)

inductive Operation where
  | readFlag
  | readByte
  | readWord
  | readQuad
  | readString (given : Bool) (maxLength : Int)
  | readBytes (given : Bool) (count : Int)
  | eof
  | skip (count : Int)

def Operation.run : Operation → Reading Unit
  | .readFlag => do let _ ← ByteStreams.readFlag
  | .readByte => do let _ ← ByteStreams.readByte
  | .readWord => do let _ ← ByteStreams.readWord
  | .readQuad => do let _ ← ByteStreams.readQuad
  | .readString given maxLength => do let _ ← ByteStreams.readString given maxLength
  | .readBytes given count => do let _ ← ByteStreams.readBytes given count
  | .eof => do let _ ← ByteStreams.eof
  | .skip count => ByteStreams.skip count

end Reading

section Writing

structure WriteBuffer where
  data : Nat → UInt8
  size : Int
  position : Nat

abbrev Writing := WriteBuffer → Except Halt WriteBuffer

structure Writer where
  writeByte : UInt8 → Writing
  writeWord : UInt16 → Writing
  writeQuad : UInt32 → Writing
  writeBytes : List UInt8 → Writing

/-- Each operation of the two writers makes room in their way and copies its bytes. -/
def writerOf (makeRoom : Nat → Writing) : Writer :=
  let put (bytes : List UInt8) : Writing := fun buffer =>
    (makeRoom bytes.length buffer).map fun buffer => { buffer with
      data := store buffer.data buffer.position bytes
      position := buffer.position + bytes.length }
  ⟨fun byte => put [byte], fun word => put (wordBytes word), fun quad => put (quadBytes quad), put⟩

def refuseFull (count : Nat) : Writing := fun buffer =>
  if buffer.size - buffer.position < count then .error (.exception "buffer full") else .ok buffer

def writeBuffer : Writer := writerOf refuseFull

/-- `fresh` is what the new memory of a size holds; the size is an `int`. -/
def resizeBuffer (fresh : Int → Nat → UInt8) : Writing := fun buffer =>
  if buffer.size > 0 then
    let size := (buffer.size * 2).bmod (2 ^ 32)
    .ok { buffer with
      data := fun place => if (place : Int) < buffer.size then buffer.data place else fresh size place
      size := size }
  else .error .assertion

/-- The loop before each write. After 31 turns no `int` is positive any more. -/
def resizeLoop (fresh : Int → Nat → UInt8) (count : Nat) : Nat → Writing
  | 0 => fun _ => .error .hang
  | turns + 1 => fun buffer =>
      if buffer.size - buffer.position < count then
        (resizeBuffer fresh buffer).bind (resizeLoop fresh count turns)
      else .ok buffer

def dynamicWriteBuffer (fresh : Int → Nat → UInt8) : Writer :=
  writerOf fun count => resizeLoop fresh count 32

def Writer.writeFlag (writer : Writer) (flag : Bool) : Writing :=
  writer.writeByte (if flag then 1 else 0)

def Writer.writeLength (writer : Writer) (length : Nat) : Writing := fun buffer =>
  if length < 0xFFFF then writer.writeWord (UInt16.ofNat length) buffer
  else (writer.writeWord 0xFFFF buffer).bind (writer.writeQuad (UInt32.ofNat length))

/-- `write_string`; a missing argument is the null pointer. -/
def Writer.writeString (writer : Writer) : Option (List UInt8) → Writing
  | none => writer.writeWord 0
  | some string => fun buffer =>
      let text := cString string
      (writer.writeLength text.length buffer).bind fun buffer =>
        if 0 < text.length then writer.writeBytes text buffer else .ok buffer

end Writing

section Fields

/-- `maxLength` is what the string is read with. -/
inductive Field where
  | flag (value : Bool)
  | byte (value : UInt8)
  | word (value : UInt16)
  | quad (value : UInt32)
  | bytes (values : List UInt8)
  | string (text : List UInt8) (maxLength : Int)

namespace Field

def Valid : Field → Prop
  | .bytes values => values ≠ []
  | .string text maxLength => 0 ∉ text ∧ (maxLength < 0 ∨ maxLength > text.length)
  | _ => True

def write (writer : Writer) : Field → Writing
  | .flag value => writer.writeFlag value
  | .byte value => writer.writeByte value
  | .word value => writer.writeWord value
  | .quad value => writer.writeQuad value
  | .bytes values => writer.writeBytes values
  | .string text _ => writer.writeString (some text)

/-- Reads a field of the same kind, a block with the same length. -/
def read : Field → Reading Field
  | .flag _ => do return .flag (← readFlag)
  | .byte _ => do return .byte (← readByte)
  | .word _ => do return .word (← readWord)
  | .quad _ => do return .quad (← readQuad)
  | .bytes values => do return .bytes (← readBytes true values.length)
  | .string _ maxLength => do return .string (cString (← readString true maxLength)) maxLength

def encode : Field → List UInt8
  | .flag value => [if value then 1 else 0]
  | .byte value => [value]
  | .word value => wordBytes value
  | .quad value => quadBytes value
  | .bytes values => values
  | .string text _ => stringBytes (some text)

end Field

def writeAll (writer : Writer) : List Field → Writing
  | [] => .ok
  | field :: fields => fun buffer => (field.write writer buffer).bind (writeAll writer fields)

def readAll : List Field → Reading (List Field)
  | [] => return []
  | field :: fields => do
      let value ← field.read
      return value :: (← readAll fields)

/-- A reader of what has been written gets the fields and is at its end then. -/
def ReadsBack (fields : List Field) (written : WriteBuffer) : Prop :=
  ∀ reader : ReadBuffer, reader.size = written.position → reader.position = 0 →
    (∀ place < written.position, reader.data place = written.data place) →
    finish (readAll fields) reader = .ok (.ok fields, reader.moved written.position)

end Fields

section Ahead

variable {buffer : ReadBuffer} {bytes first second : List UInt8}

/-- These bytes are the next ones of the data. -/
structure Ahead (buffer : ReadBuffer) (bytes : List UInt8) : Prop where
  begins : 0 ≤ buffer.position
  room : buffer.position + bytes.length ≤ buffer.size
  peek : buffer.peek bytes.length = bytes

@[simp] theorem moved_moved (left right : Int) :
    (buffer.moved left).moved right = buffer.moved (left + right) := by
  simp only [ReadBuffer.moved, Int.add_assoc]

theorem peek_add (left right : Nat) :
    buffer.peek (left + right) = buffer.peek left ++ (buffer.moved left).peek right := by
  simp only [ReadBuffer.peek, range_add, map_append, map_map, ReadBuffer.moved]
  congr 1
  apply map_congr_left
  intro index _
  rw [Function.comp_apply, Int.add_assoc, Nat.cast_add]

theorem peek_length (count : Nat) : (buffer.peek count).length = count := by
  rw [ReadBuffer.peek, length_map, length_range]

theorem Ahead.split (ahead : Ahead buffer (first ++ second)) :
    Ahead buffer first ∧ Ahead (buffer.moved first.length) second := by
  have begins := ahead.begins
  have room := ahead.room
  have peek := ahead.peek
  rw [length_append] at room peek
  rw [peek_add] at peek
  have same := append_inj peek (peek_length _)
  constructor
  · exact ⟨begins, by omega, same.1⟩
  refine ⟨?_, ?_, same.2⟩
  · change 0 ≤ buffer.position + first.length
    omega
  · change buffer.position + first.length + second.length ≤ buffer.size
    omega

theorem finish_then {Value Final : Type} {program : Reading Value} {next : Value → Reading Final}
    {value : Value} {start after : ReadBuffer}
    (reads : finish program start = .ok (.ok value, after)) :
    finish (program >>= next) start = finish (next value) after := by
  rw [finish_bind, reads]

theorem skip_room {count : Int} (room : ¬ buffer.size - buffer.position < count) :
    finish (skip count) buffer = .ok (.ok (), buffer.moved count) := by
  change finish (if buffer.size - buffer.position < count then
    throw "buffer empty" >>= fun _ => _ else _) buffer = _
  rw [if_neg room]
  rfl

theorem skip_ahead (ahead : Ahead buffer bytes) :
    finish (skip bytes.length) buffer = .ok (.ok (), buffer.moved bytes.length) := by
  have room := ahead.room
  exact skip_room (by omega)

theorem take_ahead {count : Nat} (ahead : Ahead buffer bytes) (all : bytes.length = count) :
    finish (take count) buffer = .ok (.ok bytes, buffer.moved count) := by
  rw [← all]
  change finish (skip bytes.length >>= fun _ => pure (buffer.peek bytes.length)) buffer = _
  rw [finish_then (skip_ahead ahead), ahead.peek]
  rfl

theorem byte_ahead {value : UInt8} (ahead : Ahead buffer [value]) :
    finish readByte buffer = .ok (.ok value, buffer.moved 1) := by
  have reads : finish (take 1) buffer = .ok (.ok [value], buffer.moved 1) := take_ahead ahead rfl
  rw [readByte, finish_then reads]
  rfl

theorem word_ahead {value : UInt16} (ahead : Ahead buffer (wordBytes value)) :
    finish readWord buffer = .ok (.ok value, buffer.moved 2) := by
  have reads : finish (take 2) buffer = .ok (.ok (wordBytes value), buffer.moved 2) :=
    take_ahead ahead rfl
  rw [readWord, finish_then reads]
  change Except.ok (Except.ok (bytesWord value.toUInt8 (value >>> 8).toUInt8), _) = _
  rw [bytes_word_bytes]

theorem quad_ahead {value : UInt32} (ahead : Ahead buffer (quadBytes value)) :
    finish readQuad buffer = .ok (.ok value, buffer.moved 4) := by
  have reads : finish (take 4) buffer = .ok (.ok (quadBytes value), buffer.moved 4) :=
    take_ahead ahead rfl
  rw [readQuad, finish_then reads]
  change Except.ok (Except.ok (bytesQuad value.toUInt8 (value >>> 8).toUInt8
    (value >>> 16).toUInt8 (value >>> 24).toUInt8), _) = _
  rw [bytes_quad_bytes]

theorem flag_ahead {value : Bool} (ahead : Ahead buffer [if value then 1 else 0]) :
    finish readFlag buffer = .ok (.ok value, buffer.moved 1) := by
  rw [readFlag, finish_then (byte_ahead ahead)]
  cases value with
  | false => rfl
  | true => rfl

theorem bytes_ahead (some : bytes ≠ []) (ahead : Ahead buffer bytes) :
    finish (readBytes true bytes.length) buffer = .ok (.ok bytes, buffer.moved bytes.length) := by
  have positive : ¬ (bytes.length : Int) ≤ 0 := by
    have := length_pos_iff.mpr some
    omega
  rw [readBytes, decide_eq_false positive]
  exact take_ahead ahead rfl

/-- The length in front of a string. -/
def lengthBytes (length : Nat) : List UInt8 :=
  if length < 0xFFFF then wordBytes (UInt16.ofNat length)
  else wordBytes 0xFFFF ++ quadBytes (UInt32.ofNat length)

theorem length_ahead {length : Nat} (small : length < 2 ^ 31)
    (ahead : Ahead buffer (lengthBytes length)) :
    finish readLength buffer = .ok (.ok length, buffer.moved (lengthBytes length).length) := by
  rw [lengthBytes] at ahead ⊢
  split_ifs at ahead ⊢ with short
  · have value : (UInt16.ofNat length).toNat = length := by
      rw [UInt16.toNat_ofNat']
      omega
    have plain : ¬ UInt16.ofNat length = 0xFFFF := by
      intro same
      rw [same] at value
      change 0xFFFF = length at value
      omega
    rw [readLength, finish_then (word_ahead ahead), if_neg plain, value]
    rfl
  have value : (UInt32.ofNat length).toInt32.toInt = length := by
    rw [UInt32.toInt32_ofNat', Int32.toInt_ofNat_of_lt small]
  have quad : finish readQuad (buffer.moved 2) =
      .ok (.ok (UInt32.ofNat length), (buffer.moved 2).moved 4) := quad_ahead ahead.split.2
  rw [readLength, finish_then (word_ahead ahead.split.1), if_pos rfl, finish_then quad, value,
    moved_moved]
  rfl

section Strings

variable {text : List UInt8} {maxLength : Int}

theorem string_bytes (text : List UInt8) :
    stringBytes (some text) = lengthBytes text.length ++ text := rfl

/-- A string that the data hold is short enough for an `int`. -/
theorem text_length_lt (ahead : Ahead buffer (stringBytes (some text))) : text.length < 2 ^ 31 := by
  have begins := ahead.begins
  have room := ahead.room
  have small := buffer.fitsInt
  rw [string_bytes, length_append] at room
  omega

theorem read_string_content (some_length : maxLength ≠ 0)
    (ahead : Ahead buffer (stringBytes (some text))) :
    finish (readString true maxLength) buffer =
      finish (readContent true maxLength text.length)
        (buffer.moved (lengthBytes text.length).length) := by
  have noText : ¬ ((!true || maxLength == 0) = true) := by simpa using some_length
  rw [readString, if_neg noText]
  exact finish_then (length_ahead (text_length_lt ahead) ahead.split.1)

theorem content_whole (some_text : text ≠ []) (large : maxLength < 0 ∨ maxLength > text.length)
    (ahead : Ahead buffer text) :
    finish (readContent true maxLength text.length) buffer =
      .ok (.ok (text ++ [0]), buffer.moved text.length) := by
  have positive : 0 < (text.length : Int) := by
    have := length_pos_iff.mpr some_text
    omega
  rw [readContent, if_pos positive, if_pos large, finish_then (bytes_ahead some_text ahead)]
  rfl

/-- The string is cut behind `maxLength - 1` bytes, and the rest of it skipped. -/
theorem content_cut {count : Nat} (some_count : 0 < count) (less : count < text.length)
    (ahead : Ahead buffer text) :
    finish (readContent true (count + 1 : Nat) text.length) buffer =
      .ok (.ok (text.take count ++ [0]), buffer.moved text.length) := by
  have positive : 0 < (text.length : Int) := by omega
  have small : ¬ (((count + 1 : Nat) : Int) < 0 ∨ ((count + 1 : Nat) : Int) > text.length) := by
    omega
  have taken : (text.take count).length = count := length_take_of_le (Nat.le_of_lt less)
  have some_bytes : text.take count ≠ [] := by
    intro none
    rw [none] at taken
    exact absurd taken (Nat.ne_of_lt some_count)
  have halves : Ahead buffer (text.take count ++ text.drop count) := by
    rw [take_append_drop]
    exact ahead
  have head := bytes_ahead some_bytes halves.split.1
  have rest := skip_ahead halves.split.2
  rw [taken] at head rest
  rw [length_drop] at rest
  have before : ((count + 1 : Nat) : Int) - 1 = count := by omega
  have behind : (text.length : Int) - (count + 1 : Nat) + 1 = (text.length - count : Nat) := by
    omega
  have all : (count : Int) + (text.length - count : Nat) = text.length := by omega
  rw [readContent, if_pos positive, if_neg small, before, behind, finish_then head,
    finish_then rest, moved_moved, all]
  rfl

/-- For a buffer of one byte there is no byte to read, which `readBytes` refuses. -/
theorem content_one (some_text : text ≠ []) (start : ReadBuffer) :
    finish (readContent true 1 text.length) start =
      .ok (.error "buffer not existing", start) := by
  have some_length := length_pos_iff.mpr some_text
  have positive : 0 < (text.length : Int) := by omega
  have small : ¬ ((1 : Int) < 0 ∨ (1 : Int) > text.length) := by omega
  rw [readContent, if_pos positive, if_neg small]
  rfl

end Strings

end Ahead

/-- `read_string` stores as much of a string as there is room for, and passes all of it. -/
def StaysInStep (buffer : ReadBuffer) (text : List UInt8) (maxLength : Int) : Prop :=
  finish (readString true maxLength) buffer =
    .ok (.ok (text.take (min text.length (maxLength - 1).toNat) ++ [0]),
      buffer.moved (stringBytes (some text)).length)

section InStep

variable {buffer : ReadBuffer} {text more : List UInt8} {maxLength : Int}

theorem one_out_of_step (some_text : text ≠ [])
    (ahead : Ahead buffer (stringBytes (some text))) : ¬ StaysInStep buffer text 1 := by
  rw [StaysInStep, read_string_content (by decide) ahead, content_one some_text]
  nofun

theorem larger_in_step (larger : 1 ≤ maxLength) (notOne : maxLength ≠ 1 ∨ text = [])
    (ahead : Ahead buffer (stringBytes (some text))) : StaysInStep buffer text maxLength := by
  have content : Ahead (buffer.moved (lengthBytes text.length).length) text := ahead.split.2
  rcases Int.eq_ofNat_of_zero_le (show 0 ≤ maxLength - 1 by omega) with ⟨count, less⟩
  have same : maxLength = (count + 1 : Nat) := by omega
  rw [StaysInStep, read_string_content (by omega) ahead, string_bytes, length_append,
    Nat.cast_add, ← moved_moved, less, Int.toNat_natCast]
  by_cases none : text = []
  · rw [none, take_nil]
    simp only [ReadBuffer.moved, length_nil, Nat.cast_zero, Int.add_zero]
    rfl
  by_cases whole : text.length ≤ count
  · rw [content_whole none (by omega) content, min_eq_left whole, take_length]
  rw [same, content_cut (by simp only [none, or_false] at notOne; omega) (by omega) content,
    min_eq_right (by omega)]

end InStep

theorem string_in_step_iff (buffer : ReadBuffer) (text more : List UInt8) (maxLength : Int)
    (ahead : Ahead buffer (stringBytes (some text) ++ more)) (positive : 1 ≤ maxLength) :
    StaysInStep buffer text maxLength ↔ maxLength ≠ 1 ∨ text = [] := by
  constructor
  · intro inStep
    by_contra bad
    rw [not_or, not_ne_iff] at bad
    rw [bad.1] at inStep
    exact one_out_of_step bad.2 ahead.split.1 inStep
  · intro good
    exact larger_in_step positive good ahead.split.1

/-- A string of one letter with a byte behind it. -/
def oneLetter : ReadBuffer := ⟨fun place => [1, 0, 65, 7].getD place.toNat 0, 4, by decide, 0⟩

theorem one_letter_ahead : Ahead oneLetter (stringBytes (some [65]) ++ [7]) :=
  ⟨by decide, by decide, by decide⟩

theorem one_letter_in_step : StaysInStep oneLetter [65] 2 ↔ (2 : Int) ≠ 1 ∨ [(65 : UInt8)] = [] :=
  string_in_step_iff oneLetter [65] [7] 2 one_letter_ahead (by decide)

theorem one_letter_out_of_step : ¬ ∀ (buffer : ReadBuffer) (text more : List UInt8) (maxLength : Int),
    Ahead buffer (stringBytes (some text) ++ more) → 1 ≤ maxLength →
      StaysInStep buffer text maxLength := by
  intro always
  exact one_out_of_step (cons_ne_nil _ _) one_letter_ahead.split.1
    (always oneLetter [65] [7] 1 one_letter_ahead (by decide))

section Positions

variable {Value Final : Type} {program : Reading Value} {next : Value → Reading Final}
  {buffer before middle after : ReadBuffer}

def Within (buffer : ReadBuffer) : Prop := 0 ≤ buffer.position ∧ buffer.position ≤ buffer.size

def Advanced (before after : ReadBuffer) : Prop :=
  after.size = before.size ∧ before.position ≤ after.position ∧ after.position ≤ before.size

theorem Advanced.trans (early : Advanced before middle) (late : Advanced middle after) :
    Advanced before after := by
  rcases late with ⟨size, least, most⟩
  rw [early.1] at size most
  exact ⟨size, Int.le_trans early.2.1 least, most⟩

theorem Advanced.within (advanced : Advanced before after) (within : Within before) : Within after := by
  rcases advanced with ⟨size, least, most⟩
  constructor
  · exact Int.le_trans within.1 least
  · rw [size]
    exact most

def Forward (program : Reading Value) : Prop :=
  ∀ start, Within start →
    Meets program start (fun _ => Advanced start) (fun _ => Advanced start) fun _ => False

theorem advanced_self (within : Within buffer) : Advanced buffer buffer := ⟨rfl, Int.le_refl _, within.2⟩

theorem forward_pure (value : Value) : Forward (pure value) := fun _ within => advanced_self within

theorem Forward.bind (first : Forward program) (rest : ∀ value, Forward (next value)) :
    Forward (program >>= next) := by
  intro start within
  apply meets_bind (first start within)
  intro value middle advanced
  exact (rest value middle (advanced.within within)).imp (fun _ _ => advanced.trans)
    (fun _ _ => advanced.trans) fun _ halted => halted

theorem forward_skip {count : Int} (ahead : 0 ≤ count) : Forward (skip count) := by
  intro start within
  apply meets_get
  split_ifs with less
  · exact advanced_self within
  refine ⟨rfl, ?_, ?_⟩
  · change start.position ≤ start.position + count
    omega
  · change start.position + count ≤ start.size
    omega

theorem forward_take (count : Nat) : Forward (take count) := by
  intro start within
  apply meets_get
  exact (forward_skip (Int.natCast_nonneg count)).bind (fun _ => forward_pure _) start within

theorem forward_read_bytes (given : Bool) (count : Int) : Forward (readBytes given count) := by
  unfold readBytes
  split_ifs
  · intro start within
    exact advanced_self within
  · exact forward_take count.toNat

theorem forward_read_byte : Forward readByte := (forward_take 1).bind fun _ => forward_pure _

theorem forward_read_quad : Forward readQuad := (forward_take 4).bind fun _ => forward_pure _

theorem forward_read_word : Forward readWord := (forward_take 2).bind fun _ => forward_pure _

theorem forward_read_length : Forward readLength := by
  apply forward_read_word.bind
  intro word
  split_ifs
  · exact forward_read_quad.bind fun _ => forward_pure _
  · exact forward_pure _

/-- A negative length is that of no bytes; what is skipped has at least one. -/
theorem forward_read_content (given : Bool) (maxLength length : Int) :
    Forward (readContent given maxLength length) := by
  unfold readContent
  split_ifs with positive whole
  · exact (forward_read_bytes given length).bind fun _ => forward_pure _
  · apply (forward_read_bytes given (maxLength - 1)).bind
    intro bytes
    exact (forward_skip (by omega)).bind fun _ => forward_pure _
  · exact forward_pure _

theorem forward_read_string (given : Bool) (maxLength : Int) : Forward (readString given maxLength) := by
  unfold readString
  split_ifs
  · intro start within
    exact advanced_self within
  · exact forward_read_length.bind fun length => forward_read_content given maxLength length

def Operation.goesBack : Operation → Prop
  | .skip count => count < 0
  | _ => False

theorem forward_run {operation : Operation} (ahead : ¬ operation.goesBack) :
    Forward operation.run := by
  cases operation with
  | readFlag =>
    exact (forward_read_byte.bind fun _ => forward_pure _).bind fun _ => forward_pure ()
  | readByte => exact forward_read_byte.bind fun _ => forward_pure ()
  | readWord => exact forward_read_word.bind fun _ => forward_pure ()
  | readQuad => exact forward_read_quad.bind fun _ => forward_pure ()
  | readString given maxLength =>
    exact (forward_read_string given maxLength).bind fun _ => forward_pure ()
  | readBytes given count =>
    exact (forward_read_bytes given count).bind fun _ => forward_pure ()
  | eof => exact fun _ within => advanced_self within
  | skip count => exact forward_skip (Int.not_lt.mp ahead)

/-- The operation moves `Position` ahead in the data, or throws with `Position` in them. -/
def Operation.StaysInside (operation : Operation) (buffer : ReadBuffer) : Prop :=
  Meets operation.run buffer
    (fun _ after => buffer.position ≤ after.position ∧ after.position ≤ buffer.size)
    (fun _ after => 0 ≤ after.position ∧ after.position ≤ buffer.size) fun _ => False

theorem stays_inside_iff (operation : Operation) (within : Within buffer) :
    operation.StaysInside buffer ↔ ¬ operation.goesBack := by
  constructor
  · intro inside back
    cases operation with
    | skip count =>
      have negative : count < 0 := back
      have ends := within.2
      have passes := skip_room (show ¬ buffer.size - buffer.position < count by omega)
      unfold Operation.StaysInside Meets at inside
      rw [Operation.run, passes] at inside
      change buffer.position ≤ buffer.position + count ∧ _ at inside
      omega
    | _ => exact back.elim
  intro ahead
  apply (forward_run ahead buffer within).imp
  · intro _ after advanced
    exact advanced.2
  · intro _ after advanced
    exact ⟨Int.le_trans within.1 advanced.2.1, advanced.2.2⟩
  · intro _ halted
    exact halted

end Positions

section Appending

variable {Room : Int → Nat → Prop} {total : Nat} {first second : Writing}
  {more new : List UInt8} {makeRoom : Nat → Writing}

/-- These bytes have been written so far. -/
structure Holds (written : WriteBuffer) (bytes : List UInt8) : Prop where
  position : written.position = bytes.length
  within : (bytes.length : Int) ≤ written.size
  content : load written.data 0 bytes.length = bytes

/-- A writer with room for all of `total` bytes appends these. -/
def Appends (Room : Int → Nat → Prop) (total : Nat) (step : Writing) (new : List UInt8) : Prop :=
  ∀ written bytes, Holds written bytes → Room written.size total →
    bytes.length + new.length ≤ total →
    ∃ after, step written = .ok after ∧ Holds after (bytes ++ new) ∧ Room after.size total

theorem Appends.then (left : Appends Room total first new) (right : Appends Room total second more) :
    Appends Room total (fun written => (first written).bind second) (new ++ more) := by
  intro written bytes holds room fits
  rw [length_append] at fits
  rcases left written bytes holds room (by omega) with ⟨middle, returned, holdsNow, roomNow⟩
  rcases right middle _ holdsNow roomNow (by rw [length_append]; omega) with
    ⟨after, ended, holdsLast, roomLast⟩
  rw [append_assoc] at holdsLast
  refine ⟨after, ?_, holdsLast, roomLast⟩
  change (first written).bind second = _
  rw [returned]
  exact ended

theorem appends_nothing : Appends Room total .ok [] := by
  intro written bytes holds room _
  refine ⟨written, rfl, ?_, room⟩
  rw [append_nil]
  exact holds

/-- Room is made without a change of what has been written. -/
def MakesRoom (Room : Int → Nat → Prop) (total : Nat) (makeRoom : Nat → Writing) : Prop :=
  ∀ count written bytes, Holds written bytes → Room written.size total →
    bytes.length + count ≤ total →
    ∃ after, makeRoom count written = .ok after ∧ Holds after bytes ∧
      (bytes.length : Int) + count ≤ after.size ∧ Room after.size total

theorem MakesRoom.appends (makes : MakesRoom Room total makeRoom) (new : List UInt8) :
    Appends Room total ((writerOf makeRoom).writeBytes new) new := by
  intro written bytes holds room fits
  rcases makes new.length written bytes holds room fits with
    ⟨ready, returned, holdsNow, enough, roomNow⟩
  have appended : load (store ready.data (0 + bytes.length) new) 0 (bytes.length + new.length) =
      load ready.data 0 bytes.length ++ new := load_store_append
  rw [Nat.zero_add, holdsNow.content] at appended
  refine ⟨{ ready with
    data := store ready.data ready.position new
    position := ready.position + new.length }, ?_, ⟨?_, ?_, ?_⟩, roomNow⟩
  · simp only [writerOf, returned, Except.map]
  · rw [length_append, ← holdsNow.position]
  · rw [length_append]
    exact enough
  · rw [length_append, holdsNow.position]
    exact appended

theorem c_string_append {text : List UInt8} (clean : 0 ∉ text) (rest : List UInt8) :
    cString (text ++ rest) = text ++ cString rest := by
  apply takeWhile_append_of_pos
  intro byte member
  apply decide_eq_true
  intro zero
  rw [zero] at member
  exact clean member

theorem MakesRoom.length (makes : MakesRoom Room total makeRoom) (length : Nat) :
    Appends Room total ((writerOf makeRoom).writeLength length) (lengthBytes length) := by
  unfold Writer.writeLength lengthBytes
  split_ifs
  · exact makes.appends _
  · exact (makes.appends (wordBytes 0xFFFF)).then (makes.appends (quadBytes _))

theorem MakesRoom.string (makes : MakesRoom Room total makeRoom) {text : List UInt8}
    (clean : 0 ∉ text) :
    Appends Room total ((writerOf makeRoom).writeString (some text)) (stringBytes (some text)) := by
  have content : Appends Room total (fun written =>
      if 0 < text.length then (writerOf makeRoom).writeBytes text written else .ok written) text := by
    split_ifs with some_text
    · exact makes.appends text
    · rw [length_pos_iff, not_not] at some_text
      rw [some_text]
      exact appends_nothing
  have same : cString text = text := by
    have whole := c_string_append clean []
    have nothing : cString [] = [] := rfl
    rwa [append_nil, nothing, append_nil] at whole
  unfold Writer.writeString
  simp only [same]
  exact (makes.length text.length).then content

theorem MakesRoom.field (makes : MakesRoom Room total makeRoom) {field : Field} (valid : field.Valid) :
    Appends Room total (field.write (writerOf makeRoom)) field.encode := by
  cases field with
  | flag _ | byte _ | word _ | quad _ | bytes _ => exact makes.appends _
  | string text maxLength => exact makes.string valid.1

theorem MakesRoom.fields (makes : MakesRoom Room total makeRoom) {fields : List Field}
    (valid : ∀ field ∈ fields, field.Valid) :
    Appends Room total (writeAll (writerOf makeRoom) fields) (fields.flatMap Field.encode) := by
  induction fields with
  | nil => exact appends_nothing
  | cons field fields ih =>
    exact (makes.field (valid field mem_cons_self)).then
      (ih fun other member => valid other (mem_cons_of_mem field member))

theorem full_makes_room (total : Nat) :
    MakesRoom (fun size total => (total : Int) ≤ size) total refuseFull := by
  intro count written bytes holds room fits
  have position := holds.position
  refine ⟨written, if_neg ?_, holds, ?_, room⟩
  · omega
  · omega

variable (fresh : Int → Nat → UInt8) {written : WriteBuffer} {bytes : List UInt8} {count : Nat}

theorem resize_holds (holds : Holds written bytes) (positive : 0 < written.size)
    (small : written.size < 2 ^ 30) :
    ∃ after, resizeBuffer fresh written = .ok after ∧ Holds after bytes ∧
      after.size = written.size * 2 := by
  have doubled : (written.size * 2).bmod (2 ^ 32) = written.size * 2 :=
    Int.bmod_eq_of_le (by omega) (by omega)
  refine ⟨_, if_pos positive, ⟨holds.position, ?_, ?_⟩, doubled⟩
  · have within := holds.within
    rw [doubled]
    change (bytes.length : Int) ≤ written.size * 2
    omega
  have within := holds.within
  have kept : load (fun place => if (place : Int) < written.size then written.data place
      else fresh ((written.size * 2).bmod (2 ^ 32)) place) 0 bytes.length =
      load written.data 0 bytes.length := by
    apply load_congr
    intro index inside
    exact if_pos (by omega)
  exact kept.trans holds.content

/-- The size is doubled until there is room; it stays a number that can be doubled. -/
theorem loop_holds (turns : Nat) (holds : Holds written bytes) (positive : 0 < written.size)
    (enough : (bytes.length : Int) + count ≤ written.size * 2 ^ turns)
    (small : bytes.length + count < 2 ^ 30) :
    ∃ after, resizeLoop fresh count (turns + 1) written = .ok after ∧ Holds after bytes ∧
      (bytes.length : Int) + count ≤ after.size ∧ 0 < after.size := by
  have position := holds.position
  induction turns generalizing written with
  | zero =>
    rw [Int.pow_zero, Int.mul_one] at enough
    exact ⟨written, if_neg (by omega), holds, enough, positive⟩
  | succ turns ih =>
    by_cases room : written.size - written.position < count
    · rcases resize_holds fresh holds positive (by omega) with ⟨larger, returned, holdsNow, doubled⟩
      rw [Int.pow_succ', ← Int.mul_assoc, ← doubled] at enough
      rcases ih holdsNow (by omega) enough holdsNow.position with ⟨after, ended, facts⟩
      refine ⟨after, (if_pos room).trans ?_, facts⟩
      rw [returned]
      exact ended
    · exact ⟨written, if_neg room, holds, by omega, positive⟩

theorem loop_makes_room (total : Nat) :
    MakesRoom (fun size total => 0 < size ∧ total < 2 ^ 30) total
      fun count => resizeLoop fresh count 32 := by
  intro count written bytes holds room fits
  have enough : (bytes.length : Int) + count ≤ written.size * 2 ^ 31 := by omega
  rcases loop_holds fresh 31 holds room.1 enough (by omega) with ⟨after, returned, holdsNow, most, positive⟩
  exact ⟨after, returned, holdsNow, most, positive, room.2⟩

end Appending

section RoundTrip

variable {reader : ReadBuffer} {field : Field} {fields : List Field}

theorem string_ahead {text : List UInt8} {maxLength : Int} (clean : 0 ∉ text)
    (large : maxLength < 0 ∨ maxLength > text.length)
    (ahead : Ahead reader (stringBytes (some text))) :
    ∃ stored, cString stored = text ∧ finish (readString true maxLength) reader =
      .ok (.ok stored, reader.moved (stringBytes (some text)).length) := by
  have content : Ahead (reader.moved (lengthBytes text.length).length) text := ahead.split.2
  rw [read_string_content (by omega) ahead, string_bytes, length_append, Nat.cast_add,
    ← moved_moved]
  by_cases none : text = []
  · refine ⟨[0], ?_, ?_⟩
    · rw [none]
      rfl
    · rw [none]
      simp only [ReadBuffer.moved, length_nil, Nat.cast_zero, Int.add_zero]
      rfl
  refine ⟨text ++ [0], ?_, content_whole none large content⟩
  rw [c_string_append clean]
  exact append_nil text

theorem field_ahead (valid : field.Valid) (ahead : Ahead reader field.encode) :
    finish field.read reader = .ok (.ok field, reader.moved field.encode.length) := by
  cases field with
  | flag value => exact finish_then (flag_ahead ahead)
  | byte value => exact finish_then (byte_ahead ahead)
  | word value => exact finish_then (word_ahead ahead)
  | quad value => exact finish_then (quad_ahead ahead)
  | bytes values => exact finish_then (bytes_ahead valid ahead)
  | string text maxLength =>
    rcases string_ahead valid.1 valid.2 ahead with ⟨stored, same, reads⟩
    rw [Field.read, finish_then reads, same]
    rfl

theorem fields_ahead (valid : ∀ field ∈ fields, field.Valid)
    (ahead : Ahead reader (fields.flatMap Field.encode)) :
    finish (readAll fields) reader =
      .ok (.ok fields, reader.moved (fields.flatMap Field.encode).length) := by
  induction fields generalizing reader with
  | nil =>
    rw [flatMap_nil, length_nil, ReadBuffer.moved, Nat.cast_zero, Int.add_zero]
    rfl
  | cons field fields ih =>
    rw [flatMap_cons] at ahead ⊢
    have others := ih (fun other member => valid other (mem_cons_of_mem field member)) ahead.split.2
    rw [readAll, finish_then (field_ahead (valid field mem_cons_self) ahead.split.1),
      finish_then others, moved_moved, length_append, Nat.cast_add]
    rfl

/-- What a writer has appended to nothing is read back. -/
theorem appended_reads_back {Room : Int → Nat → Prop} {makeRoom : Nat → Writing}
    (makes : MakesRoom Room (fields.flatMap Field.encode).length makeRoom)
    (valid : ∀ field ∈ fields, field.Valid) (data : Nat → UInt8) {size : Int} (some : 0 ≤ size)
    (room : Room size (fields.flatMap Field.encode).length) :
    ∃ written, writeAll (writerOf makeRoom) fields ⟨data, size, 0⟩ = .ok written ∧
      ReadsBack fields written := by
  rcases makes.fields valid ⟨data, size, 0⟩ [] ⟨rfl, some, rfl⟩ room (by rw [length_nil]; omega) with
    ⟨written, returned, holds, _⟩
  rw [nil_append] at holds
  refine ⟨written, returned, ?_⟩
  intro reader ends begins same
  have position := holds.position
  rw [position]
  apply fields_ahead valid
  refine ⟨by omega, by omega, ?_⟩
  have peeks : reader.peek written.position = load written.data 0 written.position := by
    apply map_congr_left
    intro place member
    rw [begins, Int.zero_add, Nat.zero_add]
    exact same place (mem_range.mp member)
  rw [← position, peeks, position]
  exact holds.content

end RoundTrip

/-- What either writer has written is read back, and no operation of a reader leaves the data but
a `skip` that goes back. -/
theorem streams_round_trip_iff (fields : List Field) (valid : ∀ field ∈ fields, field.Valid)
    (small : (fields.flatMap Field.encode).length < 2 ^ 30) :
    (∀ data size, ((fields.flatMap Field.encode).length : Int) ≤ size →
      ∃ written, writeAll writeBuffer fields ⟨data, size, 0⟩ = .ok written ∧
        ReadsBack fields written) ∧
    (∀ fresh data size, 0 < size →
      ∃ written, writeAll (dynamicWriteBuffer fresh) fields ⟨data, size, 0⟩ = .ok written ∧
        ReadsBack fields written) ∧
    ∀ (operation : Operation) (buffer : ReadBuffer), Within buffer →
      (operation.StaysInside buffer ↔ ¬ operation.goesBack) := by
  refine ⟨?_, ?_, ?_⟩
  · intro data size room
    exact appended_reads_back (full_makes_room _) valid data (by omega) room
  · intro fresh data size some
    exact appended_reads_back (loop_makes_room fresh _) valid data (Int.le_of_lt some) ⟨some, small⟩
  · intro operation buffer within
    exact stays_inside_iff operation within

theorem letter_round_trip : ∃ written,
    writeAll (dynamicWriteBuffer fun _ _ => 0) [.string [65] 2] ⟨fun _ => 0, 1, 0⟩ = .ok written ∧
      ReadsBack [.string [65] 2] written := by
  have valid : ∀ field ∈ [Field.string [65] 2], field.Valid := by
    intro field member
    rw [mem_singleton.mp member]
    exact ⟨by decide, .inr (by decide)⟩
  exact (streams_round_trip_iff [.string [65] 2] valid (by decide)).2.1 _ _ 1 (by decide)

theorem skip_leaves_data : ¬ ∀ (operation : Operation) (buffer : ReadBuffer), Within buffer →
    operation.StaysInside buffer := by
  intro always
  have within : Within oneLetter := ⟨by decide, by decide⟩
  have back : (Operation.skip (-1)).goesBack := by
    change (-1 : Int) < 0
    decide
  exact (stays_inside_iff (.skip (-1)) within).mp (always _ oneLetter within) back

end TibiaGame.ByteStreams
