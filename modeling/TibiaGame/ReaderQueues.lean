import TibiaGame.Library.CircularWindow
import Mathlib.Tactic

/-!
# The queues of the reader thread

`insert_order`, `get_order`, `insert_reply` and `get_reply` of `reader.cpp`. The orders
go through two semaphores; the replies go through two counters and a test that
`insert_reply` makes before it waits. Every test, every write of a field of a reply and
every change of a counter is a step of its own thread.
-/

namespace TibiaGame.ReaderQueues

open Library.CircularWindow List

inductive ReaderThreadOrderType where
  | terminate
  | loadSector
  | loadCharacter
deriving DecidableEq

structure ReaderThreadOrder where
  orderType : ReaderThreadOrderType
  sectorX : Int32
  sectorY : Int32
  sectorZ : Int32
  characterID : UInt32

inductive ReaderThreadReplyType where
  | sectorData
  | characterData
deriving DecidableEq

/-- `data` is the address of the sector data. -/
structure ReaderThreadReply where
  replyType : ReaderThreadReplyType
  sectorX : Int32
  sectorY : Int32
  sectorZ : Int32
  data : UInt64
  size : Int32
deriving DecidableEq

inductive ReplyField where
  | replyType
  | sectorX
  | sectorY
  | sectorZ
  | data
  | size
deriving DecidableEq

/-- The fields in the order of their assignments in `insert_reply`. -/
def replyFields : List ReplyField := [.replyType, .sectorX, .sectorY, .sectorZ, .data, .size]

def setField (field : ReplyField) (source target : ReaderThreadReply) : ReaderThreadReply :=
  match field with
  | .replyType => { target with replyType := source.replyType }
  | .sectorX => { target with sectorX := source.sectorX }
  | .sectorY => { target with sectorY := source.sectorY }
  | .sectorZ => { target with sectorZ := source.sectorZ }
  | .data => { target with data := source.data }
  | .size => { target with size := source.size }

/-- `NARRAY(OrderBuffer)` and `NARRAY(ReplyBuffer)`. -/
def bufferSize : Nat := 200

/-- `Pointer % NARRAY(Buffer)`. -/
def bufferPos (pointer : Int32) : Int := pointer.toInt.tmod bufferSize

inductive GameThread where
  | idle
  | insertingOrder (order : ReaderThreadOrder)
  | writingOrder (order : ReaderThreadOrder)
  | postingOrder
  | copyingReply (reply : ReaderThreadReply) (rest : List ReplyField)

inductive ReaderThread where
  | idle
  | takingOrder
  | tookOrder (order : ReaderThreadOrder)
  | processing (order : ReaderThreadOrder)
  | insertingReply (reply : ReaderThreadReply)
  | waiting (reply : ReaderThreadReply)
  | writingReply (reply : ReaderThreadReply) (rest : List ReplyField)
  | ended

/-- Both queues and both threads, with what has gone through the queues so far. -/
structure Queues where
  orderBuffer : Int → ReaderThreadOrder
  orderPointerWrite : Int32
  orderPointerRead : Int32
  orderBufferEmpty : Nat
  orderBufferFull : Nat
  replyBuffer : Int → ReaderThreadReply
  replyPointerWrite : Int32
  replyPointerRead : Int32
  game : GameThread
  reader : ReaderThread
  ordered : List ReaderThreadOrder
  taken : List ReaderThreadOrder
  inserted : List ReaderThreadReply
  returned : List ReaderThreadReply

inductive GameCall where
  | insertOrder (order : ReaderThreadOrder)
  | getReply

def emptyReply : ReaderThreadReply := ⟨.sectorData, 0, 0, 0, 0, 0⟩

/-- The next step of the game thread; `call` is what it calls when idle. -/
def gameStep (call : GameCall) (queues : Queues) : Queues :=
  match queues.game with
  | .idle =>
      match call with
      | .insertOrder order => { queues with game := .insertingOrder order }
      | .getReply =>
          if queues.replyPointerRead < queues.replyPointerWrite then
            { queues with game := .copyingReply emptyReply replyFields }
          else queues
  | .insertingOrder order =>
      if queues.orderBufferEmpty = 0 then queues
      else
        { queues with
          orderBufferEmpty := queues.orderBufferEmpty - 1
          game := .writingOrder order }
  | .writingOrder order =>
      { queues with
        orderBuffer := Function.update queues.orderBuffer (bufferPos queues.orderPointerWrite) order
        orderPointerWrite := queues.orderPointerWrite + 1
        game := .postingOrder
        ordered := queues.ordered ++ [order] }
  | .postingOrder =>
      { queues with orderBufferFull := queues.orderBufferFull + 1, game := .idle }
  | .copyingReply reply (field :: rest) =>
      { queues with
        game := .copyingReply
          (setField field (queues.replyBuffer (bufferPos queues.replyPointerRead)) reply) rest }
  | .copyingReply reply [] =>
      { queues with
        replyPointerRead := queues.replyPointerRead + 1
        game := .idle
        returned := queues.returned ++ [reply] }

/-- What an order is answered with: `answer` is the sector data with their size when there
are any, and says for a character whether a slot was to be had. -/
def replyTo (order : ReaderThreadOrder) (answer : Option (UInt64 × Int32)) :
    Option ReaderThreadReply :=
  match order.orderType, answer with
  | .loadSector, some found =>
      some ⟨.sectorData, order.sectorX, order.sectorY, order.sectorZ, found.1, found.2⟩
  | .loadCharacter, some _ => some ⟨.characterData, 0, 0, 0, 0, order.characterID.toInt32⟩
  | _, _ => none

def readerStep (answer : Option (UInt64 × Int32)) (queues : Queues) : Queues :=
  match queues.reader with
  | .idle =>
      if queues.orderBufferFull = 0 then queues
      else
        { queues with
          orderBufferFull := queues.orderBufferFull - 1
          reader := .takingOrder }
  | .takingOrder =>
      { queues with
        orderPointerRead := queues.orderPointerRead + 1
        reader := .tookOrder (queues.orderBuffer (bufferPos queues.orderPointerRead))
        taken := queues.taken ++ [queues.orderBuffer (bufferPos queues.orderPointerRead)] }
  | .tookOrder order =>
      { queues with
        orderBufferEmpty := queues.orderBufferEmpty + 1
        reader := if order.orderType = .terminate then .ended else .processing order }
  | .processing order =>
      match replyTo order answer with
      | none => { queues with reader := .idle }
      | some reply => { queues with reader := .insertingReply reply }
  | .insertingReply reply =>
      if 200 < queues.replyPointerWrite - queues.replyPointerRead then
        { queues with reader := .waiting reply }
      else { queues with reader := .writingReply reply replyFields }
  -- `Replies` keeps its value in the loop.
  | .waiting _ => queues
  | .writingReply reply (field :: rest) =>
      { queues with
        replyBuffer := Function.update queues.replyBuffer (bufferPos queues.replyPointerWrite)
          (setField field reply (queues.replyBuffer (bufferPos queues.replyPointerWrite)))
        reader := .writingReply reply rest }
  | .writingReply reply [] =>
      { queues with
        replyPointerWrite := queues.replyPointerWrite + 1
        reader := .idle
        inserted := queues.inserted ++ [reply] }
  | .ended => queues

inductive Turn where
  | game (call : GameCall)
  | reader (answer : Option (UInt64 × Int32))

def step (queues : Queues) : Turn → Queues
  | .game call => gameStep call queues
  | .reader answer => readerStep answer queues

def run (queues : Queues) (turns : List Turn) : Queues := turns.foldl step queues

/-- `init_reader_buffers`, and the thread has been started. -/
def start : Queues where
  orderBuffer := fun _ => ⟨.terminate, 0, 0, 0, 0⟩
  orderPointerWrite := 0
  orderPointerRead := 0
  orderBufferEmpty := bufferSize
  orderBufferFull := 0
  replyBuffer := fun _ => emptyReply
  replyPointerWrite := 0
  replyPointerRead := 0
  game := .idle
  reader := .idle
  ordered := []
  taken := []
  inserted := []
  returned := []

/-- A reply is inserted only into a ring with a free cell, and no counter overflows. -/
def roomy (queues : Queues) : Turn → Bool
  | .game _ =>
      match queues.game with
      | .writingOrder _ => decide (queues.orderPointerWrite < Int32.maxValue)
      | _ => true
  | .reader _ =>
      match queues.reader with
      | .insertingReply _ =>
          decide (queues.replyPointerWrite - queues.replyPointerRead < 200) &&
            decide (queues.replyPointerWrite < Int32.maxValue)
      | _ => true

def allRoomy : Queues → List Turn → Bool
  | _, [] => true
  | queues, turn :: turns => roomy queues turn && allRoomy (step queues turn) turns

/-- An order for the data of a character is issued, processed and answered, while the game
thread does not ask for replies. -/
def answeredOrder (characterID : UInt32) : List Turn :=
  List.replicate 4 (.game (.insertOrder ⟨.loadCharacter, 0, 0, 0, characterID⟩)) ++
    List.replicate 12 (.reader (some (0, 0)))

def getReplyTurns : List Turn := List.replicate 8 (.game .getReply)

def isWaiting (queues : Queues) : Bool :=
  match queues.reader with
  | .waiting _ => true
  | _ => false

section Fields

variable {field other : ReplyField} {source target reply : ReaderThreadReply}

def SameField (field : ReplyField) (reply other : ReaderThreadReply) : Prop :=
  match field with
  | .replyType => reply.replyType = other.replyType
  | .sectorX => reply.sectorX = other.sectorX
  | .sectorY => reply.sectorY = other.sectorY
  | .sectorZ => reply.sectorZ = other.sectorZ
  | .data => reply.data = other.data
  | .size => reply.size = other.size

theorem set_field_same (field : ReplyField) (source target : ReaderThreadReply) :
    SameField field (setField field source target) source := by
  cases field <;> rfl

theorem set_field_other (different : other ≠ field) (same : SameField other target reply) :
    SameField other (setField field source target) reply := by
  cases field <;> cases other <;> first | exact absurd rfl different | exact same

theorem reply_ext (same : ∀ field, SameField field reply target) : reply = target := by
  have replyType := same .replyType
  have sectorX := same .sectorX
  have sectorY := same .sectorY
  have sectorZ := same .sectorZ
  have data := same .data
  have size := same .size
  cases reply
  simp_all only [SameField]

def Copied (rest : List ReplyField) (reply other : ReaderThreadReply) : Prop :=
  ∀ field, field ∉ rest → SameField field reply other

theorem copied_nothing : Copied replyFields reply target := by
  intro field away
  cases field <;> exact absurd (by decide) away

theorem copied_all (copied : Copied [] reply target) : reply = target :=
  reply_ext fun field => copied field not_mem_nil

theorem Copied.next {rest : List ReplyField} (copied : Copied (field :: rest) target source) :
    Copied rest (setField field source target) source := by
  intro other away
  by_cases here : other = field
  · rw [here]
    exact set_field_same field source target
  apply set_field_other here
  apply copied
  intro member
  rcases mem_cons.mp member with same | later
  · exact here same
  · exact away later

end Fields

section Cells

variable {Cell : Type} {buffer : Int → Cell} {stream : List Cell} {first : Nat} {pointer : Int32}

/-- The cells of a buffer, as they are counted from its start. -/
def cellsOf (buffer : Int → Cell) : Nat → Cell := fun place => buffer place

theorem buffer_pos_eq (counts : pointer.toInt = stream.length) :
    bufferPos pointer = (slot bufferSize 0 stream.length : Nat) := by
  rw [bufferPos, counts, slot, Nat.zero_add, ← Int.ofNat_tmod]

theorem cells_updated (buffer : Int → Cell) (place : Nat) (value : Cell) :
    cellsOf (Function.update buffer place value) place = value := by
  rw [cellsOf, Function.update_self]

section

variable (window : Window bufferSize 0 (cellsOf buffer) stream first)
    (room : stream.length < first + bufferSize)
include window room

theorem update_behind (value : Cell) :
    Window bufferSize 0
      (cellsOf (Function.update buffer (slot bufferSize 0 stream.length : Nat) value)) stream first := by
  apply window.frame
  intro index inside bound
  apply Function.update_of_ne
  intro same
  apply slot_ne bufferSize 0 index stream.length bound (by omega)
  exact Int.ofNat_inj.mp same

theorem window_grows {value : Cell}
    (written : cellsOf buffer (slot bufferSize 0 stream.length) = value) :
    Window bufferSize 0 (cellsOf buffer) (stream ++ [value]) first := by
  apply window.append [value]
  · exact room
  intro offset bound
  have zero : offset = 0 := by
    have short : offset < 1 := bound
    omega
  rw [zero, Nat.add_zero, written]
  rfl

end

theorem counter_next {count : Nat} (counts : pointer.toInt = count)
    (room : pointer < Int32.maxValue) : (pointer + 1).toInt = (count + 1 : Nat) := by
  have upper : pointer.toInt < 2147483647 := Int32.lt_iff_toInt_lt.mp room
  have one : (1 : Int32).toInt = 1 := rfl
  rw [Int32.toInt_add, one, Int.bmod_eq_of_le (by omega) (by omega), counts]
  rfl

theorem counter_below {other : Int32} {count more : Nat} (counts : pointer.toInt = count)
    (otherCounts : other.toInt = more) (less : count < more) : pointer < Int32.maxValue := by
  have upper := Int32.toInt_lt other
  rw [Int32.lt_iff_toInt_lt]
  have largest : Int32.maxValue.toInt = 2147483647 := rfl
  omega

theorem counters_apart {other : Int32} {count more : Nat} (counts : pointer.toInt = count)
    (otherCounts : other.toInt = more) (order : count ≤ more) :
    (other - pointer).toInt = (more - count : Nat) := by
  have upper := Int32.toInt_lt other
  rw [Int32.toInt_sub, counts, otherCounts, Int.bmod_eq_of_le (by omega) (by omega)]
  omega

end Cells

section Orders

def writing : GameThread → Nat
  | .writingOrder _ => 1
  | _ => 0

def posting : GameThread → Nat
  | .postingOrder => 1
  | _ => 0

def taking : ReaderThread → Nat
  | .takingOrder => 1
  | _ => 0

def took : ReaderThread → Nat
  | .tookOrder _ => 1
  | _ => 0

/-- The semaphores count the cells for orders, but for those that a thread holds. -/
structure OrdersKept (queues : Queues) : Prop where
  written : queues.orderPointerWrite.toInt = queues.ordered.length
  read : queues.orderPointerRead.toInt = queues.taken.length
  empty : queues.orderBufferEmpty + queues.ordered.length + writing queues.game +
    took queues.reader = bufferSize + queues.taken.length
  full : queues.orderBufferFull + queues.taken.length + taking queues.reader +
    posting queues.game = queues.ordered.length
  window : Window bufferSize 0 (cellsOf queues.orderBuffer) queues.ordered queues.taken.length
  inOrder : queues.taken <+: queues.ordered

variable {queues after : Queues}

section

variable (kept : OrdersKept queues)
    (same : (after.orderBuffer, after.orderPointerWrite, after.orderPointerRead, after.ordered,
      after.taken) = (queues.orderBuffer, queues.orderPointerWrite, queues.orderPointerRead,
      queues.ordered, queues.taken))
include kept same

theorem OrdersKept.frame (empty : after.orderBufferEmpty + writing after.game + took after.reader =
      queues.orderBufferEmpty + writing queues.game + took queues.reader)
    (full : after.orderBufferFull + taking after.reader + posting after.game =
      queues.orderBufferFull + taking queues.reader + posting queues.game) : OrdersKept after := by
  have wasEmpty := kept.empty
  have wasFull := kept.full
  simp only [Prod.mk.injEq] at same
  rcases same with ⟨buffer, write, read, ordered, taken⟩
  constructor
  · rw [write, ordered]
    exact kept.written
  · rw [read, taken]
    exact kept.read
  · rw [ordered, taken]
    omega
  · rw [ordered, taken]
    omega
  · rw [buffer, ordered, taken]
    exact kept.window
  · rw [ordered, taken]
    exact kept.inOrder

theorem OrdersKept.game (semaphores : (after.orderBufferEmpty, after.orderBufferFull, after.reader) =
      (queues.orderBufferEmpty, queues.orderBufferFull, queues.reader))
    (threads : (writing after.game, posting after.game) = (writing queues.game, posting queues.game)) :
    OrdersKept after := by
  simp only [Prod.mk.injEq] at semaphores threads
  apply kept.frame same
  · rw [semaphores.1, semaphores.2.2, threads.1]
  · rw [semaphores.2.1, semaphores.2.2, threads.2]

/-- A step of the reader thread that has nothing to do with orders. -/
theorem OrdersKept.reader (semaphores : (after.orderBufferEmpty, after.orderBufferFull, after.game) =
      (queues.orderBufferEmpty, queues.orderBufferFull, queues.game))
    (threads : (took after.reader, taking after.reader) = (took queues.reader, taking queues.reader)) :
    OrdersKept after := by
  simp only [Prod.mk.injEq] at semaphores threads
  apply kept.frame same
  · rw [semaphores.1, semaphores.2.2, threads.1]
  · rw [semaphores.2.1, semaphores.2.2, threads.2]

end

theorem game_step_orders (kept : OrdersKept queues) (call : GameCall)
    (room : roomy queues (.game call) = true) : OrdersKept (gameStep call queues) := by
  have empty := kept.empty
  have full := kept.full
  cases here : queues.game with
  | idle =>
    cases call with
    | insertOrder order =>
      simp only [gameStep, here]
      apply kept.game
      · rfl
      · rfl
      · rw [here]
        rfl
    | getReply =>
      simp only [gameStep, here]
      split_ifs
      · apply kept.game
        · rfl
        · rfl
        · rw [here]
          rfl
      · exact kept
  | insertingOrder order =>
    simp only [gameStep, here]
    split_ifs with none
    · exact kept
    apply kept.frame
    · rfl
    · rw [here]
      simp only [writing]
      omega
    · rw [here]
      rfl
  | writingOrder order =>
    rw [here] at empty full
    simp only [writing, posting] at empty full
    simp only [roomy, here, decide_eq_true_eq] at room
    have free : queues.ordered.length < queues.taken.length + bufferSize := by omega
    simp only [gameStep, here]
    constructor
    · rw [counter_next kept.written room, length_append, length_singleton]
    · exact kept.read
    · simp only [writing, length_append, length_singleton]
      omega
    · simp only [posting, length_append, length_singleton]
      omega
    · rw [buffer_pos_eq kept.written]
      apply window_grows (update_behind kept.window free order) free
      exact cells_updated queues.orderBuffer _ order
    · exact kept.inOrder.trans (prefix_append _ _)
  | postingOrder =>
    simp only [gameStep, here]
    apply kept.frame
    · rfl
    · rw [here]
      rfl
    · rw [here]
      simp only [posting]
      omega
  | copyingReply reply rest =>
    rcases rest with _ | ⟨field, rest⟩
    · simp only [gameStep, here]
      apply kept.game
      · rfl
      · rfl
      · rw [here]
        rfl
    simp only [gameStep, here]
    apply kept.game
    · rfl
    · rfl
    · rw [here]
      rfl

theorem prefix_next {Cell : Type} {front stream : List Cell} (inOrder : front <+: stream)
    (some : front.length < stream.length) : front ++ [stream[front.length]] <+: stream := by
  rw [prefix_iff_eq_take] at inOrder ⊢
  rw [length_append, length_singleton, take_add_one, ← inOrder,
    List.getElem?_eq_getElem some]
  rfl

theorem reader_step_orders (kept : OrdersKept queues) (answer : Option (UInt64 × Int32)) :
    OrdersKept (readerStep answer queues) := by
  have empty := kept.empty
  have full := kept.full
  cases here : queues.reader with
  | idle =>
    simp only [readerStep, here]
    split_ifs with none
    · exact kept
    apply kept.frame
    · rfl
    · rw [here]
      rfl
    · rw [here]
      simp only [taking]
      omega
  | takingOrder =>
    rw [here] at empty full
    simp only [took, taking] at empty full
    have some : queues.taken.length < queues.ordered.length := by omega
    have room : queues.orderPointerRead < Int32.maxValue :=
      counter_below kept.read kept.written some
    have held := kept.window.held queues.taken.length (Nat.le_refl _) some
    rw [List.getElem?_eq_getElem some, Option.some.injEq] at held
    have next : queues.orderBuffer (bufferPos queues.orderPointerRead) =
        queues.ordered[queues.taken.length] := by
      rw [buffer_pos_eq kept.read, held]
      rfl
    simp only [readerStep, here]
    constructor
    · exact kept.written
    · rw [counter_next kept.read room, length_append, length_singleton]
    · simp only [took, length_append, length_singleton]
      omega
    · simp only [taking, length_append, length_singleton]
      omega
    · apply kept.window.advance
      rw [length_append]
      exact Nat.le_add_right _ _
    · rw [next]
      exact prefix_next kept.inOrder some
  | tookOrder order =>
    simp only [readerStep, here]
    apply kept.frame
    · rfl
    · rw [here]
      split_ifs
      all_goals
        simp only [took]
        omega
    · rw [here]
      split_ifs
      · rfl
      · rfl
  | processing order =>
    simp only [readerStep, here]
    rcases replyTo order answer with _ | reply
    · apply kept.reader
      · rfl
      · rfl
      · rw [here]
        rfl
    apply kept.reader
    · rfl
    · rfl
    · rw [here]
      rfl
  | insertingReply reply =>
    simp only [readerStep, here]
    split_ifs
    all_goals
      apply kept.reader
      · rfl
      · rfl
      · rw [here]
        rfl
  | waiting reply => simpa only [readerStep, here] using kept
  | writingReply reply rest =>
    rcases rest with _ | ⟨field, rest⟩
    · simp only [readerStep, here]
      apply kept.reader
      · rfl
      · rfl
      · rw [here]
        rfl
    simp only [readerStep, here]
    apply kept.reader
    · rfl
    · rfl
    · rw [here]
      rfl
  | ended => simpa only [readerStep, here] using kept

end Orders

section Replies

variable {queues after : Queues}

/-- The reader thread writes a reply into a free cell, and never waits. -/
def InsertKept (queues : Queues) : Prop :=
  match queues.reader with
  | .writingReply reply rest =>
      queues.inserted.length < queues.returned.length + bufferSize ∧
        queues.replyPointerWrite < Int32.maxValue ∧
        Copied rest (cellsOf queues.replyBuffer (slot bufferSize 0 queues.inserted.length)) reply
  | .waiting _ => False
  | _ => True

/-- The game thread copies the next reply that it has not returned yet. -/
def ReturnKept (queues : Queues) : Prop :=
  match queues.game with
  | .copyingReply copy rest =>
      ∃ next, queues.inserted[queues.returned.length]? = some next ∧ Copied rest copy next
  | _ => True

structure RepliesKept (queues : Queues) : Prop where
  written : queues.replyPointerWrite.toInt = queues.inserted.length
  read : queues.replyPointerRead.toInt = queues.returned.length
  window : Window bufferSize 0 (cellsOf queues.replyBuffer) queues.inserted queues.returned.length
  inOrder : queues.returned <+: queues.inserted
  inserting : InsertKept queues
  returning : ReturnKept queues

theorem RepliesKept.frame (kept : RepliesKept queues)
    (same : (after.replyBuffer, after.replyPointerWrite, after.replyPointerRead, after.inserted,
      after.returned) = (queues.replyBuffer, queues.replyPointerWrite, queues.replyPointerRead,
      queues.inserted, queues.returned))
    (inserting : InsertKept after) (returning : ReturnKept after) : RepliesKept after := by
  simp only [Prod.mk.injEq] at same
  rcases same with ⟨buffer, write, read, inserted, returned⟩
  constructor
  · rw [write, inserted]
    exact kept.written
  · rw [read, returned]
    exact kept.read
  · rw [buffer, inserted, returned]
    exact kept.window
  · rw [inserted, returned]
    exact kept.inOrder
  · exact inserting
  · exact returning

/-- What the game thread returns does not disturb the reader thread. -/
theorem InsertKept.later (inserting : InsertKept queues)
    (same : (after.reader, after.inserted, after.replyBuffer, after.replyPointerWrite) =
      (queues.reader, queues.inserted, queues.replyBuffer, queues.replyPointerWrite))
    (more : queues.returned.length ≤ after.returned.length) : InsertKept after := by
  simp only [Prod.mk.injEq] at same
  rcases same with ⟨reader, inserted, buffer, write⟩
  unfold InsertKept at inserting ⊢
  rw [reader, inserted, buffer, write]
  split
  · rename_i reply rest here
    rw [here] at inserting
    exact ⟨by omega, inserting.2⟩
  · rename_i reply here
    rw [here] at inserting
    exact inserting
  · exact trivial

/-- What the reader thread inserts does not disturb the game thread. -/
theorem ReturnKept.later (returning : ReturnKept queues)
    (same : (after.game, after.returned) = (queues.game, queues.returned))
    (more : queues.inserted <+: after.inserted) : ReturnKept after := by
  simp only [Prod.mk.injEq] at same
  unfold ReturnKept at returning ⊢
  rw [same.1, same.2]
  split
  · rename_i copy rest here
    rw [here] at returning
    rcases returning with ⟨next, unread, copied⟩
    rcases more with ⟨added, whole⟩
    have some := (List.getElem?_eq_some_iff.mp unread).1
    rw [← whole]
    exact ⟨next, (List.getElem?_append_left some).trans unread, copied⟩
  · exact trivial

theorem game_step_replies (kept : RepliesKept queues) (call : GameCall) :
    RepliesKept (gameStep call queues) := by
  have inserting := kept.inserting
  have returning := kept.returning
  cases here : queues.game with
  | idle =>
    cases call with
    | insertOrder order =>
      simp only [gameStep, here]
      apply kept.frame
      · rfl
      · exact inserting
      · exact trivial
    | getReply =>
      simp only [gameStep, here]
      split_ifs with some
      · apply kept.frame
        · rfl
        · exact inserting
        · rw [Int32.lt_iff_toInt_lt, kept.read, kept.written, Int.ofNat_lt] at some
          exact ⟨_, List.getElem?_eq_getElem some, copied_nothing⟩
      · exact kept
  | insertingOrder order =>
    simp only [gameStep, here]
    split_ifs
    · exact kept
    apply kept.frame
    · rfl
    · exact inserting
    · exact trivial
  | writingOrder order =>
    simp only [gameStep, here]
    apply kept.frame
    · rfl
    · exact inserting
    · exact trivial
  | postingOrder =>
    simp only [gameStep, here]
    apply kept.frame
    · rfl
    · exact inserting
    · exact trivial
  | copyingReply copy rest =>
    simp only [ReturnKept, here] at returning
    rcases returning with ⟨next, unread, copied⟩
    have some : queues.returned.length < queues.inserted.length :=
      (List.getElem?_eq_some_iff.mp unread).1
    rcases rest with _ | ⟨field, rest⟩
    · have room : queues.replyPointerRead < Int32.maxValue :=
        counter_below kept.read kept.written some
      have whole : copy = queues.inserted[queues.returned.length] := by
        rw [copied_all copied]
        exact ((List.getElem?_eq_some_iff.mp unread).2).symm
      simp only [gameStep, here]
      constructor
      · exact kept.written
      · rw [counter_next kept.read room, length_append, length_singleton]
      · apply kept.window.advance
        rw [length_append]
        exact Nat.le_add_right _ _
      · rw [whole]
        exact prefix_next kept.inOrder some
      · apply inserting.later
        · rfl
        · rw [length_append]
          exact Nat.le_add_right _ _
      · exact trivial
    have held := kept.window.held queues.returned.length (Nat.le_refl _) some
    rw [unread, Option.some.injEq] at held
    have cell : queues.replyBuffer (bufferPos queues.replyPointerRead) = next := by
      rw [buffer_pos_eq kept.read, held]
      rfl
    simp only [gameStep, here]
    rw [cell]
    apply kept.frame
    · rfl
    · exact inserting
    · exact ⟨next, unread, copied.next⟩

theorem reader_step_replies (kept : RepliesKept queues) (answer : Option (UInt64 × Int32))
    (room : roomy queues (.reader answer) = true) : RepliesKept (readerStep answer queues) := by
  have inserting := kept.inserting
  have returning := kept.returning
  cases here : queues.reader with
  | idle =>
    simp only [readerStep, here]
    split_ifs
    · exact kept
    apply kept.frame
    · rfl
    · exact trivial
    · exact returning
  | takingOrder =>
    simp only [readerStep, here]
    apply kept.frame
    · rfl
    · exact trivial
    · exact returning
  | tookOrder order =>
    simp only [readerStep, here]
    apply kept.frame
    · rfl
    · unfold InsertKept
      split_ifs
      all_goals exact trivial
    · exact returning
  | processing order =>
    simp only [readerStep, here]
    rcases replyTo order answer with _ | reply
    · apply kept.frame
      · rfl
      · exact trivial
      · exact returning
    apply kept.frame
    · rfl
    · exact trivial
    · exact returning
  | insertingReply reply =>
    simp only [roomy, here, Bool.and_eq_true, decide_eq_true_eq] at room
    rcases room with ⟨free, counts⟩
    have order := kept.inOrder.length_le
    have unread := counters_apart kept.read kept.written order
    have size : (200 : Int32).toInt = 200 := rfl
    have space : queues.inserted.length < queues.returned.length + bufferSize := by
      rw [Int32.lt_iff_toInt_lt, unread, size] at free
      rw [bufferSize]
      omega
    have notFull : ¬ 200 < queues.replyPointerWrite - queues.replyPointerRead :=
      fun full => Int32.lt_irrefl (Int32.lt_trans full free)
    simp only [readerStep, here, if_neg notFull]
    apply kept.frame
    · rfl
    · exact ⟨space, counts, copied_nothing⟩
    · exact returning
  | waiting reply =>
    simp only [InsertKept, here] at inserting
  | writingReply reply rest =>
    simp only [InsertKept, here] at inserting
    rcases inserting with ⟨space, counts, copied⟩
    rcases rest with _ | ⟨field, rest⟩
    · have whole := copied_all copied
      simp only [readerStep, here]
      constructor
      · rw [counter_next kept.written counts, length_append, length_singleton]
      · exact kept.read
      · exact window_grows kept.window space whole
      · exact kept.inOrder.trans (prefix_append _ _)
      · exact trivial
      · apply returning.later
        · rfl
        · exact prefix_append _ _
    simp only [readerStep, here, buffer_pos_eq kept.written]
    constructor
    · exact kept.written
    · exact kept.read
    · exact update_behind kept.window space _
    · exact kept.inOrder
    · refine ⟨space, counts, ?_⟩
      rw [cells_updated]
      exact copied.next
    · exact returning
  | ended => simpa only [readerStep, here] using kept

end Replies

section Runs

variable {queues : Queues}

theorem step_kept (orders : OrdersKept queues) (replies : RepliesKept queues) (turn : Turn)
    (room : roomy queues turn = true) :
    OrdersKept (step queues turn) ∧ RepliesKept (step queues turn) := by
  cases turn with
  | game call => exact ⟨game_step_orders orders call room, game_step_replies replies call⟩
  | reader answer => exact ⟨reader_step_orders orders answer, reader_step_replies replies answer room⟩

theorem run_kept (orders : OrdersKept queues) (replies : RepliesKept queues) (turns : List Turn)
    (room : allRoomy queues turns = true) :
    OrdersKept (run queues turns) ∧ RepliesKept (run queues turns) := by
  induction turns generalizing queues with
  | nil => exact ⟨orders, replies⟩
  | cons turn turns ih =>
    rw [allRoomy, Bool.and_eq_true] at room
    have next := step_kept orders replies turn room.1
    exact ih next.1 next.2 room.2

theorem empty_window {Cell : Type} (buffer : Int → Cell) :
    Window bufferSize 0 (cellsOf buffer) [] 0 where
  fits := Nat.zero_le _
  held := fun index _ inside => absurd inside (Nat.not_lt_zero index)

theorem start_orders : OrdersKept start where
  written := rfl
  read := rfl
  empty := rfl
  full := rfl
  window := empty_window _
  inOrder := prefix_refl _

theorem start_replies : RepliesKept start where
  written := rfl
  read := rfl
  window := empty_window _
  inOrder := prefix_refl _
  inserting := trivial
  returning := trivial

/-- When a reply is only inserted into a ring with a free cell, the replies come out as they
went in, each one stays in its cell until it is read, and the reader thread never waits. -/
theorem replies_in_order (turns : List Turn) (room : allRoomy start turns = true) :
    (run start turns).returned <+: (run start turns).inserted ∧
      (∀ index, (run start turns).returned.length ≤ index →
        index < (run start turns).inserted.length →
        (run start turns).inserted[index]? =
          some ((run start turns).replyBuffer (index % bufferSize : Nat))) ∧
      isWaiting (run start turns) = false := by
  have kept := (run_kept start_orders start_replies turns room).2
  refine ⟨kept.inOrder, ?_, ?_⟩
  · intro index unread inside
    rw [kept.window.held index unread inside, slot, Nat.zero_add]
    rfl
  · have inserting := kept.inserting
    unfold InsertKept at inserting
    unfold isWaiting
    split
    · rename_i reply waits
      rw [waits] at inserting
      exact inserting.elim
    · rfl

/-- The data of one character are asked for, and their reply is read. -/
theorem one_reply_in_order :
    (run start (answeredOrder 7 ++ getReplyTurns)).returned <+:
        (run start (answeredOrder 7 ++ getReplyTurns)).inserted ∧
      (∀ index, (run start (answeredOrder 7 ++ getReplyTurns)).returned.length ≤ index →
        index < (run start (answeredOrder 7 ++ getReplyTurns)).inserted.length →
        (run start (answeredOrder 7 ++ getReplyTurns)).inserted[index]? =
          some ((run start (answeredOrder 7 ++ getReplyTurns)).replyBuffer
            (index % bufferSize : Nat))) ∧
      isWaiting (run start (answeredOrder 7 ++ getReplyTurns)) = false :=
  replies_in_order _ (by decide +kernel)

end Runs

/-- The data of one character 200 times, and then those of another. -/
def floodedTurns : List Turn :=
  (List.replicate 200 (answeredOrder 1)).flatten ++ answeredOrder 2 ++ getReplyTurns

structure Quiet (queues : Queues) : Prop where
  game : queues.game = .idle
  reader : queues.reader = .idle
  empty : queues.orderBufferEmpty = 200
  full : queues.orderBufferFull = 0
  same : queues.orderPointerRead = queues.orderPointerWrite

def characterReply (characterID : UInt32) : ReaderThreadReply :=
  ⟨.characterData, 0, 0, 0, 0, characterID.toInt32⟩

theorem answered_order_run {queues : Queues} (quiet : Quiet queues) (characterID : UInt32)
    (passes : ¬ 200 < queues.replyPointerWrite - queues.replyPointerRead) :
    Quiet (run queues (answeredOrder characterID)) ∧
      (run queues (answeredOrder characterID)).replyPointerWrite = queues.replyPointerWrite + 1 ∧
      (run queues (answeredOrder characterID)).replyPointerRead = queues.replyPointerRead ∧
      (run queues (answeredOrder characterID)).inserted =
        queues.inserted ++ [characterReply characterID] ∧
      (run queues (answeredOrder characterID)).returned = queues.returned ∧
      (run queues (answeredOrder characterID)).replyBuffer (bufferPos queues.replyPointerWrite) =
        characterReply characterID := by
  rcases quiet with ⟨game, reader, empty, full, same⟩
  rcases queues with ⟨orderBuffer, orderWrite, orderRead, orderEmpty, orderFull, replyBuffer,
    replyWrite, replyRead, gameThread, readerThread, ordered, taken, inserted, returned⟩
  simp only at game reader empty full same passes
  subst game reader empty full same
  simp [run, answeredOrder, step, gameStep, readerStep, replyTo, replyFields, setField, passes,
    List.replicate, characterReply]
  exact ⟨rfl, rfl, rfl, rfl, rfl⟩

theorem get_reply_run {queues : Queues} (idle : queues.game = .idle)
    (unread : queues.replyPointerRead < queues.replyPointerWrite) :
    (run queues getReplyTurns).returned =
        queues.returned ++ [queues.replyBuffer (bufferPos queues.replyPointerRead)] ∧
      (run queues getReplyTurns).inserted = queues.inserted := by
  rcases queues with ⟨orderBuffer, orderWrite, orderRead, orderEmpty, orderFull, replyBuffer,
    replyWrite, replyRead, gameThread, readerThread, ordered, taken, inserted, returned⟩
  subst idle
  simp [run, getReplyTurns, step, gameStep, unread, replyFields, setField, List.replicate]

theorem run_append (queues : Queues) (first second : List Turn) :
    run queues (first ++ second) = run (run queues first) second := foldl_append ..

/-- As long as there were at most 200 replies, the next one is inserted. -/
theorem flooded_run (count : Nat) (few : count ≤ 200) :
    Quiet (run start (List.replicate count (answeredOrder 1)).flatten) ∧
      (run start (List.replicate count (answeredOrder 1)).flatten).replyPointerWrite.toInt = count ∧
      (run start (List.replicate count (answeredOrder 1)).flatten).replyPointerRead = 0 ∧
      (run start (List.replicate count (answeredOrder 1)).flatten).inserted =
        List.replicate count (characterReply 1) ∧
      (run start (List.replicate count (answeredOrder 1)).flatten).returned = [] := by
  induction count with
  | zero => exact ⟨⟨rfl, rfl, rfl, rfl, rfl⟩, rfl, rfl, rfl, rfl⟩
  | succ count ih =>
    rcases ih (by omega) with ⟨quiet, write, read, inserted, returned⟩
    rw [replicate_succ', flatten_append, flatten_singleton, run_append]
    generalize run start (List.replicate count (answeredOrder 1)).flatten = queues at *
    have size : (200 : Int32).toInt = 200 := rfl
    have passes : ¬ 200 < queues.replyPointerWrite - queues.replyPointerRead := by
      rw [read, Int32.sub_zero, Int32.lt_iff_toInt_lt, write, size]
      omega
    have room : queues.replyPointerWrite < Int32.maxValue := by
      have largest : Int32.maxValue.toInt = 2147483647 := rfl
      rw [Int32.lt_iff_toInt_lt, write, largest]
      omega
    rcases answered_order_run quiet 1 passes with
      ⟨stillQuiet, nextWrite, nextRead, nextInserted, nextReturned, _⟩
    refine ⟨stillQuiet, ?_, nextRead.trans read, ?_, nextReturned.trans returned⟩
    · rw [nextWrite, counter_next write room]
    · rw [nextInserted, inserted, ← replicate_succ']

/-- The reply with number 201 takes the cell of the first one, which is then never read. -/
theorem full_ring_loses_replies :
    ¬ (run start floodedTurns).returned <+: (run start floodedTurns).inserted := by
  rcases flooded_run 200 (Nat.le_refl _) with ⟨quiet, write, read, inserted, returned⟩
  unfold floodedTurns
  rw [run_append, run_append]
  generalize run start (List.replicate 200 (answeredOrder 1)).flatten = queues at *
  have full : queues.replyPointerWrite = 200 := Int32.toInt_inj.mp write
  have passes : ¬ 200 < queues.replyPointerWrite - queues.replyPointerRead := by
    rw [read, full]
    decide
  rcases answered_order_run quiet 2 passes with
    ⟨stillQuiet, nextWrite, nextRead, nextInserted, nextReturned, cell⟩
  have unread : (run queues (answeredOrder 2)).replyPointerRead <
      (run queues (answeredOrder 2)).replyPointerWrite := by
    rw [nextRead, nextWrite, read, full]
    decide
  have samePlace : bufferPos queues.replyPointerRead = bufferPos queues.replyPointerWrite := by
    rw [read, full]
    decide
  rcases get_reply_run stillQuiet.game unread with ⟨lastReturned, lastInserted⟩
  rw [lastReturned, lastInserted, nextReturned, nextInserted, returned, inserted, nextRead,
    samePlace, cell]
  intro inOrder
  rcases inOrder with ⟨rest, same⟩
  have heads := congrArg List.head? same
  rw [nil_append, singleton_append, List.head?_cons, List.head?_append,
    List.head?_replicate, if_neg (by decide)] at heads
  exact absurd (Option.some.inj heads) (by decide)

end TibiaGame.ReaderQueues
