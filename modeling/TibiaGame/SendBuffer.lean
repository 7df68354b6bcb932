import TibiaGame.Library.CircularWindow
import TibiaGame.Library.LittleEndian

/-!
# The output buffer of a connection

The game thread composes packets in `OutData` and the thread of the connection
sends what has been committed. A step is one access to what they share: a call
of `sending.cpp` up to its next read of `NextToSend`, one `memcpy`, or one store
of an index. The signal `SIGUSR2` is a flag, as signals that are pending coalesce.
-/

namespace TibiaGame.SendBuffer

open Library.CircularWindow Library.LittleEndian

def capacity : Nat := 16384

/-- A call of `SendByte`, `SendWord`, `SendQuad` or `SendBytes`. -/
inductive Send where
  | byte (value : UInt8)
  | word (value : UInt16)
  | quad (value : UInt32)
  | bytes (buffer : List UInt8)

def Send.data : Send → List UInt8
  | .byte value => [value]
  | .word value => wordBytes value
  | .quad value => quadBytes value
  | .bytes buffer => buffer

inductive Composer where
  | outside
  | composing
  | storing (send : Send)
  | headStored (buffer : List UInt8)
  | stored (count : Nat)
  | signalling

/-- Where the thread of the connection is in `send_data`. -/
inductive Sender where
  | waiting
  | signalled
  | sized (dataSize : Nat)
  | headCopied (dataSize : Nat) (buffer : List UInt8)
  | copied (dataSize : Nat) (buffer : List UInt8)
  | written (dataSize : Nat)
  | stopped

/-- The fields of a connection, both threads, and what they have done so far: all data given
to the packet in progress, the packets committed, and the payloads of `write_to_socket`. -/
structure Output where
  outData : Nat → UInt8
  nextToSend : Nat
  nextToCommit : Nat
  nextToWrite : Nat
  overflow : Bool
  willingToSend : Bool
  pending : Bool
  composer : Composer
  sender : Sender
  packet : List UInt8
  committed : List (List UInt8)
  payloads : List (List UInt8)

inductive Event where
  | beginSendData (online : Bool)
  | send (send : Send)
  | compose
  | finishSendData (live : Bool)
  | sendAll (live : Bool)
  | takeSignal
  | sendData
  | writeToSocket (success : Bool)
  | stop

def beginSendData (output : Output) (online : Bool) : Output :=
  if online then
    let outDataCommitted := output.nextToCommit - output.nextToSend
    if outDataCommitted < capacity then
      { output with
        nextToWrite := output.nextToCommit
        overflow := false
        packet := []
        composer := .composing }
    else { output with composer := .outside }
  else { output with composer := .outside }

/-- The test for room with which every call starts; `SendBytes` refuses an empty buffer. -/
def startSend (output : Output) (send : Send) : Output :=
  if send.data = [] then output
  else
    let given := { output with packet := output.packet ++ send.data }
    let outDataWritten := output.nextToWrite - output.nextToSend
    if outDataWritten + send.data.length > capacity then { given with overflow := true }
    else { given with composer := .storing send }

/-- Bytes stored one by one, each at its position modulo the capacity. -/
def storeCells (outData : Nat → UInt8) (position : Nat) : List UInt8 → Nat → UInt8
  | [] => outData
  | value :: rest =>
      storeCells (copyInto outData (position % capacity) [value]) (position + 1) rest

def compose (output : Output) : Output :=
  match output.composer with
  | .storing (.bytes buffer) =>
      let bufferStart := output.nextToWrite % capacity
      let bufferEnd := bufferStart + buffer.length
      if bufferEnd < capacity then
        { output with
          outData := copyInto output.outData bufferStart buffer
          composer := .stored buffer.length }
      else
        { output with
          outData := copyInto output.outData bufferStart (buffer.take (capacity - bufferStart))
          composer := .headStored buffer }
  | .storing send =>
      { output with
        outData := storeCells output.outData output.nextToWrite send.data
        composer := .stored send.data.length }
  | .headStored buffer =>
      let bufferStart := output.nextToWrite % capacity
      { output with
        outData := copyInto output.outData 0 (buffer.drop (capacity - bufferStart))
        composer := .stored buffer.length }
  | .stored count =>
      { output with nextToWrite := output.nextToWrite + count, composer := .composing }
  | .signalling => { output with pending := true, composer := .outside }
  | _ => output

def finishSendData (output : Output) (live : Bool) : Output :=
  if !live || output.overflow then { output with composer := .outside }
  else
    { output with
      nextToCommit := output.nextToWrite
      willingToSend := true
      composer := .outside
      packet := []
      committed := output.committed ++ [output.packet] }

/-- The part of `send_all` that is about this connection, up to the signal. -/
def sendAll (output : Output) (live : Bool) : Output :=
  if output.willingToSend then
    if live ∧ output.nextToCommit > output.nextToSend then
      { output with willingToSend := false, composer := .signalling }
    else { output with willingToSend := false }
  else output

/-- The steps of `send_data` up to the call of `write_to_socket`, and the one behind it. -/
def sendData (output : Output) : Output :=
  match output.sender with
  | .signalled => { output with sender := .sized (output.nextToCommit - output.nextToSend) }
  | .sized dataSize =>
      let dataStart := output.nextToSend % capacity
      let dataEnd := dataStart + dataSize
      if dataEnd < capacity then
        { output with sender := .copied dataSize (copyFrom output.outData dataStart dataSize) }
      else
        { output with
          sender := .headCopied dataSize (copyFrom output.outData dataStart (capacity - dataStart)) }
  | .headCopied dataSize buffer =>
      let dataEnd := output.nextToSend % capacity + dataSize
      { output with
        sender := .copied dataSize (buffer ++ copyFrom output.outData 0 (dataEnd - capacity)) }
  | .written dataSize =>
      { output with nextToSend := output.nextToSend + dataSize, sender := .waiting }
  | _ => output

/-- After a failure the connection is closed, and the loop of its thread ends. -/
def writeToSocket (output : Output) (success : Bool) : Output :=
  match output.sender with
  | .copied dataSize buffer =>
      { output with
        payloads := output.payloads ++ [buffer]
        sender := if success then .written dataSize else .stopped }
  | _ => output

def step (output : Output) : Event → Output
  | .beginSendData online =>
      match output.composer with
      | .outside | .composing => beginSendData output online
      | _ => output
  | .send send =>
      match output.composer with
      | .composing => startSend output send
      | _ => output
  | .compose => compose output
  | .finishSendData live =>
      match output.composer with
      | .composing => finishSendData output live
      | _ => output
  | .sendAll live =>
      match output.composer with
      | .outside | .composing => sendAll output live
      | _ => output
  | .takeSignal =>
      match output.sender with
      | .waiting => if output.pending then { output with pending := false, sender := .signalled }
          else output
      | _ => output
  | .sendData => sendData output
  | .writeToSocket success => writeToSocket output success
  | .stop =>
      match output.sender with
      | .waiting => { output with sender := .stopped }
      | _ => output

def start (outData : Nat → UInt8) : Output where
  outData := outData
  nextToSend := 0
  nextToCommit := 0
  nextToWrite := 0
  overflow := false
  willingToSend := false
  pending := false
  composer := .outside
  sender := .waiting
  packet := []
  committed := []
  payloads := []

def run (outData : Nat → UInt8) (events : List Event) : Output :=
  events.foldl step (start outData)

/-- `send_data` takes its size from the indices only while there is something to send. -/
def ready (output : Output) (event : Event) : Bool :=
  match event, output.sender with
  | .sendData, .signalled => decide (output.nextToCommit > output.nextToSend)
  | _, _ => true

def allReady : Output → List Event → Bool
  | _, [] => true
  | output, event :: events => ready output event && allReady (step output event) events

end TibiaGame.SendBuffer
