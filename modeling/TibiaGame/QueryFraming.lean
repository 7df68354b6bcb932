import TibiaGame.QueryResponses
import TibiaGame.Library.ByteMemory

/-!
# Queries to the query manager

`QueryClient` assembles a query in its buffer, writes it to the socket and reads the response into
the same buffer. When the connection is gone it logs in again with a query of its own, for which
the assembled query is put aside.
-/

namespace TibiaGame.QueryFraming

open List

open TibiaGame.ObjectStreams (stringBytes)
open TibiaGame.QueryResponses (statusOk statusFailed)
open Library.LittleEndian Library.ByteMemory

/-- A frame that is given to `write`: of the login in `connect`, or of the query itself. -/
inductive Traffic where
  | login (frame : List UInt8)
  | query (frame : List UInt8)
  deriving DecidableEq

inductive ReadFailure where
  | timedOut
  | error
  deriving DecidableEq

structure Reply where
  arrived : List UInt8
  failure : Option ReadFailure

/-- What the operations on sockets lead to, by their number: whether a manager can be reached, how
much is written and what is read. -/
structure Network where
  opens : Nat → Bool
  writes : Nat → Int
  reads : Nat → Reply

/-- `BufferSize` is an `int` of at least 16 kB. -/
structure Client where
  bufferSize : Nat
  large : 16384 ≤ bufferSize
  fitsInt : bufferSize < 2 ^ 31
  buffer : Nat → UInt8
  writePosition : Nat
  queryOk : Bool
  connected : Bool
  readSize : Nat
  readPosition : Nat
  time : Nat
  traffic : List Traffic

structure Settings where
  applicationType : Int
  loginData : List UInt8
  passwords : List (List UInt8)

/-- Each write of `TWriteBuffer` but that of a string; without room it throws. -/
def Client.put (client : Client) (bytes : List UInt8) : Client × Bool :=
  if client.bufferSize < client.writePosition + bytes.length then (client, false)
  else
    ({ client with
      buffer := store client.buffer client.writePosition bytes
      writePosition := client.writePosition + bytes.length }, true)

def andThen (written : Client × Bool) (next : Client → Client × Bool) : Client × Bool :=
  if written.2 then next written.1 else written

/-- `write_string`; a missing argument is the null pointer. -/
def Client.putString (client : Client) : Option (List UInt8) → Client × Bool
  | none => client.put (wordBytes 0)
  | some text =>
      let length :=
        if text.length < 0xFFFF then client.put (wordBytes (UInt16.ofNat text.length))
        else andThen (client.put (wordBytes 0xFFFF)) fun client =>
          client.put (quadBytes (UInt32.ofNat text.length))
      andThen length fun client => if text.length > 0 then client.put text else (client, true)

/-- A write that has thrown is remembered in `QueryOk`. -/
def caught (written : Client × Bool) : Client :=
  if written.2 then written.1 else { written.1 with queryOk := false }

inductive Field where
  | flag (value : Bool)
  | byte (value : UInt8)
  | word (value : UInt16)
  | quad (value : UInt32)
  | string (text : Option (List UInt8))
  | bytes (values : List UInt8)
  deriving DecidableEq

def Client.sendByte (client : Client) (value : UInt8) : Client := caught (client.put [value])

def Client.sendFlag (client : Client) (value : Bool) : Client :=
  client.sendByte (if value then 1 else 0)

def Client.sendWord (client : Client) (value : UInt16) : Client :=
  caught (client.put (wordBytes value))

def Client.sendQuad (client : Client) (value : UInt32) : Client :=
  caught (client.put (quadBytes value))

def Client.sendString (client : Client) (text : Option (List UInt8)) : Client :=
  caught (client.putString text)

def Client.sendBytes (client : Client) (values : List UInt8) : Client := caught (client.put values)

def Client.send (client : Client) : Field → Client
  | .flag value => client.sendFlag value
  | .byte value => client.sendByte value
  | .word value => client.sendWord value
  | .quad value => client.sendQuad value
  | .string text => client.sendString text
  | .bytes values => client.sendBytes values

def Client.prepareQuery (client : Client) (queryType : Int) : Client :=
  caught (andThen (({ client with queryOk := true, writePosition := 0 } : Client).put (wordBytes 0))
    fun client => client.put [UInt8.ofInt queryType])

def Client.query (client : Client) (queryType : Int) (fields : List Field) : Client :=
  fields.foldl Client.send (client.prepareQuery queryType)

def shortSize (help : List UInt8) : Int := (bytesWord (help.getD 0 0) (help.getD 1 0)).toNat

def longSize (help : List UInt8) : Int :=
  (bytesQuad (help.getD 0 0) (help.getD 1 0) (help.getD 2 0) (help.getD 3 0)).toInt32.toInt

/-- What the rule for responses makes of a row of bytes: a frame and the rest behind it. -/
def recover (bufferSize : Nat) (stream : List UInt8) : Option (List UInt8 × List UInt8) :=
  if stream.length < 2 then none
  else
    let short := shortSize (stream.take 2)
    let rest := stream.drop 2
    if short = 0xFFFF ∧ rest.length < 4 then none
    else
      let size := if short = 0xFFFF then longSize (rest.take 4) else short
      let payload := if short = 0xFFFF then rest.drop 4 else rest
      if size ≤ 0 ∨ size > bufferSize then none
      else if payload.length < size then none
      else some (payload.take size.toNat, payload.drop size.toNat)

def Client.disconnect (client : Client) : Client := { client with connected := false }

/-- The length in front of the query. The first result is `PacketSize`, if the buffer is large
enough. -/
def Client.assemble (client : Client) : Option Nat × Client :=
  let packetSize := client.writePosition
  let payloadSize := packetSize - 2
  let client := { client with writePosition := 0 }
  if payloadSize < 0xFFFF then (some packetSize, client.sendWord (UInt16.ofNat payloadSize))
  else if packetSize + 4 > client.bufferSize then (none, client)
  else
    let moved := { client with buffer := store client.buffer 6 (load client.buffer 2 payloadSize) }
    (some (packetSize + 4),
      (moved.sendWord 0xFFFF).sendQuad (UInt32.ofNat payloadSize))

def Reply.count (reply : Reply) (size : Nat) : Option Nat :=
  if reply.failure.isNone then some (min reply.arrived.length size) else none

def Client.tick (client : Client) : Client := { client with time := client.time + 1 }

/-- The response behind its size: it is read into the buffer, and its first byte is the status. -/
def receiveRest (network : Network) (size : Int) (client : Client) : UInt8 × Client :=
  if size ≤ 0 ∨ size > client.bufferSize then (statusFailed, client.disconnect)
  else
    let reply := network.reads client.time
    let client :=
      { client.tick with buffer := store client.buffer 0 (reply.arrived.take size.toNat) }
    if reply.count size.toNat ≠ some size.toNat then (statusFailed, client.disconnect)
    else (client.buffer 0, { client with readSize := size.toNat, readPosition := 1 })

def receive (network : Network) (help : List UInt8) (client : Client) : UInt8 × Client :=
  if shortSize help = 0xFFFF then
    let reply := network.reads client.time
    if reply.count 4 ≠ some 4 then (statusFailed, client.tick.disconnect)
    else receiveRest network (longSize reply.arrived) client.tick
  else receiveRest network (shortSize help) client

/-- The client of an attempt, reconnected if it has lost its connection. -/
def started (reconnect : Nat → Client → Client) (packetSize : Nat) (client : Client) : Client :=
  if client.connected then client else reconnect packetSize client

/-- The query is written and the response read; without a status there may be another attempt. -/
def converse (network : Network) (traffic : List UInt8 → Traffic) (packetSize : Nat)
    (client : Client) : Option UInt8 × Client :=
  let written := network.writes client.time
  let client :=
    { client.tick with
      traffic := client.traffic ++ [traffic (load client.buffer 0 packetSize)] }
  if written ≠ packetSize then (none, client.disconnect)
  else
    let reply := network.reads client.time
    let client := client.tick
    if reply.count 2 ≠ some 2 then
      if reply.failure = some .timedOut then (some statusFailed, client.disconnect)
      else (none, client.disconnect)
    else
      let received := receive network (reply.arrived.take 2) client
      (some received.1, received.2)

def attempt (network : Network) (traffic : List UInt8 → Traffic)
    (reconnect : Nat → Client → Client) (packetSize : Nat) (client : Client) :
    Option UInt8 × Client :=
  let client := started reconnect packetSize client
  if !client.connected then (some statusFailed, client)
  else converse network traffic packetSize client

def attempts (network : Network) (traffic : List UInt8 → Traffic)
    (reconnect : Nat → Client → Client) (packetSize : Nat) : Nat → Client → UInt8 × Client
  | 0, client => (statusFailed, client)
  | left + 1, client =>
      let tried := attempt network traffic reconnect packetSize client
      match tried.1 with
      | some status => (status, tried.2)
      | none => attempts network traffic reconnect packetSize left tried.2

def maxAttempts : Nat := 2

def execute (network : Network) (traffic : List UInt8 → Traffic)
    (reconnect : Nat → Client → Client) (client : Client) : UInt8 × Client :=
  let assembled := client.assemble
  match assembled.1 with
  | none => (statusFailed, assembled.2)
  | some packetSize =>
      if !assembled.2.queryOk then (statusFailed, assembled.2)
      else attempts network traffic reconnect packetSize maxAttempts assembled.2

def login (network : Network) (settings : Settings) (password : List UInt8) (client : Client) :
    UInt8 × Client :=
  let client := client.prepareQuery 0
  let client := client.sendByte (UInt8.ofInt settings.applicationType)
  let client := client.sendString (some password)
  let client :=
    if settings.applicationType = 1 then client.sendString (some settings.loginData) else client
  execute network .login (fun _ client => client) client

/-- The loop of `connect` over the query managers. -/
def connectLoop (network : Network) (settings : Settings) : List (List UInt8) → Client → Client
  | [], client => client
  | password :: rest, client =>
      let opened := { client.tick with connected := network.opens client.time }
      if !opened.connected then connectLoop network settings rest opened
      else
        let done := login network settings password opened
        if done.1 ≠ statusOk then connectLoop network settings rest done.2.disconnect
        else done.2

def connect (network : Network) (settings : Settings) (client : Client) : Client :=
  connectLoop network settings settings.passwords client

/-- The query is put aside while `connect` uses the buffer. -/
def reconnect (network : Network) (settings : Settings) (packetSize : Nat) (client : Client) :
    Client :=
  let tempBuffer := load client.buffer 0 packetSize
  let connected := connect network settings client
  { connected with buffer := store connected.buffer 0 tempBuffer }

def reconnection (network : Network) (settings : Settings) (autoReconnect : Bool) :
    Nat → Client → Client :=
  if autoReconnect then reconnect network settings else fun _ client => client

def executeQuery (network : Network) (settings : Settings) (autoReconnect : Bool)
    (client : Client) : UInt8 × Client :=
  execute network .query (reconnection network settings autoReconnect) client

def Field.encode : Field → List UInt8
  | .flag value => [if value then 1 else 0]
  | .byte value => [value]
  | .word value => wordBytes value
  | .quad value => quadBytes value
  | .string text => stringBytes text
  | .bytes values => values

def body (queryType : Int) (fields : List Field) : List UInt8 :=
  UInt8.ofInt queryType :: fields.flatMap Field.encode

/-- There is room for all fields behind the length and the type, and for the longer length if the
query needs it. -/
def Fits (bufferSize : Nat) (queryType : Int) (fields : List Field) : Prop :=
  2 + (body queryType fields).length ≤ bufferSize ∧
    ((body queryType fields).length < 0xFFFF ∨ 6 + (body queryType fields).length ≤ bufferSize)

def frame (payload : List UInt8) : List UInt8 :=
  (if payload.length < 0xFFFF then wordBytes (UInt16.ofNat payload.length)
    else wordBytes 0xFFFF ++ quadBytes (UInt32.ofNat payload.length)) ++ payload

variable {client : Client} {payload bytes : List UInt8}

/-- Only the buffer, its position and `QueryOk` have changed. -/
structure SameConnection (before after : Client) : Prop where
  bufferSize : after.bufferSize = before.bufferSize
  connected : after.connected = before.connected
  time : after.time = before.time
  traffic : after.traffic = before.traffic

theorem SameConnection.refl (client : Client) : SameConnection client client := ⟨rfl, rfl, rfl, rfl⟩

theorem SameConnection.trans {first second third : Client} (early : SameConnection first second)
    (late : SameConnection second third) : SameConnection first third :=
  ⟨late.bufferSize.trans early.bufferSize, late.connected.trans early.connected,
    late.time.trans early.time, late.traffic.trans early.traffic⟩

/-- The buffer begins with these bytes, and the next one is written behind them. -/
structure Holds (client : Client) (bytes : List UInt8) : Prop where
  ok : client.queryOk = true
  position : client.writePosition = bytes.length
  within : bytes.length ≤ client.bufferSize
  content : load client.buffer 0 bytes.length = bytes

theorem put_full (full : client.bufferSize < client.writePosition + bytes.length) :
    client.put bytes = (client, false) := if_pos full

theorem put_room (room : client.writePosition + bytes.length ≤ client.bufferSize) :
    client.put bytes = ({ client with
      buffer := store client.buffer client.writePosition bytes
      writePosition := client.writePosition + bytes.length }, true) :=
  if_neg (Nat.not_lt.mpr room)

theorem put_same (client : Client) (bytes : List UInt8) :
    SameConnection client (client.put bytes).1 ∧ (client.put bytes).1.queryOk = client.queryOk := by
  unfold Client.put
  split_ifs
  · exact ⟨SameConnection.refl client, rfl⟩
  · exact ⟨⟨rfl, rfl, rfl, rfl⟩, rfl⟩

/-- What a write of bytes does to a buffer that holds some already. -/
structure Appends (client : Client) (bytes : List UInt8) (written : Client × Bool) : Prop where
  same : SameConnection client written.1
  fits : ∀ held, Holds client held → held.length + bytes.length ≤ client.bufferSize →
    written.2 = true ∧ Holds written.1 (held ++ bytes)
  breaks : ∀ held, Holds client held → client.bufferSize < held.length + bytes.length →
    written.2 = false

theorem put_appends (client : Client) (bytes : List UInt8) :
    Appends client bytes (client.put bytes) where
  same := (put_same client bytes).1
  fits := by
    intro held holds room
    have position := holds.position
    have stored := @load_store_append _ client.buffer 0 held.length bytes
    rw [Nat.zero_add, holds.content] at stored
    rw [put_room (by omega), position]
    refine ⟨rfl, holds.ok, ?_, ?_, ?_⟩
    · rw [length_append]
    · rw [length_append]
      exact room
    · rw [length_append]
      exact stored
  breaks := by
    intro held holds full
    have position := holds.position
    rw [put_full (by omega)]

theorem Appends.andThen {first second : List UInt8} {written : Client × Bool}
    {next : Client → Client × Bool} (early : Appends client first written)
    (late : Appends written.1 second (next written.1)) :
    Appends client (first ++ second) (andThen written next) where
  same := by
    unfold QueryFraming.andThen
    split_ifs
    · exact early.same.trans late.same
    · exact early.same
  fits := by
    intro held holds room
    rw [length_append] at room
    rcases early.fits held holds (by omega) with ⟨went, after⟩
    rw [QueryFraming.andThen, if_pos went]
    have more := late.fits (held ++ first) after
      (by rw [length_append, early.same.bufferSize]; omega)
    rw [← append_assoc]
    exact more
  breaks := by
    intro held holds full
    rw [length_append] at full
    unfold QueryFraming.andThen
    by_cases room : held.length + first.length ≤ client.bufferSize
    · rcases early.fits held holds room with ⟨went, after⟩
      rw [if_pos went]
      exact late.breaks (held ++ first) after
        (by rw [length_append, early.same.bufferSize]; omega)
    have stuck := early.breaks held holds (Nat.not_le.mp room)
    rw [if_neg (by rw [stuck]; decide), stuck]

theorem nothing_appends (client : Client) : Appends client [] (client, true) where
  same := SameConnection.refl client
  fits := by
    intro held holds _
    rw [append_nil]
    exact ⟨rfl, holds⟩
  breaks := by
    intro held holds full
    exact absurd holds.within (Nat.not_le.mpr full)

theorem put_string_appends (client : Client) (text : Option (List UInt8)) :
    Appends client (stringBytes text) (client.putString text) := by
  rcases text with _ | text
  · exact put_appends client _
  unfold Client.putString stringBytes
  have tail : ∀ between : Client, Appends between text
      (if text.length > 0 then between.put text else (between, true)) := by
    intro between
    by_cases some_text : text.length > 0
    · rw [if_pos some_text]
      exact put_appends between text
    rw [if_neg some_text, eq_nil_of_length_eq_zero (Nat.eq_zero_of_not_pos some_text)]
    exact nothing_appends between
  by_cases short : text.length < 0xFFFF
  · simp only [if_pos short]
    exact (put_appends client _).andThen (tail _)
  simp only [if_neg short]
  exact ((put_appends client _).andThen (put_appends _ _)).andThen (tail _)

structure Sends (client : Client) (bytes : List UInt8) (after : Client) : Prop where
  same : SameConnection client after
  fits : ∀ held, Holds client held → held.length + bytes.length ≤ client.bufferSize →
    Holds after (held ++ bytes)
  breaks : ∀ held, Holds client held → client.bufferSize < held.length + bytes.length →
    after.queryOk = false
  broken : client.queryOk = false → after.queryOk = false

theorem put_string_ok (client : Client) (text : Option (List UInt8)) :
    (client.putString text).1.queryOk = client.queryOk := by
  have next : ∀ (written : Client × Bool) (bytes : List UInt8),
      (andThen written fun client => client.put bytes).1.queryOk = written.1.queryOk := by
    intro written bytes
    unfold andThen
    split_ifs
    · exact (put_same _ _).2
    · rfl
  rcases text with _ | text
  · exact (put_same _ _).2
  unfold Client.putString
  dsimp only
  split_ifs with short long
  · rw [next, (put_same _ _).2]
  · unfold andThen
    split_ifs <;> exact (put_same _ _).2
  · rw [next, next, (put_same _ _).2]
  · omega

theorem Appends.caught {written : Client × Bool} (appends : Appends client bytes written)
    (kept : written.1.queryOk = client.queryOk) : Sends client bytes (caught written) where
  same := by
    unfold QueryFraming.caught
    split_ifs
    · exact appends.same
    · exact appends.same.trans ⟨rfl, rfl, rfl, rfl⟩
  fits := by
    intro held holds room
    rcases appends.fits held holds room with ⟨went, after⟩
    rw [QueryFraming.caught, if_pos went]
    exact after
  breaks := by
    intro held holds full
    rw [QueryFraming.caught, if_neg (by rw [appends.breaks held holds full]; decide)]
  broken := by
    intro before
    unfold QueryFraming.caught
    split_ifs
    · exact kept.trans before
    · rfl

theorem put_sends (client : Client) (bytes : List UInt8) :
    Sends client bytes (caught (client.put bytes)) :=
  (put_appends client bytes).caught (put_same client bytes).2

theorem send_sends (client : Client) (field : Field) :
    Sends client field.encode (client.send field) := by
  cases field with
  | string text => exact (put_string_appends client text).caught (put_string_ok client text)
  | flag value => exact put_sends client _
  | byte value => exact put_sends client _
  | word value => exact put_sends client _
  | quad value => exact put_sends client _
  | bytes values => exact put_sends client _

theorem Sends.trans {first second : List UInt8} {between after : Client}
    (early : Sends client first between) (late : Sends between second after) :
    Sends client (first ++ second) after where
  same := early.same.trans late.same
  fits := by
    intro held holds room
    rw [length_append] at room
    rw [← append_assoc]
    apply late.fits _ (early.fits held holds (by omega))
    rw [length_append, early.same.bufferSize]
    omega
  breaks := by
    intro held holds full
    rw [length_append] at full
    by_cases room : held.length + first.length ≤ client.bufferSize
    · apply late.breaks _ (early.fits held holds room)
      rw [length_append, early.same.bufferSize]
      omega
    · exact late.broken (early.breaks held holds (Nat.not_le.mp room))
  broken := fun before => late.broken (early.broken before)

theorem fields_send (fields : List Field) (client : Client) :
    Sends client (fields.flatMap Field.encode) (fields.foldl Client.send client) := by
  induction fields generalizing client with
  | nil => exact (nothing_appends client).caught rfl
  | cons field rest ih => exact (send_sends client field).trans (ih _)

theorem prepare_holds (client : Client) (queryType : Int) :
    SameConnection client (client.prepareQuery queryType) ∧
      Holds (client.prepareQuery queryType) (wordBytes 0 ++ [UInt8.ofInt queryType]) := by
  have large := client.large
  have empty : Holds { client with queryOk := true, writePosition := 0 } [] :=
    ⟨rfl, rfl, Nat.zero_le _, rfl⟩
  have both := @Appends.andThen _ _ _ _ (fun client => client.put [UInt8.ofInt queryType])
    (put_appends { client with queryOk := true, writePosition := 0 } (wordBytes 0))
    (put_appends _ [UInt8.ofInt queryType])
  have kept : (andThen (({ client with queryOk := true, writePosition := 0 } : Client).put
      (wordBytes 0)) fun client => client.put [UInt8.ofInt queryType]).1.queryOk = true := by
    unfold andThen
    split_ifs
    · exact (put_same _ _).2.trans (put_same _ _).2
    · exact (put_same _ _).2
  have sent := both.caught kept
  have same := sent.same
  refine ⟨⟨same.bufferSize, same.connected, same.time, same.traffic⟩, ?_⟩
  apply sent.fits [] empty
  simp only [length_nil, length_append, word_bytes_length, length_singleton]
  omega

theorem query_same (client : Client) (queryType : Int) (fields : List Field) :
    SameConnection client (client.query queryType fields) :=
  (prepare_holds client queryType).1.trans (fields_send fields _).same

theorem query_holds {queryType : Int} {fields : List Field}
    (room : 2 + (body queryType fields).length ≤ client.bufferSize) :
    Holds (client.query queryType fields) (wordBytes 0 ++ body queryType fields) := by
  rcases prepare_holds client queryType with ⟨same, holds⟩
  have sent := (fields_send fields _).fits _ holds
  apply sent
  rw [same.bufferSize, length_append, word_bytes_length, length_singleton]
  rw [body, length_cons] at room
  omega

theorem query_breaks {queryType : Int} {fields : List Field}
    (full : client.bufferSize < 2 + (body queryType fields).length) :
    (client.query queryType fields).queryOk = false := by
  rcases prepare_holds client queryType with ⟨same, holds⟩
  apply (fields_send fields _).breaks _ holds
  rw [same.bufferSize, length_append, word_bytes_length, length_singleton]
  rw [body, length_cons] at full
  omega

theorem frame_short (short : payload.length < 0xFFFF) :
    frame payload = wordBytes (UInt16.ofNat payload.length) ++ payload := by
  rw [frame, if_pos short]

theorem frame_long (long : ¬payload.length < 0xFFFF) :
    frame payload = wordBytes 0xFFFF ++ (quadBytes (UInt32.ofNat payload.length) ++ payload) := by
  rw [frame, if_neg long, append_assoc]

theorem send_room (room : client.writePosition + bytes.length ≤ client.bufferSize) :
    caught (client.put bytes) = { client with
      buffer := store client.buffer client.writePosition bytes
      writePosition := client.writePosition + bytes.length } := by
  rw [put_room room, caught, if_pos rfl]

structure Assembled (client : Client) (payload : List UInt8) : Prop where
  size : client.assemble.1 = some (frame payload).length
  ok : client.assemble.2.queryOk = true
  content : load client.assemble.2.buffer 0 (frame payload).length = frame payload

theorem assemble_short (holds : Holds client (wordBytes 0 ++ payload))
    (short : payload.length < 0xFFFF) : Assembled client payload := by
  have large := client.large
  have position := holds.position
  rw [length_append, word_bytes_length] at position
  have size : client.writePosition - 2 = payload.length := by omega
  have whole : (frame payload).length = client.writePosition := by
    rw [frame_short short, length_append, word_bytes_length, position]
  have made : client.assemble = (some client.writePosition,
      { client with
        buffer := store client.buffer 0 (wordBytes (UInt16.ofNat payload.length))
        writePosition := 2 }) := by
    have written := @send_room { client with writePosition := 0 }
      (wordBytes (UInt16.ofNat payload.length)) (show 0 + 2 ≤ client.bufferSize by omega)
    rw [Client.assemble]
    rw [size, if_pos short]
    exact congrArg (Prod.mk _) written
  constructor
  · rw [made, whole]
  · rw [made]
    exact holds.ok
  · have content := holds.content
    rw [length_append, load_add, word_bytes_length] at content
    have tail := (append_inj content (by rw [load_length, word_bytes_length])).2
    rw [made, frame_short short, length_append, load_add, load_store,
      load_store_apart (Or.inr (by rw [word_bytes_length])), word_bytes_length, tail]

theorem assemble_long (holds : Holds client (wordBytes 0 ++ payload))
    (long : ¬payload.length < 0xFFFF) (room : 6 + payload.length ≤ client.bufferSize) :
    Assembled client payload := by
  have position := holds.position
  rw [length_append, word_bytes_length] at position
  have size : client.writePosition - 2 = payload.length := by omega
  have whole : (frame payload).length = client.writePosition + 4 := by
    rw [frame_long long, length_append, length_append, word_bytes_length,
      quad_bytes_length, position]
    omega
  have content := holds.content
  rw [length_append, load_add, word_bytes_length] at content
  have tail := (append_inj content (by rw [load_length, word_bytes_length])).2
  have made : client.assemble = (some (client.writePosition + 4),
      { client with
        buffer := store (store (store client.buffer 6 payload) 0 (wordBytes 0xFFFF)) 2
          (quadBytes (UInt32.ofNat payload.length))
        writePosition := 6 }) := by
    have first := @send_room
      { client with writePosition := 0, buffer := store client.buffer 6 payload }
      (wordBytes 0xFFFF) (show 0 + 2 ≤ client.bufferSize by omega)
    have second := @send_room
      { client with
        buffer := store (store client.buffer 6 payload) 0 (wordBytes 0xFFFF)
        writePosition := 2 }
      (quadBytes (UInt32.ofNat payload.length)) (show 2 + 4 ≤ client.bufferSize by omega)
    rw [Client.assemble]
    dsimp only
    rw [size, if_neg long, if_neg (by omega), tail]
    apply congrArg (Prod.mk _)
    apply Eq.trans _ second
    exact congrArg (fun client => Client.sendQuad client _) first
  constructor
  · rw [made, whole]
  · rw [made]
    exact holds.ok
  · have front : load (store (store (store client.buffer 6 payload) 0 (wordBytes 0xFFFF)) 2
        (quadBytes (UInt32.ofNat payload.length))) 0 2 = wordBytes 0xFFFF :=
      (load_store_apart (Or.inl (Nat.le_refl 2))).trans load_store
    have middle : load (store (store (store client.buffer 6 payload) 0 (wordBytes 0xFFFF)) 2
        (quadBytes (UInt32.ofNat payload.length))) 2 4 = quadBytes (UInt32.ofNat payload.length) :=
      load_store
    have behind : load (store (store (store client.buffer 6 payload) 0 (wordBytes 0xFFFF)) 2
        (quadBytes (UInt32.ofNat payload.length))) 6 payload.length = payload :=
      (load_store_apart (Or.inr (Nat.le_refl 6))).trans
        ((load_store_apart (Or.inr (show 0 + 2 ≤ 6 by decide))).trans load_store)
    rw [made, frame_long long, length_append, length_append, load_add, load_add]
    exact congrArg₂ (· ++ ·) front (congrArg₂ (· ++ ·) middle behind)

theorem assemble_same (client : Client) : SameConnection client client.assemble.2 := by
  unfold Client.assemble
  dsimp only
  have start : SameConnection client { client with writePosition := 0 } := ⟨rfl, rfl, rfl, rfl⟩
  split_ifs
  · exact start.trans (put_sends { client with writePosition := 0 } _).same
  · exact start
  · have moved : SameConnection client { client with
        writePosition := 0
        buffer := store client.buffer 6 (load client.buffer 2 (client.writePosition - 2)) } :=
      ⟨rfl, rfl, rfl, rfl⟩
    exact (moved.trans (put_sends _ (wordBytes 0xFFFF)).same).trans (put_sends _ _).same

theorem assemble_broken (broken : client.queryOk = false) : client.assemble.2.queryOk = false := by
  unfold Client.assemble
  dsimp only
  split_ifs
  · exact (put_sends { client with writePosition := 0 } _).broken broken
  · exact broken
  · have moved : ({ client with
        writePosition := 0
        buffer := store client.buffer 6 (load client.buffer 2 (client.writePosition - 2)) } :
        Client).queryOk = false := broken
    exact (put_sends _ _).broken ((put_sends _ (wordBytes 0xFFFF)).broken moved)

theorem assemble_tight (holds : Holds client (wordBytes 0 ++ payload))
    (long : ¬payload.length < 0xFFFF) (full : client.bufferSize < 6 + payload.length) :
    client.assemble.1 = none := by
  have position := holds.position
  rw [length_append, word_bytes_length] at position
  have size : client.writePosition - 2 = payload.length := by omega
  rw [Client.assemble]
  dsimp only
  rw [size, if_neg long, if_pos (by omega)]

theorem short_size_word (word : UInt16) : shortSize (wordBytes word) = word.toNat := by
  simp only [shortSize, wordBytes, getD_cons_zero, getD_cons_succ, bytes_word_bytes]

theorem long_size_quad {size : Nat} (small : size < 2 ^ 31) :
    longSize (quadBytes (UInt32.ofNat size)) = size := by
  have bytes : longSize (quadBytes (UInt32.ofNat size)) =
      (UInt32.ofNat size).toInt32.toInt := by
    simp only [longSize, quadBytes, getD_cons_zero, getD_cons_succ, bytes_quad_bytes]
  have same : (UInt32.ofNat size).toInt32 = Int32.ofNat size := rfl
  rw [bytes, same, Int32.toInt_ofNat_of_lt small]

/-- The rule for responses takes a frame apart, whatever comes behind it. -/
theorem recover_frame {bufferSize : Nat} (some_byte : 0 < payload.length)
    (room : payload.length ≤ bufferSize) (small : bufferSize < 2 ^ 31) (rest : List UInt8) :
    recover bufferSize (frame payload ++ rest) = some (payload, rest) := by
  have size : ¬((payload.length : Int) ≤ 0 ∨ (payload.length : Int) > bufferSize) := by omega
  have enough : ¬(((payload ++ rest).length : Nat) : Int) < payload.length := by
    simp
  by_cases short : payload.length < 0xFFFF
  · have word : (UInt16.ofNat payload.length).toNat = payload.length :=
      UInt16.toNat_ofNat_of_lt (show payload.length < 65536 by omega)
    have different : ¬((payload.length : Int) = 0xFFFF) := by omega
    rw [frame_short short, append_assoc, recover, take_left' (word_bytes_length _),
      drop_left' (word_bytes_length _), short_size_word, word]
    simp only [length_append, word_bytes_length, different, false_and, if_false]
    rw [if_neg (by omega), if_neg size, if_neg (by omega),
      Int.toNat_natCast, take_left, drop_left]
  have marker : shortSize (wordBytes 0xFFFF) = 0xFFFF := by decide
  rw [frame_long short, append_assoc, append_assoc, recover,
    take_left' (word_bytes_length _), drop_left' (word_bytes_length _), marker]
  simp only [length_append, word_bytes_length, quad_bytes_length, true_and, if_true]
  rw [take_left' (quad_bytes_length _), drop_left' (quad_bytes_length _),
    long_size_quad (by omega), if_neg (by omega), if_neg (by omega), if_neg size,
    if_neg enough, Int.toNat_natCast, take_left,
    drop_left]

section Attempts

variable {network : Network} {settings : Settings} {traffic : List UInt8 → Traffic}
  {again : Nat → Client → Client} {packetSize : Nat}

def Traffic.IsLogin : Traffic → Prop
  | .login _ => True
  | .query _ => False

def AddsLogins (client after : Client) : Prop :=
  ∃ added, after.traffic = client.traffic ++ added ∧ ∀ entry ∈ added, entry.IsLogin

theorem AddsLogins.of_eq {client after : Client} (same : after.traffic = client.traffic) :
    AddsLogins client after := by
  refine ⟨[], ?_, ?_⟩
  · rw [same, append_nil]
  · nofun

theorem AddsLogins.trans {first second third : Client} (early : AddsLogins first second)
    (late : AddsLogins second third) : AddsLogins first third := by
  rcases early with ⟨added, whole, all⟩
  rcases late with ⟨more, longer, others⟩
  refine ⟨added ++ more, ?_, ?_⟩
  · rw [longer, whole, append_assoc]
  intro entry member
  rcases mem_append.mp member with before | behind
  · exact all entry before
  · exact others entry behind

/-- A reconnect writes logins only, and the assembled query is still in the buffer behind it. -/
structure Reconnects (again : Nat → Client → Client) : Prop where
  logins : ∀ size client, AddsLogins client (again size client)
  kept : ∀ size client, load (again size client).buffer 0 size = load client.buffer 0 size

theorem stay_reconnects : Reconnects fun _ client => client where
  logins := fun _ _ => AddsLogins.of_eq rfl
  kept := fun _ _ => rfl

theorem receive_rest_traffic (size : Int) (client : Client) :
    (receiveRest network size client).2.traffic = client.traffic := by
  unfold receiveRest
  dsimp only
  split_ifs <;> rfl

theorem receive_traffic (help : List UInt8) (client : Client) :
    (receive network help client).2.traffic = client.traffic := by
  unfold receive
  dsimp only
  split_ifs
  · rfl
  all_goals exact receive_rest_traffic _ _

theorem started_traffic (reconnects : Reconnects again) (client : Client) :
    AddsLogins client (started again packetSize client) ∧
    load (started again packetSize client).buffer 0 packetSize =
      load client.buffer 0 packetSize := by
  unfold started
  split_ifs
  · exact ⟨AddsLogins.of_eq rfl, rfl⟩
  · exact ⟨reconnects.logins packetSize client, reconnects.kept packetSize client⟩

theorem converse_traffic (network : Network) (traffic : List UInt8 → Traffic) (packetSize : Nat)
    (client : Client) :
    (converse network traffic packetSize client).2.traffic =
        client.traffic ++ [traffic (load client.buffer 0 packetSize)] ∧
      ((converse network traffic packetSize client).1 = none →
        (converse network traffic packetSize client).2.buffer = client.buffer) := by
  unfold converse
  dsimp only
  split_ifs
  · exact ⟨rfl, fun _ => rfl⟩
  · exact ⟨rfl, fun _ => rfl⟩
  · exact ⟨rfl, fun _ => rfl⟩
  · refine ⟨receive_traffic _ _, ?_⟩
    nofun

/-- The entries that attempts add: logins, and the frame whenever there is a connection. -/
structure Tries (traffic : List UInt8 → Traffic) (again : Nat → Client → Client) (packetSize : Nat)
    (client after : Client) (added : List Traffic) : Prop where
  whole : after.traffic = client.traffic ++ added
  same : ∀ entry ∈ added,
    entry.IsLogin ∨ entry = traffic (load client.buffer 0 packetSize)
  connected : (started again packetSize client).connected = true →
    traffic (load client.buffer 0 packetSize) ∈ added
  lost : (started again packetSize client).connected = false → ∀ entry ∈ added, entry.IsLogin

theorem attempt_tries (network : Network) (traffic : List UInt8 → Traffic)
    (reconnects : Reconnects again) (packetSize : Nat) (client : Client) :
    ∃ added, Tries traffic again packetSize client
        (attempt network traffic again packetSize client).2 added ∧
      ((attempt network traffic again packetSize client).1 = none →
        (started again packetSize client).connected = true ∧
        load (attempt network traffic again packetSize client).2.buffer 0 packetSize =
          load client.buffer 0 packetSize) := by
  rcases @started_traffic again packetSize reconnects client with ⟨⟨logins, whole, all⟩, kept⟩
  rw [attempt]
  rcases connected : (started again packetSize client).connected with _ | _
  · refine ⟨logins, ⟨whole, fun entry member => Or.inl (all entry member), ?_, fun _ => all⟩, ?_⟩
    · intro impossible
      rw [connected] at impossible
      cases impossible
    · nofun
  rw [if_neg (by decide)]
  rcases converse_traffic network traffic packetSize (started again packetSize client) with
    ⟨written, stays⟩
  rw [kept] at written
  refine ⟨logins ++ [traffic (load client.buffer 0 packetSize)], ⟨?_, ?_, ?_, ?_⟩, ?_⟩
  · rw [written, whole, append_assoc]
  · intro entry member
    rcases mem_append.mp member with login | last
    · exact Or.inl (all entry login)
    · exact Or.inr (mem_singleton.mp last)
  · intro _
    exact mem_append_right _ mem_cons_self
  · intro impossible
    rw [connected] at impossible
    cases impossible
  · intro none_yet
    rw [stays none_yet]
    exact ⟨rfl, kept⟩

theorem attempts_try (network : Network) (traffic : List UInt8 → Traffic)
    (reconnects : Reconnects again) (packetSize left : Nat) (client : Client) :
    ∃ added, Tries traffic again packetSize client
      (attempts network traffic again packetSize (left + 1) client).2 added := by
  induction left generalizing client with
  | zero =>
    rcases attempt_tries network traffic reconnects packetSize client with ⟨added, tries, _⟩
    refine ⟨added, ?_⟩
    rw [attempts]
    cases (attempt network traffic again packetSize client).1 <;> exact tries
  | succ left ih =>
    rcases attempt_tries network traffic reconnects packetSize client with
      ⟨first, tries, continued⟩
    rw [attempts]
    cases ended : (attempt network traffic again packetSize client).1 with
    | some status => exact ⟨first, tries⟩
    | none =>
      rcases continued ended with ⟨connected, kept⟩
      rcases ih (attempt network traffic again packetSize client).2 with ⟨later, more⟩
      refine ⟨first ++ later, ?_, ?_, ?_, ?_⟩
      · rw [more.whole, tries.whole, append_assoc]
      · intro entry member
        rcases mem_append.mp member with early | late
        · exact tries.same entry early
        have same := more.same entry late
        rw [kept] at same
        exact same
      · intro _
        exact mem_append_left _ (tries.connected connected)
      · intro impossible
        rw [connected] at impossible
        cases impossible

theorem attempts_lost (lost : (started again packetSize client).connected = false) (left : Nat) :
    (attempts network traffic again packetSize left client).1 = statusFailed := by
  rcases left with _ | left
  · rfl
  rw [attempts, attempt]
  simp only [lost, Bool.not_false, if_true]

end Attempts

section Reconnecting

variable {network : Network} {settings : Settings}

theorem execute_logins (network : Network) (client : Client) :
    AddsLogins client (execute network .login (fun _ client => client) client).2 := by
  have assembled : AddsLogins client client.assemble.2 :=
    AddsLogins.of_eq (assemble_same client).traffic
  unfold execute
  dsimp only
  rcases client.assemble.1 with _ | packetSize
  · exact assembled
  split_ifs
  · exact assembled
  rcases attempts_try network .login stay_reconnects packetSize 1 client.assemble.2 with
    ⟨added, tries⟩
  apply assembled.trans
  refine ⟨added, tries.whole, ?_⟩
  intro entry member
  rcases tries.same entry member with login | own
  · exact login
  rw [own]
  exact trivial

theorem login_logins (network : Network) (settings : Settings) (password : List UInt8)
    (client : Client) : AddsLogins client (login network settings password client).2 := by
  have first := (prepare_holds client 0).1.trans
    (send_sends _ (.byte (UInt8.ofInt settings.applicationType))).same
  have second := first.trans (send_sends _ (.string (some password))).same
  unfold login
  split_ifs
  · have third := second.trans (send_sends _ (.string (some settings.loginData))).same
    exact (AddsLogins.of_eq third.traffic).trans (execute_logins network _)
  · exact (AddsLogins.of_eq second.traffic).trans (execute_logins network _)

theorem connect_loop_logins (passwords : List (List UInt8)) (client : Client) :
    AddsLogins client (connectLoop network settings passwords client) := by
  induction passwords generalizing client with
  | nil => exact AddsLogins.of_eq rfl
  | cons password rest ih =>
    have opened : AddsLogins client
        { client.tick with connected := network.opens client.time } := AddsLogins.of_eq rfl
    have done := opened.trans (login_logins network settings password _)
    unfold connectLoop
    dsimp only
    split_ifs
    · exact opened.trans (ih _)
    · exact (done.trans (AddsLogins.of_eq rfl)).trans (ih _)
    · exact done

/-- The query is in the buffer again when `connect` has used it for its own queries. -/
theorem reconnect_reconnects (network : Network) (settings : Settings) :
    Reconnects (reconnect network settings) where
  logins := by
    intro size client
    exact (connect_loop_logins settings.passwords client).trans (AddsLogins.of_eq rfl)
  kept := by
    intro size client
    have stored := @load_store _ (connect network settings client).buffer 0
      (load client.buffer 0 size)
    rw [load_length] at stored
    exact stored

theorem reconnection_reconnects (network : Network) (settings : Settings) (autoReconnect : Bool) :
    Reconnects (reconnection network settings autoReconnect) := by
  cases autoReconnect with
  | false => exact stay_reconnects
  | true => exact reconnect_reconnects network settings

end Reconnecting

section Framing

variable {network : Network} {settings : Settings} {autoReconnect : Bool} {queryType : Int}
  {fields : List Field}

/-- There is a connection for the first attempt: still, or again. -/
def Connects (network : Network) (settings : Settings) (autoReconnect : Bool) (client : Client) :
    Prop :=
  client.connected = true ∨
    autoReconnect = true ∧ (connect network settings client).connected = true

theorem started_connects (packetSize : Nat) :
    (started (reconnection network settings autoReconnect) packetSize client).connected = true ↔
      Connects network settings autoReconnect client := by
  unfold started Connects
  by_cases connected : client.connected = true
  · rw [if_pos connected]
    exact ⟨Or.inl, fun _ => connected⟩
  rw [if_neg connected]
  rcases autoReconnect with _ | _
  · constructor
    · exact Or.inl
    · intro connects
      exact connects.resolve_right fun again => Bool.false_ne_true again.1
  constructor
  · exact fun again => Or.inr ⟨rfl, again⟩
  · intro connects
    exact (connects.resolve_left connected).2

theorem execute_broken (broken : client.assemble.1 = none ∨ client.queryOk = false) :
    (execute network .query (reconnection network settings autoReconnect) client).1 =
        statusFailed ∧
      (execute network .query (reconnection network settings autoReconnect) client).2.traffic =
        client.traffic := by
  have same := (assemble_same client).traffic
  unfold execute
  dsimp only
  rcases size : client.assemble.1 with _ | packetSize
  · exact ⟨rfl, same⟩
  have failed : client.assemble.2.queryOk = false := by
    rcases broken with none_yet | broken
    · rw [size] at none_yet
      cases none_yet
    · exact assemble_broken broken
  dsimp only
  rw [if_pos (by rw [failed]; decide)]
  exact ⟨rfl, same⟩

theorem execute_assembled (assembled : Assembled client payload) :
    execute network .query (reconnection network settings autoReconnect) client =
      attempts network .query (reconnection network settings autoReconnect)
        (frame payload).length maxAttempts client.assemble.2 := by
  rw [execute, assembled.size]
  dsimp only
  rw [if_neg (by rw [assembled.ok]; decide)]

theorem query_assembled (fits : Fits client.bufferSize queryType fields) :
    Assembled (client.query queryType fields) (body queryType fields) := by
  have holds := query_holds fits.1
  by_cases short : (body queryType fields).length < 0xFFFF
  · exact assemble_short holds short
  apply assemble_long holds short
  rw [(query_same client queryType fields).bufferSize]
  exact fits.2.resolve_left short

theorem query_broken (tight : ¬Fits client.bufferSize queryType fields) :
    (client.query queryType fields).assemble.1 = none ∨
      (client.query queryType fields).queryOk = false := by
  by_cases room : 2 + (body queryType fields).length ≤ client.bufferSize
  · have longer : ¬((body queryType fields).length < 0xFFFF ∨
        6 + (body queryType fields).length ≤ client.bufferSize) := fun fits => tight ⟨room, fits⟩
    apply Or.inl
    apply assemble_tight (query_holds room) (fun short => longer (Or.inl short))
    rw [(query_same client queryType fields).bufferSize]
    exact Nat.lt_of_not_le fun fits => longer (Or.inr fits)
  · exact Or.inr (query_breaks (Nat.lt_of_not_le room))

/-- Without room for the query nothing is written. Otherwise the query is written in one frame
only, from which the rule for responses takes its type and fields, and it is written unless there
is no connection. -/
theorem query_framing (network : Network) (settings : Settings) (autoReconnect : Bool)
    (client : Client) (queryType : Int) (fields : List Field) :
    (¬Fits client.bufferSize queryType fields →
      (executeQuery network settings autoReconnect (client.query queryType fields)).1 =
          statusFailed ∧
        (executeQuery network settings autoReconnect
          (client.query queryType fields)).2.traffic = client.traffic) ∧
    (Fits client.bufferSize queryType fields →
      (∀ rest, recover client.bufferSize (frame (body queryType fields) ++ rest) =
        some (body queryType fields, rest)) ∧
      ∃ added,
        (executeQuery network settings autoReconnect
          (client.query queryType fields)).2.traffic = client.traffic ++ added ∧
        (∀ entry ∈ added, entry.IsLogin ∨ entry = .query (frame (body queryType fields))) ∧
        (Connects network settings autoReconnect
            (client.query queryType fields).assemble.2 →
          .query (frame (body queryType fields)) ∈ added) ∧
        (¬Connects network settings autoReconnect
            (client.query queryType fields).assemble.2 →
          (executeQuery network settings autoReconnect (client.query queryType fields)).1 =
              statusFailed ∧
            ∀ entry ∈ added, entry.IsLogin)) := by
  have same := query_same client queryType fields
  constructor
  · intro tight
    have broken := @execute_broken _ network settings autoReconnect
      (query_broken tight)
    rw [same.traffic] at broken
    exact broken
  · intro fits
    have assembled := query_assembled fits
    have room := fits.1
    refine ⟨recover_frame (Nat.succ_pos _) (by omega) client.fitsInt, ?_⟩
    rw [executeQuery, execute_assembled assembled]
    rcases attempts_try network .query (reconnection_reconnects network settings autoReconnect)
      (frame (body queryType fields)).length 1 (client.query queryType fields).assemble.2 with
      ⟨added, tries⟩
    have first := @started_connects (client.query queryType fields).assemble.2 network settings
      autoReconnect (frame (body queryType fields)).length
    have written := tries.same
    have connected := tries.connected
    rw [assembled.content] at written connected
    refine ⟨added, ?_, written, fun connects => connected (first.mpr connects), ?_⟩
    · rw [← same.traffic, ← (assemble_same (client.query queryType fields)).traffic]
      exact tries.whole
    · intro unconnected
      have lost := Bool.eq_false_iff.mpr fun started => unconnected (first.mp started)
      exact ⟨attempts_lost lost maxAttempts, tries.lost lost⟩

def idleClient : Client where
  bufferSize := 16384
  large := Nat.le_refl _
  fitsInt := by decide
  buffer := fun _ => 0
  writePosition := 0
  queryOk := true
  connected := false
  readSize := 0
  readPosition := 0
  time := 0
  traffic := []

/-- Without a query manager no query is written, although it fits into the buffer. -/
theorem no_manager_fails :
    let network : Network := ⟨fun _ => false, fun _ => 0, fun _ => ⟨[], none⟩⟩
    let done := executeQuery network ⟨2, [], []⟩ true (idleClient.query 10 [.quad 1])
    done.1 = statusFailed ∧ done.2.traffic = idleClient.traffic ∧
      Fits idleClient.bufferSize 10 [.quad 1] := by
  dsimp only
  refine ⟨by decide, by decide, by decide, ?_⟩
  exact Or.inl (by decide)

end Framing

end TibiaGame.QueryFraming
