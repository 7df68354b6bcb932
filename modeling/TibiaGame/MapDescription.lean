import TibiaGame.Library.LittleEndian

/-!
# Map descriptions

How `sending.cpp` writes a sequence of map fields, and the rule by which it is
read: objects up to a word `0xFFnn`, then `nn` empty fields. The description is over
any encoding of objects that can be followed; `send_map_object` is the instance at
the end.
-/

namespace TibiaGame.MapDescription

open Library.LittleEndian List

/-- An encoding of objects that a reader can follow without a length, and whose first
word is below `0xFF00`. -/
structure ObjectCode (MapObject : Type) where
  encode : MapObject → List UInt8
  read : List UInt8 → Option (MapObject × List UInt8)
  reads : ∀ obj rest, read (encode obj ++ rest) = some (obj, rest)
  firstWord : ∀ obj, ∃ low high tail, encode obj = low :: high :: tail ∧
    (bytesWord low high).toNat < 0xFF00

variable {MapObject : Type}

def maxObjectsPerPoint : Nat := 10

/-- `Skip`, and the bytes given to `SendByte` and its siblings. -/
structure MapWriter where
  skip : Int
  sent : List UInt8

def MapWriter.send (writer : MapWriter) (bytes : List UInt8) : MapWriter :=
  { writer with sent := writer.sent ++ bytes }

def skipFlush (writer : MapWriter) : MapWriter :=
  if 0 ≤ writer.skip then
    let count := min writer.skip 255
    let counted := (writer.send [UInt8.ofNat count.toNat]).send [255]
    skipFlush { counted with skip := writer.skip - (count + 1) }
  else writer
termination_by (writer.skip + 1).toNat
decreasing_by omega

/-- The objects of a point, no more than `room` of them. -/
def sendObjects (code : ObjectCode MapObject) : Nat → MapWriter → List MapObject → MapWriter
  | room + 1, writer, obj :: more => sendObjects code room (writer.send (code.encode obj)) more
  | _, writer, _ => writer

def sendMapPoint (code : ObjectCode MapObject) (writer : MapWriter) (field : List MapObject) :
    MapWriter :=
  let described :=
    match field with
    | [] => writer
    | _ :: _ => sendObjects code maxObjectsPerPoint (skipFlush writer) field
  { described with skip := described.skip + 1 }

/-- A description: `Skip = -1`, every field, and a last `skip_flush`. -/
def sendFields (code : ObjectCode MapObject) (sent : List UInt8) (fields : List (List MapObject)) :
    MapWriter :=
  skipFlush (fields.foldl (sendMapPoint code) ⟨-1, sent⟩)

/-- The objects before the next word `0xFFnn`, with `nn` and what stands behind it. -/
def readObjects (code : ObjectCode MapObject) :
    Nat → List UInt8 → Option (List MapObject × Nat × List UInt8)
  | fuel + 1, low :: high :: rest =>
      if 0xFF00 ≤ (bytesWord low high).toNat then some ([], low.toNat, rest)
      else do
        let (obj, behind) ← code.read (low :: high :: rest)
        let (objects, skipped, suffix) ← readObjects code fuel behind
        some (obj :: objects, skipped, suffix)
  | _, _ => none

/-- Reads a number of fields, the first `skipped` of which are known to be empty. -/
def readFields (code : ObjectCode MapObject) :
    Nat → Nat → List UInt8 → Option (List (List MapObject) × List UInt8)
  | 0, 0, bytes => some ([], bytes)
  | 0, _ + 1, _ => none
  | count + 1, skipped + 1, bytes => do
      let (fields, suffix) ← readFields code count skipped bytes
      some ([] :: fields, suffix)
  | count + 1, 0, bytes => do
      let (field, skipped, behind) ← readObjects code bytes.length bytes
      let (fields, suffix) ← readFields code count skipped behind
      some (field :: fields, suffix)

def truncated (field : List MapObject) : List MapObject := field.take maxObjectsPerPoint

section Writing

variable (code : ObjectCode MapObject)

@[simp] theorem send_skip (writer : MapWriter) (bytes : List UInt8) :
    (writer.send bytes).skip = writer.skip := rfl

@[simp] theorem send_sent (writer : MapWriter) (bytes : List UInt8) :
    (writer.send bytes).sent = writer.sent ++ bytes := rfl

/-- What `skip_flush` writes when `Skip` is one below the number. -/
def flushBytes : Nat → List UInt8
  | 0 => []
  | pending + 1 =>
      [UInt8.ofNat (min pending 255), 255] ++ flushBytes (pending - min pending 255)
termination_by pending => pending
decreasing_by omega

theorem skip_flush_writes (pending : Nat) (sent : List UInt8) :
    skipFlush ⟨pending - 1, sent⟩ = ⟨-1, sent ++ flushBytes pending⟩ := by
  induction pending using Nat.strong_induction_on generalizing sent with
  | _ pending ih =>
    rcases pending with _ | pending
    · rw [skipFlush, if_neg (by simp), flushBytes]
      simp
    have skip : ((pending + 1 : Nat) : Int) - 1 = pending := by omega
    have count : min (pending : Int) 255 = (min pending 255 : Nat) := by omega
    have left : (pending : Int) - ((min pending 255 : Nat) + 1) =
        (pending - min pending 255 : Nat) - 1 := by omega
    rw [skipFlush, skip, if_pos (by simp), flushBytes]
    simp only [count, left, MapWriter.send, Int.toNat_natCast]
    rw [ih (pending - min pending 255) (by omega)]
    simp

theorem send_objects_writes (room : Nat) (writer : MapWriter) (field : List MapObject) :
    sendObjects code room writer field = writer.send ((field.take room).flatMap code.encode) := by
  induction room generalizing writer field with
  | zero => simp [sendObjects, MapWriter.send]
  | succ room ih =>
    cases field with
    | nil => simp [sendObjects, MapWriter.send]
    | cons obj more =>
      rw [sendObjects, ih]
      simp [MapWriter.send]

/-- The bytes of a description from a state in which `pending - 1` is the skip. -/
def fieldsBytes : Nat → List (List MapObject) → List UInt8
  | pending, [] => flushBytes pending
  | pending, [] :: fields => fieldsBytes (pending + 1) fields
  | pending, (obj :: more) :: fields =>
      flushBytes pending ++ ((truncated (obj :: more)).flatMap code.encode ++ fieldsBytes 1 fields)

theorem send_fields_writes (pending : Nat) (sent : List UInt8) (fields : List (List MapObject)) :
    skipFlush (fields.foldl (sendMapPoint code) ⟨pending - 1, sent⟩) =
      ⟨-1, sent ++ fieldsBytes code pending fields⟩ := by
  fun_induction fieldsBytes code pending fields generalizing sent with
  | case1 pending => exact skip_flush_writes pending sent
  | case2 pending fields ih =>
    rw [← ih]
    simp only [foldl_cons, sendMapPoint]
    congr 3
    omega
  | case3 pending obj more fields ih =>
    have described : sendMapPoint code ⟨pending - 1, sent⟩ (obj :: more) =
        ⟨((1 : Nat) : Int) - 1, sent ++ flushBytes pending ++
          (truncated (obj :: more)).flatMap code.encode⟩ := by
      simp only [sendMapPoint, skip_flush_writes, send_objects_writes, truncated]
      rfl
    rw [foldl_cons, described, ih]
    simp

end Writing

section Reading

variable (code : ObjectCode MapObject)

section

variable {fields : List (List MapObject)} {rest : List UInt8}

theorem read_terminator (fuel count : Nat) (small : count ≤ 255) (rest : List UInt8) :
    readObjects code (fuel + 1) (UInt8.ofNat count :: 255 :: rest) = some ([], count, rest) := by
  have low : (UInt8.ofNat count).toNat = count := by
    rw [UInt8.toNat_ofNat']
    omega
  have word : 0xFF00 ≤ (bytesWord (UInt8.ofNat count) 255).toNat := by
    rw [bytes_word_nat]
    have high : (255 : UInt8).toNat = 255 := rfl
    omega
  rw [readObjects, if_pos word, low]

theorem read_more_fuel (fuel extra : Nat) (bytes : List UInt8)
    {result : List MapObject × Nat × List UInt8} (known : readObjects code fuel bytes = some result) :
    readObjects code (fuel + extra) bytes = some result := by
  fun_induction readObjects code fuel bytes generalizing result with
  | case1 fuel low high rest ends =>
    rw [Nat.succ_add, readObjects, if_pos ends]
    exact known
  | case2 fuel low high rest goesOn ih =>
    rw [Nat.succ_add, readObjects, if_neg goesOn]
    simp only [Option.bind_eq_bind, Option.bind_eq_some_iff] at known ⊢
    rcases known with ⟨first, reading, second, further, shown⟩
    exact ⟨first, reading, second, ih first.2 further, shown⟩
  | case3 => cases known

theorem read_object (fuel : Nat) (obj : MapObject) (bytes : List UInt8) {objects : List MapObject}
    {skipped : Nat} (known : readObjects code fuel bytes = some (objects, skipped, rest)) :
    readObjects code (fuel + 1) (code.encode obj ++ bytes) = some (obj :: objects, skipped, rest) := by
  rcases code.firstWord obj with ⟨low, high, tail, shape, word⟩
  have reading := code.reads obj bytes
  rw [shape] at reading ⊢
  simp only [cons_append] at reading ⊢
  rw [readObjects, if_neg (by omega), reading]
  simp [known]

theorem read_objects (field : List MapObject) (fuel : Nat) (bytes : List UInt8)
    {objects : List MapObject} {skipped : Nat}
    (known : readObjects code fuel bytes = some (objects, skipped, rest)) :
    readObjects code (fuel + field.length) (field.flatMap code.encode ++ bytes) =
      some (field ++ objects, skipped, rest) := by
  induction field with
  | nil => exact known
  | cons obj more ih =>
    rw [flatMap_cons, append_assoc, length_cons, ← Nat.add_assoc]
    exact read_object code _ obj _ ih

theorem encoded_length (field : List MapObject) : field.length ≤ (field.flatMap code.encode).length := by
  induction field with
  | nil => simp
  | cons obj more ih =>
    rcases code.firstWord obj with ⟨low, high, tail, shape, _⟩
    rw [flatMap_cons, length_append, shape]
    simp only [length_cons]
    omega

/-- A field with its terminator, in front of what the remaining fields are read from. -/
theorem read_field (field : List MapObject) (count skipped : Nat) (small : skipped ≤ 255)
    (more : List UInt8) (known : readFields code count skipped more = some (fields, rest)) :
    readFields code (count + 1) 0
      (field.flatMap code.encode ++ UInt8.ofNat skipped :: 255 :: more) =
      some (field :: fields, rest) := by
  have objects := read_objects code field 1 _ (read_terminator code 0 skipped small more)
  have enough := encoded_length code field
  have fuel : (field.flatMap code.encode ++ UInt8.ofNat skipped :: 255 :: more).length =
      1 + field.length + ((field.flatMap code.encode).length - field.length + 1 + more.length) := by
    simp only [length_append, length_cons]
    omega
  rw [readFields, fuel, read_more_fuel code _ _ _ objects]
  simp [known]

theorem read_skipped (count skipped : Nat) (more : List UInt8)
    (known : readFields code count 0 more = some (fields, rest)) :
    readFields code (count + skipped) skipped more =
      some (List.replicate skipped [] ++ fields, rest) := by
  induction skipped with
  | zero => exact known
  | succ skipped ih =>
    rw [← Nat.add_assoc, readFields, ih]
    rfl

/-- A field, and the fields skipped behind it by the words of one flush. -/
theorem read_flush (pending : Nat) (field : List MapObject) (count : Nat) (more : List UInt8)
    (known : readFields code count 0 more = some (fields, rest)) :
    readFields code (count + pending + 1) 0
      (field.flatMap code.encode ++ (flushBytes (pending + 1) ++ more)) =
      some (field :: (List.replicate pending [] ++ fields), rest) := by
  induction pending using Nat.strong_induction_on generalizing field with
  | _ pending ih =>
    rw [flushBytes, append_assoc, cons_append, cons_append, nil_append]
    apply read_field
    · exact Nat.min_le_right pending 255
    by_cases short : pending ≤ 255
    · rw [Nat.min_eq_left short, Nat.sub_self, flushBytes]
      exact read_skipped code count pending more known
    have rest255 : pending - min pending 255 = pending - 256 + 1 := by omega
    have chunk : min pending 255 = 255 := by omega
    have total : count + pending = count + (pending - 256) + 1 + 255 := by omega
    have fill : List.replicate pending ([] : List MapObject) =
        List.replicate 255 [] ++ [] :: List.replicate (pending - 256) [] := by
      rw [← replicate_succ, replicate_append_replicate]
      congr 1
      omega
    rw [rest255, chunk, total, fill, append_assoc]
    apply read_skipped
    exact ih (pending - 256) (by omega) []

/-- The fields behind one that is open, of which `pending` have been skipped so far. -/
theorem read_fields_bytes (fields : List (List MapObject)) (pending : Nat)
    (field : List MapObject) (rest : List UInt8) :
    readFields code (fields.length + pending + 1) 0
      (field.flatMap code.encode ++ (fieldsBytes code (pending + 1) fields ++ rest)) =
      some (field :: (List.replicate pending [] ++ fields.map truncated), rest) := by
  induction fields generalizing pending field with
  | nil =>
    have ends : readFields code 0 0 rest = some ([], rest) := rfl
    have flushed := read_flush code pending field 0 rest ends
    simpa [fieldsBytes] using flushed
  | cons next fields ih =>
    rcases next with _ | ⟨obj, more⟩
    · have later := ih (pending + 1) field
      rw [replicate_succ', append_assoc] at later
      rw [length_cons, Nat.add_right_comm _ 1 pending]
      exact later
    have later := ih 0 (truncated (obj :: more))
    have flushed := read_flush code pending field (fields.length + 1) _ later
    rw [fieldsBytes, append_assoc, append_assoc]
    exact flushed

end

end Reading

/-- Whatever the fields are, their description is read back to them, each cut to the objects
that are sent of a point, and `Skip` is where it was before. -/
theorem description_decodes (code : ObjectCode MapObject) (sent : List UInt8)
    (fields : List (List MapObject)) :
    (sendFields code sent fields).skip = -1 ∧
      ∃ bytes, (sendFields code sent fields).sent = sent ++ bytes ∧
        ∀ rest, readFields code fields.length 0 (bytes ++ rest) =
          some (fields.map truncated, rest) := by
  have written : sendFields code sent fields = ⟨-1, sent ++ fieldsBytes code 0 fields⟩ :=
    send_fields_writes code 0 sent fields
  rw [written]
  constructor
  · rfl
  · exists fieldsBytes code 0 fields
    constructor
    · rfl
    · intro rest
      cases fields with
      | nil =>
        rw [fieldsBytes, flushBytes]
        rfl
      | cons field fields =>
        have later := read_fields_bytes code fields 0 (truncated field) rest
        cases field with
        | nil => exact later
        | cons obj more =>
          rw [fieldsBytes, flushBytes, nil_append, append_assoc]
          exact later

section MapObjects

/-- The flags of an object type that decide what `SendItem` writes behind the word. -/
structure ItemFlags where
  liquidContainer : Bool
  liquidPool : Bool
  cumulative : Bool

/-- An item by the type it is shown as. The client looks the flags up by that type, so a
disguise has those of what it stands for; a byte that is not sent is `0`. -/
structure ShownItem (flags : UInt16 → ItemFlags) where
  typeId : UInt16
  containerColor : UInt8
  poolColor : UInt8
  amount : UInt8
  aboveCreatures : 100 ≤ typeId.toNat
  belowSkips : typeId.toNat < 0xFF00
  noContainer : (flags typeId).liquidContainer = false → containerColor = 0
  noPool : (flags typeId).liquidPool = false → poolColor = 0
  single : (flags typeId).cumulative = false → amount = 0

inductive Outfit where
  | asObject (objectType : UInt16)
  | colored (outfitId : UInt16) (real : outfitId ≠ 0) (head body legs feet : UInt8)

/-- What is sent of a creature whose appearance the client does not have. -/
structure Appearance where
  health : UInt8
  direction : UInt8
  outfit : Outfit
  brightness : UInt8
  color : UInt8
  speed : UInt16
  playerkillingMark : UInt8
  partyMark : UInt8

/-- An object with the answers of the connection that decide how it is sent: the state of
its creature, and the identifier that a new one replaces. -/
inductive ShownObject (flags : UInt16 → ItemFlags) where
  | item (shown : ShownItem flags)
  | upToDate (creatureId : UInt32) (direction : UInt8)
  | outdated (creatureId : UInt32) (appearance : Appearance)
  | unknown (replaced creatureId : UInt32) (name : List UInt8) (short : name.length < 65536)
      (appearance : Appearance)

def sendOutfit : Outfit → List UInt8
  | .asObject objectType => wordBytes 0 ++ wordBytes objectType
  | .colored outfitId _ head body legs feet => wordBytes outfitId ++ [head, body, legs, feet]

def sendAppearance (appearance : Appearance) : List UInt8 :=
  appearance.health :: appearance.direction :: (sendOutfit appearance.outfit ++
    (appearance.brightness :: appearance.color :: (wordBytes appearance.speed ++
      [appearance.playerkillingMark, appearance.partyMark])))

def sendString (text : List UInt8) : List UInt8 := wordBytes (UInt16.ofNat text.length) ++ text

variable {flags : UInt16 → ItemFlags}

def sendItem (shown : ShownItem flags) : List UInt8 :=
  wordBytes shown.typeId ++
    ((if (flags shown.typeId).liquidContainer then [shown.containerColor] else []) ++
      ((if (flags shown.typeId).liquidPool then [shown.poolColor] else []) ++
        (if (flags shown.typeId).cumulative then [shown.amount] else [])))

def sendMapObject : ShownObject flags → List UInt8
  | .item shown => sendItem shown
  | .upToDate creatureId direction => wordBytes 99 ++ (quadBytes creatureId ++ [direction])
  | .outdated creatureId appearance =>
      wordBytes 98 ++ (quadBytes creatureId ++ sendAppearance appearance)
  | .unknown replaced creatureId name _ appearance =>
      wordBytes 97 ++ (quadBytes replaced ++ (quadBytes creatureId ++
        (sendString name ++ sendAppearance appearance)))

def readWord : List UInt8 → Option (UInt16 × List UInt8)
  | low :: high :: rest => some (bytesWord low high, rest)
  | _ => none

def readQuad : List UInt8 → Option (UInt32 × List UInt8)
  | b0 :: b1 :: b2 :: b3 :: rest => some (bytesQuad b0 b1 b2 b3, rest)
  | _ => none

def readByte : List UInt8 → Option (UInt8 × List UInt8)
  | byte :: rest => some (byte, rest)
  | [] => none

def readFlagged (present : Bool) (bytes : List UInt8) : Option (UInt8 × List UInt8) :=
  if present then readByte bytes else some (0, bytes)

def readOutfit (bytes : List UInt8) : Option (Outfit × List UInt8) := do
  let (outfitId, bytes) ← readWord bytes
  if real : outfitId ≠ 0 then
    let (head, bytes) ← readByte bytes
    let (body, bytes) ← readByte bytes
    let (legs, bytes) ← readByte bytes
    let (feet, bytes) ← readByte bytes
    some (.colored outfitId real head body legs feet, bytes)
  else
    let (objectType, bytes) ← readWord bytes
    some (.asObject objectType, bytes)

def readAppearance (bytes : List UInt8) : Option (Appearance × List UInt8) := do
  let (health, bytes) ← readByte bytes
  let (direction, bytes) ← readByte bytes
  let (outfit, bytes) ← readOutfit bytes
  let (brightness, bytes) ← readByte bytes
  let (color, bytes) ← readByte bytes
  let (speed, bytes) ← readWord bytes
  let (playerkillingMark, bytes) ← readByte bytes
  let (partyMark, bytes) ← readByte bytes
  some (⟨health, direction, outfit, brightness, color, speed, playerkillingMark, partyMark⟩, bytes)

def readString (bytes : List UInt8) : Option (List UInt8 × List UInt8) := do
  let (length, bytes) ← readWord bytes
  if length.toNat ≤ bytes.length then
    some (bytes.take length.toNat, bytes.drop length.toNat)
  else none

def readItem (flags : UInt16 → ItemFlags) (typeId : UInt16) (bytes : List UInt8) :
    Option (ShownItem flags × List UInt8) := do
  let (containerColor, bytes) ← readFlagged (flags typeId).liquidContainer bytes
  let (poolColor, bytes) ← readFlagged (flags typeId).liquidPool bytes
  let (amount, bytes) ← readFlagged (flags typeId).cumulative bytes
  if shown : 100 ≤ typeId.toNat ∧ typeId.toNat < 0xFF00 ∧
      ((flags typeId).liquidContainer = false → containerColor = 0) ∧
      ((flags typeId).liquidPool = false → poolColor = 0) ∧
      ((flags typeId).cumulative = false → amount = 0) then
    some (⟨typeId, containerColor, poolColor, amount, shown.1, shown.2.1, shown.2.2.1,
      shown.2.2.2.1, shown.2.2.2.2⟩, bytes)
  else none

def readMapObject (flags : UInt16 → ItemFlags) (bytes : List UInt8) :
    Option (ShownObject flags × List UInt8) := do
  let (word, bytes) ← readWord bytes
  if word = 99 then
    let (creatureId, bytes) ← readQuad bytes
    let (direction, bytes) ← readByte bytes
    some (.upToDate creatureId direction, bytes)
  else if word = 98 then
    let (creatureId, bytes) ← readQuad bytes
    let (appearance, bytes) ← readAppearance bytes
    some (.outdated creatureId appearance, bytes)
  else if word = 97 then
    let (replaced, bytes) ← readQuad bytes
    let (creatureId, bytes) ← readQuad bytes
    let (name, bytes) ← readString bytes
    if short : name.length < 65536 then
      let (appearance, bytes) ← readAppearance bytes
      some (.unknown replaced creatureId name short appearance, bytes)
    else none
  else do
    let (shown, bytes) ← readItem flags word bytes
    some (.item shown, bytes)

@[simp] theorem read_word_sent (word : UInt16) (rest : List UInt8) :
    readWord (wordBytes word ++ rest) = some (word, rest) := by
  simp [wordBytes, readWord]

@[simp] theorem read_quad_sent (quad : UInt32) (rest : List UInt8) :
    readQuad (quadBytes quad ++ rest) = some (quad, rest) := by
  simp [quadBytes, readQuad]

@[simp] theorem read_byte_sent (byte : UInt8) (rest : List UInt8) :
    readByte (byte :: rest) = some (byte, rest) := rfl

theorem read_flagged_sent (present : Bool) (value : UInt8) (rest : List UInt8)
    (absent : present = false → value = 0) :
    readFlagged present ((if present then [value] else []) ++ rest) = some (value, rest) := by
  cases present with
  | false => simp [readFlagged, absent rfl]
  | true => simp [readFlagged]

theorem read_outfit_sent (outfit : Outfit) (rest : List UInt8) :
    readOutfit (sendOutfit outfit ++ rest) = some (outfit, rest) := by
  cases outfit with
  | asObject objectType => simp [readOutfit, sendOutfit]
  | colored outfitId real head body legs feet => simp [readOutfit, sendOutfit, real]

theorem read_appearance_sent (appearance : Appearance) (rest : List UInt8) :
    readAppearance (sendAppearance appearance ++ rest) = some (appearance, rest) := by
  simp [readAppearance, sendAppearance, read_outfit_sent]

theorem read_string_sent (text rest : List UInt8) (short : text.length < 65536) :
    readString (sendString text ++ rest) = some (text, rest) := by
  have length : (UInt16.ofNat text.length).toNat = text.length := by
    rw [UInt16.toNat_ofNat']
    omega
  simp [readString, sendString, length]

theorem read_item_sent (shown : ShownItem flags) (rest : List UInt8) :
    readItem flags shown.typeId
      ((if (flags shown.typeId).liquidContainer then [shown.containerColor] else []) ++
        ((if (flags shown.typeId).liquidPool then [shown.poolColor] else []) ++
          ((if (flags shown.typeId).cumulative then [shown.amount] else []) ++ rest))) =
      some (shown, rest) := by
  have container := fun rest => read_flagged_sent _ shown.containerColor rest shown.noContainer
  have pool := fun rest => read_flagged_sent _ shown.poolColor rest shown.noPool
  have amount := fun rest => read_flagged_sent _ shown.amount rest shown.single
  simp only [readItem, container, pool, amount, Option.bind_eq_bind, Option.bind_some]
  rw [dif_pos ⟨shown.aboveCreatures, shown.belowSkips, shown.noContainer, shown.noPool,
    shown.single⟩]

theorem read_map_object_sent (obj : ShownObject flags) (rest : List UInt8) :
    readMapObject flags (sendMapObject obj ++ rest) = some (obj, rest) := by
  cases obj with
  | item shown =>
    have notCreature (word : UInt16) (small : word.toNat < 100) : shown.typeId ≠ word := by
      intro same
      have range := shown.aboveCreatures
      rw [same] at range
      omega
    simp only [sendMapObject, sendItem, readMapObject, append_assoc, read_word_sent,
      Option.bind_eq_bind, Option.bind_some]
    rw [if_neg (notCreature 99 (by decide)), if_neg (notCreature 98 (by decide)),
      if_neg (notCreature 97 (by decide)), read_item_sent]
    rfl
  | upToDate creatureId direction => simp [sendMapObject, readMapObject]
  | outdated creatureId appearance =>
    simp [sendMapObject, readMapObject, read_appearance_sent]
  | unknown replaced creatureId name short appearance =>
    simp [sendMapObject, readMapObject, read_string_sent, short, read_appearance_sent]

theorem first_word_sent (obj : ShownObject flags) :
    ∃ low high tail, sendMapObject obj = low :: high :: tail ∧
      (bytesWord low high).toNat < 0xFF00 := by
  have leads (word : UInt16) (small : word.toNat < 0xFF00) (tail : List UInt8) :
      ∃ low high more, wordBytes word ++ tail = low :: high :: more ∧
        (bytesWord low high).toNat < 0xFF00 := by
    exists word.toUInt8, (word >>> 8).toUInt8, tail
    rw [bytes_word_bytes]
    exact ⟨rfl, small⟩
  cases obj with
  | item shown => exact leads shown.typeId shown.belowSkips _
  | upToDate => exact leads 99 (by decide) _
  | outdated => exact leads 98 (by decide) _
  | unknown => exact leads 97 (by decide) _

/-- What `send_map_object` writes is an encoding as the descriptions need one. -/
def mapObjectCode (flags : UInt16 → ItemFlags) : ObjectCode (ShownObject flags) where
  encode := sendMapObject
  read := readMapObject flags
  reads := read_map_object_sent
  firstWord := first_word_sent

end MapObjects

end TibiaGame.MapDescription
