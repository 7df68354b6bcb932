import TibiaGame.ObjectStore
import TibiaGame.ScriptFiles
import TibiaGame.Library.LittleEndian

/-!
# Streams of objects

`save_objects` and `load_objects` of `map.cpp`, as far as they turn content lists into bytes and
these into text and back. The loops keep their depth by hand: a list that ends goes on with the
attributes of the object that holds it.
-/

namespace TibiaGame.ObjectStreams

open GameTypes ObjectStore DynamicStrings ScriptFiles Library.LittleEndian

variable {cfg : GameConfig}

def bufferEmpty {Value : Type} : Except Halt Value := .error (.exception "buffer empty")

def readByte : List UInt8 → Except Halt (UInt8 × List UInt8)
  | byte :: stream => .ok (byte, stream)
  | _ => bufferEmpty

def readWord : List UInt8 → Except Halt (UInt16 × List UInt8)
  | low :: high :: stream => .ok (bytesWord low high, stream)
  | _ => bufferEmpty

def readQuad : List UInt8 → Except Halt (UInt32 × List UInt8)
  | b0 :: b1 :: b2 :: b3 :: stream => .ok (bytesQuad b0 b1 b2 b3, stream)
  | _ => bufferEmpty

def readBytes (count : Nat) (stream : List UInt8) : Except Halt (List UInt8 × List UInt8) :=
  if stream.length < count then bufferEmpty else .ok (stream.take count, stream.drop count)

/-- The length of a string; a long one follows as an `int`. -/
def readLength (stream : List UInt8) : Except Halt (Int × List UInt8) := do
  let word ← readWord stream
  if word.1 = 0xFFFF then
    let quad ← readQuad word.2
    .ok (quad.1.toInt32.toInt, quad.2)
  else .ok (word.1.toNat, word.2)

/-- `read_string` into an array of `maxLength` bytes; what does not fit is skipped. -/
def readStreamString (maxLength : Nat) (stream : List UInt8) :
    Except Halt (List UInt8 × List UInt8) := do
  let length ← readLength stream
  if length.1 ≤ 0 then .ok ([], length.2)
  else if length.1 < maxLength then readBytes length.1.toNat length.2
  else
    let text ← readBytes (maxLength - 1) length.2
    let skipped ← readBytes (length.1.toNat - maxLength + 1) text.2
    .ok (text.1, skipped.2)

/-- `write_string`; a missing argument is the null pointer. -/
def stringBytes : Option (List UInt8) → List UInt8
  | none => wordBytes 0
  | some text =>
      (if text.length < 0xFFFF then wordBytes (UInt16.ofNat text.length)
        else wordBytes 0xFFFF ++ quadBytes (UInt32.ofNat text.length)) ++ text

def attributeName : InstanceAttribute → String
  | .content => "Content"
  | .chestQuestNumber => "ChestQuestNumber"
  | .amount => "Amount"
  | .keyNumber => "KeyNumber"
  | .keyholeNumber => "KeyholeNumber"
  | .doorLevel => "Level"
  | .doorQuestNumber => "DoorQuestNumber"
  | .doorQuestValue => "DoorQuestValue"
  | .charges => "Charges"
  | .textString => "String"
  | .editor => "Editor"
  | .containerLiquidType => "ContainerLiquidType"
  | .poolLiquidType => "PoolLiquidType"
  | .absTeleportDestination => "AbsTeleportDestination"
  | .responsible => "Responsible"
  | .remainingExpireTime => "RemainingExpireTime"
  | .savedExpireTime => "SavedExpireTime"
  | .remainingUses => "RemainingUses"

/-- `stricmp` finds no difference. -/
def sameName (left right : List UInt8) : Bool := left.map toLower == right.map toLower

def getInstanceAttributeByName (name : List UInt8) : Option InstanceAttribute :=
  instanceAttributes.find? fun attr => sameName (ascii (attributeName attr)) name

def isText (attr : InstanceAttribute) : Bool := attr == .textString || attr == .editor

def attributeByte (attr : InstanceAttribute) : UInt8 := UInt8.ofNat attr.number

section Saving

variable (world : World cfg)

def attributeValue (obj : Object) (attr : InstanceAttribute) : Except Halt UInt32 :=
  if attr = .remainingExpireTime then (cronInfo world obj false).map Prod.fst
  else .ok (getAttribute world obj attr)

def attributeBytes (obj : Object) (attr : InstanceAttribute) : Except Halt (List UInt8) :=
  if ((getObjectType world obj).getAttributeOffset attr).isSome then do
    let value ← attributeValue world obj attr
    if value = 0 then .ok []
    else if isText attr then
      .ok (attributeByte attr :: stringBytes (getDynamicString world.strings value))
    else .ok (attributeByte attr :: quadBytes value)
  else .ok []

def attributesBytes (obj : Object) : List InstanceAttribute → Except Halt (List UInt8)
  | [] => .ok []
  | attr :: attributes => do
      let bytes ← attributeBytes world obj attr
      let others ← attributesBytes obj attributes
      .ok (bytes ++ others)

def firstContent (obj : Object) : Object :=
  if (getObjectType world obj).holdsObjects then ⟨getAttribute world obj .content⟩ else NONE

/-- The loop of `save_objects` over objects, with `ProcessObjects` as a flag. -/
def saveLoop (stop : Bool) : Nat → Nat → Bool → Object → Object → Except Halt (List UInt8)
  | 0, _, _, _, _ => .error .hang
  | fuel + 1, depth, true, prev, obj =>
      if obj = NONE then
        if depth ≤ 1 then .ok (wordBytes 0xFFFF)
        else if stop && depth == 2 then .ok (wordBytes 0xFFFF ++ [0xFF])
        else do
          let holder := getContainer world prev
          let others ← saveLoop stop fuel (depth - 1) true holder (getNextObject world holder)
          .ok (wordBytes 0xFFFF ++ 0xFF :: others)
      else if (getObjectType world obj).isCreatureContainer then
        if stop && depth == 1 then .ok []
        else saveLoop stop fuel depth true obj (getNextObject world obj)
      else do
        let others ← saveLoop stop fuel depth false prev obj
        .ok (wordBytes (UInt16.ofNat (getObjectType world obj).typeID) ++ others)
  | fuel + 1, depth, false, _, obj => do
      let attributes ← attributesBytes world obj (instanceAttributes.drop 1)
      if firstContent world obj = NONE then
        if stop && depth == 1 then .ok (attributes ++ [0xFF])
        else
          let others ← saveLoop stop fuel depth true obj (getNextObject world obj)
          .ok (attributes ++ 0xFF :: others)
      else
        let others ← saveLoop stop fuel (depth + 1) true NONE (firstContent world obj)
        .ok (attributes ++ attributeByte .content :: others)

def saveObjects (fuel : Nat) (obj : Object) (stop : Bool) : Except Halt (List UInt8) :=
  saveLoop world stop fuel 1 true NONE obj

end Saving

def getInstanceAttributeName (attr : UInt8) : Except Halt (List UInt8) :=
  match instanceAttributes[attr.toNat]? with
  | none => .error .assertion
  | some attr => .ok (ascii (attributeName attr))

/-- The loop of `save_objects` over a stream: the text, and what is left of the stream. Every
turn takes a byte at least. -/
def printLoop : Nat → Nat → Bool → Bool → List UInt8 → Except Halt (List UInt8 × List UInt8)
  | 0, _, _, _, _ => .error .hang
  | turns + 1, depth, true, firstObject, stream => do
      let word ← readWord stream
      if word.1 = 0xFFFF then
        if depth ≤ 1 then .ok (ascii "\x7d", word.2)
        else
          let others ← printLoop turns (depth - 1) false firstObject word.2
          .ok (ascii "\x7d" ++ others.1, others.2)
      else
        let others ← printLoop turns depth false firstObject word.2
        .ok ((if firstObject then [] else ascii ", ") ++ numberText (Int32.ofNat word.1.toNat) ++
          others.1, others.2)
  | turns + 1, depth, false, firstObject, stream => do
      let attr ← readByte stream
      if attr.1 = 0xFF then printLoop turns depth true false attr.2
      else
        let name ← getInstanceAttributeName attr.1
        let start := ascii " " ++ name ++ ascii "="
        if attr.1 = attributeByte .content then
          let others ← printLoop turns (depth + 1) true true attr.2
          .ok (start ++ ascii "\x7b" ++ others.1, others.2)
        else if attr.1 = attributeByte .textString ∨ attr.1 = attributeByte .editor then
          let text ← readStreamString 4096 attr.2
          let others ← printLoop turns depth false firstObject text.2
          .ok (start ++ stringText (cString text.1) ++ others.1, others.2)
        else
          let value ← readQuad attr.2
          let others ← printLoop turns depth false firstObject value.2
          .ok (start ++ numberText value.1.toInt32 ++ others.1, others.2)

def printObjects (stream : List UInt8) : Except Halt (List UInt8 × List UInt8) :=
  (printLoop (stream.length + 1) 1 true true stream).map fun found =>
    (ascii "\x7b" ++ found.1, found.2)

def openBrace : UInt8 := 123
def closeBrace : UInt8 := 125

def hang {Value : Type} : Reading Value := fun _ => .error .hang

def put (skip : Bool) (stream bytes : List UInt8) : List UInt8 :=
  if skip then stream else stream ++ bytes

def lowWord (number : Int32) : UInt16 := number.toUInt32.toUInt16

/-- The loop of `load_objects` over a script: the stream that is written. -/
def parseLoop (cfg : GameConfig) (skip : Bool) :
    Nat → Nat → Bool → List UInt8 → Reading (List UInt8)
  | 0, _, _, _ => hang
  | fuel + 1, depth, true, stream => do
      match ← getToken with
      | .special char =>
          if char = closeBrace then
            if depth ≤ 1 then pure (put skip stream (wordBytes 0xFFFF))
            else
              nextToken
              parseLoop cfg skip fuel (depth - 1) false (put skip stream (wordBytes 0xFFFF))
          else if char = comma then
            nextToken
            parseLoop cfg skip fuel depth true stream
          else error "expected comma"
      | _ =>
          let typeID ← getNumber
          if objectTypeExists cfg typeID.toInt then
            nextToken
            parseLoop cfg skip fuel depth false (put skip stream (wordBytes (lowWord typeID)))
          else error "unknown object type"
  | fuel + 1, depth, false, stream => do
      match ← getToken with
      | .special _ => parseLoop cfg skip fuel depth true (put skip stream [0xFF])
      | _ =>
          let name ← getIdentifier
          match getInstanceAttributeByName name with
          | none => error "unknown attribute"
          | some attr =>
              readSymbol equals
              if attr = .content then
                readSymbol openBrace
                nextToken
                parseLoop cfg skip fuel (depth + 1) true (put skip stream [attributeByte attr])
              else if isText attr then
                let text ← readString
                nextToken
                parseLoop cfg skip fuel depth false
                  (put skip stream (attributeByte attr :: stringBytes (some text)))
              else
                let value ← readNumber
                nextToken
                parseLoop cfg skip fuel depth false
                  (put skip stream (attributeByte attr :: quadBytes value.toUInt32))

def parseObjects (cfg : GameConfig) (fuel : Nat) (skip : Bool) (stream : List UInt8) :
    Reading (List UInt8) := do
  readSymbol openBrace
  nextToken
  parseLoop cfg skip fuel 1 true stream

end TibiaGame.ObjectStreams
