import TibiaGame.GameTypes
import TibiaGame.DynamicStrings

/-!
# Script files

`ReadScriptFile` and `WriteScriptFile` of `script.cpp`. A script is read token by token; a file
may include another one, which is read to its end before the first one goes on. What is
written is given as text.
-/

namespace TibiaGame.ScriptFiles

open GameTypes DynamicStrings

def ascii (text : String) : List UInt8 := text.toList.map fun char => UInt8.ofNat char.toNat

def lineFeed : UInt8 := 10
def quote : UInt8 := 34
def numberSign : UInt8 := 35
def comma : UInt8 := 44
def minus : UInt8 := 45
def less : UInt8 := 60
def equals : UInt8 := 61
def greater : UInt8 := 62
def atSign : UInt8 := 64
def openBracket : UInt8 := 91
def backslash : UInt8 := 92
def closeBracket : UInt8 := 93
def underscore : UInt8 := 95

def isSpace (char : UInt8) : Bool := char == 32 || (decide (9 ≤ char) && decide (char ≤ 13))

/-- The umlauts of the source are negative numbers, which `getc` does not return. -/
def isAlpha (char : UInt8) : Bool :=
  (decide (65 ≤ char) && decide (char ≤ 90)) || (decide (97 ≤ char) && decide (char ≤ 122))

def isDigit (char : UInt8) : Bool := decide (48 ≤ char) && decide (char ≤ 57)

def digit (char : UInt8) : Int32 := Int32.ofNat (char.toNat - 48)

/-- `toLower` of a `char`, which is negative from 128 on. -/
def toLower (char : UInt8) : UInt8 := if 65 ≤ char ∧ char ≤ 90 then char + 32 else char

inductive Token where
  | endOfFile
  | identifier (text : List UInt8)
  | number (number : Int32)
  | string (text : List UInt8)
  | bytes (sequence : List UInt8)
  | coordinate (x y z : Int32)
  | special (char : UInt8)
  deriving DecidableEq

structure OpenFile where
  filename : String
  line : Nat
  rest : List UInt8

/-- The files of a reader, the one that is read first, and what it finds on the disk. -/
structure ReadScriptFile where
  disk : String → Option (List UInt8)
  files : List OpenFile
  token : Token

structure Mistake where
  line : Nat
  text : String

/-- One character more of a string of `length` characters; the array has 4000. -/
def store (line length : Nat) (char : UInt8)
    (further : Except Mistake (List UInt8 × Nat × List UInt8)) :
    Except Mistake (List UInt8 × Nat × List UInt8) :=
  if 3999 ≤ length then .error ⟨line, "string too long"⟩
  else further.map fun found => (char :: found.1, found.2)

def scanString (line length : Nat) : List UInt8 → Except Mistake (List UInt8 × Nat × List UInt8)
  | [] => .error ⟨line, "unexpected end of file"⟩
  | char :: rest =>
      if char = backslash then
        match rest with
        | [] => .error ⟨line, "unexpected end of file"⟩
        | next :: rest =>
            store line length (if next = 110 then lineFeed else next)
              (scanString line (length + 1) rest)
      else if char = lineFeed then
        store (line + 1) length char (scanString (line + 1) (length + 1) rest)
      else if char = quote then .ok ([], line, rest)
      else store line length char (scanString line (length + 1) rest)

def scanFilename (line length : Nat) : List UInt8 → Except Mistake (List UInt8 × Nat × List UInt8)
  | [] => .error ⟨line, "unexpected end of file"⟩
  | char :: rest =>
      if char = quote then .ok ([], line, rest)
      else store line length char (scanFilename line (length + 1) rest)

def scanDigits (line : Nat) (stop : UInt8) (coord : Int32) :
    List UInt8 → Except Mistake (Int32 × List UInt8)
  | [] => .error ⟨line, "unexpected end of file"⟩
  | char :: rest =>
      if isDigit char then scanDigits line stop (coord * 10 + digit char) rest
      else if char = stop then .ok (coord, rest)
      else .error ⟨line, "syntax error"⟩

def scanCoordinate (line : Nat) (stop : UInt8) : List UInt8 → Except Mistake (Int32 × List UInt8)
  | [] => .error ⟨line, "syntax error"⟩
  | char :: rest =>
      if isDigit char then scanDigits line stop (digit char) rest
      else if char = minus then
        (scanDigits line stop 0 rest).map fun found => (-1 * found.1, found.2)
      else .error ⟨line, "syntax error"⟩

def startsCoordinate : List UInt8 → Bool
  | [] => false
  | char :: _ => isDigit char || char == minus

/-- What follows a `[`. -/
def scanBracket (line : Nat) (rest : List UInt8) : Except Mistake (Token × List UInt8) :=
  if startsCoordinate rest then do
    let x ← scanCoordinate line comma rest
    let y ← scanCoordinate line comma x.2
    let z ← scanCoordinate line closeBracket y.2
    .ok (.coordinate x.1 y.1 z.1, z.2)
  else .ok (.special openBracket, rest)

def scanIdentifier (line length : Nat) : List UInt8 → Except Mistake (List UInt8 × List UInt8)
  | [] => .ok ([], [])
  | char :: rest =>
      if isAlpha char || isDigit char || char == underscore then
        if 29 ≤ length then .error ⟨line, "identifier too long"⟩
        else (scanIdentifier line (length + 1) rest).map fun found => (char :: found.1, found.2)
      else .ok ([], char :: rest)

def lastByte (number : Int32) : UInt8 := number.toUInt32.toUInt8

def finishNumber (line : Nat) (sequence : List UInt8) (number : Int32) (rest : List UInt8) :
    Except Mistake (Token × List UInt8) :=
  if sequence = [] then .ok (.number number, rest)
  else if 4000 ≤ sequence.length then .error ⟨line, "too many bytes"⟩
  else .ok (.bytes (sequence ++ [lastByte number]), rest)

/-- A number, or numbers with `-` between them, which are the bytes of a sequence. -/
def scanNumber (line : Nat) (sequence : List UInt8) (number : Int32) :
    List UInt8 → Except Mistake (Token × List UInt8)
  | [] => finishNumber line sequence number []
  | char :: rest =>
      if isDigit char then scanNumber line sequence (number * 10 + digit char) rest
      else if char = minus then
        if 4000 ≤ sequence.length then .error ⟨line, "too many bytes"⟩
        else
          match rest with
          | [] => .error ⟨line, "unexpected end of file"⟩
          | next :: rest =>
              if isDigit next then
                scanNumber line (sequence ++ [lastByte number]) (digit next) rest
              else .error ⟨line, "syntax error"⟩
      else finishNumber line sequence number (char :: rest)

/-- A special character, or one of two if `second` follows. -/
def scanPair (first second both : UInt8) : List UInt8 → Token × List UInt8
  | [] => (.special first, [])
  | next :: rest => if next = second then (.special both, rest) else (.special first, next :: rest)

def scanLess (rest : List UInt8) : Token × List UInt8 :=
  match rest with
  | [] => (.special less, [])
  | next :: after =>
      if next = equals then (.special 76, after) else scanPair less greater 78 (next :: after)

def scanToken (line : Nat) (char : UInt8) (rest : List UInt8) :
    Except Mistake (Token × Nat × List UInt8) :=
  if char = quote then
    (scanString line 0 rest).map fun found => (.string found.1, found.2)
  else if char = openBracket then
    (scanBracket line rest).map fun found => (found.1, line, found.2)
  else if char = less then .ok ((scanLess rest).1, line, (scanLess rest).2)
  else if char = greater then
    .ok ((scanPair greater equals 71 rest).1, line, (scanPair greater equals 71 rest).2)
  else if char = minus then
    .ok ((scanPair minus greater 73 rest).1, line, (scanPair minus greater 73 rest).2)
  else if isAlpha char then
    (scanIdentifier line 1 rest).map fun found => (.identifier (char :: found.1), line, found.2)
  else if isDigit char then
    (scanNumber line [] (digit char) rest).map fun found => (found.1, line, found.2)
  else .ok (.special char, line, rest)

/-- Blanks and comments are passed over; `comment` says whether one has begun. -/
def skipBlanks (line : Nat) (comment : Bool) : List UInt8 → Nat × List UInt8
  | [] => (line, [])
  | char :: rest =>
      if char = lineFeed then skipBlanks (line + 1) false rest
      else if comment || isSpace char then skipBlanks line comment rest
      else if char = numberSign then skipBlanks line true rest
      else (line, char :: rest)

inductive Found where
  | token (token : Token)
  | include (filename : List UInt8)
  | finished

def scanInclude (line : Nat) : List UInt8 → Except Mistake (List UInt8 × Nat × List UInt8)
  | [] => .error ⟨line, "unexpected end of file"⟩
  | char :: rest =>
      if char = quote then scanFilename line 0 rest else .error ⟨line, "syntax error"⟩

def scanFile (line : Nat) (text : List UInt8) : Except Mistake (Found × Nat × List UInt8) :=
  let place := skipBlanks line false text
  match place.2 with
  | [] => .ok (.finished, place)
  | char :: rest =>
      if char = atSign then
        (scanInclude place.1 rest).map fun found => (.include found.1, found.2)
      else (scanToken place.1 char rest).map fun found => (.token found.1, found.2)

def baseName (filename : String) : String :=
  String.ofList (filename.toList.reverse.takeWhile (· != '/')).reverse

/-- The exception that `error` throws; its text is cut at the end of `ErrorString`. -/
def scriptError (filename : String) (mistake : Mistake) : Halt :=
  .exception (String.ofList (("error in script-file \"" ++ baseName filename ++ "\", line " ++
    toString mistake.line ++ ": " ++ mistake.text).toList.take 99))

def byteString (bytes : List UInt8) : String :=
  String.ofList (bytes.map fun byte => Char.ofNat byte.toNat)

/-- A relative name is looked up beside the file that names it. -/
def includedName (files : List OpenFile) (filename : String) : String :=
  match files with
  | [] => filename
  | file :: _ =>
      if filename.toList.head? = some '/' then filename
      else String.ofList
        (file.filename.toList.take
          (file.filename.toList.length - (baseName file.filename).toList.length) ++ filename.toList)

/-- `open`; the array of files has three entries, of which the last one stays unused. -/
def openFile (disk : String → Option (List UInt8)) (files : List OpenFile) (filename : String) :
    Except Halt (List OpenFile) :=
  if 3 ≤ files.length + 1 then .error (.exception "Recursion depth too high")
  else
    match disk (includedName files filename) with
    | none => .error (.exception "Cannot open script-file")
    | some text => .ok (⟨includedName files filename, 1, text⟩ :: files)

/-- The loop of `next_token` over the files. Between two turns a file ends, or one character at
least of the file below it is read. -/
def nextFound (disk : String → Option (List UInt8)) :
    Nat → List OpenFile → Except Halt (List OpenFile × Token)
  | 0, _ => .error .hang
  | _ + 1, [] => .ok ([], .endOfFile)
  | turns + 1, file :: outer =>
      match scanFile file.line file.rest with
      | .error mistake => .error (scriptError file.filename mistake)
      | .ok found =>
          let now : OpenFile := ⟨file.filename, found.2.1, found.2.2⟩
          match found.1 with
          | .token token => .ok (now :: outer, token)
          | .include filename =>
              (openFile disk (now :: outer) (byteString filename)).bind (nextFound disk turns)
          | .finished =>
              if outer = [] then .ok ([now], .endOfFile) else nextFound disk turns outer

def turns (files : List OpenFile) : Nat :=
  2 * ((files.getLast?.map fun file => file.rest.length).getD 0) + files.length + 1

section Reading

abbrev Reading (Value : Type) : Type := StateT ReadScriptFile (Except Halt) Value

variable {Value : Type}

def nextToken : Reading Unit := fun script =>
  (nextFound script.disk (turns script.files) script.files).map fun found =>
    ((), ⟨script.disk, found.1, found.2⟩)

def error (text : String) : Reading Value := fun script =>
  match script.files with
  | [] => .error .assertion
  | file :: _ => .error (scriptError file.filename ⟨file.line, text⟩)

def getToken : Reading Token := fun script => .ok (script.token, script)

def getIdentifier : Reading (List UInt8) := do
  match ← getToken with
  | .identifier text => pure (text.map toLower)
  | _ => error "identifier expected"

def getNumber : Reading Int32 := do
  match ← getToken with
  | .number number => pure number
  | _ => error "number expected"

def getString : Reading (List UInt8) := do
  match ← getToken with
  | .string text => pure (cString text)
  | _ => error "string expected"

def getBytesequence : Reading (List UInt8) := do
  match ← getToken with
  | .bytes sequence => pure sequence
  | _ => error "byte-sequence expected"

def getCoordinate : Reading (Int32 × Int32 × Int32) := do
  match ← getToken with
  | .coordinate x y z => pure (x, y, z)
  | _ => error "coordinates expected"

def getSpecial : Reading UInt8 := do
  match ← getToken with
  | .special char => pure char
  | _ => error "special-char expected"

def readIdentifier : Reading (List UInt8) := do
  nextToken
  getIdentifier

def readNumber : Reading Int32 := do
  nextToken
  if (← getToken) = .special minus then
    nextToken
    let number ← getNumber
    pure (-1 * number)
  else
    let number ← getNumber
    pure (1 * number)

def readString : Reading (List UInt8) := do
  nextToken
  getString

def readBytesequence : Reading (List UInt8) := do
  nextToken
  getBytesequence

def readCoordinate : Reading (Int32 × Int32 × Int32) := do
  nextToken
  getCoordinate

def readSpecial : Reading UInt8 := do
  nextToken
  getSpecial

def readSymbol (symbol : UInt8) : Reading Unit := do
  let special ← readSpecial
  if special ≠ symbol then error "symbol mismatch"

end Reading

/-- The digits of `%u`. -/
def digitsText (number : Nat) : List UInt8 :=
  if number = 0 then [48]
  else (Nat.digits 10 number).reverse.map fun value => UInt8.ofNat (48 + value)

def numberText (number : Int32) : List UInt8 :=
  if number.toInt < 0 then minus :: digitsText number.toInt.natAbs
  else digitsText number.toInt.natAbs

def escaped (char : UInt8) : List UInt8 :=
  if char = quote ∨ char = backslash then [backslash, char]
  else if char = lineFeed then [backslash, 110]
  else [char]

def stringText (text : List UInt8) : List UInt8 := quote :: text.flatMap escaped ++ [quote]

def coordinateText (x y z : Int32) : Except Halt (List UInt8) :=
  if x < 0 ∨ y < 0 ∨ z < 0 then .error (.exception "Invalid coordinates")
  else .ok (openBracket :: digitsText x.toInt.natAbs ++ comma :: digitsText y.toInt.natAbs ++
    comma :: digitsText z.toInt.natAbs ++ [closeBracket])

/-- Bytes with `-` between them. -/
def bytesequenceText (sequence : List UInt8) : List UInt8 :=
  (sequence.map fun byte => digitsText byte.toNat).intersperse [minus] |>.flatten

end TibiaGame.ScriptFiles
