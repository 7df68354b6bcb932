import TibiaGame.ObjectStreams
import TibiaGame.Library.CountedLoop

/-!
# The responses of the query manager

The functions of `QueryClient` that read a number of rows from a response into arrays of their
caller. What cannot be read, because the response has ended, is zero.
-/

namespace TibiaGame.QueryResponses

open List

open TibiaGame.ObjectStreams (readByte readWord readQuad)
open Library.CountedLoop

inductive Column where
  | houseIDs
  | characterIDs
  | names
  | amounts
  | data
  deriving DecidableEq

/-- An entry that is written, or one character of an entry that is a string. -/
inductive Write where
  | entry (column : Column) (index : Nat) (value : Int)
  | character (column : Column) (index offset : Nat) (value : UInt8)
  deriving DecidableEq

/-- The `get` functions read nothing when the read throws. -/
def getByte (stream : List UInt8) : UInt8 × List UInt8 :=
  match readByte stream with
  | .ok read => read
  | .error _ => (0, stream)

def getWord (stream : List UInt8) : UInt16 × List UInt8 :=
  match readWord stream with
  | .ok read => read
  | .error _ => (0, stream)

def getQuad (stream : List UInt8) : UInt32 × List UInt8 :=
  match readQuad stream with
  | .ok read => read
  | .error _ => (0, stream)

/-- The offsets and values of characters from the beginning of a string on. -/
def copied (text : List UInt8) : List (Nat × UInt8) := text.zipIdx.map fun pair => (pair.2, pair.1)

/-- `read_string` behind the length, with what it writes. Each read that throws ends it, and
`get_string` then makes the string empty. -/
def fillString (maxLength : Nat) (length : Int) (stream : List UInt8) :
    List UInt8 × List (Nat × UInt8) :=
  if length > 0 then
    if maxLength > length then
      if stream.length < length then (stream, [(0, 0)])
      else (stream.drop length.toNat, copied (stream.take length.toNat) ++ [(length.toNat, 0)])
    else if (maxLength : Int) - 1 ≤ 0 ∨ stream.length < maxLength - 1 then (stream, [(0, 0)])
    else
      let text := stream.take (maxLength - 1)
      let rest := stream.drop (maxLength - 1)
      if rest.length < length - maxLength + 1 then (rest, copied text ++ [(0, 0)])
      else
        (rest.drop (length - maxLength + 1).toNat, copied text ++ [(maxLength - 1, 0)])
  else (stream, [(0, 0)])

def getString (maxLength : Nat) (stream : List UInt8) : List UInt8 × List (Nat × UInt8) :=
  match readWord stream with
  | .error _ => (stream, [(0, 0)])
  | .ok word =>
      if word.1 = 0xFFFF then
        match readQuad word.2 with
        | .error _ => (word.2, [(0, 0)])
        | .ok quad => fillString maxLength quad.1.toInt32.toInt quad.2
      else fillString maxLength word.1.toNat word.2

structure Decoding where
  stream : List UInt8
  writes : List Write
  deriving DecidableEq

def Decoding.word (decoding : Decoding) (column : Column) (index : Nat) : Decoding :=
  let read := getWord decoding.stream
  ⟨read.2, decoding.writes ++ [.entry column index read.1.toNat]⟩

def Decoding.quad (decoding : Decoding) (column : Column) (index : Nat) : Decoding :=
  let read := getQuad decoding.stream
  ⟨read.2, decoding.writes ++ [.entry column index read.1.toNat]⟩

/-- A double word that is kept as an `int`. -/
def Decoding.number (decoding : Decoding) (column : Column) (index : Nat) : Decoding :=
  let read := getQuad decoding.stream
  ⟨read.2, decoding.writes ++ [.entry column index read.1.toInt32.toInt]⟩

def Decoding.name (decoding : Decoding) (column : Column) (index : Nat) : Decoding :=
  let read := getString 30 decoding.stream
  ⟨read.1, decoding.writes ++ read.2.map fun pair => .character column index pair.1 pair.2⟩

def fullRow (index : Nat) (decoding : Decoding) : Decoding :=
  (((decoding.word .houseIDs index).quad .characterIDs index).name .names index).number .amounts
    index

def ownerRow (index : Nat) (decoding : Decoding) : Decoding :=
  (decoding.word .houseIDs index).quad .characterIDs index

def houseRow (index : Nat) (decoding : Decoding) : Decoding := decoding.word .houseIDs index

/-- `0xFFFF` stands for a missing value. -/
def loadRow (index : Nat) (decoding : Decoding) : Decoding :=
  let read := getWord decoding.stream
  let loaded : Decoding := ⟨read.2, decoding.writes ++ [.entry .data index read.1.toNat]⟩
  if read.1 = 0xFFFF then { loaded with writes := loaded.writes ++ [.entry .data index (-1)] }
  else loaded

/-- What a function returns, the number it leaves to its caller, and what it has written. -/
structure Decoded where
  result : Int
  number : Int
  writes : List Write
  deriving DecidableEq

def statusOk : UInt8 := 0

def statusFailed : UInt8 := 3

/-- The response that `executeQuery` has accepted, if there is one, and its status. -/
def executed : Option (List UInt8) → UInt8 × List UInt8
  | none => (statusFailed, [])
  | some response => getByte response

/-- A function without its own reading: nothing is read unless the status says that all is well. -/
def whenOk (answer : Option (List UInt8)) (number : Int)
    (decode : List UInt8 → Option Decoded) : Option Decoded :=
  let status := executed answer
  if status.1 = statusOk then decode status.2 else some ⟨-1, number, []⟩

/-- As many rows as the response says, if the caller has room for them. -/
def countedRows (row : Nat → Decoding → Decoding) (fuel : Nat) (maxNumber : Int)
    (answer : Option (List UInt8)) : Option Decoded :=
  whenOk answer maxNumber fun stream =>
    let count := getWord stream
    if (count.1.toNat : Int) > maxNumber then some ⟨-1, count.1.toNat, []⟩
    else (forLoop count.1.toNat 1 row fuel 0 ⟨count.2, []⟩).map fun decoding =>
      ⟨0, count.1.toNat, decoding.writes⟩

def finishAuctions : Nat → Int → Option (List UInt8) → Option Decoded := countedRows fullRow

def transferHouses : Nat → Int → Option (List UInt8) → Option Decoded := countedRows fullRow

def evictFreeAccounts : Nat → Int → Option (List UInt8) → Option Decoded := countedRows ownerRow

def evictDeletedCharacters : Nat → Int → Option (List UInt8) → Option Decoded :=
  countedRows houseRow

def getHouseOwners : Nat → Int → Option (List UInt8) → Option Decoded := countedRows fullRow

def getAuctions : Nat → Int → Option (List UInt8) → Option Decoded := countedRows houseRow

/-- This one does not look at its room. What it leaves to its caller when the query fails is what
was there before. -/
def evictExGuildleaders (fuel : Nat) (before : Int) (answer : Option (List UInt8)) :
    Option Decoded :=
  whenOk answer before fun stream =>
    let count := getWord stream
    (forLoop count.1.toNat 1 houseRow fuel 0 ⟨count.2, []⟩).map fun decoding =>
      ⟨0, count.1.toNat, decoding.writes⟩

/-- The loop says `i += 0`. -/
def getServerLoad (fuel : Nat) (answer : Option (List UInt8)) : Option Decoded :=
  whenOk answer 600 fun stream =>
    (forLoop 600 0 loadRow fuel 0 ⟨stream, []⟩).map fun decoding => ⟨0, 600, decoding.writes⟩

inductive Query where
  | finishAuctions (numberOfAuctions : Int)
  | transferHouses (numberOfTransfers : Int)
  | evictFreeAccounts (numberOfEvictions : Int)
  | evictDeletedCharacters (numberOfEvictions : Int)
  | evictExGuildleaders (numberOfGuildhouses numberOfEvictions : Int)
  | getHouseOwners (numberOfOwners : Int)
  | getAuctions (numberOfAuctions : Int)
  | getServerLoad
  deriving DecidableEq

def Query.decode (fuel : Nat) (answer : Option (List UInt8)) : Query → Option Decoded
  | .finishAuctions number => QueryResponses.finishAuctions fuel number answer
  | .transferHouses number => QueryResponses.transferHouses fuel number answer
  | .evictFreeAccounts number => QueryResponses.evictFreeAccounts fuel number answer
  | .evictDeletedCharacters number => QueryResponses.evictDeletedCharacters fuel number answer
  | .evictExGuildleaders _ before => QueryResponses.evictExGuildleaders fuel before answer
  | .getHouseOwners number => QueryResponses.getHouseOwners fuel number answer
  | .getAuctions number => QueryResponses.getAuctions fuel number answer
  | .getServerLoad => QueryResponses.getServerLoad fuel answer

def Query.capacity : Query → Int
  | .finishAuctions number => number
  | .transferHouses number => number
  | .evictFreeAccounts number => number
  | .evictDeletedCharacters number => number
  | .evictExGuildleaders guildhouses _ => guildhouses
  | .getHouseOwners number => number
  | .getAuctions number => number
  | .getServerLoad => 600

/-- The entry is one of the array, and a character one of the thirty of its name. -/
def Write.Inside (capacity : Int) : Write → Prop
  | entry _ index _ => (index : Int) < capacity
  | character _ index offset _ => (index : Int) < capacity ∧ offset < 30

/-- The function ends, and all that it writes is inside the arrays. -/
def Query.Safe (query : Query) (answer : Option (List UInt8)) : Prop :=
  ∃ least decoded, (∀ fuel, least < fuel → query.decode fuel answer = some decoded) ∧
    ∀ write ∈ decoded.writes, write.Inside query.capacity

/-- What a good response must be for: `getServerLoad` has none, and `evictExGuildleaders` needs one
with no more rows than guild houses. -/
def Query.Fits (query : Query) (response : List UInt8) : Prop :=
  match query with
  | .evictExGuildleaders guildhouses _ => (getWord response).1.toNat ≤ guildhouses.toNat
  | .getServerLoad => False
  | _ => True

section Safety

variable {capacity : Int} {index : Nat} {decoding : Decoding}

def Decoding.Inside (capacity : Int) (decoding : Decoding) : Prop :=
  ∀ write ∈ decoding.writes, write.Inside capacity

theorem copied_within {text : List UInt8} {pair : Nat × UInt8} (member : pair ∈ copied text) :
    pair.1 < text.length := by
  rcases mem_map.mp member with ⟨source, listed, same⟩
  rw [← same]
  have place := snd_lt_of_mem_zipIdx listed
  omega

theorem fill_string_within {maxLength : Nat} (room : 0 < maxLength) (length : Int)
    (stream : List UInt8) : ∀ pair ∈ (fillString maxLength length stream).2, pair.1 < maxLength := by
  have first : ∀ pair ∈ [((0 : Nat), (0 : UInt8))], pair.1 < maxLength := by
    intro pair member
    rw [mem_singleton.mp member]
    exact room
  unfold fillString
  by_cases positive : length > 0
  · rw [if_pos positive]
    by_cases short : maxLength > length
    · rw [if_pos short]
      by_cases missing : stream.length < length
      · rw [if_pos missing]
        exact first
      rw [if_neg missing]
      intro pair member
      rcases mem_append.mp member with text | last
      · have place := copied_within text
        rw [length_take] at place
        omega
      rw [mem_singleton.mp last]
      dsimp only
      omega
    rw [if_neg short]
    by_cases missing : (maxLength : Int) - 1 ≤ 0 ∨ stream.length < maxLength - 1
    · rw [if_pos missing]
      exact first
    have text : ∀ pair ∈ copied (stream.take (maxLength - 1)), pair.1 < maxLength := by
      intro pair member
      have place := copied_within member
      rw [length_take] at place
      omega
    dsimp only
    split_ifs
    · intro pair member
      rcases mem_append.mp member with inner | last
      · exact text pair inner
      · exact first pair last
    intro pair member
    rcases mem_append.mp member with inner | last
    · exact text pair inner
    rw [mem_singleton.mp last]
    omega
  rw [if_neg positive]
  exact first

theorem get_string_within {maxLength : Nat} (room : 0 < maxLength) (stream : List UInt8) :
    ∀ pair ∈ (getString maxLength stream).2, pair.1 < maxLength := by
  have first : ∀ pair ∈ [((0 : Nat), (0 : UInt8))], pair.1 < maxLength := by
    intro pair member
    rw [mem_singleton.mp member]
    exact room
  unfold getString
  rcases readWord stream with halt | word
  · exact first
  dsimp only
  by_cases long : word.1 = 0xFFFF
  · rw [if_pos long]
    cases readQuad word.2 with
    | error halt => exact first
    | ok quad => exact fill_string_within room _ _
  rw [if_neg long]
  exact fill_string_within room _ _

theorem inside_snoc {writes : List Write} {write : Write} {stream other : List UInt8}
    (before : Decoding.Inside capacity ⟨stream, writes⟩) (inside : write.Inside capacity) :
    Decoding.Inside capacity ⟨other, writes ++ [write]⟩ := by
  intro found member
  rcases mem_append.mp member with old | new
  · exact before found old
  rw [mem_singleton.mp new]
  exact inside

section Fields

variable {column : Column} (before : decoding.Inside capacity) (inside : (index : Int) < capacity)

include before inside

theorem word_inside : (decoding.word column index).Inside capacity := inside_snoc before inside

theorem quad_inside : (decoding.quad column index).Inside capacity := inside_snoc before inside

theorem number_inside : (decoding.number column index).Inside capacity := inside_snoc before inside

theorem name_inside : (decoding.name column index).Inside capacity := by
  intro found member
  rcases mem_append.mp member with old | new
  · exact before found old
  rcases mem_map.mp new with ⟨pair, listed, same⟩
  rw [← same]
  exact ⟨inside, get_string_within (by decide) _ pair listed⟩

theorem full_row_inside : (fullRow index decoding).Inside capacity :=
  number_inside (name_inside (quad_inside (word_inside before inside) inside) inside) inside

theorem owner_row_inside : (ownerRow index decoding).Inside capacity :=
  quad_inside (word_inside before inside) inside

theorem house_row_inside : (houseRow index decoding).Inside capacity := word_inside before inside

end Fields

def RowInside (row : Nat → Decoding → Decoding) : Prop :=
  ∀ (capacity : Int) (index : Nat) (decoding : Decoding), decoding.Inside capacity →
    (index : Int) < capacity →
    (row index decoding).Inside capacity

theorem rows_inside {row : Nat → Decoding → Decoding} (rowInside : RowInside row) {count : Nat}
    {stream : List UInt8} (fits : (count : Int) ≤ capacity) :
    (rounds row 0 count ⟨stream, []⟩).Inside capacity := by
  apply rounds_invariant (fun _ decoding => Decoding.Inside capacity decoding)
  · nofun
  · intro place decoding inside before
    exact rowInside capacity place decoding before (by omega)

variable {answer : Option (List UInt8)}

theorem when_not_ok (failed : (executed answer).1 ≠ statusOk) (number : Int)
    (decode : List UInt8 → Option Decoded) :
    whenOk answer number decode = some ⟨-1, number, []⟩ := by
  rw [whenOk, if_neg failed]

theorem when_ok (fine : (executed answer).1 = statusOk) (number : Int)
    (decode : List UInt8 → Option Decoded) :
    whenOk answer number decode = decode (executed answer).2 := by
  rw [whenOk, if_pos fine]

def Ends (capacity : Int) (decode : Nat → Option Decoded) : Prop :=
  ∃ least decoded, (∀ fuel, least < fuel → decode fuel = some decoded) ∧
    ∀ write ∈ decoded.writes, write.Inside capacity

theorem ends_at_once {decode : Nat → Option Decoded} {result number : Int}
    (ended : ∀ fuel, decode fuel = some ⟨result, number, []⟩) : Ends capacity decode := by
  refine ⟨0, ⟨result, number, []⟩, fun fuel _ => ended fuel, ?_⟩
  nofun

theorem counted_rows_ok {row : Nat → Decoding → Decoding} (fine : (executed answer).1 = statusOk)
    (fuel : Nat) (maxNumber : Int) :
    countedRows row fuel maxNumber answer =
      if ((getWord (executed answer).2).1.toNat : Int) > maxNumber then
        some ⟨-1, (getWord (executed answer).2).1.toNat, []⟩
      else (forLoop (getWord (executed answer).2).1.toNat 1 row fuel 0
          ⟨(getWord (executed answer).2).2, []⟩).map
        fun decoding => ⟨0, (getWord (executed answer).2).1.toNat, decoding.writes⟩ := by
  rw [countedRows, when_ok fine]

theorem counted_rows_end {row : Nat → Decoding → Decoding} (rowInside : RowInside row)
    (maxNumber : Int) (answer : Option (List UInt8)) :
    Ends maxNumber fun fuel => countedRows row fuel maxNumber answer := by
  by_cases fine : (executed answer).1 = statusOk
  · simp only [counted_rows_ok fine]
    by_cases many : ((getWord (executed answer).2).1.toNat : Int) > maxNumber
    · simp only [if_pos many]
      exact ends_at_once fun _ => rfl
    simp only [if_neg many]
    refine ⟨(getWord (executed answer).2).1.toNat, ⟨0, (getWord (executed answer).2).1.toNat,
      (rounds row 0 (getWord (executed answer).2).1.toNat
        ⟨(getWord (executed answer).2).2, []⟩).writes⟩, ?_, ?_⟩
    · intro fuel enough
      exact congrArg (Option.map _) (for_loop_ends enough)
    · exact rows_inside rowInside (Int.not_lt.mp many)
  · exact ends_at_once fun fuel => when_not_ok fine maxNumber _

theorem full_rows : RowInside fullRow := fun _ _ _ => full_row_inside

theorem owner_rows : RowInside ownerRow := fun _ _ _ => owner_row_inside

theorem house_rows : RowInside houseRow := fun _ _ _ => house_row_inside

theorem house_rows_written {count place : Nat} {stream : List UInt8} (inside : place < count) :
    ∃ value, Write.entry .houseIDs place value ∈ (rounds houseRow 0 count ⟨stream, []⟩).writes := by
  have every := @rounds_invariant Decoding houseRow
    (fun index decoding => ∀ place < index, ∃ value,
      Write.entry .houseIDs place value ∈ decoding.writes) 0 count ⟨stream, []⟩
    (fun place impossible => absurd impossible (Nat.not_lt_zero place)) (by
      intro index decoding _ written place before
      rcases Nat.lt_succ_iff_lt_or_eq.mp before with old | now
      · rcases written place old with ⟨value, member⟩
        exact ⟨value, mem_append_left _ member⟩
      rw [now]
      exact ⟨_, mem_append_right _ mem_cons_self⟩)
  rw [Nat.zero_add] at every
  exact every place inside

theorem evict_ex_guildleaders_iff (guildhouses before : Int) (fine : (executed answer).1 = statusOk) :
    (Query.evictExGuildleaders guildhouses before).Safe answer ↔
      (getWord (executed answer).2).1.toNat ≤ guildhouses.toNat := by
  have decoded : ∀ fuel, (getWord (executed answer).2).1.toNat < fuel →
      (Query.evictExGuildleaders guildhouses before).decode fuel answer =
        some ⟨0, (getWord (executed answer).2).1.toNat,
          (rounds houseRow 0 (getWord (executed answer).2).1.toNat
            ⟨(getWord (executed answer).2).2, []⟩).writes⟩ := by
    intro fuel enough
    rw [Query.decode, QueryResponses.evictExGuildleaders, when_ok fine]
    exact congrArg (Option.map _) (for_loop_ends enough)
  generalize (getWord (executed answer).2).1.toNat = count at decoded ⊢
  constructor
  · intro safe
    rcases safe with ⟨least, found, ended, inside⟩
    have same := Option.some.inj ((ended (least + count + 1) (by omega)).symm.trans
      (decoded (least + count + 1) (by omega)))
    by_contra many
    rcases @house_rows_written count (count - 1) (getWord (executed answer).2).2 (by omega) with
      ⟨value, written⟩
    rw [same] at inside
    have place : ((count - 1 : Nat) : Int) < guildhouses := inside _ written
    omega
  intro few
  refine ⟨count, _, fun fuel enough => decoded fuel enough, ?_⟩
  by_cases empty : count = 0
  · rw [empty]
    nofun
  · exact rows_inside house_rows (show (count : Int) ≤ guildhouses by omega)

theorem server_load_never_ends (fine : (executed answer).1 = statusOk) (fuel : Nat) :
    Query.getServerLoad.decode fuel answer = none := by
  rw [Query.decode, QueryResponses.getServerLoad, when_ok fine, for_loop_stuck (by decide)]
  rfl

/-- Every response is decoded to its end and inside the arrays of the caller, but for a good one
that `getServerLoad` gets or that has more rows than `evictExGuildleaders` has room for. -/
theorem responses_decoded_iff (query : Query) (answer : Option (List UInt8)) :
    query.Safe answer ↔
      ((executed answer).1 = statusOk → query.Fits (executed answer).2) := by
  cases query with
  | finishAuctions number =>
    exact iff_of_true (counted_rows_end full_rows number answer) fun _ => trivial
  | transferHouses number =>
    exact iff_of_true (counted_rows_end full_rows number answer) fun _ => trivial
  | evictFreeAccounts number =>
    exact iff_of_true (counted_rows_end owner_rows number answer) fun _ => trivial
  | evictDeletedCharacters number =>
    exact iff_of_true (counted_rows_end house_rows number answer) fun _ => trivial
  | getHouseOwners number =>
    exact iff_of_true (counted_rows_end full_rows number answer) fun _ => trivial
  | getAuctions number =>
    exact iff_of_true (counted_rows_end house_rows number answer) fun _ => trivial
  | evictExGuildleaders guildhouses before =>
    by_cases fine : (executed answer).1 = statusOk
    · rw [evict_ex_guildleaders_iff guildhouses before fine]
      exact ⟨fun few _ => few, fun few => few fine⟩
    · apply iff_of_true _ fun impossible => absurd impossible fine
      apply ends_at_once
      intro fuel
      rw [Query.decode, QueryResponses.evictExGuildleaders, when_not_ok fine]
  | getServerLoad =>
    by_cases fine : (executed answer).1 = statusOk
    · apply iff_of_false
      · intro safe
        rcases safe with ⟨least, decoded, ended, _⟩
        have never := (ended (least + 1) (Nat.lt_succ_self least)).symm.trans
          (server_load_never_ends fine (least + 1))
        cases never
      · intro fits
        exact fits fine
    · apply iff_of_true _ fun impossible => absurd impossible fine
      apply ends_at_once
      intro fuel
      rw [Query.decode, QueryResponses.getServerLoad, when_not_ok fine]

/-- One guild house and two evictions; and a server load of no values at all. -/
theorem responses_not_decoded :
    ¬(Query.evictExGuildleaders 1 0).Safe (some [0, 2, 0, 7, 0, 9, 0]) ∧
      ¬Query.getServerLoad.Safe (some [0]) := by
  constructor
  · intro safe
    rcases safe with ⟨least, decoded, ended, inside⟩
    have more := ended (least + 4) (by omega)
    have written : (Query.evictExGuildleaders 1 0).decode (least + 4) (some [0, 2, 0, 7, 0, 9, 0]) =
        some ⟨0, 2, [.entry .houseIDs 0 7, .entry .houseIDs 1 9]⟩ := rfl
    rw [Option.some.inj (more.symm.trans written)] at inside
    have place : ((1 : Nat) : Int) < 1 :=
      inside (.entry .houseIDs 1 9) (mem_cons_of_mem _ mem_cons_self)
    exact absurd place (by decide)
  · intro safe
    rcases safe with ⟨least, decoded, ended, _⟩
    have never := (ended (least + 1) (Nat.lt_succ_self least)).symm.trans
      (server_load_never_ends rfl (least + 1))
    cases never

end Safety

end TibiaGame.QueryResponses
