import TibiaGame.ScriptFiles
import TibiaGame.Library.Outcome

/-!
# The layout of a script

What is written to a script is a row of lexemes. If those that run on as far as they can are
kept apart from what would prolong them, the script is read as the tokens of its lexemes.
-/

namespace TibiaGame.ScriptLayout

open ScriptFiles Library List

inductive Lexeme where
  | blank (text : List UInt8)
  | word (name : List UInt8)
  | number (number : Int32)
  | string (text : List UInt8)
  | bytes (sequence : List UInt8)
  | coordinate (x y z : Int32)
  | mark (char : UInt8)

namespace Lexeme

def text : Lexeme → List UInt8
  | .blank text => text
  | .word name => name
  | .number value => numberText value
  | .string text => stringText text
  | .bytes sequence => bytesequenceText sequence
  | .coordinate x y z =>
      openBracket :: digitsText x.toInt.natAbs ++ comma :: digitsText y.toInt.natAbs ++
        comma :: digitsText z.toInt.natAbs ++ [closeBracket]
  | .mark char => [char]

def tokens : Lexeme → List Token
  | .blank _ => []
  | .word name => [.identifier name]
  | .number value =>
      if value.toInt < 0 then
        [.special minus, .number (Int32.ofNat value.toInt.natAbs)]
      else [.number (Int32.ofNat value.toInt.natAbs)]
  | .string text => [.string text]
  | .bytes sequence => [.bytes sequence]
  | .coordinate x y z => [.coordinate x y z]
  | .mark char => [.special char]

def isWordChar (char : UInt8) : Bool := isAlpha char || isDigit char || char == underscore

def isWord : List UInt8 → Bool
  | [] => false
  | char :: rest => isAlpha char && rest.all isWordChar && decide (rest.length ≤ 28)

def isMark (char : UInt8) : Bool :=
  !isSpace char && !isAlpha char && !isDigit char && char != quote && char != numberSign &&
    char != minus && char != less && char != greater && char != atSign && char != openBracket

def Proper : Lexeme → Prop
  | .blank text => text ≠ [] ∧ text.all isSpace = true
  | .word name => isWord name = true
  | .number _ => True
  | .string text => text.length ≤ 3999
  | .bytes sequence => 2 ≤ sequence.length ∧ sequence.length ≤ 4000
  | .coordinate x y z => 0 ≤ x.toInt ∧ 0 ≤ y.toInt ∧ 0 ≤ z.toInt
  | .mark char => isMark char = true

/-- Whether the reader looks for more of the lexeme behind it. -/
def runsOn : Lexeme → Bool
  | .word _ => true
  | .number _ => true
  | .bytes _ => true
  | _ => false

def separates : Lexeme → Bool
  | .blank _ => true
  | .string _ => true
  | .coordinate _ _ _ => true
  | .mark char => char != underscore
  | _ => false

end Lexeme

def layoutText (layout : List Lexeme) : List UInt8 := layout.flatMap Lexeme.text

def layoutTokens (layout : List Lexeme) : List Token := layout.flatMap Lexeme.tokens

/-- Lexemes that run on are followed by separating ones; `running` is about the one before. -/
def spaced : Bool → List Lexeme → Bool
  | _, [] => true
  | running, lexeme :: layout =>
      (!running || lexeme.separates) && spaced lexeme.runsOn layout

def endsRunning : Bool → List Lexeme → Bool
  | running, [] => running
  | _, lexeme :: layout => endsRunning lexeme.runsOn layout

def breaks : List UInt8 → Bool
  | [] => true
  | char :: _ => !(Lexeme.isWordChar char || char == minus)

section Layouts

variable {left right : List Lexeme} {running : Bool}

@[simp] theorem text_append (left right : List Lexeme) :
    layoutText (left ++ right) = layoutText left ++ layoutText right := flatMap_append

@[simp] theorem tokens_append (left right : List Lexeme) :
    layoutTokens (left ++ right) = layoutTokens left ++ layoutTokens right := flatMap_append

theorem spaced_weaken (fits : spaced true left = true) : spaced running left = true := by
  rcases left with _ | ⟨lexeme, left⟩
  · rfl
  rw [spaced, Bool.and_eq_true] at fits ⊢
  cases running with
  | true => exact fits
  | false => exact ⟨rfl, fits.2⟩

end Layouts

def Facing (outer : List OpenFile) (script : ReadScriptFile) (text : List UInt8) : Prop :=
  ∃ filename line gap, gap.all isSpace = true ∧
    script.files = ⟨filename, line, gap ++ text⟩ :: outer

def Reads : List Token → ReadScriptFile → ReadScriptFile → Prop
  | [], script, after => after = script
  | token :: tokens, script, after =>
      ∃ next, nextToken script = .ok ((), next) ∧ next.token = token ∧ Reads tokens next after

section Tokens

variable {outer : List OpenFile} {script middle after : ReadScriptFile} {more : List UInt8}

theorem reads_append {first second : List Token} (left : Reads first script middle)
    (right : Reads second middle after) : Reads (first ++ second) script after := by
  induction first generalizing script with
  | nil =>
    cases left
    exact right
  | cons token first ih =>
    rcases left with ⟨next, reads, same, further⟩
    exact ⟨next, reads, same, ih further⟩

theorem reads_split {first second : List Token} (reads : Reads (first ++ second) script after) :
    ∃ middle, Reads first script middle ∧ Reads second middle after := by
  induction first generalizing script with
  | nil => exact ⟨script, rfl, reads⟩
  | cons token first ih =>
    rcases reads with ⟨next, reads, same, further⟩
    rcases ih further with ⟨middle, left, right⟩
    exact ⟨middle, ⟨next, reads, same, left⟩, right⟩

theorem skip_gap {gap : List UInt8} (blank : gap.all isSpace = true) (line : Nat)
    (text : List UInt8) :
    ∃ further, skipBlanks line false (gap ++ text) = skipBlanks further false text := by
  induction gap generalizing line with
  | nil => exact ⟨line, rfl⟩
  | cons char gap ih =>
    rw [all_cons, Bool.and_eq_true] at blank
    rw [cons_append, skipBlanks]
    by_cases isFeed : char = lineFeed
    · rw [if_pos isFeed]
      exact ih blank.2 (line + 1)
    rw [if_neg isFeed, blank.1, Bool.or_true, if_pos rfl]
    exact ih blank.2 line

def begins (char : UInt8) : Bool :=
  !isSpace char && char != numberSign && char != atSign

theorem skip_begins {char : UInt8} {text : List UInt8} (isBegin : begins char = true) (line : Nat) :
    skipBlanks line false (char :: text) = (line, char :: text) := by
  rw [begins, Bool.and_eq_true, Bool.and_eq_true, Bool.not_eq_true', bne_iff_ne, bne_iff_ne] at isBegin
  have notFeed : char ≠ lineFeed := by
    intro isFeed
    rw [isFeed] at isBegin
    exact absurd isBegin.1.1 (by decide)
  rw [skipBlanks, if_neg notFeed, isBegin.1.1, Bool.or_false, if_neg Bool.false_ne_true,
    if_neg isBegin.1.2]

theorem facing_token {char : UInt8} {text : List UInt8} {token : Token}
    (isBegin : begins char = true)
    (scans : ∀ line, scanToken line char (text ++ more) = .ok (token, line, more))
    (facing : Facing outer script (char :: text ++ more)) :
    ∃ next, nextToken script = .ok ((), next) ∧ next.token = token ∧ Facing outer next more := by
  rcases facing with ⟨filename, line, gap, blank, files⟩
  rcases skip_gap blank line (char :: text ++ more) with ⟨further, skips⟩
  rw [cons_append, skip_begins isBegin] at skips
  have notAt : char ≠ atSign := by
    rw [begins, Bool.and_eq_true, bne_iff_ne] at isBegin
    exact isBegin.2
  have found : scanFile line (gap ++ (char :: text ++ more)) = .ok (.token token, further, more) := by
    rw [scanFile, cons_append, skips]
    simp only [if_neg notAt, scans]
    rfl
  refine ⟨⟨script.disk, ⟨filename, further, more⟩ :: outer, token⟩, ?_, rfl, ?_⟩
  · rw [nextToken, files, turns, nextFound]
    simp only [found]
    rfl
  · exact ⟨filename, further, [], rfl, rfl⟩

end Tokens

def fold (start : Int32) (digits : List UInt8) : Int32 :=
  digits.foldl (fun number char => number * 10 + digit char) start

theorem digit_char {value : Nat} (small : value < 10) :
    isDigit (UInt8.ofNat (48 + value)) = true ∧
      digit (UInt8.ofNat (48 + value)) = Int32.ofNat value := by
  have each : ∀ value : Fin 10, isDigit (UInt8.ofNat (48 + value.val)) = true ∧
      digit (UInt8.ofNat (48 + value.val)) = Int32.ofNat value.val := by decide
  exact each ⟨value, small⟩

theorem digits_all (number : Nat) : (digitsText number).all isDigit = true := by
  rw [digitsText]
  split_ifs
  · rfl
  rw [all_eq_true]
  intro char member
  rcases mem_map.mp member with ⟨value, inside, same⟩
  rw [← same]
  exact (digit_char (Nat.digits_lt_base (by decide) (mem_reverse.mp inside))).1

theorem fold_reverse (values : List Nat) (small : ∀ value ∈ values, value < 10) :
    fold 0 (values.reverse.map fun value => UInt8.ofNat (48 + value)) =
      Int32.ofNat (Nat.ofDigits 10 values) := by
  induction values with
  | nil => rfl
  | cons value values ih =>
    have others := ih fun other member => small other (mem_cons_of_mem value member)
    rw [fold] at others ⊢
    rw [reverse_cons, map_append, foldl_append, others, map_cons, map_nil,
      foldl_cons, foldl_nil, (digit_char (small value mem_cons_self)).2,
      Nat.ofDigits_cons, Nat.add_comm, Int32.ofNat_add, Nat.mul_comm, Int32.ofNat_mul]
    rfl

/-- Reading the digits of a number gives the number, as far as it fits. -/
theorem fold_digits (number : Nat) : fold 0 (digitsText number) = Int32.ofNat number := by
  rw [digitsText]
  split_ifs with zero
  · rw [zero]
    rfl
  · rw [fold_reverse _ fun value member => Nat.digits_lt_base (by decide) member,
      Nat.ofDigits_digits]

theorem digits_ne_nil (number : Nat) : digitsText number ≠ [] := by
  rw [digitsText]
  split_ifs with zero
  · exact cons_ne_nil _ _
  · intro empty
    rw [map_eq_nil_iff, reverse_eq_nil_iff, Nat.digits_eq_nil_iff_eq_zero] at empty
    exact zero empty

theorem digits_first (number : Nat) :
    ∃ first others, digitsText number = first :: others ∧ isDigit first = true ∧
      others.all isDigit = true ∧ fold (digit first) others = Int32.ofNat number := by
  rcases known : digitsText number with _ | ⟨first, others⟩
  · exact absurd known (digits_ne_nil number)
  have every := digits_all number
  have value := fold_digits number
  rw [known, all_cons, Bool.and_eq_true] at every
  rw [known, fold, foldl_cons, Int32.zero_mul, Int32.zero_add] at value
  exact ⟨first, others, rfl, every.1, every.2, value⟩

theorem scan_number_digits (line : Nat) (sequence digits more : List UInt8) (number : Int32)
    (every : digits.all isDigit = true) :
    scanNumber line sequence number (digits ++ more) =
      scanNumber line sequence (fold number digits) more := by
  induction digits generalizing number with
  | nil => rfl
  | cons char digits ih =>
    rw [all_cons, Bool.and_eq_true] at every
    rw [cons_append, scanNumber.eq_def]
    simp only
    rw [if_pos every.1, ih _ every.2]
    rfl

theorem scan_number_end {more : List UInt8} (ends : breaks more = true) (line : Nat)
    (sequence : List UInt8) (number : Int32) :
    scanNumber line sequence number more = finishNumber line sequence number more := by
  rcases more with _ | ⟨char, more⟩
  · rw [scanNumber]
  rw [breaks, Bool.not_eq_true', Bool.or_eq_false_iff, Lexeme.isWordChar,
    Bool.or_eq_false_iff, Bool.or_eq_false_iff] at ends
  rw [scanNumber.eq_def]
  simp only
  rw [ends.1.1.2, if_neg Bool.false_ne_true, if_neg (beq_eq_false_iff_ne.mp ends.2)]

theorem scan_digits_all (line : Nat) (stop : UInt8) (digits more : List UInt8) (number : Int32)
    (every : digits.all isDigit = true) (noDigit : isDigit stop = false) :
    scanDigits line stop number (digits ++ stop :: more) = .ok (fold number digits, more) := by
  induction digits generalizing number with
  | nil =>
    rw [nil_append, scanDigits, noDigit, if_neg Bool.false_ne_true, if_pos rfl]
    rfl
  | cons char digits ih =>
    rw [all_cons, Bool.and_eq_true] at every
    rw [cons_append, scanDigits, if_pos every.1, ih _ every.2]
    rfl

theorem scan_coordinate_number (line : Nat) (stop : UInt8) (more : List UInt8) (number : Nat)
    (noDigit : isDigit stop = false) :
    scanCoordinate line stop (digitsText number ++ stop :: more) =
      .ok (Int32.ofNat number, more) := by
  rcases digits_first number with ⟨first, others, text, isFirst, every, value⟩
  rw [text, cons_append, scanCoordinate, if_pos isFirst,
    scan_digits_all line stop others more _ every noDigit, value]

/-- Bytes are read one after another, each one as long as a `-` follows. -/
theorem scan_sequence (line : Nat) (read : List UInt8) (byte : UInt8) (sequence more : List UInt8)
    (ends : breaks more = true) (fits : read.length + sequence.length < 4000) :
    scanNumber line read (Int32.ofNat byte.toNat)
        (sequence.flatMap (fun byte => minus :: digitsText byte.toNat) ++ more) =
      if read = [] ∧ sequence = [] then .ok (.number (Int32.ofNat byte.toNat), more)
      else .ok (.bytes (read ++ byte :: sequence), more) := by
  have last : ∀ byte : UInt8, lastByte (Int32.ofNat byte.toNat) = byte := by
    intro byte
    rw [lastByte]
    simp
  induction sequence generalizing read byte with
  | nil =>
    rw [flatMap_nil, nil_append, scan_number_end ends, finishNumber]
    rw [length_nil, Nat.add_zero] at fits
    by_cases isFirst : read = []
    · rw [if_pos isFirst, if_pos ⟨isFirst, rfl⟩]
    · rw [if_neg isFirst, if_neg (Nat.not_le.mpr fits), if_neg fun both => isFirst both.1, last]
  | cons next sequence ih =>
    rcases digits_first next.toNat with ⟨first, others, text, isFirst, every, value⟩
    rw [length_cons] at fits
    have notDigit : isDigit minus = false := by decide
    have notFull : ¬ 4000 ≤ read.length := by omega
    have step := ih (read ++ [byte]) next (by
      rw [length_append, length_singleton]
      omega)
    rw [flatMap_cons, cons_append, cons_append, append_assoc, text,
      cons_append, scanNumber.eq_def]
    simp only
    rw [notDigit, if_neg Bool.false_ne_true, if_pos trivial, if_neg notFull, if_pos isFirst,
      last, scan_number_digits line _ others _ _ every, value, step,
      if_neg fun both => append_ne_nil_of_right_ne_nil read (cons_ne_nil _ _) both.1,
      if_neg fun both => cons_ne_nil _ _ both.2, append_assoc]
    rfl

theorem store_ok {line length : Nat} {char : UInt8} {text more : List UInt8}
    (fits : length < 3999) :
    store line length char (.ok (text, line, more)) = .ok (char :: text, line, more) := by
  rw [store, if_neg (Nat.not_le.mpr fits)]
  rfl

/-- Quotes, backslashes and line feeds are read as they were before they were escaped. -/
theorem scan_string_escaped (line length : Nat) (text more : List UInt8)
    (fits : length + text.length ≤ 3999) :
    scanString line length (text.flatMap escaped ++ quote :: more) = .ok (text, line, more) := by
  induction text generalizing length with
  | nil =>
    rw [flatMap_nil, nil_append, scanString.eq_def]
    simp only
    rw [if_neg (by decide), if_neg (by decide), if_pos trivial]
  | cons char text ih =>
    rw [length_cons] at fits
    have further := ih (length + 1) (by omega)
    have room : length < 3999 := by omega
    rw [flatMap_cons, append_assoc, escaped]
    by_cases special : char = quote ∨ char = backslash
    · have plain : char ≠ 110 := by
        intro same
        rw [same] at special
        exact absurd special (by decide)
      rw [if_pos special, cons_append, cons_append, nil_append, scanString.eq_def]
      simp only
      rw [if_pos trivial, if_neg plain, further, store_ok room]
    rw [if_neg special]
    rw [not_or] at special
    by_cases isFeed : char = lineFeed
    · rw [if_pos isFeed, cons_append, cons_append, nil_append,
        scanString.eq_def]
      simp only
      rw [if_pos trivial, if_pos trivial, further, store_ok room, isFeed]
    rw [if_neg isFeed, cons_append, nil_append, scanString.eq_def]
    simp only
    rw [if_neg special.2, if_neg isFeed, if_neg special.1, further, store_ok room]

theorem scan_identifier_word (line length : Nat) (name more : List UInt8)
    (every : name.all Lexeme.isWordChar = true) (fits : length + name.length ≤ 29)
    (ends : breaks more = true) : scanIdentifier line length (name ++ more) = .ok (name, more) := by
  induction name generalizing length with
  | nil =>
    cases more with
    | nil => rfl
    | cons char more =>
      rw [breaks, Bool.not_eq_true', Bool.or_eq_false_iff, Lexeme.isWordChar] at ends
      rw [nil_append, scanIdentifier, if_neg (Bool.eq_false_iff.mp ends.1)]
  | cons char name ih =>
    rw [all_cons, Bool.and_eq_true, Lexeme.isWordChar] at every
    rw [length_cons] at fits
    have room : ¬ 29 ≤ length := by omega
    rw [cons_append, scanIdentifier, if_pos every.1, if_neg room,
      ih (length + 1) every.2 (by omega)]
    rfl

theorem bytes_text_cons (byte : UInt8) (sequence : List UInt8) :
    bytesequenceText (byte :: sequence) = digitsText byte.toNat ++
      sequence.flatMap fun byte => minus :: digitsText byte.toNat := by
  induction sequence generalizing byte with
  | nil => simp [bytesequenceText]
  | cons next sequence ih =>
    have further := ih next
    rw [bytesequenceText, map_cons] at further ⊢
    rw [map_cons, intersperse_cons_cons, flatten_cons, flatten_cons, further,
      flatMap_cons]
    rfl

section Lexemes

variable {outer : List OpenFile} {script : ReadScriptFile} {more : List UInt8}

theorem every_char {property : UInt8 → Prop}
    (each : ∀ value : Fin 256, property (UInt8.ofNat value.val)) (char : UInt8) : property char := by
  have this := each ⟨char.toNat, char.toNat_lt⟩
  rw [UInt8.ofNat_toNat] at this
  exact this

theorem digit_begins : ∀ char, isDigit char = true →
    begins char = true ∧ char ≠ quote ∧ char ≠ openBracket ∧ char ≠ less ∧ char ≠ greater ∧
      char ≠ minus ∧ isAlpha char = false := by
  apply every_char
  decide +kernel

theorem alpha_begins : ∀ char, isAlpha char = true →
    begins char = true ∧ char ≠ quote ∧ char ≠ openBracket ∧ char ≠ less ∧ char ≠ greater ∧
      char ≠ minus := by
  apply every_char
  decide +kernel

theorem mark_begins : ∀ char, Lexeme.isMark char = true →
    begins char = true ∧ char ≠ quote ∧ char ≠ openBracket ∧ char ≠ less ∧ char ≠ greater ∧
      char ≠ minus ∧ isAlpha char = false ∧ isDigit char = false := by
  apply every_char
  decide +kernel

theorem scan_digits_token (line number : Nat) (ends : breaks more = true) {first : UInt8}
    {others : List UInt8} (text : digitsText number = first :: others) :
    scanToken line first (others ++ more) = .ok (.number (Int32.ofNat number), line, more) := by
  rcases digits_first number with ⟨char, rest, same, isDigit, every, value⟩
  rw [text] at same
  cases same
  have different := digit_begins first isDigit
  rw [scanToken, if_neg different.2.1, if_neg different.2.2.1, if_neg different.2.2.2.1,
    if_neg different.2.2.2.2.1, if_neg different.2.2.2.2.2.1, different.2.2.2.2.2.2,
    if_neg Bool.false_ne_true, if_pos isDigit, scan_number_digits line _ others _ _ every, value,
    scan_number_end ends, finishNumber, if_pos rfl]
  rfl

theorem facing_number (number : Nat) (ends : breaks more = true)
    (facing : Facing outer script (digitsText number ++ more)) :
    ∃ next, nextToken script = .ok ((), next) ∧ next.token = .number (Int32.ofNat number) ∧
      Facing outer next more := by
  rcases digits_first number with ⟨first, others, text, isDigit, _⟩
  rw [text] at facing
  apply facing_token (digit_begins first isDigit).1 _ facing
  intro line
  exact scan_digits_token line number ends text

theorem facing_minus (number : Nat)
    (facing : Facing outer script (minus :: digitsText number ++ more)) :
    ∃ next, nextToken script = .ok ((), next) ∧ next.token = .special minus ∧
      Facing outer next (digitsText number ++ more) := by
  rcases digits_first number with ⟨first, others, text, isDigit, _⟩
  have facing' : Facing outer script ([minus] ++ (digitsText number ++ more)) := facing
  apply facing_token (by decide) _ facing'
  intro line
  have notGreater : first ≠ greater := (digit_begins first isDigit).2.2.2.2.1
  rw [scanToken, if_neg (by decide), if_neg (by decide), if_neg (by decide), if_neg (by decide),
    if_pos rfl, nil_append, text, cons_append, scanPair, if_neg notGreater]

theorem facing_string {text : List UInt8} (fits : text.length ≤ 3999)
    (facing : Facing outer script (stringText text ++ more)) :
    ∃ next, nextToken script = .ok ((), next) ∧ next.token = .string text ∧
      Facing outer next more := by
  rw [stringText, cons_append] at facing
  apply facing_token (by decide) _ facing
  intro line
  rw [scanToken, if_pos rfl, append_assoc, cons_append, nil_append,
    scan_string_escaped line 0 text more (by omega)]
  rfl

theorem facing_word {name : List UInt8} (isWord : Lexeme.isWord name = true)
    (ends : breaks more = true) (facing : Facing outer script (name ++ more)) :
    ∃ next, nextToken script = .ok ((), next) ∧ next.token = .identifier name ∧
      Facing outer next more := by
  rcases name with _ | ⟨first, others⟩
  · cases isWord
  rw [Lexeme.isWord, Bool.and_eq_true, Bool.and_eq_true, decide_eq_true_eq] at isWord
  have different := alpha_begins first isWord.1.1
  apply facing_token different.1 _ facing
  intro line
  rw [scanToken, if_neg different.2.1, if_neg different.2.2.1, if_neg different.2.2.2.1,
    if_neg different.2.2.2.2.1, if_neg different.2.2.2.2.2, if_pos isWord.1.1,
    scan_identifier_word line 1 others more isWord.1.2 (by omega) ends]
  rfl

theorem facing_mark {char : UInt8} (isMark : Lexeme.isMark char = true)
    (facing : Facing outer script (char :: more)) :
    ∃ next, nextToken script = .ok ((), next) ∧ next.token = .special char ∧
      Facing outer next more := by
  have different := mark_begins char isMark
  have facing' : Facing outer script ([char] ++ more) := facing
  apply facing_token different.1 _ facing'
  intro line
  rw [scanToken, if_neg different.2.1, if_neg different.2.2.1, if_neg different.2.2.2.1,
    if_neg different.2.2.2.2.1, if_neg different.2.2.2.2.2.1, different.2.2.2.2.2.2.1,
    if_neg Bool.false_ne_true, different.2.2.2.2.2.2.2, if_neg Bool.false_ne_true]
  rfl

theorem facing_bytes {sequence : List UInt8} (several : 2 ≤ sequence.length)
    (fits : sequence.length ≤ 4000) (ends : breaks more = true)
    (facing : Facing outer script (bytesequenceText sequence ++ more)) :
    ∃ next, nextToken script = .ok ((), next) ∧ next.token = .bytes sequence ∧
      Facing outer next more := by
  rcases sequence with _ | ⟨byte, sequence⟩
  · cases several
  rcases digits_first byte.toNat with ⟨first, others, text, isDigit, every, value⟩
  rw [bytes_text_cons, text, cons_append] at facing
  have different := digit_begins first isDigit
  rw [length_cons] at several fits
  have notNil : ¬ (([] : List UInt8) = [] ∧ sequence = []) := by
    intro both
    rw [both.2] at several
    exact absurd several (by decide)
  apply facing_token different.1 _ facing
  intro line
  rw [scanToken, if_neg different.2.1, if_neg different.2.2.1, if_neg different.2.2.2.1,
    if_neg different.2.2.2.2.1, if_neg different.2.2.2.2.2.1, different.2.2.2.2.2.2,
    if_neg Bool.false_ne_true, if_pos isDigit, append_assoc,
    scan_number_digits line _ others _ _ every, value,
    scan_sequence line [] byte sequence more ends (by rw [length_nil]; omega),
    if_neg notNil]
  rfl

theorem coordinate_value {coordinate : Int32} (nonneg : 0 ≤ coordinate.toInt) :
    Int32.ofNat coordinate.toInt.natAbs = coordinate := by
  rw [← Int32.ofInt_eq_ofNat, Int.natAbs_of_nonneg nonneg, Int32.ofInt_toInt]

theorem facing_coordinate {x y z : Int32} (xNonneg : 0 ≤ x.toInt) (yNonneg : 0 ≤ y.toInt)
    (zNonneg : 0 ≤ z.toInt)
    (facing : Facing outer script ((Lexeme.coordinate x y z).text ++ more)) :
    ∃ next, nextToken script = .ok ((), next) ∧ next.token = .coordinate x y z ∧
      Facing outer next more := by
  rw [Lexeme.text, cons_append, cons_append, cons_append] at facing
  apply facing_token (by decide) _ facing
  intro line
  rcases digits_first x.toInt.natAbs with ⟨first, others, text, isDigit, _⟩
  have starts : ∀ further, startsCoordinate (digitsText x.toInt.natAbs ++ further) = true := by
    intro further
    rw [text, cons_append, startsCoordinate, isDigit, Bool.true_or]
  have noComma : ScriptFiles.isDigit comma = false := by decide
  have noBracket : ScriptFiles.isDigit closeBracket = false := by decide
  rw [scanToken, if_neg (by decide), if_pos rfl, scanBracket]
  simp only [append_assoc, cons_append, nil_append]
  rw [if_pos (starts _), scan_coordinate_number line comma _ _ noComma, Outcome.ok_bind,
    scan_coordinate_number line comma _ _ noComma, Outcome.ok_bind,
    scan_coordinate_number line closeBracket _ _ noBracket, Outcome.ok_bind]
  simp only [coordinate_value xNonneg, coordinate_value yNonneg, coordinate_value zNonneg]
  rfl

end Lexemes

section Layouts

variable {outer : List OpenFile} {script : ReadScriptFile} {more : List UInt8} {lexeme : Lexeme}
  {layout : List Lexeme} {running : Bool}

theorem space_breaks : ∀ char, isSpace char = true →
    (Lexeme.isWordChar char || char == minus) = false := by
  apply every_char
  decide +kernel

theorem mark_breaks : ∀ char, Lexeme.isMark char = true → (char != underscore) = true →
    (Lexeme.isWordChar char || char == minus) = false := by
  apply every_char
  decide +kernel

theorem separates_breaks (proper : lexeme.Proper) (separates : lexeme.separates = true)
    (more : List UInt8) : breaks (lexeme.text ++ more) = true := by
  cases lexeme with
  | blank text =>
    rcases text with _ | ⟨char, text⟩
    · exact absurd rfl proper.1
    have spaces := proper.2
    rw [all_cons, Bool.and_eq_true] at spaces
    rw [Lexeme.text, cons_append, breaks, space_breaks char spaces.1]
    rfl
  | string text => rfl
  | coordinate x y z => rfl
  | mark char =>
    rw [Lexeme.text, cons_append, breaks, mark_breaks char proper separates]
    rfl
  | _ => cases separates

/-- The tokens of a lexeme are read if nothing behind it prolongs it. -/
theorem lexeme_reads (proper : lexeme.Proper) (ends : lexeme.runsOn = true → breaks more = true)
    (facing : Facing outer script (lexeme.text ++ more)) :
    ∃ after, Reads lexeme.tokens script after ∧ Facing outer after more := by
  have single : ∀ token, (∃ next, nextToken script = .ok ((), next) ∧ next.token = token ∧
      Facing outer next more) → ∃ after, Reads [token] script after ∧ Facing outer after more := by
    intro token found
    rcases found with ⟨next, reads, same, further⟩
    exact ⟨next, ⟨next, reads, same, rfl⟩, further⟩
  cases lexeme with
  | blank text =>
    rcases facing with ⟨filename, line, gap, blank, files⟩
    refine ⟨script, rfl, filename, line, gap ++ text, ?_, ?_⟩
    · rw [all_append, blank, proper.2]
      rfl
    · rw [append_assoc]
      exact files
  | word name => exact single _ (facing_word proper (ends rfl) facing)
  | number value =>
    rw [Lexeme.text, numberText] at facing
    rw [Lexeme.tokens]
    by_cases negative : value.toInt < 0
    · rw [if_pos negative] at facing ⊢
      rcases facing_minus _ facing with ⟨next, reads, same, further⟩
      rcases facing_number _ (ends rfl) further with ⟨last, lastReads, lastSame, rest⟩
      exact ⟨last, ⟨next, reads, same, last, lastReads, lastSame, rfl⟩, rest⟩
    rw [if_neg negative] at facing ⊢
    exact single _ (facing_number _ (ends rfl) facing)
  | string text => exact single _ (facing_string proper facing)
  | bytes sequence => exact single _ (facing_bytes proper.1 proper.2 (ends rfl) facing)
  | coordinate x y z => exact single _ (facing_coordinate proper.1 proper.2.1 proper.2.2 facing)
  | mark char => exact single _ (facing_mark proper facing)

theorem layout_breaks (proper : ∀ lexeme ∈ layout, lexeme.Proper)
    (fits : spaced true layout = true) (ends : layout = [] → breaks more = true) :
    breaks (layoutText layout ++ more) = true := by
  cases layout with
  | nil => exact ends rfl
  | cons lexeme layout =>
    rw [spaced, Bool.not_true, Bool.false_or, Bool.and_eq_true] at fits
    rw [layoutText, flatMap_cons, append_assoc]
    exact separates_breaks (proper lexeme mem_cons_self) fits.1 _

theorem layout_reads (proper : ∀ lexeme ∈ layout, lexeme.Proper)
    (fits : spaced running layout = true) (ends : endsRunning running layout = true →
      breaks more = true) (facing : Facing outer script (layoutText layout ++ more)) :
    ∃ after, Reads (layoutTokens layout) script after ∧ Facing outer after more := by
  induction layout generalizing script running with
  | nil => exact ⟨script, rfl, facing⟩
  | cons lexeme layout ih =>
    rw [spaced, Bool.and_eq_true] at fits
    rw [endsRunning] at ends
    rw [layoutText, flatMap_cons, append_assoc] at facing
    have others : ∀ other ∈ layout, other.Proper := by
      intro other member
      exact proper other (mem_cons_of_mem lexeme member)
    have separated : lexeme.runsOn = true → breaks (layoutText layout ++ more) = true := by
      intro runs
      rw [runs] at fits ends
      apply layout_breaks others fits.2
      intro empty
      rw [empty] at ends
      exact ends rfl
    rcases lexeme_reads (proper lexeme mem_cons_self) separated facing with
      ⟨middle, first, facesRest⟩
    rcases ih others fits.2 ends facesRest with ⟨after, rest, facesMore⟩
    exact ⟨after, reads_append first rest, facesMore⟩

end Layouts

end TibiaGame.ScriptLayout
