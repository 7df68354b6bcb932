import TibiaGame.ObjectStreams
import TibiaGame.ScriptPrograms

/-!
# Objects as text

A stream of objects is a row of items, whatever the shape of the store it was made from. The
printer writes one piece of text for each item, and the parser makes the items out of its tokens
again.
-/

namespace TibiaGame.ObjectText

open GameTypes ObjectStore DynamicStrings ScriptFiles ScriptLayout ScriptPrograms ObjectStreams List
open Library Library.LittleEndian

variable {cfg : GameConfig} {world : World cfg}

inductive Item where
  | type (typeID : UInt16)
  | quad (attr : InstanceAttribute) (value : UInt32)
  | text (attr : InstanceAttribute) (string : List UInt8)
  | content
  | endObject
  | endList

def Item.bytes : Item → List UInt8
  | .type typeID => wordBytes typeID
  | .quad attr value => attributeByte attr :: quadBytes value
  | .text attr string => attributeByte attr :: stringBytes (some string)
  | .content => [attributeByte .content]
  | .endObject => [0xFF]
  | .endList => wordBytes 0xFFFF

def itemsBytes (items : List Item) : List UInt8 := items.flatMap Item.bytes

/-- The items that follow in a list, or behind the type of an object, `depth` lists deep. -/
inductive Flow (cfg : GameConfig) : Nat → Bool → List Item → Prop where
  | type {depth : Nat} {typeID : UInt16} {items : List Item}
      (known : typeID.toNat ≤ cfg.maxTypeID) (rest : Flow cfg depth false items) :
      Flow cfg depth true (.type typeID :: items)
  | last : Flow cfg 1 true [.endList]
  | endList {depth : Nat} {items : List Item} (rest : Flow cfg (depth + 1) false items) :
      Flow cfg (depth + 2) true (.endList :: items)
  | quad {depth : Nat} {attr : InstanceAttribute} {value : UInt32} {items : List Item}
      (notContent : attr ≠ .content) (plain : isText attr = false)
      (rest : Flow cfg depth false items) : Flow cfg depth false (.quad attr value :: items)
  | text {depth : Nat} {attr : InstanceAttribute} {text : List UInt8} {items : List Item}
      (texts : isText attr = true) (short : text.length ≤ 3999) (proper : cString text = text)
      (rest : Flow cfg depth false items) : Flow cfg depth false (.text attr text :: items)
  | content {depth : Nat} {items : List Item} (rest : Flow cfg (depth + 1) true items) :
      Flow cfg depth false (.content :: items)
  | endObject {depth : Nat} {items : List Item} (rest : Flow cfg depth true items) :
      Flow cfg depth false (.endObject :: items)

def ShortStrings (world : World cfg) : Prop :=
  ∀ number text, getDynamicString world.strings number = some text → text.length ≤ 3999

section Saving

variable {depth : Nat} {items : List Item}

@[simp] theorem bytes_cons (item : Item) (items : List Item) :
    itemsBytes (item :: items) = item.bytes ++ itemsBytes items := rfl

theorem text_at_proper (text : Nat → UInt8) (room offset : Nat) :
    cString (textAt text room offset) = textAt text room offset := by
  induction room generalizing offset with
  | zero => rfl
  | succ room ih =>
    rw [textAt]
    split_ifs with ends
    · rfl
    · have further := ih (offset + 1)
      rw [cString] at further ⊢
      rw [takeWhile_cons, decide_eq_true ends, if_pos rfl, further]

theorem stored_proper {strings : StringTable} {number : UInt32} {text : List UInt8}
    (found : getDynamicString strings number = some text) : cString text = text := by
  unfold getDynamicString at found
  split_ifs at found
  split at found
  · split_ifs at found
    cases found
    exact text_at_proper _ _ _
  · cases found

theorem attribute_flow {obj : Object} {attr : InstanceAttribute} {bytes : List UInt8}
    (short : ShortStrings world) (notContent : attr ≠ .content)
    (saved : attributeBytes world obj attr = .ok bytes) (rest : Flow cfg depth false items) :
    ∃ more, Flow cfg depth false (more ++ items) ∧ bytes = itemsBytes more := by
  rw [attributeBytes] at saved
  by_cases has : ((getObjectType world obj).getAttributeOffset attr).isSome
  · rw [if_pos has] at saved
    rcases Outcome.bind_ok.mp saved with ⟨value, _, written⟩
    by_cases zero : value = 0
    · rw [if_pos zero] at written
      cases written
      exact ⟨[], rest, rfl⟩
    rw [if_neg zero] at written
    by_cases texts : isText attr = true
    · rw [if_pos texts] at written
      cases written
      rcases stored : getDynamicString world.strings value with _ | text
      · exact ⟨[.text attr []], Flow.text texts (Nat.zero_le _) rfl rest, rfl⟩
      refine ⟨[.text attr text],
        Flow.text texts (short value text stored) (stored_proper stored) rest, ?_⟩
      rw [bytes_cons, itemsBytes, flatMap_nil, append_nil, Item.bytes]
    rw [if_neg texts] at written
    cases written
    exact ⟨[.quad attr value], Flow.quad notContent (Bool.not_eq_true _ ▸ texts) rest, rfl⟩
  rw [if_neg has] at saved
  cases saved
  exact ⟨[], rest, rfl⟩

theorem attributes_flow {obj : Object} {attributes : List InstanceAttribute} {bytes : List UInt8}
    (short : ShortStrings world) (plain : .content ∉ attributes)
    (saved : attributesBytes world obj attributes = .ok bytes) (rest : Flow cfg depth false items) :
    ∃ more, Flow cfg depth false (more ++ items) ∧ bytes = itemsBytes more := by
  induction attributes generalizing bytes with
  | nil =>
    cases saved
    exact ⟨[], rest, rfl⟩
  | cons attr attributes ih =>
    rcases Outcome.bind_ok.mp saved with ⟨first, savedFirst, savedRest⟩
    rcases Outcome.bind_ok.mp savedRest with ⟨others, savedOthers, written⟩
    cases written
    have notContent : attr ≠ .content := by
      intro same
      rw [same] at plain
      exact plain mem_cons_self
    rcases ih (fun member => plain (mem_cons_of_mem attr member)) savedOthers with
      ⟨more, further, othersBytes⟩
    rcases attribute_flow short notContent savedFirst further with ⟨one, all, firstBytes⟩
    refine ⟨one ++ more, ?_, ?_⟩
    · rw [append_assoc]
      exact all
    · rw [firstBytes, othersBytes, itemsBytes, itemsBytes, itemsBytes, flatMap_append]

theorem type_word (type : ObjectType cfg) : (UInt16.ofNat type.typeID).toNat ≤ cfg.maxTypeID := by
  have known := type.known
  have small := cfg.maxTypeID_lt
  rw [UInt16.toNat_ofNat', Nat.mod_eq_of_lt (by omega)]
  exact known

/-- Whatever the links between the objects are, what is saved is a row of items. -/
theorem save_flow {bytes : List UInt8} {listed : Bool} {prev obj : Object} (fuel : Nat)
    (short : ShortStrings world) (deep : 1 ≤ depth)
    (saved : saveLoop world false fuel depth listed prev obj = .ok bytes) :
    ∃ items, Flow cfg depth listed items ∧ bytes = itemsBytes items := by
  induction fuel generalizing depth listed prev obj bytes with
  | zero =>
    cases saved
  | succ fuel ih =>
    cases listed with
    | true =>
      rw [saveLoop] at saved
      by_cases missing : obj = NONE
      · rw [if_pos missing] at saved
        by_cases outermost : depth ≤ 1
        · rw [if_pos outermost] at saved
          cases saved
          have one : depth = 1 := by omega
          rw [one]
          exact ⟨[.endList], Flow.last, rfl⟩
        rw [if_neg outermost, Bool.false_and, if_neg Bool.false_ne_true] at saved
        rcases Outcome.bind_ok.mp saved with ⟨others, savedOthers, written⟩
        cases written
        obtain ⟨inner, rfl⟩ : ∃ inner, depth = inner + 2 := ⟨depth - 2, by omega⟩
        rcases ih (by omega) savedOthers with ⟨items, flow, same⟩
        refine ⟨.endList :: .endObject :: items, Flow.endList (Flow.endObject flow), ?_⟩
        rw [same]
        rfl
      rw [if_neg missing] at saved
      by_cases creature : (getObjectType world obj).isCreatureContainer = true
      · rw [if_pos creature, Bool.false_and, if_neg Bool.false_ne_true] at saved
        exact ih deep saved
      rw [if_neg creature] at saved
      rcases Outcome.bind_ok.mp saved with ⟨others, savedOthers, written⟩
      cases written
      rcases ih deep savedOthers with ⟨items, flow, same⟩
      refine ⟨.type (UInt16.ofNat (getObjectType world obj).typeID) :: items,
        Flow.type (type_word _) flow, ?_⟩
      rw [same]
      rfl
    | false =>
      rcases Outcome.bind_ok.mp saved with ⟨attributes, savedAttributes, savedRest⟩
      have plain : .content ∉ instanceAttributes.drop 1 := by decide
      by_cases empty : firstContent world obj = NONE
      · rw [if_pos empty, Bool.false_and, if_neg Bool.false_ne_true] at savedRest
        rcases Outcome.bind_ok.mp savedRest with ⟨others, savedOthers, written⟩
        cases written
        rcases ih deep savedOthers with ⟨items, flow, same⟩
        rcases attributes_flow short plain savedAttributes (Flow.endObject flow) with
          ⟨more, all, attributesSame⟩
        refine ⟨more ++ .endObject :: items, all, ?_⟩
        rw [attributesSame, same, itemsBytes, itemsBytes, itemsBytes, flatMap_append]
        rfl
      rw [if_neg empty] at savedRest
      rcases Outcome.bind_ok.mp savedRest with ⟨others, savedOthers, written⟩
      cases written
      rcases ih (by omega) savedOthers with ⟨items, flow, same⟩
      rcases attributes_flow short plain savedAttributes (Flow.content flow) with
        ⟨more, all, attributesSame⟩
      refine ⟨more ++ .content :: items, all, ?_⟩
      rw [attributesSame, same, itemsBytes, itemsBytes, itemsBytes, flatMap_append]
      rfl

end Saving

section Printing

variable {depth : Nat} {listed first : Bool} {items : List Item} {more : List UInt8}

/-- An attribute up to the `=`. -/
def attributeLayout (attr : InstanceAttribute) : List Lexeme :=
  [.blank (ascii " "), .word (ascii (attributeName attr)), .mark equals]

/-- What is printed for the items; `first` says that the next object begins its list. -/
def itemsLayout : Bool → List Item → List Lexeme
  | _, [] => []
  | first, .type typeID :: items =>
      (if first then [] else [.mark comma, .blank (ascii " ")]) ++
        .number (Int32.ofNat typeID.toNat) :: itemsLayout first items
  | first, .quad attr value :: items =>
      attributeLayout attr ++ .number value.toInt32 :: itemsLayout first items
  | first, .text attr string :: items =>
      attributeLayout attr ++ .string string :: itemsLayout first items
  | _, .content :: items =>
      attributeLayout .content ++ .mark openBrace :: itemsLayout true items
  | _, .endObject :: items => itemsLayout false items
  | first, .endList :: items => .mark closeBrace :: itemsLayout first items

@[simp] theorem read_byte (byte : UInt8) (more : List UInt8) :
    readByte (byte :: more) = .ok (byte, more) := rfl

@[simp] theorem read_word (word : UInt16) (more : List UInt8) :
    readWord (wordBytes word ++ more) = .ok (word, more) := by
  rw [wordBytes]
  simp [readWord]

@[simp] theorem read_quad (quad : UInt32) (more : List UInt8) :
    readQuad (quadBytes quad ++ more) = .ok (quad, more) := by
  rw [quadBytes]
  simp [readQuad]

theorem read_string {string : List UInt8} (short : string.length ≤ 4095) (more : List UInt8) :
    readStreamString 4096 (stringBytes (some string) ++ more) = .ok (string, more) := by
  have small : string.length < 0xFFFF := by omega
  have value : (UInt16.ofNat string.length).toNat = string.length := by
    rw [UInt16.toNat_ofNat']
    exact Nat.mod_eq_of_lt (by omega)
  have notMarked : ¬ UInt16.ofNat string.length = 0xFFFF := by
    intro same
    rw [same] at value
    have marked : (0xFFFF : UInt16).toNat = 0xFFFF := rfl
    omega
  have length : readLength (stringBytes (some string) ++ more) =
      .ok ((string.length : Int), string ++ more) := by
    rw [stringBytes, if_pos small, append_assoc, readLength, read_word, Outcome.ok_bind]
    simp only [if_neg notMarked, value]
  rw [readStreamString, length, Outcome.ok_bind]
  by_cases empty : string.length = 0
  · have none_left : string = [] := eq_nil_of_length_eq_zero empty
    rw [none_left]
    rfl
  have nonempty : ¬ (string.length : Int) ≤ 0 := by omega
  have fits : (string.length : Int) < (4096 : Nat) := by omega
  have enough : ¬ (string ++ more).length < string.length := by
    rw [length_append]
    omega
  rw [if_neg nonempty, if_pos fits, Int.toNat_natCast, readBytes, if_neg enough,
    take_left, drop_left]

section

variable (attr : InstanceAttribute)
include attr

theorem attribute_name :
    getInstanceAttributeName (attributeByte attr) = .ok (ascii (attributeName attr)) := by
  cases attr <;> rfl

theorem attribute_byte_ne : attributeByte attr ≠ 0xFF := by
  cases attr <;> decide

theorem attribute_byte_content : attributeByte attr = attributeByte .content ↔ attr = .content := by
  cases attr <;> decide

theorem attribute_byte_text :
    (attributeByte attr = attributeByte .textString ∨ attributeByte attr = attributeByte .editor) ↔
      isText attr = true := by
  cases attr <;> decide

theorem attribute_text (rest : List UInt8) :
    layoutText (attributeLayout attr) ++ rest =
      ascii " " ++ (ascii (attributeName attr) ++ (ascii "=" ++ rest)) := by
  rw [attributeLayout, layoutText, flatMap_cons, flatMap_cons, flatMap_cons,
    flatMap_nil, append_nil, append_assoc, append_assoc]
  rfl

end

theorem print_items (turns : Nat) (flow : Flow cfg depth listed items)
    (enough : items.length ≤ turns) :
    printLoop turns depth listed first (itemsBytes items ++ more) =
      .ok (layoutText (itemsLayout first items), more) := by
  induction flow generalizing turns first with
  | @type depth typeID items known rest ih =>
    rw [length_cons] at enough
    obtain ⟨left, rfl⟩ : ∃ left, turns = left + 1 := ⟨turns - 1, by omega⟩
    have small := cfg.maxTypeID_lt
    have notEnd : ¬ typeID = 0xFFFF := by
      intro same
      rw [same] at known
      have value : (0xFFFF : UInt16).toNat = 65535 := rfl
      omega
    rw [bytes_cons, Item.bytes, append_assoc, printLoop, read_word, Outcome.ok_bind]
    simp only [if_neg notEnd]
    rw [ih left (by omega), Outcome.ok_bind, itemsLayout, text_append]
    cases first with
    | true => rfl
    | false =>
      simp only [append_assoc]
      rfl
  | last =>
    obtain ⟨left, rfl⟩ : ∃ left, turns = left + 1 := ⟨turns - 1, by
      rw [length_singleton] at enough
      omega⟩
    rfl
  | @endList depth items rest ih =>
    rw [length_cons] at enough
    obtain ⟨left, rfl⟩ : ∃ left, turns = left + 1 := ⟨turns - 1, by omega⟩
    have inner : ¬ depth + 2 ≤ 1 := by omega
    rw [bytes_cons, Item.bytes, append_assoc, printLoop, read_word, Outcome.ok_bind]
    rw [show depth + 2 - 1 = depth + 1 from rfl, ih left (by omega), Outcome.ok_bind]
    rfl
  | @quad depth attr value items notContent plain rest ih =>
    rw [length_cons] at enough
    obtain ⟨left, rfl⟩ : ∃ left, turns = left + 1 := ⟨turns - 1, by omega⟩
    have noText : ¬ (attributeByte attr = attributeByte .textString ∨
        attributeByte attr = attributeByte .editor) := by
      rw [attribute_byte_text, plain]
      decide
    rw [bytes_cons, Item.bytes, append_assoc, cons_append, printLoop, read_byte,
      Outcome.ok_bind]
    simp only [if_neg (attribute_byte_ne attr), attribute_name, Outcome.ok_bind,
      if_neg (mt (attribute_byte_content attr).mp notContent), if_neg noText, read_quad]
    rw [ih left (by omega), Outcome.ok_bind, itemsLayout, text_append, attribute_text]
    simp only [append_assoc]
    rfl
  | @text depth attr string items texts short proper rest ih =>
    rw [length_cons] at enough
    obtain ⟨left, rfl⟩ : ∃ left, turns = left + 1 := ⟨turns - 1, by omega⟩
    have notContent : ¬ attributeByte attr = attributeByte .content := by
      rw [attribute_byte_content]
      intro same
      rw [same] at texts
      cases texts
    rw [bytes_cons, Item.bytes, append_assoc, cons_append, printLoop, read_byte,
      Outcome.ok_bind]
    simp only [if_neg (attribute_byte_ne attr), attribute_name, Outcome.ok_bind,
      if_neg notContent, if_pos ((attribute_byte_text attr).mpr texts),
      read_string (Nat.le_trans short (by decide)), proper]
    rw [ih left (by omega), Outcome.ok_bind, itemsLayout, text_append, attribute_text]
    simp only [append_assoc]
    rfl
  | @content depth items rest ih =>
    rw [length_cons] at enough
    obtain ⟨left, rfl⟩ : ∃ left, turns = left + 1 := ⟨turns - 1, by omega⟩
    rw [bytes_cons, Item.bytes, append_assoc, cons_append, printLoop, read_byte,
      Outcome.ok_bind]
    simp only [if_neg (attribute_byte_ne .content), attribute_name, Outcome.ok_bind, if_true]
    rw [nil_append, ih left (by omega), Outcome.ok_bind, itemsLayout, text_append,
      attribute_text]
    rfl
  | @endObject depth items rest ih =>
    rw [length_cons] at enough
    obtain ⟨left, rfl⟩ : ∃ left, turns = left + 1 := ⟨turns - 1, by omega⟩
    rw [bytes_cons, Item.bytes, append_assoc, cons_append, printLoop, read_byte,
      Outcome.ok_bind]
    rw [nil_append, ih left (by omega)]
    rfl

end Printing

section Layout

variable {depth : Nat} {listed first : Bool} {items : List Item}

theorem attribute_word (attr : InstanceAttribute) :
    Lexeme.isWord (ascii (attributeName attr)) = true := by
  cases attr <;> decide

theorem attribute_proper (attr : InstanceAttribute) :
    ∀ lexeme ∈ attributeLayout attr, lexeme.Proper := by
  intro lexeme member
  rw [attributeLayout, mem_cons, mem_cons, mem_singleton] at member
  rcases member with isBlank | isWord | isMark
  · rw [isBlank]
    exact ⟨by decide, by decide⟩
  · rw [isWord]
    exact attribute_word attr
  · rw [isMark]
    exact (by decide : Lexeme.isMark equals = true)

theorem proper_append {left right : List Lexeme} (leftProper : ∀ lexeme ∈ left, lexeme.Proper)
    (rightProper : ∀ lexeme ∈ right, lexeme.Proper) : ∀ lexeme ∈ left ++ right, lexeme.Proper := by
  intro lexeme member
  rcases mem_append.mp member with inLeft | inRight
  · exact leftProper lexeme inLeft
  · exact rightProper lexeme inRight

theorem proper_cons {head : Lexeme} {tail : List Lexeme} (headProper : head.Proper)
    (tailProper : ∀ lexeme ∈ tail, lexeme.Proper) : ∀ lexeme ∈ head :: tail, lexeme.Proper := by
  intro lexeme member
  rcases mem_cons.mp member with isHead | inTail
  · rw [isHead]
    exact headProper
  · exact tailProper lexeme inTail

theorem proper_mark {char : UInt8} (isMark : Lexeme.isMark char = true) :
    (Lexeme.mark char).Proper := isMark

theorem space_proper : (Lexeme.blank (ascii " ")).Proper := ⟨by decide, by decide⟩

theorem items_proper (flow : Flow cfg depth listed items) :
    ∀ lexeme ∈ itemsLayout first items, lexeme.Proper := by
  induction flow generalizing first with
  | type known rest ih =>
    apply proper_append
    · cases first with
      | true =>
        nofun
      | false =>
        apply proper_cons (proper_mark (by decide))
        apply proper_cons space_proper
        nofun
    · exact proper_cons trivial ih
  | last =>
    apply proper_cons (proper_mark (by decide))
    nofun
  | endList rest ih => exact proper_cons (proper_mark (by decide)) ih
  | quad notContent plain rest ih =>
    exact proper_append (attribute_proper _) (proper_cons trivial ih)
  | text texts short proper rest ih =>
    apply proper_append (attribute_proper _)
    apply proper_cons _ ih
    exact short
  | content rest ih =>
    exact proper_append (attribute_proper _) (proper_cons (proper_mark (by decide)) ih)
  | endObject rest ih => exact ih

theorem items_spaced (flow : Flow cfg depth listed items) :
    spaced (!(listed && first)) (itemsLayout first items) = true := by
  induction flow generalizing first with
  | type known rest ih =>
    cases first with
    | true => exact ih
    | false => exact ih
  | last => cases first <;> rfl
  | @endList depth items rest ih =>
    have fits : spaced true (itemsLayout first items) = true := ih
    rw [itemsLayout, spaced, Bool.and_eq_true]
    constructor
    · exact Bool.or_true _
    · exact spaced_weaken fits
  | quad notContent plain rest ih =>
    exact ih
  | @text depth attr string items texts short proper rest ih =>
    have fits : spaced true (itemsLayout first items) = true := ih
    have inner : spaced false (itemsLayout first items) = true := spaced_weaken fits
    exact inner
  | @content depth items rest ih =>
    have fits : spaced (!(true && true)) (itemsLayout true items) = true := ih
    exact fits
  | @endObject depth items rest ih =>
    have fits : spaced (!(true && false)) (itemsLayout false items) = true := ih
    exact fits

end Layout

section Parsing

variable {depth : Nat} {listed first : Bool} {items : List Item}

theorem attribute_found (attr : InstanceAttribute) :
    getInstanceAttributeByName ((ascii (attributeName attr)).map toLower) = some attr := by
  cases attr <;> decide

theorem type_token (typeID : UInt16) :
    (Lexeme.number (Int32.ofNat typeID.toNat)).tokens = [.number (Int32.ofNat typeID.toNat)] ∧
      (Int32.ofNat typeID.toNat).toInt = typeID.toNat ∧ lowWord (Int32.ofNat typeID.toNat) = typeID := by
  have small := typeID.toNat_lt
  have value : (Int32.ofNat typeID.toNat).toInt = typeID.toNat :=
    Int32.toInt_ofNat_of_lt (by omega)
  have nonneg : ¬ (Int32.ofNat typeID.toNat).toInt < 0 := by omega
  refine ⟨?_, value, ?_⟩
  · rw [Lexeme.tokens, if_neg nonneg, value, Int.natAbs_natCast]
  · rw [lowWord]
    simp

def Primed (script after : ReadScriptFile) : List Token → Prop
  | [] => False
  | token :: tokens => script.token = token ∧ Reads tokens script after

section Steps

variable {script after : ReadScriptFile} {tokens : List Token} {depth fuel : Nat} {listed first : Bool}
  {items : List Item} {stream : List UInt8}

theorem items_tokens_ne (flow : Flow cfg depth listed items) (first : Bool) :
    layoutTokens (itemsLayout first items) ≠ [] := by
  induction flow generalizing first with
  | @type depth typeID items known rest ih =>
    cases first with
    | true =>
      rw [itemsLayout, tokens_append]
      intro empty
      have numbered := (append_eq_nil_iff.mp empty).2
      rw [layoutTokens, flatMap_cons, (type_token typeID).1] at numbered
      cases numbered
    | false =>
      nofun
  | endObject rest ih => exact ih false
  | _ =>
    nofun

theorem primed_next (nonempty : tokens ≠ []) (reads : Reads tokens script after) :
    ∃ next, nextToken script = .ok ((), next) ∧ Primed next after tokens := by
  cases tokens with
  | nil => exact absurd rfl nonempty
  | cons token tokens => exact reads

theorem next_parses (flow : Flow cfg depth listed items) {program : Unit → Reading (List UInt8)}
    {result : Except Halt (List UInt8 × ReadScriptFile)}
    (reads : Reads (layoutTokens (itemsLayout first items)) script after)
    (parses : ∀ next, Primed next after (layoutTokens (itemsLayout first items)) →
      program () next = result) : (nextToken >>= program) script = result := by
  rcases primed_next (items_tokens_ne flow first) reads with ⟨next, reads, primed⟩
  rw [bind_apply, reads]
  exact parses next primed

end Steps

theorem put_false (stream bytes : List UInt8) : put false stream bytes = stream ++ bytes := rfl

theorem type_exists {typeID : UInt16} (known : typeID.toNat ≤ cfg.maxTypeID) :
    objectTypeExists cfg (Int32.ofNat typeID.toNat).toInt = true := by
  rw [objectTypeExists, (type_token typeID).2.1, decide_eq_true (Int.natCast_nonneg _),
    decide_eq_true (Int.ofNat_le.mpr known), Bool.true_and]

section Loop

variable {script after : ReadScriptFile} {depth fuel : Nat} {listed first : Bool}
  {items : List Item} {stream : List UInt8}

theorem parse_type {typeID : UInt16} (known : typeID.toNat ≤ cfg.maxTypeID)
    (flow : Flow cfg depth false items)
    (primed : Primed script after
      (.number (Int32.ofNat typeID.toNat) :: layoutTokens (itemsLayout first items)))
    (parses : ∀ next, Primed next after (layoutTokens (itemsLayout first items)) →
      parseLoop cfg false fuel depth false (stream ++ wordBytes typeID) next =
        .ok (stream ++ wordBytes typeID ++ itemsBytes items, after)) :
    parseLoop cfg false (fuel + 1) depth true stream script =
      .ok (stream ++ itemsBytes (.type typeID :: items), after) := by
  rw [bytes_cons, Item.bytes, ← append_assoc, parseLoop, bind_apply, getToken]
  simp only [Except.bind, primed.1]
  rw [bind_apply, get_number primed.1]
  simp only [Except.bind]
  rw [if_pos (type_exists known), (type_token typeID).2.2, put_false]
  exact next_parses flow primed.2 parses

theorem parse_attribute {attr : InstanceAttribute} {tokens : List Token}
    {result : Except Halt (List UInt8 × ReadScriptFile)}
    (primed : Primed script after (layoutTokens (attributeLayout attr) ++ tokens))
    (parses : ∀ next, Reads tokens next after →
      (if attr = .content then do
          readSymbol openBrace
          nextToken
          parseLoop cfg false fuel (depth + 1) true (stream ++ [attributeByte attr])
        else if isText attr then do
          let text ← readString
          nextToken
          parseLoop cfg false fuel depth false
            (stream ++ attributeByte attr :: stringBytes (some text))
        else do
          let value ← readNumber
          nextToken
          parseLoop cfg false fuel depth false
            (stream ++ attributeByte attr :: quadBytes value.toUInt32) : Reading (List UInt8)) next =
        result) : parseLoop cfg false (fuel + 1) depth false stream script = result := by
  have same : script.token = .identifier (ascii (attributeName attr)) := primed.1
  have reads : Reads ([.special equals] ++ tokens) script after := primed.2
  rcases reads_split reads with ⟨middle, reads_equals, reads_value⟩
  rw [parseLoop, bind_apply, getToken]
  simp only [Except.bind, same]
  rw [bind_apply, getIdentifier, bind_apply, getToken]
  simp only [Except.bind, same]
  rw [show (pure ((ascii (attributeName attr)).map toLower) : Reading (List UInt8)) script =
    .ok ((ascii (attributeName attr)).map toLower, script) from rfl]
  simp only [attribute_found]
  rw [bind_apply, parses_symbol equals script middle reads_equals]
  exact parses middle reads_value

theorem listed_special (flow : Flow cfg depth true items)
    (primed : Primed script after (layoutTokens (itemsLayout false items))) :
    ∃ char, script.token = .special char := by
  cases flow with
  | type known rest => exact ⟨comma, primed.1⟩
  | last => exact ⟨closeBrace, primed.1⟩
  | endList rest => exact ⟨closeBrace, primed.1⟩

/-- The parser writes the items again; a comma takes a turn of its own. -/
theorem parse_items (flow : Flow cfg depth listed items) (enough : 2 * items.length ≤ fuel)
    (primed : Primed script after (layoutTokens (itemsLayout first items))) :
    parseLoop cfg false fuel depth listed stream script = .ok (stream ++ itemsBytes items, after) := by
  induction flow generalizing fuel first stream script with
  | @type depth typeID items known rest ih =>
    rw [length_cons] at enough
    obtain ⟨left, rfl⟩ : ∃ left, fuel = left + 2 := ⟨fuel - 2, by omega⟩
    cases first with
    | true =>
      have numbered : Primed script after ((Lexeme.number (Int32.ofNat typeID.toNat)).tokens ++
        layoutTokens (itemsLayout true items)) := primed
      rw [(type_token typeID).1] at numbered
      apply parse_type known rest numbered
      intro next further
      exact ih (by omega) further
    | false =>
      have reads : Reads ((Lexeme.number (Int32.ofNat typeID.toNat)).tokens ++
        layoutTokens (itemsLayout false items)) script after := primed.2
      rw [(type_token typeID).1] at reads
      have isComma : script.token = .special comma := primed.1
      rw [parseLoop, bind_apply, getToken]
      simp only [Except.bind, isComma]
      rw [if_neg (by decide), if_pos trivial]
      rcases reads with ⟨next, reads, same, further⟩
      rw [bind_apply, reads]
      apply parse_type known rest ⟨same, further⟩
      intro last lastPrimed
      exact ih (by omega) lastPrimed
  | last =>
    obtain ⟨left, rfl⟩ : ∃ left, fuel = left + 2 := ⟨fuel - 2, by
      rw [length_singleton] at enough
      omega⟩
    have isBrace : script.token = .special closeBrace := primed.1
    have ends : after = script := primed.2
    rw [parseLoop, bind_apply, getToken]
    simp only [Except.bind, isBrace]
    rw [if_pos trivial, if_pos le_rfl, ends]
    rfl
  | @endList depth items rest ih =>
    rw [length_cons] at enough
    obtain ⟨left, rfl⟩ : ∃ left, fuel = left + 2 := ⟨fuel - 2, by omega⟩
    have isBrace : script.token = .special closeBrace := primed.1
    have inner : ¬ depth + 2 ≤ 1 := by omega
    have reads : Reads (layoutTokens (itemsLayout first items)) script after := primed.2
    rw [bytes_cons, Item.bytes, ← append_assoc, parseLoop, bind_apply, getToken]
    simp only [Except.bind, isBrace]
    rw [if_pos trivial, if_neg inner]
    apply next_parses rest reads
    intro next further
    exact ih (by omega) further
  | @quad depth attr value items notContent plain rest ih =>
    rw [length_cons] at enough
    obtain ⟨left, rfl⟩ : ∃ left, fuel = left + 2 := ⟨fuel - 2, by omega⟩
    apply parse_attribute primed
    intro next reads
    rcases reads_split reads with ⟨middle, reads_number, further⟩
    rw [if_neg notContent, plain, if_neg Bool.false_ne_true, bind_apply,
      parses_number value.toInt32 next middle reads_number]
    apply next_parses rest further
    intro last lastPrimed
    rw [bytes_cons, Item.bytes, ← append_assoc]
    exact ih (by omega) lastPrimed
  | @text depth attr string items texts short proper rest ih =>
    rw [length_cons] at enough
    obtain ⟨left, rfl⟩ : ∃ left, fuel = left + 2 := ⟨fuel - 2, by omega⟩
    have notContent : attr ≠ .content := by
      intro same
      rw [same] at texts
      cases texts
    rw [itemsLayout, tokens_append] at primed
    apply parse_attribute primed
    intro next reads
    rcases reads_split reads with ⟨middle, reads_string, further⟩
    rw [if_neg notContent, if_pos texts, bind_apply,
      parses_string string next middle reads_string]
    simp only [Except.bind, proper]
    apply next_parses rest further
    intro last lastPrimed
    rw [bytes_cons, Item.bytes, ← append_assoc]
    exact ih (by omega) lastPrimed
  | @content depth items rest ih =>
    rw [length_cons] at enough
    obtain ⟨left, rfl⟩ : ∃ left, fuel = left + 2 := ⟨fuel - 2, by omega⟩
    apply parse_attribute primed
    intro next reads
    rcases reads_split reads with ⟨middle, reads_brace, further⟩
    rw [if_pos rfl, bind_apply, parses_symbol openBrace next middle reads_brace]
    apply next_parses rest further
    intro last lastPrimed
    rw [bytes_cons, Item.bytes, ← append_assoc]
    exact ih (by omega) lastPrimed
  | @endObject depth items rest ih =>
    rw [length_cons] at enough
    obtain ⟨left, rfl⟩ : ∃ left, fuel = left + 2 := ⟨fuel - 2, by omega⟩
    have ready : Primed script after (layoutTokens (itemsLayout false items)) := primed
    rcases listed_special rest ready with ⟨char, isSpecial⟩
    rw [bytes_cons, Item.bytes, ← append_assoc, parseLoop, bind_apply, getToken]
    simp only [Except.bind, isSpecial]
    exact ih (by omega) ready

end Loop

end Parsing

section RoundTrip

variable {items : List Item} {bytes : List UInt8}

def objectsLayout (items : List Item) : List Lexeme := .mark openBrace :: itemsLayout true items

theorem objects_proper (flow : Flow cfg 1 true items) :
    ∀ lexeme ∈ objectsLayout items, lexeme.Proper :=
  proper_cons (proper_mark (by decide)) (items_proper flow)

theorem objects_spaced (flow : Flow cfg 1 true items) : spaced true (objectsLayout items) = true := by
  have fits : spaced (!(true && true)) (itemsLayout true items) = true := items_spaced flow
  exact fits

theorem items_length (items : List Item) : items.length ≤ (itemsBytes items).length := by
  induction items with
  | nil => exact le_rfl
  | cons item items ih =>
    have some_byte : 1 ≤ item.bytes.length := by
      cases item with
      | type typeID => exact (by decide : 1 ≤ 2)
      | quad attr value => exact Nat.succ_le_succ (Nat.zero_le _)
      | text attr string => exact Nat.succ_le_succ (Nat.zero_le _)
      | content => exact le_rfl
      | endObject => exact le_rfl
      | endList => exact (by decide : 1 ≤ 2)
    rw [bytes_cons, length_append, length_cons]
    omega

theorem objects_print (flow : Flow cfg 1 true items) (more : List UInt8) :
    printObjects (itemsBytes items ++ more) = .ok (layoutText (objectsLayout items), more) := by
  have enough : items.length ≤ (itemsBytes items ++ more).length + 1 := by
    have fewer := items_length items
    rw [length_append]
    omega
  rw [printObjects, print_items _ flow enough]
  rfl

theorem objects_parse (flow : Flow cfg 1 true items) {fuel : Nat}
    (enough : 2 * items.length ≤ fuel) (stream : List UInt8) :
    Parses (parseObjects cfg fuel false stream) (layoutTokens (objectsLayout items))
      (stream ++ itemsBytes items) := by
  have opens := parses_symbol openBrace
  apply parses_bind opens
  intro script after reads
  apply next_parses flow reads
  intro next primed
  exact parse_items flow enough primed

def Saved (world : World cfg) (bytes : List UInt8) : Prop :=
  ∃ fuel obj, saveObjects world fuel obj false = .ok bytes

theorem saved_flow (short : ShortStrings world) (saved : Saved world bytes) :
    ∃ items, Flow cfg 1 true items ∧ bytes = itemsBytes items := by
  rcases saved with ⟨fuel, obj, written⟩
  exact save_flow fuel short le_rfl written

def opened (disk : String → Option (List UInt8)) (filename : String) (text : List UInt8) :
    ReadScriptFile := ⟨disk, [⟨filename, 1, text⟩], .endOfFile⟩

theorem opened_facing (disk : String → Option (List UInt8)) (filename : String)
    (text : List UInt8) : Facing [] (opened disk filename text) text := ⟨filename, 1, [], rfl, rfl⟩

/-- A stream of objects that any store has saved is printed whole, and parsing the text gives
the same stream, whatever stands behind the text and wherever it is written to. -/
theorem object_text_round_trip (world : World cfg) (short : ShortStrings world) (fuel : Nat)
    (obj : Object) (bytes : List UInt8) (saved : saveObjects world fuel obj false = .ok bytes) :
    ∃ text, printObjects bytes = .ok (text, []) ∧ ∀ disk filename, ∃ least after, ∀ fuel, least ≤ fuel →
      parseObjects cfg fuel false [] (opened disk filename text) = .ok (bytes, after) := by
  rcases saved_flow short ⟨fuel, obj, saved⟩ with ⟨items, flow, same⟩
  refine ⟨layoutText (objectsLayout items), ?_, ?_⟩
  · have prints := objects_print flow []
    rw [append_nil] at prints
    rw [same]
    exact prints
  · intro disk filename
    have faces := opened_facing disk filename (layoutText (objectsLayout items) ++ [])
    have noEnd : endsRunning false (objectsLayout items) = true → breaks [] = true := fun _ => rfl
    rcases layout_reads (objects_proper flow) (spaced_weaken (objects_spaced flow)) noEnd faces with
      ⟨after, reads, _⟩
    rw [append_nil] at reads
    refine ⟨2 * items.length, after, ?_⟩
    intro fuel enough
    rw [same]
    exact objects_parse flow enough [] _ after reads

theorem scroll_table_fits : 4 < 32 := by decide

def scrollTypes : GameConfig where
  maxTypeID := 101
  typeFlags := fun typeID flag =>
    (typeID == 0 && flag == .container) || (typeID == 100 && flag == .container) ||
      (typeID == 101 && (flag == .text || flag == .wearOut))
  typeAttributes := fun _ _ => 0
  hashTableLog := 4
  maxTypeID_lt := by decide
  mapContainer_holds := rfl
  mapContainer_lasts := rfl
  creature_single := rfl
  hashTableLog_lt := scroll_table_fits

theorem bag_known : 100 ≤ scrollTypes.maxTypeID := by decide

theorem scroll_known : 101 ≤ scrollTypes.maxTypeID := by decide

def spell : List UInt8 := ascii "say \"friend\"\\ #@-\n"

def spellBlock : StringBlock := allocate emptyBlock 0 spell

def scrollWorld : World scrollTypes :=
  let bag : MapObject scrollTypes :=
    ⟨1, ⟨3⟩, NONE, ⟨100, by decide⟩, fun slot => if slot = 0 then 2 else 0⟩
  let inside : MapObject scrollTypes :=
    ⟨2, NONE, ⟨1⟩, ⟨101, by decide⟩, fun slot => if slot = 0 then 1 else 0xFFFFFFFF⟩
  let beside : MapObject scrollTypes :=
    ⟨3, NONE, NONE, ⟨101, by decide⟩, fun slot => if slot = 2 then 0x80000000 else 0⟩
  { initialWorld scrollTypes with
    hashTable := fun index =>
      if index = 1 then .loaded bag else if index = 2 then .loaded inside
      else if index = 3 then .loaded beside else .free
    strings := [spellBlock] }

theorem scroll_strings : ShortStrings scrollWorld := by
  intro number text found
  unfold getDynamicString at found
  split_ifs at found
  split at found
  · rename_i block entry hasBlock hasEntry
    have single : scrollWorld.strings = [spellBlock] := rfl
    rw [single, List.getElem?_singleton] at hasBlock
    split_ifs at hasBlock found with first allocated
    cases hasBlock
    have isFirst : entry = 0 := by
      by_contra other
      have free : spellBlock.entryType entry = .free := Function.update_of_ne other _ _
      rw [free] at allocated
      cases allocated
    rw [isFirst] at found
    cases found
    decide
  · cases found

def scrollBytes : List UInt8 :=
  [100, 0, 0, 101, 0, 9, 18, 0] ++ spell ++ [10, 0, 0, 17, 255, 255, 255, 255, 255, 255, 255, 255,
    101, 0, 17, 0, 0, 0, 128, 255, 255, 255]

theorem scroll_round_trip : ∃ text, printObjects scrollBytes = .ok (text, []) ∧
    ∀ disk filename, ∃ least after, ∀ fuel, least ≤ fuel →
      parseObjects scrollTypes fuel false [] (opened disk filename text) =
        .ok (scrollBytes, after) :=
  object_text_round_trip scrollWorld scroll_strings 20 ⟨1⟩ scrollBytes rfl

end RoundTrip

end TibiaGame.ObjectText
