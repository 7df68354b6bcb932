import TibiaGame.ObjectLoading

/-!
# What is saved of an object

The loop of `save_objects` follows the links of the store. It writes the list of objects that they
stand for.
-/

namespace TibiaGame.ObjectSaving

open GameTypes ObjectStore DynamicStrings ContentForest ForestSteps ForestDeletion List
open ForestRuns ObjectStreams ObjectText ObjectLoading Library.LittleEndian Library.LinkedList
open ObjectKinds ObjectOperations ForestOperations Library.Outcome

variable {cfg : GameConfig} {world : World cfg} {kids : Object → List Object} {obj con : Object}

/-- Strings that fit into the array of `load_objects`. -/
def StoredStrings (world : World cfg) : Prop :=
  ∀ number text, getDynamicString world.strings number = some text → text.length ≤ 4095

/-- Fields and places of the inventory are in no object that can be moved. -/
def Orderly (world : World cfg) (kids : Object → List Object) : Prop :=
  ∀ con node, node ∈ kids con → Movable (getObjectType world con) → Movable (getObjectType world node)

def Carries (world : World cfg) (obj : Object) (attributes : List Attribute) : Prop :=
  attributesBytes world obj (instanceAttributes.drop 1) =
    .ok (itemsBytes (attributes.map Attribute.item))

/-- The objects of a list with their attributes and contents, without the creatures. -/
inductive Pictures (world : World cfg) (kids : Object → List Object) :
    List Object → Objects cfg → Prop where
  | nil : Pictures world kids [] .nil
  | creature {obj : Object} {rest : List Object} {objects : Objects cfg}
      (creature : (getObjectType world obj).isCreatureContainer = true)
      (others : Pictures world kids rest objects) : Pictures world kids (obj :: rest) objects
  | plain {obj : Object} {rest : List Object} {attributes : List Attribute} {objects : Objects cfg}
      (thing : (getObjectType world obj).isCreatureContainer = false)
      (carries : Carries world obj attributes) (empty : kids obj = [])
      (others : Pictures world kids rest objects) :
      Pictures world kids (obj :: rest) (.plain (getObjectType world obj) attributes objects)
  | holder {obj : Object} {rest : List Object} {attributes : List Attribute}
      {content objects : Objects cfg}
      (thing : (getObjectType world obj).isCreatureContainer = false)
      (carries : Carries world obj attributes) (some_kid : kids obj ≠ [])
      (inside : Pictures world kids (kids obj) content)
      (others : Pictures world kids rest objects) :
      Pictures world kids (obj :: rest) (.holder (getObjectType world obj) attributes content objects)

theorem attribute_saved {attr : InstanceAttribute} {bytes : List UInt8}
    (strings : StoredStrings world) (plain : attr ≠ .content)
    (saved : attributeBytes world obj attr = .ok bytes) :
    ∃ entries : List Attribute, bytes = itemsBytes (entries.map Attribute.item) ∧
      ∀ entry ∈ entries, entry.Storable := by
  have none_left : ∀ entry ∈ ([] : List Attribute), entry.Storable :=
    fun _ member => absurd member not_mem_nil
  have single : ∀ one : Attribute, one.Storable → ∀ entry ∈ [one], entry.Storable := by
    intro one storable entry member
    rw [mem_singleton.mp member]
    exact storable
  rw [attributeBytes] at saved
  by_cases has : ((getObjectType world obj).getAttributeOffset attr).isSome
  · rw [if_pos has] at saved
    rcases bind_ok.mp saved with ⟨value, _, written⟩
    by_cases zero : value = 0
    · rw [if_pos zero] at written
      cases written
      exact ⟨[], rfl, none_left⟩
    rw [if_neg zero] at written
    by_cases texts : isText attr = true
    · rw [if_pos texts] at written
      cases written
      rcases stored : getDynamicString world.strings value with _ | text
      · exact ⟨[.text attr []], rfl, single _ ⟨texts, Nat.zero_le _, rfl⟩⟩
      refine ⟨[.text attr text], ?_,
        single _ ⟨texts, strings value text stored, stored_proper stored⟩⟩
      rw [map_singleton, bytes_cons, itemsBytes, flatMap_nil, append_nil]
      rfl
    rw [if_neg texts] at written
    cases written
    exact ⟨[.quad attr value], rfl, single _ ⟨plain, Bool.eq_false_iff.mpr texts⟩⟩
  rw [if_neg has] at saved
  cases saved
  exact ⟨[], rfl, none_left⟩

theorem attributes_saved {attributes : List InstanceAttribute} {bytes : List UInt8}
    (strings : StoredStrings world) (plain : .content ∉ attributes)
    (saved : attributesBytes world obj attributes = .ok bytes) :
    ∃ entries : List Attribute, bytes = itemsBytes (entries.map Attribute.item) ∧
      ∀ entry ∈ entries, entry.Storable := by
  induction attributes generalizing bytes with
  | nil =>
    cases saved
    exact ⟨[], rfl, fun _ member => absurd member not_mem_nil⟩
  | cons attr attributes ih =>
    rcases bind_ok.mp saved with ⟨first, savedFirst, savedRest⟩
    rcases bind_ok.mp savedRest with ⟨others, savedOthers, written⟩
    cases written
    have notContent : attr ≠ .content := (ne_of_not_mem_cons plain).symm
    rcases attribute_saved strings notContent savedFirst with ⟨one, oneSame, oneStorable⟩
    rcases ih (not_mem_of_not_mem_cons plain) savedOthers with ⟨more, moreSame, moreStorable⟩
    refine ⟨one ++ more, ?_, ?_⟩
    · rw [map_append, items_bytes_append, oneSame, moreSame]
    intro entry member
    rcases mem_append.mp member with first | later
    · exact oneStorable entry first
    · exact moreStorable entry later

theorem carries_saved {bytes : List UInt8} (strings : StoredStrings world)
    (saved : attributesBytes world obj (instanceAttributes.drop 1) = .ok bytes) :
    ∃ attributes : List Attribute, bytes = itemsBytes (attributes.map Attribute.item) ∧
      Carries world obj attributes ∧ ∀ entry ∈ attributes, entry.Storable := by
  rcases attributes_saved strings (by decide) saved with ⟨attributes, same, storable⟩
  refine ⟨attributes, same, ?_, storable⟩
  rw [Carries, saved, same]

section Lists

variable {stop : Bool} {fuel depth : Nat} {tail bytes : List UInt8}

theorem next_of_live (isLive : objectExists world obj = true) :
    getNextObject world obj = nextOf (liveRecord world) obj := by
  rcases object_exists_iff.mp isLive with ⟨record, live⟩
  rw [getNextObject, access_live live, nextOf, live]
  rfl

section

variable (forest : Forest (liveRecord world) kids) (isLive : objectExists world obj = true)
include forest isLive

theorem first_content : firstContent world obj = headOf NONE (kids obj) := by
  unfold firstContent
  split_ifs with holds
  · exact content_is_head forest isLive
  rw [forest.barren, head_of_nil]
  rcases object_exists_iff.mp isLive with ⟨record, live⟩
  rw [getObjectType, access_live live] at holds
  rw [holdsOf, live, Option.map_some]
  exact fun same => holds (Option.some.inj same)

theorem childless (empty : firstContent world obj = NONE) : kids obj = [] := by
  rw [first_content forest isLive] at empty
  rcases list : kids obj with _ | ⟨kid, more⟩
  · rfl
  rw [list, head_of_cons] at empty
  have edge : kid ∈ kids obj := by
    rw [list]
    exact mem_cons_self
  exact absurd empty (forest.kid_ne_none edge)

theorem some_content (full : firstContent world obj ≠ NONE) : kids obj ≠ [] := by
  intro nothing
  rw [first_content forest isLive, nothing] at full
  exact full rfl

end

theorem holds_of_content (full : firstContent world obj ≠ NONE) :
    (getObjectType world obj).holdsObjects = true := by
  by_contra plain
  apply full
  rw [firstContent, if_neg plain]

/-- What the loop writes when the list of `con` is at its end. -/
def Ends (world : World cfg) (stop : Bool) (fuel depth : Nat) (con : Object) (tail : List UInt8) :
    Prop :=
  (depth = 1 ∧ tail = wordBytes 0xFFFF) ∨
    (depth = 2 ∧ stop = true ∧ tail = wordBytes 0xFFFF ++ [0xFF]) ∨
    (1 < depth ∧ (stop && depth == 2) = false ∧ ∃ less others, less < fuel ∧
      saveLoop world stop less (depth - 1) true con (getNextObject world con) = .ok others ∧
      tail = wordBytes 0xFFFF ++ 0xFF :: others)

theorem Ends.more {more : Nat} (ends : Ends world stop fuel depth con tail) (le : fuel ≤ more) :
    Ends world stop more depth con tail := by
  rcases ends with outer | last | ⟨deep, further, less, others, fewer, saved, same⟩
  · exact .inl outer
  · exact .inr (.inl last)
  · exact .inr (.inr ⟨deep, further, less, others, Nat.lt_of_lt_of_le fewer le, saved, same⟩)

/-- The loop is at these objects of the list of `con`, which ends behind them. -/
structure Stands (world : World cfg) (kids : Object → List Object) (depth : Nat)
    (con prev obj : Object) (rest : List Object) : Prop where
  chain : Chain NONE (nextOf (liveRecord world)) obj rest
  inside : ∀ node ∈ rest, node ∈ kids con
  movable : ∀ node ∈ rest, Movable (getObjectType world node)
  last : rest = [] → depth ≠ 1 → prev ∈ kids con

theorem kid_live (described : Described world kids) (edge : obj ∈ kids con) :
    objectExists world obj = true := by
  rcases described.forest.kid_live edge with ⟨record, live, _⟩
  exact object_exists_iff.mpr ⟨record, live⟩

theorem Stands.step {prev : Object} {rest : List Object} (described : Described world kids)
    (stands : Stands world kids depth con prev obj (obj :: rest)) :
    Stands world kids depth con obj (getNextObject world obj) rest where
  chain := by
    rw [next_of_live (kid_live described (stands.inside obj mem_cons_self))]
    exact stands.chain.2.2
  inside := fun node member => stands.inside node (mem_cons_of_mem obj member)
  movable := fun node member => stands.movable node (mem_cons_of_mem obj member)
  last := fun _ _ => stands.inside obj mem_cons_self

theorem stands_first (described : Described world kids) (orderly : Orderly world kids)
    (isLive : objectExists world obj = true) (movable : Movable (getObjectType world obj))
    (some_kid : kids obj ≠ []) (prev : Object) :
    Stands world kids depth obj prev (firstContent world obj) (kids obj) where
  chain := by
    rw [first_content described.forest isLive]
    have holds : holdsOf (liveRecord world) obj = some true := by
      by_contra plain
      exact some_kid (described.forest.barren obj plain)
    rcases holder_record holds with ⟨record, live, _⟩
    have chain := described.forest.chain obj record.content holds (by
      rw [contentOf, live, Option.map_some])
    rw [← chain_start chain]
    exact chain
  inside := fun _ member => member
  movable := fun node member => orderly obj node member movable
  last := fun nothing => absurd nothing some_kid

theorem type_saved (type : ObjectType cfg) (rest : List Item) :
    itemsBytes (typeItem type :: rest) = wordBytes (UInt16.ofNat type.typeID) ++ itemsBytes rest :=
  rfl

theorem plain_bytes (type : ObjectType cfg) (attributes : List Attribute) (rest : Objects cfg) :
    (Objects.plain type attributes rest).bytes = wordBytes (UInt16.ofNat type.typeID) ++
      (itemsBytes (attributes.map Attribute.item) ++ 0xFF :: rest.bytes) := by
  rw [Objects.bytes, Objects.items, type_saved, items_bytes_append]
  rfl

theorem holder_bytes (type : ObjectType cfg) (attributes : List Attribute)
    (content rest : Objects cfg) :
    (Objects.holder type attributes content rest).bytes = wordBytes (UInt16.ofNat type.typeID) ++
      (itemsBytes (attributes.map Attribute.item) ++ attributeByte .content ::
        (content.bytes ++ (wordBytes 0xFFFF ++ 0xFF :: rest.bytes))) := by
  rw [Objects.bytes, Objects.items, type_saved, items_bytes_append, bytes_cons, items_bytes_append,
    bytes_cons, bytes_cons]
  rfl

variable (described : Described world kids) (orderly : Orderly world kids)
    (strings : StoredStrings world)
include described orderly strings

theorem save_list {prev : Object} {rest : List Object} (deep : 1 ≤ depth)
    (single : stop = true → 2 ≤ depth) (stands : Stands world kids depth con prev obj rest)
    (saved : saveLoop world stop fuel depth true prev obj = .ok bytes) :
    ∃ objects tail, objects.Storable ∧ Pictures world kids rest objects ∧
      bytes = objects.bytes ++ tail ∧ Ends world stop fuel depth con tail := by
  induction fuel using Nat.strong_induction_on generalizing depth con prev obj rest bytes with
  | _ fuel ih =>
    rcases fuel with _ | fuel
    · rw [saveLoop] at saved
      cases saved
    rcases rest with _ | ⟨node, rest⟩
    · have missing : obj = NONE := stands.chain
      rw [saveLoop, if_pos missing] at saved
      by_cases outermost : depth ≤ 1
      · rw [if_pos outermost] at saved
        cases saved
        exact ⟨.nil, _, trivial, .nil, rfl, .inl ⟨by omega, rfl⟩⟩
      rw [if_neg outermost] at saved
      by_cases only : (stop && depth == 2) = true
      · rw [if_pos only] at saved
        cases saved
        rcases (Bool.and_eq_true _ _).mp only with ⟨stops, two⟩
        exact ⟨.nil, _, trivial, .nil, rfl, .inr (.inl ⟨beq_iff_eq.mp two, stops, rfl⟩)⟩
      rw [if_neg only] at saved
      rcases described.forest.kid_live (stands.last rfl (by omega)) with
        ⟨record, live, container⟩
      have back : getContainer world prev = con := by
        rw [getContainer, access_live live, container]
      rw [back] at saved
      rcases bind_ok.mp saved with ⟨others, savedOthers, written⟩
      cases written
      exact ⟨.nil, _, trivial, .nil, rfl,
        .inr (.inr ⟨by omega, Bool.eq_false_iff.mpr only, fuel, others,
          Nat.lt_succ_self fuel, savedOthers, rfl⟩)⟩
    have here : obj = node := stands.chain.1
    rw [← here] at stands ⊢
    have inner : obj ≠ NONE := stands.chain.2.1
    rw [saveLoop, if_neg inner] at saved
    have later : (stop && depth == 1) = false := by
      apply Bool.eq_false_iff.mpr
      intro both
      rcases (Bool.and_eq_true _ _).mp both with ⟨stops, one⟩
      have two := single stops
      have same : depth = 1 := beq_iff_eq.mp one
      omega
    by_cases creature : (getObjectType world obj).isCreatureContainer = true
    · rw [if_pos creature, later, if_neg Bool.false_ne_true] at saved
      rcases ih fuel (Nat.lt_succ_self fuel) deep single (stands.step described) saved with
        ⟨objects, tail, storable, pictures, same, ends⟩
      exact ⟨objects, tail, storable, .creature creature pictures, same,
        ends.more (Nat.le_succ fuel)⟩
    have isLive := kid_live described (stands.inside obj mem_cons_self)
    have movable := stands.movable obj mem_cons_self
    rw [if_neg creature] at saved
    rcases bind_ok.mp saved with ⟨body, savedBody, written⟩
    cases written
    rcases fuel with _ | fuel
    · cases savedBody
    rw [saveLoop] at savedBody
    rcases bind_ok.mp savedBody with ⟨attributesText, savedAttributes, savedRest⟩
    rcases carries_saved strings savedAttributes with
      ⟨attributes, attributesSame, carries, proper⟩
    have thing := Bool.eq_false_iff.mpr creature
    by_cases empty : firstContent world obj = NONE
    · rw [if_pos empty, later, if_neg Bool.false_ne_true] at savedRest
      rcases bind_ok.mp savedRest with ⟨others, savedOthers, written⟩
      cases written
      rcases ih fuel (by omega) deep single (stands.step described) savedOthers with
        ⟨objects, tail, storable, pictures, same, ends⟩
      have nothing := childless described.forest isLive empty
      refine ⟨.plain _ attributes objects, tail, ⟨movable, proper, storable⟩,
        .plain thing carries nothing pictures, ?_, ends.more (by omega)⟩
      rw [plain_bytes, attributesSame, same]
      simp only [append_assoc, cons_append]
    rw [if_neg empty] at savedRest
    rcases bind_ok.mp savedRest with ⟨inside, savedInside, written⟩
    cases written
    have some_kid := some_content described.forest isLive empty
    have first := @stands_first cfg world kids obj (depth + 1) described orderly
      isLive movable some_kid NONE
    rcases ih fuel (by omega) (Nat.le_add_left 1 depth)
      (fun stops => Nat.le_succ_of_le (single stops)) first savedInside with
      ⟨content, contentTail, contentStorable, contentPictures, contentSame, ends⟩
    rcases ends with ⟨one, _⟩ | ⟨two, stops, _⟩ |
      ⟨_, _, less, others, fewer, savedOthers, tailSame⟩
    · omega
    · have atLeast := single stops
      omega
    · rw [Nat.add_sub_cancel] at savedOthers
      rcases ih less (by omega) deep single (stands.step described) savedOthers with
        ⟨objects, tail, storable, pictures, same, laterEnds⟩
      refine ⟨.holder _ attributes content objects, tail,
        ⟨movable, holds_of_content empty, proper, contentStorable, storable⟩,
        .holder thing carries some_kid contentPictures pictures, ?_,
        laterEnds.more (by omega)⟩
      rw [holder_bytes, attributesSame, contentSame, tailSame, same]
      simp only [append_assoc, cons_append]

/-- What is saved of the content of an object, up to the end of its list. -/
theorem content_saved (isLive : objectExists world obj = true)
    (movable : Movable (getObjectType world obj))
    (saved : saveObjects world fuel (firstContent world obj) false = .ok bytes) :
    ∃ objects, objects.Storable ∧ Pictures world kids (kids obj) objects ∧
      bytes = objects.bytes ++ wordBytes 0xFFFF := by
  have outermost : Stands world kids 1 obj NONE (firstContent world obj) (kids obj) := by
    by_cases empty : firstContent world obj = NONE
    · rw [childless described.forest isLive empty]
      exact ⟨empty, fun _ member => absurd member not_mem_nil,
        fun _ member => absurd member not_mem_nil, fun _ deeper => absurd rfl deeper⟩
    exact stands_first described orderly isLive movable
      (some_content described.forest isLive empty) NONE
  rcases save_list described orderly strings (Nat.le_refl 1)
    (fun stops => absurd stops Bool.false_ne_true) outermost saved with
    ⟨objects, tail, storable, pictures, same, ends⟩
  refine ⟨objects, storable, pictures, ?_⟩
  rcases ends with ⟨_, tailSame⟩ | ⟨two, _⟩ | ⟨deep, _⟩
  · rw [same, tailSame]
  · omega
  · omega

theorem object_saved (isLive : objectExists world obj = true)
    (movable : Movable (getObjectType world obj))
    (thing : (getObjectType world obj).isCreatureContainer = false)
    (saved : saveObjects world fuel obj true = .ok bytes) :
    ∃ objects, objects.Storable ∧ Pictures world kids [obj] objects ∧ bytes = objects.bytes := by
  have inner : obj ≠ NONE := by
    rcases object_exists_iff.mp isLive with ⟨record, live⟩
    exact live_ne_none live
  rw [saveObjects] at saved
  rcases fuel with _ | fuel
  · rw [saveLoop] at saved
    cases saved
  rw [saveLoop, if_neg inner, thing, if_neg Bool.false_ne_true] at saved
  rcases bind_ok.mp saved with ⟨body, savedBody, written⟩
  cases written
  rcases fuel with _ | fuel
  · cases savedBody
  rw [saveLoop] at savedBody
  rcases bind_ok.mp savedBody with ⟨attributesText, savedAttributes, savedRest⟩
  rcases carries_saved strings savedAttributes with
    ⟨attributes, attributesSame, carries, proper⟩
  by_cases empty : firstContent world obj = NONE
  · have only : (true && (1 : Nat) == 1) = true := rfl
    rw [if_pos empty, if_pos only] at savedRest
    cases savedRest
    refine ⟨.plain _ attributes .nil, ⟨movable, proper, trivial⟩,
      .plain thing carries (childless described.forest isLive empty) .nil, ?_⟩
    rw [plain_bytes, attributesSame]
    rfl
  rw [if_neg empty] at savedRest
  rcases bind_ok.mp savedRest with ⟨inside, savedInside, written⟩
  cases written
  have some_kid := some_content described.forest isLive empty
  have first := @stands_first cfg world kids obj 2 described orderly isLive movable
    some_kid NONE
  rcases save_list described orderly strings (Nat.le_succ 1) (fun _ => Nat.le_refl 2)
    first savedInside with
    ⟨content, tail, contentStorable, pictures, contentSame, ends⟩
  refine ⟨.holder _ attributes content .nil,
    ⟨movable, holds_of_content empty, proper, contentStorable, trivial⟩,
    .holder thing carries some_kid pictures .nil, ?_⟩
  rcases ends with ⟨one, _⟩ | ⟨_, _, tailSame⟩ | ⟨_, further, _⟩
  · omega
  · rw [holder_bytes, attributesSame, contentSame, tailSame]
    rfl
  · cases further

end Lists

theorem append_orderly {after : World cfg} {type : ObjectType cfg} (described : Described world kids)
    (orderly : Orderly world kids) (isHolder : IsHolder world con) (movable : Movable type)
    (appended : appendObject world con type = .ok (obj, after)) :
    ∃ newKids, Described after newKids ∧ Orderly after newKids := by
  have creates := append_object_spec described.agreement described.forest
    (holder_iff.mp isHolder) type
  rw [appended] at creates
  rcases creates with ⟨halt, _, impossible⟩ | ⟨same, result, returned, created⟩
  · cases impossible
  cases returned
  refine ⟨_, ⟨created.agreement, created.forest⟩, ?_⟩
  intro holder node edge heavy
  by_cases new : node = obj
  · rw [object_type_of ((created.types node).trans (if_pos new))]
    exact movable
  have old : node ∈ kids holder := by
    rw [placed, Function.update_apply] at edge
    split_ifs at edge with here
    · rw [here, place_split after obj con true (kids con)]
      grind
    exact edge
  have kept : ∀ node, liveRecord world node ≠ none →
      getObjectType after node = getObjectType world node := by
    intro node isLive
    have isThere := object_exists_iff.mpr (Option.ne_none_iff_exists'.mp isLive)
    apply object_type_of
    rw [created.types, if_neg, type_of_exists isThere]
    rintro rfl
    exact isLive created.fresh
  rcases holder_record (described.forest.parent_holds old) with ⟨record, live, _⟩
  rcases described.forest.kid_live old with ⟨_, kid, _⟩
  rw [kept holder (by simp [live])] at heavy
  rw [kept node (by simp [kid])]
  exact orderly holder node old heavy

end TibiaGame.ObjectSaving
