import TibiaGame.ObjectText
import TibiaGame.ForestRuns

/-!
# Objects out of a stream

`load_objects` of `map.cpp`, which puts the objects of a stream into a container, and the lists of
objects that a stream stands for.
-/

namespace TibiaGame.ObjectLoading

open GameTypes ObjectStore ObjectOperations ObjectKinds CronModel CronInvariant CronOperations List
open CronAgreement DynamicStrings ContentForest ForestSteps ForestOperations ForestRuns
open ObjectStreams ObjectText Library.LittleEndian Library.Outcome

variable {cfg : GameConfig}

def loadAttribute (world : World cfg) (obj : Object) (attr : InstanceAttribute)
    (stream : List UInt8) : Except Halt (World cfg × List UInt8) :=
  if isText attr then do
    let text ← readStreamString 4096 stream
    let added := addDynamicString world.strings (some text.1)
    .ok (setAttribute { world with strings := added.2 } obj attr added.1, text.2)
  else do
    let value ← readQuad stream
    if attr = .remainingExpireTime then
      if value.1 ≠ 0 then do
        let world ← cronChange world obj value.1.toInt32
        .ok (world, value.2)
      else .ok (world, value.2)
    else .ok (setAttribute world obj attr value.1, value.2)

/-- The loop of `load_objects`. Behind the attributes that there are, the source reads beyond the
array of their flags. -/
def loadLoop : Nat → World cfg → Nat → Object → Object → List UInt8 →
    Except Halt (World cfg × List UInt8)
  | 0, _, _, _, _, _ => .error .hang
  | fuel + 1, world, depth, obj, con, stream =>
      if obj = NONE then do
        let word ← readWord stream
        if word.1 ≠ 0xFFFF then
          let type := setTypeID cfg word.1.toNat
          if type.isBodyContainer then
            loadLoop fuel world depth (getContainerObject world con (word.1.toNat - 1)) con word.2
          else
            let appended ← appendObject world con type
            loadLoop fuel appended.2 depth appended.1 con word.2
        else if depth ≤ 1 then .ok (world, word.2)
        else loadLoop fuel world (depth - 1) con (getContainer world con) word.2
      else do
        let attr ← readByte stream
        if attr.1 = 0xFF then loadLoop fuel world depth NONE con attr.2
        else if attr.1 = attributeByte .content then
          loadLoop fuel world (depth + 1) NONE obj attr.2
        else
          match instanceAttributes[attr.1.toNat]? with
          | none => .error .abort
          | some found =>
              let loaded ← loadAttribute world obj found attr.2
              loadLoop fuel loaded.1 depth obj con loaded.2

def loadObjects (fuel : Nat) (world : World cfg) (stream : List UInt8) (con : Object) :
    Except Halt (World cfg × List UInt8) :=
  loadLoop fuel world 1 NONE con stream

inductive Attribute where
  | quad (attr : InstanceAttribute) (value : UInt32)
  | text (attr : InstanceAttribute) (string : List UInt8)

def Attribute.item : Attribute → Item
  | .quad attr value => .quad attr value
  | .text attr string => .text attr string

inductive Objects (cfg : GameConfig) where
  | nil
  | plain (type : ObjectType cfg) (attributes : List Attribute) (rest : Objects cfg)
  | holder (type : ObjectType cfg) (attributes : List Attribute) (content rest : Objects cfg)

def typeItem (type : ObjectType cfg) : Item := .type (UInt16.ofNat type.typeID)

def Objects.items : Objects cfg → List Item
  | .nil => []
  | .plain type attributes rest =>
      typeItem type :: (attributes.map Attribute.item ++ .endObject :: rest.items)
  | .holder type attributes content rest =>
      typeItem type :: (attributes.map Attribute.item ++
        .content :: (content.items ++ .endList :: .endObject :: rest.items))

def Objects.bytes (objects : Objects cfg) : List UInt8 := itemsBytes objects.items

def Objects.append : Objects cfg → Objects cfg → Objects cfg
  | .nil, others => others
  | .plain type attributes rest, others => .plain type attributes (rest.append others)
  | .holder type attributes content rest, others =>
      .holder type attributes content (rest.append others)

/-- An attribute that is saved as a number or as a text and can be read again. -/
def Attribute.Storable : Attribute → Prop
  | .quad attr _ => attr ≠ .content ∧ isText attr = false
  | .text attr string => isText attr = true ∧ string.length ≤ 4095 ∧ cString string = string

def Movable (type : ObjectType cfg) : Prop := 10 < type.typeID

def Objects.Storable : Objects cfg → Prop
  | .nil => True
  | .plain type attributes rest =>
      Movable type ∧ (∀ entry ∈ attributes, entry.Storable) ∧ rest.Storable
  | .holder type attributes content rest =>
      Movable type ∧ type.holdsObjects = true ∧ (∀ entry ∈ attributes, entry.Storable) ∧
        content.Storable ∧ rest.Storable

def setLoaded (world : World cfg) (obj : Object) : Attribute → Except Halt (World cfg)
  | .quad attr value =>
      if attr = .remainingExpireTime then
        if value ≠ 0 then cronChange world obj value.toInt32 else .ok world
      else .ok (setAttribute world obj attr value)
  | .text attr string =>
      let added := addDynamicString world.strings (some string)
      .ok (setAttribute { world with strings := added.2 } obj attr added.1)

def setAllLoaded (world : World cfg) (obj : Object) : List Attribute → Except Halt (World cfg)
  | [] => .ok world
  | entry :: rest => do
      let world ← setLoaded world obj entry
      setAllLoaded world obj rest

/-- The objects are appended to a container one after the other. -/
def build : Objects cfg → World cfg → Object → Except Halt (World cfg)
  | .nil, world, _ => .ok world
  | .plain type attributes rest, world, con => do
      let appended ← appendObject world con type
      let world ← setAllLoaded appended.2 appended.1 attributes
      build rest world con
  | .holder type attributes content rest, world, con => do
      let appended ← appendObject world con type
      let world ← setAllLoaded appended.2 appended.1 attributes
      let world ← build content world appended.1
      build rest world con

variable {world after : World cfg} {kids newKids : Object → List Object} {obj con : Object}

theorem reschedule_timers {cron : CronStore} (wellFormed : WellFormed cron) {position : Int}
    (member : Occupied cron position) (roundNr : UInt32) (node : Object) :
    timers (cronReschedule cron position roundNr) node = timers cron node := by
  have inside : position ∈ positions cron.cronEntries := mem_positions.mpr member
  have before : scheduled cron = payload cron position ::ₘ
      ((positions cron.cronEntries).erase position).map (payload cron) := by
    rw [← Multiset.map_cons, Multiset.cons_erase inside]
    rfl
  rw [timers, timers, (cron_reschedule_spec wellFormed member roundNr).2.2, before,
    Multiset.countP_cons, Multiset.countP_cons]
  rfl

theorem cron_change_agreement {delay : Int32} (agreement : Agreement world)
    (changed : cronChange world obj delay = .ok after) :
    Agreement after ∧ liveRecord after = liveRecord world ∧ kinds after = kinds world := by
  unfold cronChange at changed
  split_ifs at changed
  · rcases cron_find_spec agreement.wellFormed obj with ⟨missing, _⟩ | ⟨position, found, member, _⟩
    · rw [missing] at changed
      cases changed
      exact ⟨agreement, rfl, rfl⟩
    rw [found] at changed
    cases changed
    refine ⟨⟨?_, agreement.permanent, ?_⟩, rfl, rfl⟩
    · exact (cron_reschedule_spec agreement.wellFormed member _).1
    · intro node
      exact (reschedule_timers agreement.wellFormed member _ node).trans (agreement.agree node)
  · cases changed
    exact ⟨agreement, rfl, rfl⟩

theorem set_loaded_described {entry : Attribute} (described : Described world kids)
    (storable : entry.Storable) (set : setLoaded world obj entry = .ok after) :
    Described after kids ∧ kinds after = kinds world := by
  cases entry with
  | quad attr value =>
    unfold setLoaded at set
    dsimp only at set
    by_cases expire : attr = .remainingExpireTime
    · rw [if_pos expire] at set
      by_cases some_time : value ≠ 0
      · rw [if_pos some_time] at set
        rcases cron_change_agreement described.agreement set with ⟨agreement, records, same⟩
        refine ⟨⟨agreement, ?_⟩, same⟩
        rw [records]
        exact described.forest
      rw [if_neg some_time] at set
      cases set
      exact ⟨described, rfl⟩
    rw [if_neg expire] at set
    cases set
    have quiet := set_attribute_quiet world obj attr value
    exact ⟨⟨described.agreement.quiet quiet, set_attribute_forest described.forest storable.1⟩,
      quiet.table⟩
  | text attr string =>
    unfold setLoaded at set
    cases set
    have plain : attr ≠ .content := by
      intro same
      rw [Attribute.Storable, same] at storable
      cases storable.1
    have quiet := (strings_quiet world (addDynamicString world.strings (some string)).2).trans
      (set_attribute_quiet _ obj attr (addDynamicString world.strings (some string)).1)
    have forest : Forest (liveRecord { world with
      strings := (addDynamicString world.strings (some string)).2 }) kids := described.forest
    exact ⟨⟨described.agreement.quiet quiet, set_attribute_forest forest plain⟩, quiet.table⟩

theorem set_all_described {attributes : List Attribute} (described : Described world kids)
    (storable : ∀ entry ∈ attributes, entry.Storable)
    (set : setAllLoaded world obj attributes = .ok after) :
    Described after kids ∧ kinds after = kinds world := by
  induction attributes generalizing world with
  | nil =>
    cases set
    exact ⟨described, rfl⟩
  | cons entry rest ih =>
    rcases bind_ok.mp set with ⟨between, first, others⟩
    rcases set_loaded_described described (storable entry mem_cons_self) first with ⟨still, same⟩
    rcases ih still (fun more member => storable more (mem_cons_of_mem entry member)) others
      with ⟨last, kept⟩
    exact ⟨last, kept.trans same⟩

def Holder (world : World cfg) (con : Object) : Prop :=
  ∃ type, typeOf (kinds world) con = some type ∧ type.holdsObjects = true ∧
    type.isMapContainer = false

def Keeps (before after : World cfg) : Prop :=
  ∀ node type, typeOf (kinds before) node = some type → typeOf (kinds after) node = some type

theorem Keeps.trans {first second third : World cfg} (early : Keeps first second)
    (late : Keeps second third) : Keeps first third :=
  fun node type typed => late node type (early node type typed)

theorem Keeps.live {node : Object} (keeps : Keeps world after)
    (isLive : objectExists world node = true) : objectExists after node = true := by
  have typed := keeps node _ (type_of_exists isLive)
  exact (exists_iff_type after node).mpr (Option.isSome_of_eq_some typed)

theorem Keeps.holder (keeps : Keeps world after) (holder : Holder world con) : Holder after con := by
  rcases holder with ⟨type, typed, holds⟩
  exact ⟨type, keeps con type typed, holds⟩

theorem Holder.live (holder : Holder world con) : objectExists world con = true := by
  rcases holder with ⟨type, typed, _⟩
  exact (exists_iff_type world con).mpr (Option.isSome_of_eq_some typed)

theorem Holder.holds (holder : Holder world con) : holdsOf (liveRecord world) con = some true := by
  rcases holder with ⟨type, typed, holds, _⟩
  rw [holds_of_type, typed, Option.map_some, holds]

/-- An object has been created behind the others of a container, and its attributes are set. -/
structure Appended (before : World cfg) (kids : Object → List Object) (con : Object)
    (type : ObjectType cfg) (obj : Object) (after : World cfg) (newKids : Object → List Object) :
    Prop where
  described : Described after newKids
  keeps : Keeps before after
  fresh : objectExists before obj = false
  typed : typeOf (kinds after) obj = some type
  here : newKids con = kids con ++ [obj]
  elsewhere : ∀ node, node ≠ con → newKids node = kids node
  empty : newKids obj = []

theorem append_appended {type : ObjectType cfg} {attributes : List Attribute} {made : World cfg}
    (described : Described world kids) (holder : Holder world con)
    (storable : ∀ entry ∈ attributes, entry.Storable)
    (appended : appendObject world con type = .ok (obj, made))
    (set : setAllLoaded made obj attributes = .ok after) :
    ∃ newKids, Appended world kids con type obj after newKids := by
  have creates := append_object_spec described.agreement described.forest holder.holds type
  rw [appended] at creates
  rcases creates with ⟨halt, _, impossible⟩ | ⟨same, result, returned, created⟩
  · cases impossible
  cases returned
  have madeDescribed : Described made (placed made kids obj con true) :=
    ⟨created.agreement, created.forest⟩
  rcases set_all_described madeDescribed storable set with ⟨afterDescribed, table⟩
  have fresh : objectExists world obj = false := by
    rw [objectExists, created.fresh]
    rfl
  have different : obj ≠ con := by
    intro same
    rw [same, holder.live] at fresh
    cases fresh
  have keeps : Keeps world made := by
    intro node found typed
    rw [created.types, if_neg]
    · exact typed
    · intro same
      rw [← same, (exists_iff_type world node).mpr (Option.isSome_of_eq_some typed)] at fresh
      cases fresh
  rcases holder with ⟨conType, conTyped, conHolds, noField⟩
  have behind : placed made kids obj con true = Function.update kids con (kids con ++ [obj]) := by
    rw [placed, placeFront, placeBack, object_type_of (keeps con conType conTyped), noField]
    rfl
  refine ⟨placed made kids obj con true, afterDescribed, ?_, fresh, ?_, ?_, ?_, ?_⟩
  · intro node found typed
    rw [table]
    exact keeps node found typed
  · rw [table, created.types, if_pos rfl]
  · rw [behind, Function.update_self]
  · intro node elsewhere
    rw [behind, Function.update_of_ne elsewhere]
  · rw [behind, Function.update_of_ne different]
    apply described.forest.barren
    rw [holdsOf, created.fresh, Option.map_none]
    decide

/-- The objects of a list, as new objects in the lists of the store. -/
inductive Laid (before after : World cfg) (kids : Object → List Object) :
    List Object → Objects cfg → Prop where
  | nil : Laid before after kids [] .nil
  | plain {obj : Object} {type : ObjectType cfg} {attributes : List Attribute}
      {roots : List Object} {rest : Objects cfg} (fresh : objectExists before obj = false)
      (typed : typeOf (kinds after) obj = some type) (empty : kids obj = [])
      (others : Laid before after kids roots rest) :
      Laid before after kids (obj :: roots) (.plain type attributes rest)
  | holder {obj : Object} {type : ObjectType cfg} {attributes : List Attribute}
      {roots : List Object} {content rest : Objects cfg} (fresh : objectExists before obj = false)
      (typed : typeOf (kinds after) obj = some type)
      (inside : Laid before after kids (kids obj) content)
      (others : Laid before after kids roots rest) :
      Laid before after kids (obj :: roots) (.holder type attributes content rest)

theorem Laid.later {first second before : World cfg} {objects : Objects cfg} {roots : List Object}
    (laid : Laid before first kids roots objects) (old : Keeps world before)
    (keeps : Keeps first second)
    (same : ∀ node, objectExists before node = false → objectExists first node = true →
      newKids node = kids node) : Laid world second newKids roots objects := by
  have dead : ∀ node, objectExists before node = false → objectExists world node = false := by
    intro node fresh
    apply Bool.eq_false_iff.mpr
    intro isLive
    rw [old.live isLive] at fresh
    cases fresh
  have alive : ∀ node type, typeOf (kinds first) node = some type →
      objectExists first node = true := fun node _ typed =>
    (exists_iff_type first node).mpr (Option.isSome_of_eq_some typed)
  induction laid with
  | nil => exact .nil
  | plain fresh typed empty _ ih =>
    exact .plain (dead _ fresh) (keeps _ _ typed)
      ((same _ fresh (alive _ _ typed)).trans empty) ih
  | holder fresh typed _ _ inner ih =>
    refine .holder (dead _ fresh) (keeps _ _ typed) ?_ ih
    rw [same _ fresh (alive _ _ typed)]
    exact inner

/-- A list of objects has been put behind the others of a container, and nothing else has changed in
the lists. -/
structure Built (before : World cfg) (kids : Object → List Object) (con : Object)
    (objects : Objects cfg) (after : World cfg) (newKids : Object → List Object)
    (roots : List Object) : Prop where
  described : Described after newKids
  keeps : Keeps before after
  here : newKids con = kids con ++ roots
  elsewhere : ∀ node, objectExists before node = true → node ≠ con → newKids node = kids node
  laid : Laid before after newKids roots objects

section Parts

variable {type : ObjectType cfg} {made : World cfg} {objects : Objects cfg}

variable (appended : Appended world kids con type obj made newKids)
include appended

theorem Appended.live : objectExists made obj = true :=
  (exists_iff_type made obj).mpr (Option.isSome_of_eq_some appended.typed)

theorem Appended.different {node : Object} (isLive : objectExists world node = true) :
    node ≠ obj := by
  intro same
  rw [same, appended.fresh] at isLive
  cases isLive

theorem Appended.holder (movable : Movable type) (holds : type.holdsObjects = true) :
    Holder made obj := by
  refine ⟨type, appended.typed, holds, ?_⟩
  apply beq_eq_false_iff_ne.mpr
  intro field
  rw [Movable, field] at movable
  omega

end Parts

theorem build_built {objects : Objects cfg} (described : Described world kids)
    (holder : Holder world con) (storable : objects.Storable)
    (built : build objects world con = .ok after) :
    ∃ newKids roots, Built world kids con objects after newKids roots := by
  induction objects generalizing world kids con after with
  | nil =>
    cases built
    exact ⟨kids, [], described, fun _ _ typed => typed, (append_nil _).symm,
      fun _ _ _ => rfl, .nil⟩
  | plain type attributes rest ih =>
    rcases storable with ⟨_, proper, others⟩
    rcases bind_ok.mp built with ⟨⟨obj, made⟩, appending, setting⟩
    rcases bind_ok.mp setting with ⟨ready, set, building⟩
    rcases append_appended described holder proper appending set with ⟨oneMore, appended⟩
    rcases ih appended.described (appended.keeps.holder holder) others building with
      ⟨newKids, roots, more⟩
    have different := (appended.different holder.live).symm
    refine ⟨newKids, obj :: roots, more.described, appended.keeps.trans more.keeps, ?_, ?_, ?_⟩
    · rw [more.here, appended.here, ← append_cons]
    · intro node isLive elsewhere
      rw [more.elsewhere node (appended.keeps.live isLive) elsewhere,
        appended.elsewhere node elsewhere]
    · apply Laid.plain appended.fresh (more.keeps obj type appended.typed)
      · rw [more.elsewhere obj appended.live different, appended.empty]
      · exact more.laid.later appended.keeps (fun _ _ typed => typed) fun _ _ _ => rfl
  | holder type attributes content rest inner ih =>
    rcases storable with ⟨movable, holds, proper, contents, others⟩
    rcases bind_ok.mp built with ⟨⟨obj, made⟩, appending, setting⟩
    rcases bind_ok.mp setting with ⟨ready, set, filling⟩
    rcases bind_ok.mp filling with ⟨filled, inside, building⟩
    rcases append_appended described holder proper appending set with ⟨oneMore, appended⟩
    rcases inner appended.described (appended.holder movable holds) contents inside with
      ⟨fullKids, insides, full⟩
    have readyHolder := appended.keeps.holder holder
    rcases ih full.described (full.keeps.holder readyHolder) others building with
      ⟨newKids, roots, more⟩
    have different := (appended.different holder.live).symm
    refine ⟨newKids, obj :: roots, more.described,
      (appended.keeps.trans full.keeps).trans more.keeps, ?_, ?_, ?_⟩
    · rw [more.here, full.elsewhere con readyHolder.live different.symm, appended.here,
        ← append_cons]
    · intro node isLive elsewhere
      have stillLive := appended.keeps.live isLive
      rw [more.elsewhere node (full.keeps.live stillLive) elsewhere,
        full.elsewhere node stillLive (appended.different isLive),
        appended.elsewhere node elsewhere]
    · have list : newKids obj = insides := by
        rw [more.elsewhere obj (full.keeps.live appended.live) different, full.here,
          appended.empty, nil_append]
      apply Laid.holder appended.fresh (more.keeps obj type (full.keeps obj type appended.typed))
      · rw [list]
        apply full.laid.later appended.keeps more.keeps
        intro node fresh isLive
        apply more.elsewhere node isLive
        intro same
        rw [same, readyHolder.live] at fresh
        cases fresh
      · exact more.laid.later (appended.keeps.trans full.keeps) (fun _ _ typed => typed)
          fun _ _ _ => rfl

section Reading

variable {depth : Nat} {more : List UInt8}

theorem attribute_of_byte (attr : InstanceAttribute) :
    instanceAttributes[(attributeByte attr).toNat]? = some attr := by
  cases attr <;> rfl

section

variable (fuel : Nat)
include fuel

theorem load_attribute {entry : Attribute} (inside : obj ≠ NONE) (storable : entry.Storable) :
    loadLoop (fuel + 1) world depth obj con (entry.item.bytes ++ more) =
      setLoaded world obj entry >>= fun world => loadLoop fuel world depth obj con more := by
  cases entry with
  | quad attr value =>
    have plain : ¬attributeByte attr = attributeByte .content :=
      mt (attribute_byte_content attr).mp storable.1
    rw [Attribute.item, Item.bytes, cons_append, loadLoop, if_neg inside, read_byte, ok_bind]
    simp only [if_neg (attribute_byte_ne attr), if_neg plain, attribute_of_byte]
    rw [loadAttribute, storable.2, if_neg Bool.false_ne_true, read_quad, ok_bind]
    unfold setLoaded
    dsimp only
    by_cases expire : attr = .remainingExpireTime
    · rw [if_pos expire, if_pos expire]
      by_cases some_time : value ≠ 0
      · rw [if_pos some_time, if_pos some_time]
        cases cronChange world obj value.toInt32 <;> rfl
      rw [if_neg some_time, if_neg some_time]
      rfl
    rw [if_neg expire, if_neg expire]
    rfl
  | text attr string =>
    have plain : ¬attributeByte attr = attributeByte .content := by
      rw [attribute_byte_content]
      intro same
      rw [Attribute.Storable, same] at storable
      cases storable.1
    rw [Attribute.item, Item.bytes, cons_append, loadLoop, if_neg inside, read_byte, ok_bind]
    simp only [if_neg (attribute_byte_ne attr), if_neg plain, attribute_of_byte]
    rw [loadAttribute, if_pos storable.1, read_string storable.2.1, ok_bind]
    rfl

theorem load_attributes {attributes : List Attribute} (inside : obj ≠ NONE)
    (storable : ∀ entry ∈ attributes, entry.Storable) :
    loadLoop (attributes.length + fuel) world depth obj con
        (itemsBytes (attributes.map Attribute.item) ++ more) =
      setAllLoaded world obj attributes >>= fun world =>
        loadLoop fuel world depth obj con more := by
  induction attributes generalizing world with
  | nil =>
    rw [length_nil, Nat.zero_add]
    rfl
  | cons entry rest ih =>
    have one_more : (entry :: rest).length + fuel = rest.length + fuel + 1 := by
      rw [length_cons]
      omega
    rw [one_more, map_cons, bytes_cons, append_assoc,
      load_attribute _ inside (storable entry mem_cons_self), setAllLoaded]
    cases setLoaded world obj entry with
    | error halt => rfl
    | ok ready => exact ih fun other member => storable other (mem_cons_of_mem entry member)

theorem load_type {type : ObjectType cfg} (movable : Movable type) :
    loadLoop (fuel + 1) world depth NONE con ((typeItem type).bytes ++ more) =
      appendObject world con type >>= fun appended =>
        loadLoop fuel appended.2 depth appended.1 con more := by
  have known := type.known
  have small := cfg.maxTypeID_lt
  rw [Movable] at movable
  have number : (UInt16.ofNat type.typeID).toNat = type.typeID :=
    UInt16.toNat_ofNat_of_lt (show type.typeID < 65536 by omega)
  have notEnd : UInt16.ofNat type.typeID ≠ 0xFFFF := by
    intro same
    rw [same] at number
    have marker : (0xFFFF : UInt16).toNat = 65535 := rfl
    omega
  have again : setTypeID cfg ((UInt16.ofNat type.typeID).toNat : Int) = type := by
    rw [number, setTypeID, dif_pos (by omega)]
    rfl
  have loose : type.isBodyContainer = false := by
    rw [ObjectType.isBodyContainer, decide_eq_false (by omega : ¬type.typeID ≤ 10), Bool.and_false]
  rw [typeItem, Item.bytes, loadLoop, if_pos rfl, read_word, ok_bind]
  simp only [if_pos notEnd, again, loose, Bool.false_eq_true, if_false]

theorem load_end_object (inside : obj ≠ NONE) :
    loadLoop (fuel + 1) world depth obj con (0xFF :: more) =
      loadLoop fuel world depth NONE con more := by
  rw [loadLoop, if_neg inside]
  rfl

theorem load_content (inside : obj ≠ NONE) :
    loadLoop (fuel + 1) world depth obj con (attributeByte .content :: more) =
      loadLoop fuel world (depth + 1) NONE obj more := by
  rw [loadLoop, if_neg inside]
  rfl

theorem load_end_list :
    loadLoop (fuel + 1) world (depth + 2) NONE con (wordBytes 0xFFFF ++ more) =
      loadLoop fuel world (depth + 1) con (getContainer world con) more := by
  rw [loadLoop, if_pos rfl, read_word, ok_bind]
  have deep : ¬depth + 2 ≤ 1 := by omega
  rfl

theorem load_last :
    loadLoop (fuel + 1) world 1 NONE con (wordBytes 0xFFFF ++ more) = .ok (world, more) := by
  rfl

end

theorem Built.container {objects : Objects cfg} {roots : List Object} {type : ObjectType cfg}
    {made : World cfg} {fullKids : Object → List Object} (holder : Holder world con)
    (appended : Appended world kids con type obj made newKids)
    (full : Built made newKids obj objects after fullKids roots) : getContainer after obj = con := by
  have member : obj ∈ fullKids con := by
    rw [full.elsewhere con (appended.keeps.live holder.live) (appended.different holder.live),
      appended.here]
    exact mem_append_right _ mem_cons_self
  rcases full.described.forest.kid_live member with ⟨record, live, same⟩
  rw [getContainer, access_live live, same]

theorem append_not_none {type : ObjectType cfg} {made : World cfg}
    (described : Described world kids) (holder : Holder world con)
    (appended : appendObject world con type = .ok (obj, made)) : obj ≠ NONE := by
  have creates := append_object_spec described.agreement described.forest holder.holds type
  rw [appended] at creates
  rcases creates with ⟨halt, _, impossible⟩ | ⟨same, result, returned, created⟩
  · cases impossible
  cases returned
  rcases created.live with ⟨record, live, _⟩
  exact live_ne_none live

theorem items_bytes_append (first second : List Item) :
    itemsBytes (first ++ second) = itemsBytes first ++ itemsBytes second := flatMap_append

/-- Loading builds the objects of the stream, whatever comes behind them. -/
theorem load_builds {objects : Objects cfg} (fuel : Nat) (described : Described world kids)
    (holder : Holder world con) (storable : objects.Storable) :
    loadLoop (objects.items.length + fuel) world (depth + 1) NONE con (objects.bytes ++ more) =
      build objects world con >>= fun world => loadLoop fuel world (depth + 1) NONE con more := by
  induction objects generalizing world kids con depth more fuel with
  | nil =>
    rw [Objects.items, length_nil, Nat.zero_add]
    rfl
  | plain type attributes rest ih =>
    rcases storable with ⟨movable, proper, others⟩
    have turns : (Objects.plain type attributes rest).items.length + fuel =
        attributes.length + (rest.items.length + fuel + 1) + 1 := by
      rw [Objects.items, length_cons, length_append, length_map,
        length_cons]
      omega
    have whole : (Objects.plain type attributes rest).bytes ++ more =
        (typeItem type).bytes ++ (itemsBytes (attributes.map Attribute.item) ++
          (0xFF :: (rest.bytes ++ more))) := by
      rw [Objects.bytes, Objects.items, bytes_cons, items_bytes_append, bytes_cons]
      simp only [append_assoc]
      rfl
    rw [turns, whole, load_type _ movable, build]
    rcases appending : appendObject world con type with halt | result
    · rfl
    rcases result with ⟨obj, made⟩
    have inside := append_not_none described holder appending
    rw [ok_bind, ok_bind]
    rw [load_attributes _ inside proper]
    rcases set : setAllLoaded made obj attributes with halt | ready
    · rfl
    rcases append_appended described holder proper appending set with ⟨oneMore, appended⟩
    rw [ok_bind, ok_bind, load_end_object _ inside]
    exact ih fuel appended.described (appended.keeps.holder holder) others
  | holder type attributes content rest inner ih =>
    rcases storable with ⟨movable, holds, proper, contents, others⟩
    have turns : (Objects.holder type attributes content rest).items.length + fuel =
        attributes.length + (content.items.length +
          (rest.items.length + fuel + 1 + 1) + 1) + 1 := by
      simp only [Objects.items, length_cons, length_append, length_map]
      omega
    have whole : (Objects.holder type attributes content rest).bytes ++ more =
        (typeItem type).bytes ++ (itemsBytes (attributes.map Attribute.item) ++
          (attributeByte .content :: (content.bytes ++
            (wordBytes 0xFFFF ++ (0xFF :: (rest.bytes ++ more)))))) := by
      simp only [Objects.bytes, Objects.items, bytes_cons, items_bytes_append, append_assoc]
      rfl
    rw [turns, whole, load_type _ movable, build]
    rcases appending : appendObject world con type with halt | result
    · rfl
    rcases result with ⟨obj, made⟩
    have inside := append_not_none described holder appending
    rw [ok_bind, ok_bind]
    rw [load_attributes _ inside proper]
    rcases set : setAllLoaded made obj attributes with halt | ready
    · rfl
    rcases append_appended described holder proper appending set with ⟨oneMore, appended⟩
    rw [ok_bind, ok_bind, load_content _ inside,
      inner _ appended.described (appended.holder movable holds) contents]
    rcases filling : build content ready obj with halt | filled
    · rfl
    rcases build_built appended.described (appended.holder movable holds) contents
      filling with ⟨fullKids, insides, full⟩
    have back := Built.container holder appended full
    rw [ok_bind, ok_bind, load_end_list, back, load_end_object _ inside]
    exact ih fuel full.described
      (full.keeps.holder (appended.keeps.holder holder)) others

theorem load_objects_builds {objects : Objects cfg} {fuel : Nat} (described : Described world kids)
    (holder : Holder world con) (storable : objects.Storable)
    (enough : objects.items.length < fuel) :
    loadObjects fuel world (objects.bytes ++ (wordBytes 0xFFFF ++ more)) con =
      (build objects world con).map fun world => (world, more) := by
  obtain ⟨left, rfl⟩ : ∃ left, fuel = objects.items.length + (left + 1) :=
    ⟨fuel - objects.items.length - 1, by omega⟩
  rw [loadObjects, ← Nat.zero_add 1, load_builds _ described holder storable]
  cases build objects world con with
  | error halt => rfl
  | ok ready => exact @load_last cfg ready con more left

end Reading

end TibiaGame.ObjectLoading
