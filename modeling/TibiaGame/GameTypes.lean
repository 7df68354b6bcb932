import Mathlib.Tactic

/-!
# Object types and the configuration of a server run

The type table is what `objects.srv` gives and what `load_objects` in
`objects.cpp` computes from it; it does not change while the server runs. The
offset of an instance attribute inside `MapObject::Attributes` is not data of
its own: it is recomputed here from the flags, in the order the loader assigns it.
-/

namespace TibiaGame.GameTypes

/-- `Object` of `map.h`: a handle, which may outlive the object it was made for. -/
structure Object where
  objectID : UInt32
  deriving DecidableEq, Repr

def NONE : Object := ⟨0⟩

/-- How a call of the server code fails to return. `abort` ends the server, in
`swap_sector` as `noSector` when no sector can be swapped out; `assertion` is a failed
`ASSERT`, `hang` a loop that has no end, and `exception` a thrown text. -/
inductive Halt where
  | abort
  | noSector
  | assertion
  | hang
  | exception (text : String)
  deriving DecidableEq, Repr

/-- `FLAG` of `enums.h`, in the numbering of the source. -/
inductive Flag where
  | bank | clip | bottom | top | container | chest | cumulative | useEvent
  | changeUse | forceUse | multiUse | distUse | movementEvent | collisionEvent
  | separationEvent | key | keyDoor | nameDoor | levelDoor | questDoor | bed | food
  | rune | information | text | write | writeOnce | liquidContainer | liquidSource
  | liquidPool | teleportAbsolute | teleportRelative | unpass | unmove | unthrow
  | unlay | avoid | magicField | restrictLevel | restrictProfession | take | hang
  | hookSouth | hookEast | rotate | destroy | clothes | skillBoost | protection
  | light | ropeSpot | corpse | expire | expireStop | wearOut | weapon | shield | bow
  | throw | wand | ammo | armor | height | disguise | showDetail | specialObject
  deriving DecidableEq, Repr

/-- `INSTANCEATTRIBUTE` of `enums.h`, in the numbering of the source. -/
inductive InstanceAttribute where
  | content | chestQuestNumber | amount | keyNumber | keyholeNumber | doorLevel
  | doorQuestNumber | doorQuestValue | charges | textString | editor
  | containerLiquidType | poolLiquidType | absTeleportDestination | responsible
  | remainingExpireTime | savedExpireTime | remainingUses
  deriving DecidableEq, Repr

/-- The members of `TYPEATTRIBUTE` that the modelled functions read. -/
inductive TypeAttribute where
  | capacity | weight | totalExpireTime | expireTarget | totalUses | bodyPosition
  deriving DecidableEq, Repr

def instanceAttributes : List InstanceAttribute :=
  [.content, .chestQuestNumber, .amount, .keyNumber, .keyholeNumber, .doorLevel,
    .doorQuestNumber, .doorQuestValue, .charges, .textString, .editor,
    .containerLiquidType, .poolLiquidType, .absTeleportDestination, .responsible,
    .remainingExpireTime, .savedExpireTime, .remainingUses]

def InstanceAttribute.number (attr : InstanceAttribute) : Nat := attr.ctorIdx

theorem attribute_at_number (attr : InstanceAttribute) :
    instanceAttributes[attr.number]? = some attr := by
  cases attr <;> rfl

theorem attribute_number_injective {left right : InstanceAttribute}
    (same : left.number = right.number) : left = right := by
  have leftAt := attribute_at_number left
  rw [same, attribute_at_number right] at leftAt
  exact (Option.some.inj leftAt).symm

def instanceAttributeFlag : InstanceAttribute → Flag
  | .content => .container
  | .chestQuestNumber => .chest
  | .amount => .cumulative
  | .keyNumber => .key
  | .keyholeNumber => .keyDoor
  | .doorLevel => .levelDoor
  | .doorQuestNumber => .questDoor
  | .doorQuestValue => .questDoor
  | .charges => .rune
  | .textString => .text
  | .editor => .text
  | .containerLiquidType => .liquidContainer
  | .poolLiquidType => .liquidPool
  | .absTeleportDestination => .teleportAbsolute
  | .responsible => .magicField
  | .remainingExpireTime => .expire
  | .savedExpireTime => .expireStop
  | .remainingUses => .wearOut

def typeAttributeFlag : TypeAttribute → Flag
  | .capacity => .container
  | .weight => .take
  | .totalExpireTime => .expire
  | .expireTarget => .expire
  | .totalUses => .wearOut
  | .bodyPosition => .clothes

/-- What a server run reads once at its start: the type table and the map
configuration. Type numbers index the 8192 entries of `OldGroup` and `OldNumber`
without a check. Type 0 is `TYPEID_MAP_CONTAINER`: it holds objects, and the
fields of the map do not decay. A creature is not a stack of creatures.
`HashTableSize` is a power of two of 32 bits. -/
structure GameConfig where
  maxTypeID : Nat
  typeFlags : Nat → Flag → Bool
  typeAttributes : Nat → TypeAttribute → UInt32
  hashTableLog : Nat
  maxTypeID_lt : maxTypeID < 8192
  mapContainer_holds : typeFlags 0 .container = true
  mapContainer_lasts : typeFlags 0 .expire = false
  creature_single : typeFlags 99 .cumulative = false
  hashTableLog_lt : hashTableLog < 32

variable {cfg : GameConfig}

def GameConfig.hashTableSize (cfg : GameConfig) : Nat := 2 ^ cfg.hashTableLog

theorem hash_table_size_pos (cfg : GameConfig) : 0 < cfg.hashTableSize :=
  Nat.two_pow_pos _

theorem hash_table_size_le (cfg : GameConfig) : cfg.hashTableSize ≤ 2 ^ 31 :=
  Nat.pow_le_pow_right (by decide) (Nat.le_of_lt_succ cfg.hashTableLog_lt)

def objectTypeExists (cfg : GameConfig) (typeID : Int) : Bool :=
  decide (0 ≤ typeID) && decide (typeID ≤ cfg.maxTypeID)

/-- `ObjectType`: every constructor goes through `set_type_id`, so a value always
names an entry of the table. -/
structure ObjectType (cfg : GameConfig) where
  typeID : Nat
  known : typeID ≤ cfg.maxTypeID
  deriving DecidableEq

def setTypeID (cfg : GameConfig) (typeID : Int) : ObjectType cfg :=
  if inTable : 0 ≤ typeID ∧ typeID ≤ cfg.maxTypeID then
    ⟨typeID.toNat, by omega⟩
  else ⟨0, Nat.zero_le _⟩

instance : Inhabited (ObjectType cfg) := ⟨⟨0, Nat.zero_le _⟩⟩

namespace ObjectType

def getFlag (type : ObjectType cfg) (flag : Flag) : Bool := cfg.typeFlags type.typeID flag

def getAttribute (type : ObjectType cfg) (attr : TypeAttribute) : UInt32 :=
  if type.getFlag (typeAttributeFlag attr) then
    cfg.typeAttributes type.typeID attr
  else 0

def isMapContainer (type : ObjectType cfg) : Bool := type.typeID == 0

def isBodyContainer (type : ObjectType cfg) : Bool :=
  decide (1 ≤ type.typeID) && decide (type.typeID ≤ 10)

def isCreatureContainer (type : ObjectType cfg) : Bool := type.typeID == 99

def isTwoHanded (type : ObjectType cfg) : Bool :=
  type.getFlag .clothes && type.getAttribute .bodyPosition == 0

def isWeapon (type : ObjectType cfg) : Bool :=
  type.getFlag .weapon || type.getFlag .bow || type.getFlag .throw || type.getFlag .wand

/-- `CONTAINER` or `CHEST`, the test that guards every use of `CONTENT`. -/
def holdsObjects (type : ObjectType cfg) : Bool :=
  type.getFlag .container || type.getFlag .chest

/-- The flag test of `get_attribute_offset`; `CONTENT` is the one attribute that
belongs to two flags. -/
def hasAttribute (type : ObjectType cfg) (attr : InstanceAttribute) : Bool :=
  type.getFlag (instanceAttributeFlag attr) ||
    (attr == .content && type.getFlag .chest)

/-- `ObjectType::get_attribute_offset` over the offsets that `load_objects` assigns:
the attributes of the type are numbered consecutively. The source's -1 is `none`. -/
def getAttributeOffset (type : ObjectType cfg) (attr : InstanceAttribute) : Option Nat :=
  if type.hasAttribute attr then
    some ((instanceAttributes.take attr.number).countP type.hasAttribute)
  else none

end ObjectType

variable (type : ObjectType cfg)
include type

theorem has_content_eq_holds : type.hasAttribute .content = type.holdsObjects := by
  simp [ObjectType.hasAttribute, ObjectType.holdsObjects, instanceAttributeFlag]

theorem content_offset (holds : type.holdsObjects = true) :
    type.getAttributeOffset .content = some 0 := by
  rw [ObjectType.getAttributeOffset, has_content_eq_holds, if_pos holds]
  rfl

theorem content_offset_none (plain : type.holdsObjects = false) :
    type.getAttributeOffset .content = none := by
  rw [ObjectType.getAttributeOffset, has_content_eq_holds, plain]
  rfl

theorem attribute_offset_some {attr : InstanceAttribute} {offset : Nat}
    (found : type.getAttributeOffset attr = some offset) :
    type.hasAttribute attr = true ∧
      offset = (instanceAttributes.take attr.number).countP type.hasAttribute := by
  unfold ObjectType.getAttributeOffset at found
  split_ifs at found with has
  exact ⟨has, (Option.some.inj found).symm⟩

private theorem offset_lt_of_number_lt {left right : InstanceAttribute}
    (has : type.hasAttribute left = true) (before : left.number < right.number) :
    (instanceAttributes.take left.number).countP type.hasAttribute <
      (instanceAttributes.take right.number).countP type.hasAttribute := by
  have prefixStep : instanceAttributes.take (left.number + 1) =
      instanceAttributes.take left.number ++ [left] := by
    rw [List.take_add_one, attribute_at_number left]
    rfl
  have grown : (instanceAttributes.take (left.number + 1)).countP type.hasAttribute ≤
      (instanceAttributes.take right.number).countP type.hasAttribute :=
    List.Sublist.countP_le (List.take_sublist_take_left before)
  rw [prefixStep, List.countP_append] at grown
  simp only [List.countP_cons, List.countP_nil, has, if_true] at grown
  omega

theorem attribute_offset_injective {left right : InstanceAttribute} {offset : Nat}
    (leftOffset : type.getAttributeOffset left = some offset)
    (rightOffset : type.getAttributeOffset right = some offset) : left = right := by
  obtain ⟨leftHas, leftCount⟩ := attribute_offset_some type leftOffset
  obtain ⟨rightHas, rightCount⟩ := attribute_offset_some type rightOffset
  apply attribute_number_injective
  rcases Nat.lt_trichotomy left.number right.number with before | same | after
  · have := offset_lt_of_number_lt type leftHas before
    omega
  · exact same
  · have := offset_lt_of_number_lt type rightHas after
    omega

theorem map_container_holds (field : type.isMapContainer = true) : type.holdsObjects = true := by
  have zero : type.typeID = 0 := by simpa [ObjectType.isMapContainer] using field
  simp [ObjectType.holdsObjects, ObjectType.getFlag, zero, cfg.mapContainer_holds]

end TibiaGame.GameTypes
