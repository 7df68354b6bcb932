import TibiaGame.GroundedMap

/-!
# Worlds that are furnished by hand

Fields are made and objects put into them, one after the other. When every container
is there at its turn, the world is a forest over its fields.
-/

namespace TibiaGame.FurnishedWorlds

open GameTypes ObjectStore ObjectOperations ObjectKinds ContentForest ForestSteps
open ForestOperations ForestRuns ContainerWalks GroundedMap Library.Outcome

variable {cfg : GameConfig} {world after : World cfg} {kids : Object → List Object}
  {obj con : Object} {type : ObjectType cfg} {creatureID : UInt32}

/-- A state of the game in which the content lists are a forest over the fields. -/
structure Sound (world : World cfg) (kids : Object → List Object) : Prop where
  described : Described world kids
  grounded : Grounded world

theorem quiet_sound (sound : Sound world kids) (quiet : Quiet world after)
    (sectors : SameSectors world after) (forest : Forest (liveRecord after) kids) :
    Sound after kids where
  described := ⟨sound.described.agreement.quiet quiet, forest⟩
  grounded := Grounded.quiet sound.grounded sound.described.forest forest sectors quiet

theorem change_attribute_sound (sound : Sound world kids)
    {attr : InstanceAttribute} (different : attr ≠ .content) (value : UInt32) :
    Sound (changeAttribute world obj attr value) kids := by
  have sectors := change_attribute_sectors world obj attr value
  unfold changeAttribute at sectors ⊢
  split_ifs at sectors ⊢
  · exact sound
  · apply quiet_sound sound (set_attribute_quiet world obj attr value) sectors
    exact set_attribute_forest sound.described.forest different

theorem set_object_sound (sound : Sound world kids) (isHolder : IsHolder world con)
    (item : type.isMapContainer = false)
    (created : setObject world con type creatureID = .ok (obj, after)) :
    ∃ newKids, Sound after newKids := by
  rcases set_object_spec sound.described.agreement sound.described.forest
    (holder_iff.mp isHolder) type creatureID with ⟨halt, _, failed⟩ | ⟨made, final, returned, born⟩
  · rw [failed] at created
    cases created
  rw [returned] at created
  cases created
  have grounded := Grounded.appears sound.grounded sound.described.forest born.forest
    (set_object_sectors returned) (created_appears born) item
  exact ⟨_, ⟨born.agreement, born.forest⟩, grounded⟩

theorem create_map_con_sound (sound : Sound world kids) {x y z : Int}
    (created : createMapCon world x y z = .ok (obj, after)) : Sound after kids := by
  rcases create_map_con_spec sound.described x y z with
    ⟨halt, failed, _⟩ | ⟨field, final, returned, described, stays⟩
  · rw [failed] at created
    cases created
  · have wasCreated := created
    rw [returned] at created
    cases created
    have sectors : SameSectors world after := by
      rcases bind_ok.mp wasCreated with ⟨⟨made, born⟩, wasBorn, ended⟩
      cases ended
      exact (((create_sectors wasBorn).trans (set_slot_sectors _ _ _ _)).trans
        (set_slot_sectors _ _ _ _)).trans (set_slot_sectors _ _ _ _)
    constructor
    · exact described
    apply grounded_after sound.grounded sectors described.forest
    · intro field isField
      rcases stays.2 field with same | fresh
      · rwa [field_iff_type, same, ← field_iff_type]
      rw [isField.1] at fresh
      cases fresh.1
    intro field con isField edge
    rcases stays.2 field with same | fresh
    · rw [field_iff_type, same, ← field_iff_type] at isField
      exact Grounded.orphan sound.grounded sound.described.forest isField con edge
    rw [(member_container sound.described.forest edge).1] at fresh
    cases fresh.1

theorem initial_sound (cfg : GameConfig) : Sound (initialWorld cfg) fun _ => [] := by
  constructor
  · exact initial_described cfg
  constructor
  · intro field isLive
    rw [objectExists, initial_dead] at isLive
    cases isLive
  · intro x y z sector found
    cases found

/-- An object to be put into a container, with its creature and the size of its stack. -/
structure Furniture (cfg : GameConfig) where
  con : Object
  type : ObjectType cfg
  creatureID : UInt32
  amount : UInt32

def furnish (world : World cfg) : List (Furniture cfg) → Except Halt (World cfg)
  | [] => .ok world
  | item :: rest =>
      if objectExists world item.con && (getObjectType world item.con).holdsObjects &&
          !item.type.isMapContainer then do
        let (obj, world) ← setObject world item.con item.type item.creatureID
        furnish (changeAttribute world obj .amount item.amount) rest
      else .error .assertion

theorem furnish_sound {items : List (Furniture cfg)} (sound : Sound world kids)
    (furnished : furnish world items = .ok after) : ∃ newKids, Sound after newKids := by
  induction items generalizing world kids with
  | nil =>
    cases furnished
    exact ⟨kids, sound⟩
  | cons item rest ih =>
    unfold furnish at furnished
    split_ifs at furnished with allowed
    rcases bind_ok.mp furnished with ⟨⟨obj, created⟩, wasCreated, others⟩
    simp only [Bool.and_eq_true, Bool.not_eq_true'] at allowed
    rcases set_object_sound sound allowed.1 allowed.2 wasCreated with ⟨newKids, newSound⟩
    have different : InstanceAttribute.amount ≠ .content := nofun
    exact ih (change_attribute_sound newSound different item.amount) others

def furnished (cfg : GameConfig) (items : List (Furniture cfg)) : Except Halt (World cfg) := do
  let (_, world) ← createMapCon (initialWorld cfg) 0 0 7
  let (_, world) ← createMapCon world 1 0 7
  furnish world items

theorem furnished_sound {items : List (Furniture cfg)} (made : furnished cfg items = .ok after) :
    ∃ newKids, Sound after newKids := by
  rcases bind_ok.mp made with ⟨⟨first, one⟩, wasFirst, later⟩
  rcases bind_ok.mp later with ⟨⟨second, two⟩, wasSecond, rest⟩
  have soundOne := create_map_con_sound (initial_sound cfg) wasFirst
  exact furnish_sound (create_map_con_sound soundOne wasSecond) rest

/-- A small table: creatures with their bodies, bags (101), coins (102), swords (103)
and helmets (104). -/
def smallTypes : GameConfig where
  maxTypeID := 104
  typeFlags := fun type flag => match flag with
    | .container => decide (type ≤ 10) || type == 99 || type == 101
    | .take => type == 101 || type == 102 || type == 103 || type == 104
    | .cumulative => type == 102
    | .weapon => type == 103
    | .clothes => type == 104
    | _ => false
  typeAttributes := fun _ attr => match attr with
    | .capacity => 20
    | .bodyPosition => 1
    | _ => 0
  hashTableLog := 6
  maxTypeID_lt := by decide
  mapContainer_holds := rfl
  mapContainer_lasts := rfl
  creature_single := rfl
  hashTableLog_lt := by decide

/-- A creature on the first field, with its ten body containers. -/
def person (creatureID : UInt32) (first : UInt32) : List (Furniture smallTypes) :=
  ⟨⟨1⟩, setTypeID smallTypes 99, creatureID, 0⟩ ::
    ([10, 9, 8, 7, 6, 5, 4, 3, 2, 1] : List Int).map fun position =>
      ⟨⟨first⟩, setTypeID smallTypes position, 0, 0⟩

def furnishedSuch (items : List (Furniture cfg)) (test : World cfg → Bool) : Bool :=
  match furnished cfg items with
  | .error _ => false
  | .ok world => test world

theorem furnished_such {items : List (Furniture cfg)} {test : World cfg → Bool}
    (passes : furnishedSuch items test = true) : ∃ world kids, Sound world kids ∧
      test world = true := by
  unfold furnishedSuch at passes
  rcases made : furnished cfg items with halt | world
  · rw [made] at passes
    cases passes
  rw [made] at passes
  rcases furnished_sound made with ⟨kids, sound⟩
  exact ⟨world, kids, sound, passes⟩

end TibiaGame.FurnishedWorlds
