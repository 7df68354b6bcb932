import TibiaGame.ChangeEffects

/-!
# How many objects lie in a container

`count_objects` counts what it reaches through containers. What an operation does to
the content lists says by how many the count of another container rises or falls.
-/

namespace TibiaGame.DepotCounts

open GameTypes ObjectStore ObjectKinds CronAgreement
open ForestDeletion ForestOperations ContainerWalks
open FurnishedWorlds OperateEffects ChangeEffects Library.OrderedForest Library.ForestChanges
open Library.ForestSums

variable {cfg : GameConfig} {world middle after : World cfg}
  {kids middleKids newKids : Object → List Object} {obj con depot part : Object} {type : ObjectType cfg}

/-- Every object has an entry of the hash table for itself, and entry 0 is nobody's. -/
theorem live_objects_few (agreement : Agreement world) {objects : Set Object}
    (alive : ∀ node ∈ objects, objectExists world node = true) : objects.ncard < 2 ^ 31 := by
  have entries : (objects.image fun node => entryIndex cfg node.objectID).ncard = objects.ncard := by
    apply Set.InjOn.ncard_image
    intro left leftIn right rightIn same
    rcases object_exists_iff.mp (alive left leftIn) with ⟨leftRecord, leftLive⟩
    rcases object_exists_iff.mp (alive right rightIn) with ⟨rightRecord, rightLive⟩
    exact live_index_injective leftLive rightLive same
  have range : (objects.image fun node => entryIndex cfg node.objectID) ⊆
      Finset.Ico 1 cfg.hashTableSize := by
    intro index inImage
    rcases inImage with ⟨node, member, same⟩
    rcases object_exists_iff.mp (alive node member) with ⟨record, live⟩
    have cell := (live_cell.mp live).2.1
    have notFirst : entryIndex cfg node.objectID ≠ 0 := by
      intro first
      have permanent := agreement.permanent
      rw [first] at cell
      rw [kinds, cell] at permanent
      cases permanent
    have below : entryIndex cfg node.objectID < cfg.hashTableSize :=
      Nat.mod_lt _ (hash_table_size_pos cfg)
    rw [← same]
    exact Finset.mem_coe.mpr (Finset.mem_Ico.mpr ⟨Nat.pos_of_ne_zero notFirst, below⟩)
  have few := Set.ncard_le_ncard range (Finset.finite_toSet _)
  rw [entries, Set.ncard_coe_finset, Nat.card_Ico] at few
  have size := hash_table_size_le cfg
  omega

theorem counted_few (sound : Sound world kids) (isLive : objectExists world obj = true) :
    counted world kids obj < 2 ^ 31 := by
  apply live_objects_few sound.described.agreement
  intro node inside
  have under : Below kids obj node := counted_below inside
  cases under with
  | refl => exact isLive
  | tail _ edge => exact (member_container sound.described.forest edge).1

/-- The containers that `count_objects` goes into. -/
def opens (world : World cfg) (node : Object) : Bool := (getObjectType world node).getFlag .container

theorem counted_kids_eq (world : World cfg) (kids : Object → List Object) :
    countedKids world kids = followed (opens world) kids := rfl

/-- Whatever holds something and keeps its type is gone into as before. -/
theorem counted_kids_after (sound : Sound after newKids)
    (types : ∀ node, newKids node ≠ [] → typeOf (kinds after) node = typeOf (kinds world) node) :
    countedKids after newKids = followed (opens world) newKids := by
  rw [counted_kids_eq]
  apply followed_congr
  intro node holds
  rcases List.exists_mem_of_ne_nil _ holds with ⟨child, edge⟩
  have isLive := holder_exists (sound.described.forest.parent_holds edge)
  have typed := type_of_exists isLive
  have before := types node holds
  rw [typed] at before
  rw [opens, opens, object_type_of before.symm]

theorem comes_counted_kids (comes : Comes world after kids newKids obj con) :
    countedKids after newKids = followed (opens world) newKids :=
  counted_kids_after comes.sound fun node _ => comes.types node

theorem born_counted_kids (sound : Sound world kids)
    (born : Born world after kids newKids obj con type) :
    countedKids after newKids = followed (opens world) newKids := by
  apply counted_kids_after born.sound
  intro node holds
  rw [born.types, if_neg]
  intro same
  rw [same] at holds
  exact holds (born.leaf sound.described.forest)

theorem gone_counted_kids (gone : Gone world after kids newKids obj) :
    countedKids after newKids = followed (opens world) newKids := by
  apply counted_kids_after gone.sound
  intro node holds
  rcases List.exists_mem_of_ne_nil _ holds with ⟨child, edge⟩
  exact gone.types node (holder_exists (gone.sound.described.forest.parent_holds edge))

theorem count_of_rows (later : countedKids after newKids = followed (opens world) newKids)
    (rows : ∀ node, Below kids depot node → newKids node = kids node) :
    counted after newKids depot = counted world kids depot := by
  have same : inside (countedKids after newKids) depot = inside (countedKids world kids) depot := by
    ext node
    rw [later, counted_kids_eq]
    apply below_congr
    intro holder under
    unfold followed
    rw [rows holder (below_mono followed_subset under)]
  rw [counted, same, counted]

theorem arrives_rows (ranked : Ranked kids) (arrives : Arrives kids newKids obj con)
    (apart : ¬ Below kids obj con) {node : Object} (under : Below kids obj node) :
    newKids node = kids node := by
  apply arrives.elsewhere
  · intro same
    rw [same] at under
    exact apart under
  · intro edge
    exact ranked.parent_not_below edge under

theorem comes_count_inside (sound : Sound world kids) (comes : Comes world after kids newKids obj con)
    (apart : ¬ Below kids obj con) (under : Below kids obj depot) :
    counted after newKids depot = counted world kids depot :=
  count_of_rows (comes_counted_kids comes) fun _ deeper =>
    arrives_rows sound.described.forest.ranked comes.arrives apart (below_trans under deeper)

section Shares

variable (sound : Sound world kids)
include sound

theorem counted_single : SingleParent (countedKids world kids) := by
  intro parent other child edge otherEdge
  exact sound.described.forest.single _ _ _ (counted_subset _ _ edge) (counted_subset _ _ otherEdge)

theorem counted_ranked : Ranked (countedKids world kids) :=
  sound.described.forest.ranked.mono counted_subset

/-- The count falls where the object comes from, and rises where it goes. -/
theorem arrives_count (later : countedKids after newKids = followed (opens world) newKids)
    (arrives : Arrives kids newKids obj con) (takes : opens world con = true)
    (apart : ¬ Below kids obj con) (outside : ¬ Below kids obj depot) :
    counted after newKids depot + share (countedKids world kids) depot obj obj =
      counted world kids depot + share (countedKids world kids) depot con obj := by
  have counts := arrives_counted (r := depot) (arrives.followed takes) (counted_single sound)
    (counted_ranked sound) (fun under => apart (counted_below under))
    (fun under => outside (counted_below under))
  rw [counted, later]
  exact counts

theorem born_count (born : Born world after kids newKids part con type) (takes : opens world con = true)
    (different : part ≠ depot) (depotHolds : Below (countedKids world kids) depot con) :
    counted after newKids depot = counted world kids depot + 1 := by
  have forest := sound.described.forest
  have empty := unborn_empty forest born.dead
  have notInPart : ∀ node, node ≠ part → ¬ Below kids part node := by
    intro node away
    rw [below_leaf empty]
    exact away
  have counts := arrives_count sound (born_counted_kids sound born) born.arrives takes
    (notInPart con born.apart) (notInPart depot different.symm)
  have before : share (countedKids world kids) depot part part = 0 := by
    apply if_neg
    intro under
    cases counted_below under with
    | refl => exact different rfl
    | tail _ edge => exact unborn_orphan forest born.dead _ edge
  have arrived : share (countedKids world kids) depot con part = 1 := by
    have leaf : countedKids world kids part = [] := by
      rw [countedKids, empty, ite_self]
    have alone : {x | Below (countedKids world kids) part x} = {part} := by
      ext x
      exact below_leaf leaf
    rw [share, if_pos depotHolds, alone, Set.ncard_singleton]
  omega

end Shares

theorem gone_count (sound : Sound world kids) (gone : Gone world after kids newKids obj)
    (outside : ¬ Below kids obj depot) (depotHolds : Below (countedKids world kids) depot obj)
    (alone : counted world kids obj = 1) :
    counted after newKids depot + 1 = counted world kids depot := by
  rw [counted, gone_counted_kids gone]
  exact gone.departs.count_alone sound.described.forest.single sound.described.forest.ranked outside
    depotHolds alone

structure Apart (before after : World cfg) (kids newKids : Object → List Object) (depot : Object) :
    Prop where
  sound : Sound after newKids
  rows : ∀ node, Below kids depot node → newKids node = kids node
  types : ∀ node, Below kids depot node → typeOf (kinds after) node = typeOf (kinds before) node

theorem Apart.refl (sound : Sound world kids) : Apart world world kids kids depot :=
  ⟨sound, fun _ _ => rfl, fun _ _ => rfl⟩

theorem Apart.below (apart : Apart world after kids newKids depot) (node : Object) :
    Below newKids depot node ↔ Below kids depot node := below_congr apart.rows

theorem Apart.trans (first : Apart world middle kids middleKids depot)
    (second : Apart middle after middleKids newKids depot) : Apart world after kids newKids depot where
  sound := second.sound
  rows := fun node under =>
    (second.rows node ((first.below node).mpr under)).trans (first.rows node under)
  types := fun node under =>
    (second.types node ((first.below node).mpr under)).trans (first.types node under)

theorem Apart.live (apart : Apart world after kids newKids depot)
    (isLive : objectExists world depot = true) : objectExists after depot = true := by
  rw [exists_iff_type, apart.types depot (below_refl kids depot), ← exists_iff_type]
  exact isLive

theorem Apart.count (apart : Apart world after kids newKids depot) :
    counted after newKids depot = counted world kids depot := by
  have same : inside (countedKids after newKids) depot = inside (countedKids world kids) depot := by
    ext node
    apply below_congr
    intro holder found
    have under := counted_below found
    have row := apart.rows holder under
    by_cases empty : kids holder = []
    · rw [countedKids, countedKids, row, empty, ite_self, ite_self]
    rcases List.exists_mem_of_ne_nil _ (row ▸ empty) with ⟨child, edge⟩
    have isLive := holder_exists (apart.sound.described.forest.parent_holds edge)
    have typed := type_of_exists isLive
    have before := apart.types holder under
    rw [typed] at before
    rw [countedKids, countedKids, row, object_type_of before.symm]
  rw [counted, same, counted]

theorem kept_apart (kept : Kept world after kids) : Apart world after kids kids depot :=
  ⟨kept.sound, fun _ _ => rfl, fun node _ => kept.types node⟩

theorem born_apart (sound : Sound world kids) (born : Born world after kids newKids part con type)
    (isLive : objectExists world depot = true) (outside : ¬ Below kids depot con) :
    Apart world after kids newKids depot := by
  have notPart : ∀ node, Below kids depot node → node ≠ part := by
    intro node under same
    rw [same] at under
    cases under with
    | refl =>
      rw [born.dead] at isLive
      cases isLive
    | tail _ edge => exact unborn_orphan sound.described.forest born.dead _ edge
  constructor
  · exact born.sound
  · intro node under
    apply born.arrives.elsewhere
    · intro same
      rw [same] at under
      exact outside under
    · exact unborn_orphan sound.described.forest born.dead node
  · intro node under
    rw [born.types, if_neg (notPart node under)]

theorem gone_apart (sound : Sound world kids) (gone : Gone world after kids newKids obj)
    (isLive : objectExists world depot = true) (away : ¬ Below kids depot obj)
    (outside : ¬ Below kids obj depot) : Apart world after kids newKids depot := by
  have apart : ∀ node, Below kids depot node → ¬ Below kids obj node := by
    intro node under inside
    rcases below_comparable sound.described.forest.single under inside with above | above
    · exact away above
    · exact outside above
  constructor
  · exact gone.sound
  · intro node under
    apply gone.departs.elsewhere (apart node under)
    intro edge
    exact away (below_step under edge)
  · intro node under
    apply gone.types
    apply (gone.survivors node).mpr
    constructor
    · cases under with
      | refl => exact isLive
      | tail _ edge => exact (member_container sound.described.forest edge).1
    · exact apart node under

theorem embodied_apart {positions : List Nat} (sound : Sound world kids)
    (embodied : Embodied obj positions world kids after newKids)
    (isLive : objectExists world depot = true) (outside : ¬ Below kids depot obj) :
    Apart world after kids newKids depot := by
  induction embodied with
  | done => exact Apart.refl sound
  | next born others ih =>
    have first := born_apart sound born isLive outside
    apply first.trans
    apply ih born.sound (first.live isLive)
    rw [first.below]
    exact outside

end TibiaGame.DepotCounts
