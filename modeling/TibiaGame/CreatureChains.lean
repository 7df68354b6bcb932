import TibiaGame.Library.LinkedList
import TibiaGame.ViewUpdates

/-!
# Creatures in chains

The map is cut into blocks of 16 by 16 fields, and the creatures of each block are
chained by `NextChainCreature`. `insert_chain_creature`, `move_chain_creature` and
`delete_chain_creature` of `creature_main.cpp`, each with the change of the position
that its callers make: a creature is inserted where it stands, and stands after a move
where it was moved to.
-/

namespace TibiaGame.CreatureChains

open Library.LinkedList ViewWindow List

inductive CreatureType where
  | player
  | npc
  | monster
deriving DecidableEq

structure Creature where
  type : CreatureType
  position : Position
  nextChainCreature : UInt32

/-- The blocks of `FirstChainCreature`. -/
structure Bounds where
  xmin : Int
  ymin : Int
  dx : Int
  dy : Int

/-- The creatures by their number, the matrix, and which creatures are on the map. -/
structure World where
  creatures : UInt32 → Option Creature
  firstChainCreature : Int × Int → UInt32
  onMap : UInt32 → Bool

def getCreature (world : World) (creatureID : UInt32) : Option Creature :=
  if creatureID = 0 then none else world.creatures creatureID

def inside (bounds : Bounds) (block : Int × Int) : Bool :=
  decide (0 ≤ block.1 - bounds.xmin ∧ block.1 - bounds.xmin < bounds.dx ∧
    0 ≤ block.2 - bounds.ymin ∧ block.2 - bounds.ymin < bounds.dy)

/-- `at` of the matrix; outside it takes the first entry. -/
def cellAt (bounds : Bounds) (block : Int × Int) : Int × Int :=
  if inside bounds block then block else (bounds.xmin, bounds.ymin)

def boundedAt (bounds : Bounds) (world : World) (block : Int × Int) : Option UInt32 :=
  if inside bounds block then some (world.firstChainCreature block) else none

def blockOf (coordX coordY : Int) : Int × Int := (coordX.tdiv 16, coordY.tdiv 16)

def Creature.block (creature : Creature) : Int × Int :=
  blockOf creature.position.x creature.position.y

def changeCreature (world : World) (creatureID : UInt32) (change : Creature → Creature) : World :=
  { world with
    creatures := Function.update world.creatures creatureID
      ((world.creatures creatureID).map change) }

def setNext (world : World) (creatureID next : UInt32) : World :=
  changeCreature world creatureID fun creature => { creature with nextChainCreature := next }

def chainCoord (coord own : Int) : Int := if coord = 0 then own else coord

def insertChainCreature (bounds : Bounds) (world : World) (creatureID : UInt32)
    (coordX coordY : Int) : World :=
  match getCreature world creatureID with
  | none => world
  | some creature =>
      let cell := cellAt bounds
        (blockOf (chainCoord coordX creature.position.x) (chainCoord coordY creature.position.y))
      { setNext world creatureID (world.firstChainCreature cell) with
        firstChainCreature := Function.update world.firstChainCreature cell creatureID }

/-- The loop of `delete_chain_creature`; without an end there is no state after it. -/
def unlinkBehind (world : World) (creatureID next : UInt32) : Nat → UInt32 → Option World
  | 0, _ => none
  | fuel + 1, currentID =>
      if currentID = 0 then some world
      else
        match getCreature world currentID with
        | none => some world
        | some current =>
            if current.nextChainCreature = creatureID then some (setNext world currentID next)
            else unlinkBehind world creatureID next fuel current.nextChainCreature

def chainLimit : Nat := 2 ^ 32

def deleteChainCreature (bounds : Bounds) (world : World) (creatureID : UInt32) : Option World :=
  match getCreature world creatureID with
  | none => some world
  | some creature =>
      let cell := cellAt bounds creature.block
      if world.firstChainCreature cell = creatureID then
        some { world with
          firstChainCreature :=
            Function.update world.firstChainCreature cell creature.nextChainCreature }
      else
        unlinkBehind world creatureID creature.nextChainCreature chainLimit
          (world.firstChainCreature cell)

def moveChainCreature (bounds : Bounds) (world : World) (creatureID : UInt32)
    (coordX coordY : Int) : Option World :=
  match getCreature world creatureID with
  | none => some world
  | some creature =>
      if blockOf coordX coordY ≠ creature.block then
        (deleteChainCreature bounds world creatureID).map fun world =>
          insertChainCreature bounds world creatureID coordX coordY
      else some world

/-- Creatures come into being and vanish while they are not on the map, and only then they
are placed elsewhere than by a move. -/
inductive Call where
  | appear (creatureID : UInt32) (creature : Creature)
  | place (creatureID : UInt32) (position : Position)
  | insert (creatureID : UInt32) (coordX coordY : Int)
  | move (creatureID : UInt32) (position : Position)
  | delete (creatureID : UInt32)
  | vanish (creatureID : UInt32)

def setOnMap (world : World) (creatureID : UInt32) (value : Bool) : World :=
  { world with onMap := Function.update world.onMap creatureID value }

def Creature.at (creature : Creature) (position : Position) : Creature :=
  { creature with position := position }

def step (bounds : Bounds) (world : World) : Call → Option World
  | .appear creatureID creature =>
      some { world with creatures := Function.update world.creatures creatureID (some creature) }
  | .place creatureID position =>
      some (changeCreature world creatureID fun creature => creature.at position)
  | .insert creatureID coordX coordY =>
      let inserted := insertChainCreature bounds world creatureID coordX coordY
      some (setOnMap (changeCreature inserted creatureID fun creature => creature.at
        ⟨chainCoord coordX creature.position.x, chainCoord coordY creature.position.y,
          creature.position.z⟩) creatureID true)
  | .move creatureID position =>
      (moveChainCreature bounds world creatureID position.x position.y).map fun moved =>
        changeCreature moved creatureID fun creature => creature.at position
  | .delete creatureID =>
      (deleteChainCreature bounds world creatureID).map fun deleted =>
        setOnMap deleted creatureID false
  | .vanish creatureID =>
      some { world with creatures := Function.update world.creatures creatureID none }

/-- The calls one after the other, as long as each one comes back. -/
def run (bounds : Bounds) (world : World) : List Call → Option World
  | [] => some world
  | call :: calls => (step bounds world call).bind fun world => run bounds world calls

def emptyMap : World := ⟨fun _ => none, fun _ => 0, fun _ => false⟩

def onMatrix (bounds : Bounds) (coordX coordY : Int) : Bool := inside bounds (blockOf coordX coordY)

/-- Only what is off the map is inserted and only what is on it is moved, all inside the
matrix; a move to the coordinate 0 begins in the block of 0. -/
def allowed (bounds : Bounds) (world : World) : Call → Bool
  | .appear creatureID _ => creatureID != 0 && (world.creatures creatureID).isNone
  | .place creatureID _ => !world.onMap creatureID
  | .insert creatureID coordX coordY =>
      !world.onMap creatureID &&
        match world.creatures creatureID with
        | none => false
        | some creature => onMatrix bounds (chainCoord coordX creature.position.x)
            (chainCoord coordY creature.position.y)
  | .move creatureID position =>
      world.onMap creatureID && onMatrix bounds position.x position.y &&
        match world.creatures creatureID with
        | none => false
        | some creature =>
            (position.x != 0 || creature.block.1 == 0) && (position.y != 0 || creature.block.2 == 0)
  | .delete creatureID =>
      match world.creatures creatureID with
      | none => true
      | some creature => onMatrix bounds creature.position.x creature.position.y
  | .vanish creatureID => !world.onMap creatureID

def allAllowed (bounds : Bounds) (world : World) : List Call → Bool
  | [] => true
  | call :: calls =>
      allowed bounds world call &&
        match step bounds world call with
        | none => true
        | some world => allAllowed bounds world calls

variable {bounds : Bounds} {world after : World} {creatureID next : UInt32} {creature : Creature}
  {members : Int × Int → List UInt32}

def nextOf (world : World) (creatureID : UInt32) : UInt32 :=
  match world.creatures creatureID with
  | none => 0
  | some creature => creature.nextChainCreature

def StandsIn (world : World) (creatureID : UInt32) (block : Int × Int) : Prop :=
  ∃ creature, world.creatures creatureID = some creature ∧ creature.block = block

/-- Each block has its own chain of exactly the creatures that stand in it. -/
structure Chained (bounds : Bounds) (world : World) (members : Int × Int → List UInt32) : Prop where
  chains : ∀ block, inside bounds block = true →
    Chain 0 (nextOf world) (world.firstChainCreature block) (members block)
  nodup : ∀ block, (members block).Nodup
  standing : ∀ block creatureID, creatureID ∈ members block ↔
    world.onMap creatureID = true ∧ StandsIn world creatureID block
  live : ∀ creatureID, world.onMap creatureID = true →
    ∃ block, StandsIn world creatureID block ∧ inside bounds block = true
  nobody : world.creatures 0 = none

theorem get_creature_eq (nobody : world.creatures 0 = none) (creatureID : UInt32) :
    getCreature world creatureID = world.creatures creatureID := by
  unfold getCreature
  split_ifs with zero
  · rw [zero, nobody]
  · rfl

theorem Chained.get (chained : Chained bounds world members) (creatureID : UInt32) :
    getCreature world creatureID = world.creatures creatureID :=
  get_creature_eq chained.nobody creatureID

theorem Chained.ne_zero (chained : Chained bounds world members)
    (known : world.creatures creatureID = some creature) : creatureID ≠ 0 := by
  intro zero
  rw [zero, chained.nobody] at known
  cases known

theorem next_of_known (known : world.creatures creatureID = some creature) :
    nextOf world creatureID = creature.nextChainCreature := by
  rw [nextOf, known]

theorem next_congr {other : UInt32} (same : after.creatures other = world.creatures other) :
    nextOf after other = nextOf world other := by
  rw [nextOf, nextOf, same]

theorem stands_congr {other : UInt32} (same : after.creatures other = world.creatures other)
    (block : Int × Int) : StandsIn after other block ↔ StandsIn world other block := by
  rw [StandsIn, StandsIn, same]

theorem changed_self {change : Creature → Creature}
    (known : world.creatures creatureID = some creature) :
    (changeCreature world creatureID change).creatures creatureID = some (change creature) := by
  apply (Function.update_self _ _ _).trans
  rw [known]
  rfl

theorem changed_other {change : Creature → Creature} {other : UInt32}
    (different : other ≠ creatureID) :
    (changeCreature world creatureID change).creatures other = world.creatures other :=
  Function.update_of_ne different _ _

/-- The creature has become the first of the chain of a block, and stands there. -/
def insertedWorld (world : World) (creatureID : UInt32) (creature : Creature) (block : Int × Int) :
    World where
  creatures := Function.update world.creatures creatureID
    (some { creature with nextChainCreature := world.firstChainCreature block })
  firstChainCreature := Function.update world.firstChainCreature block creatureID
  onMap := Function.update world.onMap creatureID true

section Inserted

variable {block : Int × Int} {other : UInt32}

theorem inserted_self : (insertedWorld world creatureID creature block).creatures creatureID =
    some { creature with nextChainCreature := world.firstChainCreature block } :=
  Function.update_self _ _ _

theorem inserted_other (different : other ≠ creatureID) :
    (insertedWorld world creatureID creature block).creatures other = world.creatures other :=
  Function.update_of_ne different _ _

theorem inserted_on_map (different : other ≠ creatureID) :
    (insertedWorld world creatureID creature block).onMap other = world.onMap other :=
  Function.update_of_ne different _ _

end Inserted

theorem inserted_chained {old : Creature} (chained : Chained bounds world members)
    (known : world.creatures creatureID = some old) (off : world.onMap creatureID = false)
    (here : inside bounds creature.block = true) :
    Chained bounds (insertedWorld world creatureID creature creature.block)
      (Function.update members creature.block (creatureID :: members creature.block)) := by
  have nonzero := chained.ne_zero known
  have absent : ∀ block, creatureID ∉ members block := by
    intro block member
    have on := ((chained.standing block creatureID).mp member).1
    rw [off] at on
    cases on
  have others : ∀ block, ∀ other ∈ members block,
      nextOf (insertedWorld world creatureID creature creature.block) other = nextOf world other := by
    intro block other member
    apply next_congr
    apply inserted_other
    intro same
    rw [same] at member
    exact absent block member
  constructor
  · intro block isInside
    have kept := chain_congr (chained.chains block isInside) (others block)
    by_cases same : block = creature.block
    · rw [same] at kept ⊢
      rw [Function.update_self]
      refine ⟨Function.update_self _ _ _, nonzero, ?_⟩
      rw [next_of_known inserted_self]
      exact kept
    have first : (insertedWorld world creatureID creature creature.block).firstChainCreature block =
        world.firstChainCreature block := Function.update_of_ne same _ _
    rw [Function.update_of_ne same, first]
    exact kept
  · intro block
    by_cases same : block = creature.block
    · rw [same, Function.update_self]
      exact nodup_cons.mpr ⟨absent creature.block, chained.nodup creature.block⟩
    rw [Function.update_of_ne same]
    exact chained.nodup block
  · intro block other
    by_cases same : other = creatureID
    · rw [same]
      by_cases at_block : block = creature.block
      · rw [at_block, Function.update_self]
        apply iff_of_true mem_cons_self
        exact ⟨Function.update_self _ _ _, _, inserted_self, rfl⟩
      rw [Function.update_of_ne at_block]
      apply iff_of_false (absent block)
      intro standing
      rcases standing.2 with ⟨found, isFound, inBlock⟩
      rw [inserted_self] at isFound
      cases isFound
      exact at_block inBlock.symm
    rw [stands_congr (inserted_other same), inserted_on_map same, ← chained.standing block other]
    by_cases at_block : block = creature.block
    · rw [at_block, Function.update_self, mem_cons]
      exact or_iff_right same
    · rw [Function.update_of_ne at_block]
  · intro other on
    by_cases same : other = creatureID
    · rw [same]
      exact ⟨creature.block, ⟨_, inserted_self, rfl⟩, here⟩
    rw [inserted_on_map same] at on
    rcases chained.live other on with ⟨block, stands, isInside⟩
    exact ⟨block, (stands_congr (inserted_other same) block).mpr stands, isInside⟩
  · rw [inserted_other nonzero.symm]
    exact chained.nobody

theorem insert_chain_eq {coordX coordY : Int} (nobody : world.creatures 0 = none)
    (known : world.creatures creatureID = some creature)
    (here : onMatrix bounds (chainCoord coordX creature.position.x)
      (chainCoord coordY creature.position.y) = true) :
    insertChainCreature bounds world creatureID coordX coordY =
      let block := blockOf (chainCoord coordX creature.position.x)
        (chainCoord coordY creature.position.y)
      { setNext world creatureID (world.firstChainCreature block) with
        firstChainCreature := Function.update world.firstChainCreature block creatureID } := by
  rw [insertChainCreature, get_creature_eq nobody, known]
  simp only [cellAt]
  rw [onMatrix] at here
  rw [if_pos here]

/-- The chain of a block is followed to the creature in front of the one that is taken out. -/
theorem unlink_behind_spec (next : UInt32) {front back : List UInt32} {current : UInt32}
    (nobody : world.creatures 0 = none)
    (chain : Chain 0 (nextOf world) current (front ++ creatureID :: back))
    (nodup : (front ++ creatureID :: back).Nodup) (some_front : front ≠ [])
    (live : ∀ other ∈ front, ∃ creature, world.creatures other = some creature) (fuel : Nat)
    (enough : front.length ≤ fuel) :
    unlinkBehind world creatureID next fuel current = some (setNext world (lastOf 0 front) next) := by
  induction front generalizing current fuel with
  | nil => exact absurd rfl some_front
  | cons other rest ih =>
    rcases chain with ⟨start, nonzero, behind⟩
    rcases live other mem_cons_self with ⟨creature, known⟩
    rcases fuel with _ | fuel
    · cases enough
    have known' : getCreature world current = some creature := by
      rw [get_creature_eq nobody, start]
      exact known
    rw [unlinkBehind, if_neg (start ▸ nonzero), known']
    rw [next_of_known known] at behind
    rcases rest with _ | ⟨third, others⟩
    · have here : creature.nextChainCreature = creatureID := behind.1
      simp only [here, if_true, last_of_cons, last_of_nil, start]
    have notHere : creature.nextChainCreature ≠ creatureID := by
      rw [behind.1]
      intro same
      have behindThird : third ∉ others ++ creatureID :: back :=
        (nodup_cons.mp (nodup_cons.mp nodup).2).1
      rw [same] at behindThird
      exact behindThird (mem_append_right _ mem_cons_self)
    have later : ∀ other ∈ third :: others,
        ∃ creature, world.creatures other = some creature :=
      fun other member => live other (mem_cons_of_mem _ member)
    simp only [if_neg notHere, last_of_cons]
    exact ih behind (nodup_cons.mp nodup).2 (cons_ne_nil _ _) later fuel
      (Nat.le_of_succ_le_succ enough)

theorem chain_length {creatures : List UInt32} (nodup : creatures.Nodup) :
    creatures.length ≤ chainLimit := by
  have distinct : (creatures.map UInt32.toNat).Nodup :=
    nodup.map fun _ _ same => UInt32.toNat_inj.mp same
  have few : (creatures.map UInt32.toNat).toFinset ⊆ Finset.range chainLimit := by
    intro number member
    rcases mem_map.mp (mem_toFinset.mp member) with ⟨creatureID, _, same⟩
    rw [Finset.mem_range, ← same]
    exact UInt32.toNat_lt creatureID
  have count := Finset.card_le_card few
  rwa [toFinset_card_of_nodup distinct, length_map, Finset.card_range] at count

/-- What is left when one creature has been taken out of the chain of its block. -/
theorem removed_chained {block : Int × Int} (chained : Chained bounds world members)
    (stands : StandsIn world creatureID block)
    (chain : inside bounds block = true →
      Chain 0 (nextOf after) (after.firstChainCreature block) ((members block).erase creatureID))
    (elsewhere : ∀ place, place ≠ block →
      after.firstChainCreature place = world.firstChainCreature place)
    (nexts : ∀ other, other ∉ members block → nextOf after other = nextOf world other)
    (same : ∀ other place, StandsIn after other place ↔ StandsIn world other place)
    (onMap : after.onMap = world.onMap) (nobody : after.creatures 0 = none) :
    Chained bounds (setOnMap after creatureID false)
      (Function.update members block ((members block).erase creatureID)) := by
  have apart : ∀ place, place ≠ block → ∀ other ∈ members place, other ∉ members block := by
    intro place different other inPlace inBlock
    rcases ((chained.standing place other).mp inPlace).2 with ⟨found, isFound, atPlace⟩
    rcases ((chained.standing block other).mp inBlock).2 with ⟨again, isAgain, atBlock⟩
    rw [isFound] at isAgain
    cases isAgain
    exact different (atPlace.symm.trans atBlock)
  have away : ∀ place, place ≠ block → creatureID ∉ members place := by
    intro place different member
    rcases ((chained.standing place creatureID).mp member).2 with ⟨found, isFound, atPlace⟩
    rcases stands with ⟨again, isAgain, atBlock⟩
    rw [isFound] at isAgain
    cases isAgain
    exact different (atPlace.symm.trans atBlock)
  constructor
  · intro place isInside
    by_cases here : place = block
    · rw [here] at isInside ⊢
      rw [Function.update_self]
      exact chain isInside
    rw [Function.update_of_ne here]
    change Chain 0 (nextOf after) (after.firstChainCreature place) (members place)
    rw [elsewhere place here]
    apply chain_congr (chained.chains place isInside)
    intro other member
    exact nexts other (apart place here other member)
  · intro place
    by_cases here : place = block
    · rw [here, Function.update_self]
      exact (chained.nodup block).erase creatureID
    rw [Function.update_of_ne here]
    exact chained.nodup place
  · intro place other
    change _ ↔ Function.update after.onMap creatureID false other = true ∧ StandsIn after other place
    rw [same, onMap]
    by_cases gone : other = creatureID
    · rw [gone, Function.update_self]
      apply iff_of_false
      · by_cases here : place = block
        · rw [here, Function.update_self]
          exact (chained.nodup block).not_mem_erase
        rw [Function.update_of_ne here]
        exact away place here
      · intro both
        cases both.1
    rw [Function.update_of_ne gone, ← chained.standing place other]
    by_cases here : place = block
    · rw [here, Function.update_self, mem_erase_of_ne gone]
    · rw [Function.update_of_ne here]
  · intro other on
    change Function.update after.onMap creatureID false other = true at on
    by_cases gone : other = creatureID
    · rw [gone, Function.update_self] at on
      cases on
    rw [Function.update_of_ne gone, onMap] at on
    rcases chained.live other on with ⟨place, stands, isInside⟩
    exact ⟨place, (same other place).mpr stands, isInside⟩
  · exact nobody

theorem set_next_known (known : world.creatures creatureID = some creature) :
    (setNext world creatureID next).creatures creatureID =
      some { creature with nextChainCreature := next } :=
  changed_self known

theorem set_next_unknown (unknown : world.creatures creatureID = none) :
    (setNext world creatureID next).creatures creatureID = none := by
  apply (Function.update_self _ _ _).trans
  rw [unknown]
  rfl

theorem set_next_self (known : world.creatures creatureID = some creature) :
    nextOf (setNext world creatureID next) creatureID = next := by
  rw [nextOf, set_next_known known]

theorem set_next_stands (world : World) (creatureID next other : UInt32) (place : Int × Int) :
    StandsIn (setNext world creatureID next) other place ↔ StandsIn world other place := by
  by_cases here : other = creatureID
  · rw [here]
    rcases known : world.creatures creatureID with _ | creature
    · rw [StandsIn, StandsIn, set_next_unknown known, known]
    rw [StandsIn, StandsIn, set_next_known known, known]
    constructor
    · intro standing
      rcases standing with ⟨found, same, atPlace⟩
      cases same
      exact ⟨creature, rfl, atPlace⟩
    intro standing
    rcases standing with ⟨found, same, atPlace⟩
    cases same
    exact ⟨_, rfl, atPlace⟩
  · exact stands_congr (changed_other here) place

/-- `delete_chain_creature` comes back, and takes exactly this creature out of its chain. -/
theorem delete_chained (chained : Chained bounds world members) (on : world.onMap creatureID = true)
    (known : world.creatures creatureID = some creature) :
    ∃ deleted, deleteChainCreature bounds world creatureID = some deleted ∧
      deleted.creatures creatureID = some creature ∧ deleted.onMap = world.onMap ∧
      Chained bounds (setOnMap deleted creatureID false)
        (Function.update members creature.block ((members creature.block).erase creatureID)) := by
  have stands : StandsIn world creatureID creature.block := ⟨creature, known, rfl⟩
  have member := (chained.standing creature.block creatureID).mpr ⟨on, stands⟩
  have here : inside bounds creature.block = true := by
    rcases chained.live creatureID on with ⟨block, ⟨found, isFound, atBlock⟩, isInside⟩
    rw [known] at isFound
    cases isFound
    rw [atBlock]
    exact isInside
  have nodup := chained.nodup creature.block
  have chain := chained.chains creature.block here
  rcases append_of_mem member with ⟨front, back, split⟩
  rw [split] at nodup chain
  have erased : (members creature.block).erase creatureID = front ++ back := by
    rw [split, erase_append_right]
    · rw [erase_cons_head]
    · intro inFront
      exact (nodup_append.mp nodup).2.2 creatureID inFront creatureID mem_cons_self rfl
  rw [deleteChainCreature, chained.get, known]
  simp only [cellAt, here, if_true]
  rcases front with _ | ⟨head, rest⟩
  · have first : world.firstChainCreature creature.block = creatureID := chain_start chain
    rw [if_pos first]
    refine ⟨_, rfl, known, rfl, ?_⟩
    apply removed_chained chained stands
    · intro _
      have first' : Function.update world.firstChainCreature creature.block
          creature.nextChainCreature creature.block = nextOf world creatureID :=
        (Function.update_self _ _ _).trans (next_of_known known).symm
      change Chain 0 (nextOf world) (Function.update world.firstChainCreature creature.block
        creature.nextChainCreature creature.block) _
      rw [erased, first']
      exact chain.2.2
    · intro place different
      exact Function.update_of_ne different _ _
    · intro other _
      rfl
    · intro other place
      rfl
    · rfl
    · exact chained.nobody
  have first : world.firstChainCreature creature.block = head := chain_start chain
  have notHere : head ≠ creatureID := by
    intro same
    rw [same] at nodup
    exact (nodup_cons.mp nodup).1 (mem_append_right _ mem_cons_self)
  have live : ∀ other ∈ head :: rest, ∃ creature, world.creatures other = some creature := by
    intro other inFront
    have isMember : other ∈ members creature.block := by
      rw [split]
      exact mem_append_left _ inFront
    rcases ((chained.standing _ other).mp isMember).2 with ⟨found, isFound, _⟩
    exact ⟨found, isFound⟩
  have short : (head :: rest).length ≤ chainLimit :=
    chain_length (nodup_append.mp nodup).1
  have unlinked := unlink_behind_spec creature.nextChainCreature chained.nobody chain nodup
    (cons_ne_nil _ _) live chainLimit short
  have lastIn := last_of_mem head rest
  rw [if_neg (first ▸ notHere), unlinked]
  have lastDifferent : lastOf 0 (head :: rest) ≠ creatureID := by
    intro same
    rw [last_of_cons] at same
    rw [same] at lastIn
    exact (nodup_append.mp nodup).2.2 creatureID lastIn creatureID mem_cons_self rfl
  rcases live _ lastIn with ⟨before, isBefore⟩
  refine ⟨_, rfl, ?_, rfl, ?_⟩
  · exact (changed_other lastDifferent.symm).trans known
  apply removed_chained chained stands
  · intro _
    rw [erased]
    have removed : Chain 0 (nextOf (setNext world (lastOf 0 (head :: rest))
        creature.nextChainCreature)) (headOf 0 ((head :: rest) ++ back)) ((head :: rest) ++ back) := by
      apply chain_remove chain nodup
      · intro other _ notLast
        exact next_congr (changed_other notLast)
      · intro _
        rw [last_of_cons, set_next_self isBefore, next_of_known known]
    change Chain 0 _ (world.firstChainCreature creature.block) _
    rw [first]
    exact removed
  · intro place _
    rfl
  · intro other notMember
    apply next_congr
    apply changed_other
    intro same
    apply notMember
    rw [same, split, last_of_cons]
    exact mem_append_left _ lastIn
  · exact set_next_stands _ _ _
  · rfl
  · apply (changed_other _).trans chained.nobody
    intro same
    rw [last_of_cons] at same
    rw [← same, chained.nobody] at isBefore
    cases isBefore

/-- The chain of a block is followed to its end when the creature is not in it. -/
theorem unlink_absent (next : UInt32) {front : List UInt32} {current : UInt32}
    (nobody : world.creatures 0 = none) (chain : Chain 0 (nextOf world) current front)
    (nonzero : creatureID ≠ 0) (absent : creatureID ∉ front) (fuel : Nat)
    (enough : front.length < fuel) :
    unlinkBehind world creatureID next fuel current = some world := by
  induction front generalizing current fuel with
  | nil =>
    have ended : current = 0 := chain
    cases fuel with
    | zero => cases enough
    | succ fuel => rw [unlinkBehind, if_pos ended]
  | cons other rest ih =>
    rcases chain with ⟨start, inner, behind⟩
    rcases fuel with _ | fuel
    · cases enough
    rw [unlinkBehind, start, if_neg inner, get_creature_eq nobody]
    rcases known : world.creatures other with _ | creature
    · rfl
    rw [next_of_known known] at behind
    have notHere : creature.nextChainCreature ≠ creatureID := by
      intro same
      rcases rest with _ | ⟨third, others⟩
      · exact nonzero (same.symm.trans behind)
      apply absent
      rw [← same, behind.1]
      exact mem_cons_of_mem _ mem_cons_self
    simp only [if_neg notHere]
    exact ih behind (fun member => absent (mem_cons_of_mem _ member)) fuel
      (Nat.lt_of_succ_lt_succ enough)

section

variable (chained : Chained bounds world members)
include chained

/-- A creature off the map is in no chain, so that nothing is taken out. -/
theorem delete_off_map (off : world.onMap creatureID = false)
    (here : ∀ creature, world.creatures creatureID = some creature →
      inside bounds creature.block = true) :
    deleteChainCreature bounds world creatureID = some world := by
  rw [deleteChainCreature, chained.get]
  rcases known : world.creatures creatureID with _ | creature
  · rfl
  have isInside := here creature known
  have nonzero := chained.ne_zero known
  have absent : creatureID ∉ members creature.block := by
    intro member
    have on := ((chained.standing _ creatureID).mp member).1
    rw [off] at on
    cases on
  have chain := chained.chains creature.block isInside
  have notFirst : world.firstChainCreature creature.block ≠ creatureID := by
    intro same
    rw [chain_start chain] at same
    rcases split : members creature.block with _ | ⟨head, rest⟩
    · rw [split] at same
      exact nonzero same.symm
    rw [split] at same absent
    have isHead : head = creatureID := same
    rw [isHead] at absent
    exact absent mem_cons_self
  have short : (creatureID :: members creature.block).length ≤ chainLimit :=
    chain_length (nodup_cons.mpr ⟨absent, chained.nodup _⟩)
  simp only [cellAt, if_pos isInside, if_neg notFirst]
  exact unlink_absent _ chained.nobody chain nonzero absent chainLimit short

theorem Chained.congr (first : after.firstChainCreature = world.firstChainCreature)
    (onMap : after.onMap = world.onMap)
    (nexts : ∀ other, world.onMap other = true → nextOf after other = nextOf world other)
    (stands : ∀ other block, world.onMap other = true →
      (StandsIn after other block ↔ StandsIn world other block)) (nobody : after.creatures 0 = none) :
    Chained bounds after members := by
  constructor
  · intro block isInside
    rw [first]
    apply chain_congr (chained.chains block isInside)
    intro other member
    exact nexts other ((chained.standing block other).mp member).1
  · exact chained.nodup
  · intro block other
    rw [chained.standing block other, onMap]
    apply and_congr_right
    intro on
    exact (stands other block on).symm
  · intro other on
    rw [onMap] at on
    rcases chained.live other on with ⟨block, here, isInside⟩
    exact ⟨block, (stands other block on).mpr here, isInside⟩
  · exact nobody

theorem off_map_chained {value : Option Creature} (off : world.onMap creatureID = false)
    (nobody : creatureID = 0 → value = none) :
    Chained bounds { world with creatures := Function.update world.creatures creatureID value }
      members := by
  have others : ∀ other, world.onMap other = true →
      Function.update world.creatures creatureID value other = world.creatures other := by
    intro other on
    apply Function.update_of_ne
    intro same
    rw [same, off] at on
    cases on
  apply chained.congr
  · rfl
  · rfl
  · intro other on
    exact next_congr (others other on)
  · intro other block on
    exact stands_congr (others other on) block
  · by_cases zero : creatureID = 0
    · subst zero
      exact (Function.update_self 0 value world.creatures).trans (nobody rfl)
    · exact (Function.update_of_ne (Ne.symm zero) _ _).trans chained.nobody

theorem unknown_off_map (unknown : world.creatures creatureID = none) :
    world.onMap creatureID = false := by
  rcases on : world.onMap creatureID with _ | _
  · rfl
  rcases chained.live creatureID on with ⟨block, ⟨creature, known, _⟩, _⟩
  rw [unknown] at known
  cases known

theorem insert_step_eq {coordX coordY : Int} (known : world.creatures creatureID = some creature)
    (here : onMatrix bounds (chainCoord coordX creature.position.x)
      (chainCoord coordY creature.position.y) = true) :
    step bounds world (.insert creatureID coordX coordY) =
      some (insertedWorld world creatureID
        (creature.at ⟨chainCoord coordX creature.position.x, chainCoord coordY creature.position.y,
          creature.position.z⟩) (blockOf (chainCoord coordX creature.position.x)
          (chainCoord coordY creature.position.y))) := by
  rw [step, insert_chain_eq chained.nobody known here]
  simp only [setOnMap, changeCreature, setNext, insertedWorld, known, Option.map_some,
    Function.update_self, Function.update_idem]
  rfl

end

/-- A move into another block ends as if the creature had been deleted and inserted again. -/
theorem moved_world_eq {deleted : World} {position : Position}
    (known : deleted.creatures creatureID = some creature) (on : deleted.onMap creatureID = true) :
    changeCreature { setNext deleted creatureID (deleted.firstChainCreature (blockOf position.x position.y)) with
        firstChainCreature := Function.update deleted.firstChainCreature
          (blockOf position.x position.y) creatureID } creatureID
        (fun creature => creature.at position) =
      insertedWorld (setOnMap deleted creatureID false) creatureID (creature.at position)
        (blockOf position.x position.y) := by
  have onAgain : Function.update (Function.update deleted.onMap creatureID false) creatureID true =
      deleted.onMap := by
    rw [Function.update_idem, ← on, Function.update_eq_self]
  simp only [setOnMap, changeCreature, setNext, insertedWorld, known, Option.map_some,
    Function.update_self, Function.update_idem, onAgain]
  rfl

theorem move_block {position : Position} (zeroX : (position.x != 0 || creature.block.1 == 0) = true)
    (zeroY : (position.y != 0 || creature.block.2 == 0) = true) :
    blockOf (chainCoord position.x creature.position.x) (chainCoord position.y creature.position.y) =
      blockOf position.x position.y := by
  have coord : ∀ coord own : Int, (coord != 0 || own.tdiv 16 == 0) = true →
      (chainCoord coord own).tdiv 16 = coord.tdiv 16 := by
    intro coord own fits
    rw [chainCoord]
    split_ifs with zero
    · rw [zero] at fits ⊢
      have block : own.tdiv 16 = 0 := by simpa using fits
      rw [block]
      rfl
    · rfl
  rw [blockOf, coord _ _ zeroX, coord _ _ zeroY, blockOf]

theorem move_chained {position : Position} (chained : Chained bounds world members)
    (known : world.creatures creatureID = some creature) (on : world.onMap creatureID = true)
    (here : onMatrix bounds position.x position.y = true)
    (zeroX : (position.x != 0 || creature.block.1 == 0) = true)
    (zeroY : (position.y != 0 || creature.block.2 == 0) = true) :
    ∃ after members, step bounds world (.move creatureID position) = some after ∧
      Chained bounds after members := by
  rw [step, moveChainCreature, chained.get, known]
  by_cases other : blockOf position.x position.y = creature.block
  · have changed : (changeCreature world creatureID fun creature => creature.at position).creatures
        creatureID = some (creature.at position) := changed_self known
    refine ⟨changeCreature world creatureID fun creature => creature.at position, members, ?_, ?_⟩
    · simp only [other, ne_eq, not_true, if_false, Option.map_some]
    apply chained.congr
    · rfl
    · rfl
    · intro third _
      by_cases same : third = creatureID
      · rw [same, next_of_known changed, next_of_known known]
        rfl
      · exact next_congr (changed_other same)
    · intro third block _
      by_cases same : third = creatureID
      · rw [same, StandsIn, StandsIn, changed, known]
        constructor
        · intro standing
          rcases standing with ⟨found, isFound, atBlock⟩
          cases isFound
          exact ⟨creature, rfl, other.symm.trans atBlock⟩
        intro standing
        rcases standing with ⟨found, isFound, atBlock⟩
        cases isFound
        exact ⟨creature.at position, rfl, other.trans atBlock⟩
      · exact stands_congr (changed_other same) block
    · have nonzero := chained.ne_zero known
      exact (Function.update_of_ne nonzero.symm _ _).trans chained.nobody
  rcases delete_chained chained on known with ⟨deleted, isDeleted, still, onMap, rest⟩
  have off : (setOnMap deleted creatureID false).onMap creatureID = false :=
    Function.update_self _ _ _
  have stillOn : deleted.onMap creatureID = true := by
    rw [onMap]
    exact on
  have sameBlock := move_block zeroX zeroY
  have hereToo : onMatrix bounds (chainCoord position.x creature.position.x)
      (chainCoord position.y creature.position.y) = true := by
    rw [onMatrix, sameBlock]
    exact here
  refine ⟨insertedWorld (setOnMap deleted creatureID false) creatureID (creature.at position)
    (blockOf position.x position.y), _, ?_, inserted_chained rest still off here⟩
  simp only [other, ne_eq, not_false_eq_true, if_true, isDeleted, Option.map_some]
  have nobody : deleted.creatures 0 = none := rest.nobody
  rw [insert_chain_eq nobody still hereToo, sameBlock]
  exact congrArg some (moved_world_eq still stillOn)

theorem step_chained (call : Call) (chained : Chained bounds world members)
    (fine : allowed bounds world call = true) :
    ∃ after members, step bounds world call = some after ∧ Chained bounds after members := by
  cases call with
  | appear creatureID creature =>
    rw [allowed, Bool.and_eq_true] at fine
    have unknown : world.creatures creatureID = none := Option.isNone_iff_eq_none.mp fine.2
    refine ⟨_, members, rfl, ?_⟩
    apply off_map_chained chained (unknown_off_map chained unknown)
    intro zero
    rw [zero] at fine
    cases fine.1
  | place creatureID position =>
    have off : world.onMap creatureID = false := by simpa [allowed] using fine
    refine ⟨_, members, rfl, ?_⟩
    apply off_map_chained chained off
    intro zero
    rw [zero, chained.nobody]
    rfl
  | insert creatureID coordX coordY =>
    rw [allowed, Bool.and_eq_true] at fine
    have off : world.onMap creatureID = false := by simpa using fine.1
    rcases known : world.creatures creatureID with _ | creature
    · have inside := fine.2
      rw [known] at inside
      cases inside
    have here := fine.2
    simp only [known] at here
    exact ⟨_, _, insert_step_eq chained known here, inserted_chained chained known off here⟩
  | move creatureID position =>
    rw [allowed, Bool.and_eq_true, Bool.and_eq_true] at fine
    rcases known : world.creatures creatureID with _ | creature
    · have inside := fine.2
      rw [known] at inside
      cases inside
    have zero := fine.2
    simp only [known, Bool.and_eq_true] at zero
    exact move_chained chained known fine.1.1 fine.1.2 zero.1 zero.2
  | delete creatureID =>
    cases on : world.onMap creatureID with
    | true =>
      rcases chained.live creatureID on with ⟨block, ⟨creature, known, _⟩, _⟩
      rcases delete_chained chained on known with ⟨deleted, isDeleted, _, _, rest⟩
      refine ⟨_, _, ?_, rest⟩
      rw [step, isDeleted]
      rfl
    | false =>
      have same : setOnMap world creatureID false = world := by
        rw [setOnMap, ← on, Function.update_eq_self]
      refine ⟨world, members, ?_, chained⟩
      rw [step, delete_off_map chained on, Option.map_some, same]
      intro creature known
      simp only [allowed, known] at fine
      exact fine
  | vanish creatureID =>
    have off : world.onMap creatureID = false := by simpa [allowed] using fine
    exact ⟨_, members, rfl, off_map_chained chained off fun _ => rfl⟩

theorem empty_chained (bounds : Bounds) : Chained bounds emptyMap fun _ => [] := by
  constructor
  · intro block _
    rfl
  · intro block
    exact nodup_nil
  · intro block creatureID
    apply iff_of_false not_mem_nil
    intro standing
    cases standing.1
  · nofun
  · rfl

theorem run_chained (calls : List Call) (chained : Chained bounds world members)
    (fine : allAllowed bounds world calls = true) :
    ∃ after members, run bounds world calls = some after ∧ Chained bounds after members := by
  induction calls generalizing world members with
  | nil => exact ⟨world, members, rfl, chained⟩
  | cons call calls ih =>
    rw [allAllowed, Bool.and_eq_true] at fine
    rcases step_chained call chained fine.1 with ⟨next, nextMembers, stepped, nextChained⟩
    have later := fine.2
    rw [stepped] at later
    rw [run, stepped]
    exact ih nextChained later

end TibiaGame.CreatureChains
