import TibiaGame.CreatureChains

/-!
# The search for creatures

`FindCreatures` goes through the blocks that a rectangle touches, row by row, and follows
the chain of each one. It is read call by call: `getNext` returns the next creature that
matches, and 0 once there is none left.
-/

namespace TibiaGame.CreatureSearch

open Library.LinkedList ViewWindow ViewUpdates List
  TibiaGame.CreatureChains

structure Search where
  startx : Int
  starty : Int
  endx : Int
  endy : Int
  blockx : Int
  blocky : Int
  actID : UInt32
  skipID : UInt32
  mask : UInt32
  finished : Bool

def initSearch (radiusX radiusY centerX centerY : Int) (mask : UInt32) : Search where
  startx := centerX - radiusX
  starty := centerY - radiusY
  endx := centerX + radiusX
  endy := centerY + radiusY
  blockx := (centerX - radiusX).tdiv 16 - 1
  blocky := (centerY - radiusY).tdiv 16
  actID := 0
  skipID := 0
  mask := mask
  finished := false

def typeBit : CreatureType → UInt32
  | .player => 0x01
  | .npc => 0x02
  | .monster => 0x04

def Search.enter (bounds : Bounds) (world : World) (search : Search) (blockx blocky : Int) :
    Search :=
  { search with
    blockx := blockx
    blocky := blocky
    actID := (boundedAt bounds world (blockx, blocky)).getD 0 }

/-- One turn of the loop that looks for a block with a creature. -/
def Search.nextBlock (bounds : Bounds) (world : World) (search : Search) : Search :=
  let blockx := search.blockx + 1
  if search.endx.tdiv 16 < blockx then
    let blocky := search.blocky + 1
    if search.endy.tdiv 16 < blocky then
      { search with blockx := search.startx.tdiv 16, blocky := blocky, finished := true }
    else search.enter bounds world (search.startx.tdiv 16) blocky
  else search.enter bounds world blockx search.blocky

def Search.passesOver (search : Search) (creatureID : UInt32) (creature : Creature) : Bool :=
  creatureID == search.skipID || decide (creature.position.x < search.startx) ||
    decide (search.endx < creature.position.x) || decide (creature.position.y < search.starty) ||
    decide (search.endy < creature.position.y) || search.mask &&& typeBit creature.type == 0

/-- `getNext` with the turns of its loops counted; without an end it returns nothing. -/
def getNext (bounds : Bounds) (world : World) : Nat → Search → Option (UInt32 × Search)
  | 0, _ => none
  | turns + 1, search =>
      if search.finished then some (0, search)
      else if search.actID = 0 then getNext bounds world turns (search.nextBlock bounds world)
      else
        match getCreature world search.actID with
        | none => getNext bounds world turns { search with actID := 0 }
        | some creature =>
            let after := { search with actID := creature.nextChainCreature }
            if search.passesOver search.actID creature then getNext bounds world turns after
            else some (search.actID, after)

/-- What the calls of `getNext` return up to the first 0; from then on they return 0. -/
inductive Yields (bounds : Bounds) (world : World) : Search → List UInt32 → Prop
  | done {search after : Search} (turns : Nat)
      (returned : getNext bounds world turns search = some (0, after))
      (finished : after.finished = true) : Yields bounds world search []
  | next {search after : Search} {creatureID : UInt32} {found : List UInt32} (turns : Nat)
      (returned : getNext bounds world turns search = some (creatureID, after))
      (nonzero : creatureID ≠ 0) (later : Yields bounds world after found) :
      Yields bounds world search (creatureID :: found)

/-- A creature on the map, in the rectangle, of the types asked for, and not the one to skip. -/
def Wanted (world : World) (search : Search) (creatureID : UInt32) : Prop :=
  world.onMap creatureID = true ∧ ∃ creature, world.creatures creatureID = some creature ∧
    (search.startx ≤ creature.position.x ∧ creature.position.x ≤ search.endx) ∧
    (search.starty ≤ creature.position.y ∧ creature.position.y ≤ search.endy) ∧
    search.mask &&& typeBit creature.type ≠ 0 ∧ creatureID ≠ search.skipID

variable {bounds : Bounds} {world : World} {search : Search} {members : Int × Int → List UInt32}

theorem get_next_more {returned : UInt32 × Search} {turns : Nat}
    (found : getNext bounds world turns search = some returned) (more : Nat) :
    getNext bounds world (turns + more) search = some returned := by
  induction turns generalizing search with
  | zero => cases found
  | succ turns ih =>
    rw [Nat.succ_add, getNext]
    rw [getNext] at found
    split_ifs at found ⊢ with ended first
    · exact found
    · exact ih found
    · rcases known : getCreature world search.actID with _ | creature
      · simp only [known] at found
        exact ih found
      simp only [known] at found ⊢
      split_ifs at found ⊢ with passed
      · exact ih found
      · exact found

theorem yields_turn {after : Search} {found : List UInt32}
    (turn : ∀ turns, getNext bounds world (turns + 1) search = getNext bounds world turns after)
    (yields : Yields bounds world after found) : Yields bounds world search found := by
  cases yields with
  | done turns returned finished => exact .done (turns + 1) ((turn turns).trans returned) finished
  | next turns returned nonzero later =>
    exact .next (turns + 1) ((turn turns).trans returned) nonzero later

theorem count_to_cons {first last : Int} (within : first ≤ last) :
    countTo first last = first :: countTo (first + 1) last := by
  have length : (last - first + 1).toNat = (last - (first + 1) + 1).toNat + 1 := by omega
  rw [countTo, length, range_succ_eq_map, map_cons, map_map]
  apply congrArg₂
  · simp
  apply map_congr_left
  intro steps _
  simp only [Function.comp_apply, Nat.cast_succ]
  omega

theorem count_to_nil {first last : Int} (beyond : last < first) : countTo first last = [] := by
  have length : (last - first + 1).toNat = 0 := by omega
  rw [countTo, length]
  rfl

theorem count_to_nodup (first last : Int) : (countTo first last).Nodup := by
  apply nodup_range.map
  intro left right same
  have cast : (left : Int) = right := by
    simp only at same
    omega
  exact Nat.cast_injective cast

def rowFrom (search : Search) (blockx blocky : Int) : List (Int × Int) :=
  (countTo blockx (search.endx.tdiv 16)).map fun column => (column, blocky)

/-- Each later row begins with its first block, whether the rectangle reaches it or not. -/
def laterRows (search : Search) (blocky : Int) : List (Int × Int) :=
  (countTo blocky (search.endy.tdiv 16)).flatMap fun row =>
    (search.startx.tdiv 16, row) :: rowFrom search (search.startx.tdiv 16 + 1) row

def blocksLeft (search : Search) : List (Int × Int) :=
  rowFrom search (search.blockx + 1) search.blocky ++ laterRows search (search.blocky + 1)

theorem row_from_mem (blockx blocky : Int) (block : Int × Int) :
    block ∈ rowFrom search blockx blocky ↔
      (blockx ≤ block.1 ∧ block.1 ≤ search.endx.tdiv 16) ∧ block.2 = blocky := by
  rw [rowFrom, mem_map]
  constructor
  · intro found
    rcases found with ⟨column, within, same⟩
    rw [← same]
    exact ⟨(count_to_mem _ _ _).mp within, rfl⟩
  · intro within
    exact ⟨block.1, (count_to_mem _ _ _).mpr within.1, Prod.ext rfl within.2.symm⟩

theorem row_from_nodup (blockx blocky : Int) : (rowFrom search blockx blocky).Nodup := by
  apply (count_to_nodup _ _).map
  intro left right same
  exact congrArg Prod.fst same

theorem later_rows_mem (blocky : Int) (block : Int × Int) :
    block ∈ laterRows search blocky ↔ (blocky ≤ block.2 ∧ block.2 ≤ search.endy.tdiv 16) ∧
      (block.1 = search.startx.tdiv 16 ∨
        search.startx.tdiv 16 + 1 ≤ block.1 ∧ block.1 ≤ search.endx.tdiv 16) := by
  rw [laterRows, mem_flatMap]
  constructor
  · intro found
    rcases found with ⟨row, within, inRow⟩
    rw [mem_cons, row_from_mem] at inRow
    rcases inRow with same | later
    · rw [same]
      exact ⟨(count_to_mem _ _ _).mp within, Or.inl rfl⟩
    rw [later.2]
    exact ⟨(count_to_mem _ _ _).mp within, Or.inr later.1⟩
  intro within
  refine ⟨block.2, (count_to_mem _ _ _).mpr within.1, ?_⟩
  rw [mem_cons, row_from_mem]
  rcases within.2 with same | later
  · exact Or.inl (Prod.ext same rfl)
  · exact Or.inr ⟨later, rfl⟩

theorem later_rows_nodup (blocky : Int) : (laterRows search blocky).Nodup := by
  apply nodup_flatMap.mpr
  constructor
  · intro row _
    apply nodup_cons.mpr
    constructor
    · intro again
      have beyond := ((row_from_mem _ _ _).mp again).1.1
      omega
    · exact row_from_nodup _ _
  apply (count_to_nodup _ _).imp
  intro upper lower different block inUpper inLower
  have sameRow : ∀ row, block ∈ (search.startx.tdiv 16, row) ::
      rowFrom search (search.startx.tdiv 16 + 1) row → block.2 = row := by
    intro row member
    rcases mem_cons.mp member with same | later
    · rw [same]
    · exact ((row_from_mem _ _ _).mp later).2
  exact different ((sameRow upper inUpper).symm.trans (sameRow lower inLower))

theorem blocks_left_nodup (search : Search) : (blocksLeft search).Nodup := by
  apply nodup_append'.mpr
  refine ⟨row_from_nodup _ _, later_rows_nodup _, ?_⟩
  intro block inRow inLater
  have here := ((row_from_mem _ _ _).mp inRow).2
  have below := ((later_rows_mem _ _).mp inLater).1.1
  omega

theorem next_block_enters (bounds : Bounds) (world : World) {block : Int × Int} {blocks : List (Int × Int)}
    (left : blocksLeft search = block :: blocks) :
    search.nextBlock bounds world = search.enter bounds world block.1 block.2 ∧
      blocksLeft (search.enter bounds world block.1 block.2) = blocks := by
  by_cases rowDone : search.endx.tdiv 16 < search.blockx + 1
  · rw [blocksLeft, rowFrom, count_to_nil rowDone, map_nil, nil_append] at left
    by_cases allDone : search.endy.tdiv 16 < search.blocky + 1
    · rw [laterRows, count_to_nil allDone] at left
      cases left
    rw [laterRows, count_to_cons (not_lt.mp allDone), flatMap_cons, cons_append] at left
    cases left
    constructor
    · simp only [Search.nextBlock, if_pos rowDone, if_neg allDone]
    · rfl
  rw [blocksLeft, rowFrom, count_to_cons (not_lt.mp rowDone), map_cons, cons_append]
    at left
  cases left
  constructor
  · simp only [Search.nextBlock, if_neg rowDone]
  · rfl

theorem next_block_ends (bounds : Bounds) (world : World) (left : blocksLeft search = []) :
    (search.nextBlock bounds world).finished = true := by
  rw [blocksLeft, append_eq_nil_iff] at left
  have rowDone : search.endx.tdiv 16 < search.blockx + 1 := by
    by_contra within
    rw [rowFrom, count_to_cons (not_lt.mp within)] at left
    cases left.1
  have allDone : search.endy.tdiv 16 < search.blocky + 1 := by
    by_contra within
    rw [laterRows, count_to_cons (not_lt.mp within)] at left
    cases left.2
  simp only [Search.nextBlock, if_pos rowDone, if_pos allDone]

/-- What `getNext` does not pass over. -/
def Search.picks (world : World) (search : Search) (creatureID : UInt32) : Bool :=
  match world.creatures creatureID with
  | none => false
  | some creature => !search.passesOver creatureID creature

/-- The chain of a block is read to its end, and the search goes on behind it. -/
theorem chain_yields (search : Search) {rest tail : List UInt32} (nobody : world.creatures 0 = none)
    (running : search.finished = false) (chain : Chain 0 (nextOf world) search.actID rest)
    (live : ∀ creatureID ∈ rest, ∃ creature, world.creatures creatureID = some creature)
    (behind : Yields bounds world { search with actID := 0 } tail) :
    Yields bounds world search (rest.filter (search.picks world) ++ tail) := by
  induction rest generalizing search with
  | nil =>
    have ended : search.actID = 0 := chain
    rw [← ended] at behind
    exact behind
  | cons creatureID rest ih =>
    rcases chain with ⟨here, nonzero, chain⟩
    rcases live creatureID mem_cons_self with ⟨creature, known⟩
    rw [next_of_known known] at chain
    have live' : ∀ other ∈ rest, ∃ creature, world.creatures other = some creature :=
      fun other member => live other (mem_cons_of_mem _ member)
    have get : getCreature world search.actID = some creature := by
      rw [get_creature_eq nobody, here]
      exact known
    have notZero : search.actID ≠ 0 := here ▸ nonzero
    have later := ih { search with actID := creature.nextChainCreature } running chain
      live' behind
    have turn : ∀ turns, getNext bounds world (turns + 1) search =
        if search.passesOver creatureID creature then
          getNext bounds world turns { search with actID := creature.nextChainCreature }
        else some (creatureID, { search with actID := creature.nextChainCreature }) := by
      intro turns
      rw [getNext, running, if_neg Bool.false_ne_true, if_neg notZero, get]
      simp only [here]
    have picked : search.picks world creatureID = !search.passesOver creatureID creature := by
      rw [Search.picks, known]
    cases passed : search.passesOver creatureID creature with
    | true =>
      rw [filter_cons_of_neg (by rw [picked, passed]; decide)]
      apply yields_turn _ later
      intro turns
      rw [turn, if_pos passed]
    | false =>
      rw [filter_cons_of_pos (by rw [picked, passed]; rfl), cons_append]
      apply Yields.next 1 _ nonzero later
      rw [turn, passed]
      rfl

theorem outside_empty (chained : Chained bounds world members) {block : Int × Int}
    (outside : inside bounds block = false) : members block = [] := by
  apply eq_nil_iff_forall_not_mem.mpr
  intro creatureID member
  rcases (chained.standing block creatureID).mp member with ⟨on, creature, known, atBlock⟩
  rcases chained.live creatureID on with ⟨place, ⟨found, isFound, atPlace⟩, isInside⟩
  rw [known] at isFound
  cases isFound
  rw [← atPlace, atBlock, outside] at isInside
  cases isInside

theorem entered_chain (chained : Chained bounds world members) (block : Int × Int) :
    Chain 0 (nextOf world) (search.enter bounds world block.1 block.2).actID (members block) := by
  change Chain 0 (nextOf world) ((boundedAt bounds world block).getD 0) (members block)
  rw [boundedAt]
  cases isInside : inside bounds block with
  | true => exact chained.chains block isInside
  | false =>
    rw [outside_empty chained isInside]
    rfl

theorem block_turn (running : search.finished = false) (between : search.actID = 0) (turns : Nat) :
    getNext bounds world (turns + 1) search =
      getNext bounds world turns (search.nextBlock bounds world) := by
  rw [getNext, running, if_neg Bool.false_ne_true, if_pos between]

theorem blocks_yield (chained : Chained bounds world members) (blocks : List (Int × Int))
    (running : search.finished = false) (between : search.actID = 0)
    (left : blocksLeft search = blocks) :
    Yields bounds world search ((blocks.flatMap members).filter (search.picks world)) := by
  induction blocks generalizing search with
  | nil =>
    have ended := next_block_ends bounds world left
    apply Yields.done 2 _ ended
    rw [block_turn running between, getNext, if_pos ended]
  | cons block blocks ih =>
    rcases next_block_enters bounds world left with ⟨enters, rest⟩
    apply yields_turn (block_turn running between)
    rw [enters, flatMap_cons, filter_append]
    apply chain_yields (search.enter bounds world block.1 block.2) chained.nobody running
      (entered_chain chained block)
    · intro creatureID member
      rcases ((chained.standing block creatureID).mp member).2 with ⟨creature, known, _⟩
      exact ⟨creature, known⟩
    exact ih running rfl rest

theorem picks_iff (creatureID : UInt32) :
    search.picks world creatureID = true ↔ ∃ creature, world.creatures creatureID = some creature ∧
      (search.startx ≤ creature.position.x ∧ creature.position.x ≤ search.endx) ∧
      (search.starty ≤ creature.position.y ∧ creature.position.y ≤ search.endy) ∧
      search.mask &&& typeBit creature.type ≠ 0 ∧ creatureID ≠ search.skipID := by
  rw [Search.picks]
  rcases known : world.creatures creatureID with _ | creature
  · apply iff_of_false Bool.false_ne_true
    intro found
    rcases found with ⟨creature, isFound, _⟩
    cases isFound
  simp only [Search.passesOver, Bool.not_eq_true', Bool.or_eq_false_iff, beq_eq_false_iff_ne,
    decide_eq_false_iff_not, not_lt, Option.some.injEq, exists_eq_left']
  constructor
  · intro passed
    rcases passed with ⟨⟨⟨⟨⟨notSkipped, left⟩, right⟩, top⟩, bottom⟩, masked⟩
    exact ⟨⟨left, right⟩, ⟨top, bottom⟩, masked, notSkipped⟩
  · intro wanted
    rcases wanted with ⟨⟨left, right⟩, ⟨top, bottom⟩, masked, notSkipped⟩
    exact ⟨⟨⟨⟨⟨notSkipped, left⟩, right⟩, top⟩, bottom⟩, masked⟩

/-- `initSearch`, with any creature to skip. -/
def startSearch (radiusX radiusY centerX centerY : Int) (skipID mask : UInt32) : Search :=
  { initSearch radiusX radiusY centerX centerY mask with skipID := skipID }

theorem blocks_at_start (radiusX radiusY centerX centerY : Int) (skipID mask : UInt32) {x y : Int}
    (column : centerX - radiusX ≤ x ∧ x ≤ centerX + radiusX)
    (row : centerY - radiusY ≤ y ∧ y ≤ centerY + radiusY) :
    blockOf x y ∈ blocksLeft (startSearch radiusX radiusY centerX centerY skipID mask) := by
  have positive : (0 : Int) < 16 := by decide
  have left := Int.tdiv_le_tdiv positive column.1
  have right := Int.tdiv_le_tdiv positive column.2
  have top := Int.tdiv_le_tdiv positive row.1
  have bottom := Int.tdiv_le_tdiv positive row.2
  rw [blocksLeft, mem_append, row_from_mem, later_rows_mem]
  simp only [startSearch, initSearch, blockOf]
  omega

theorem members_nodup (chained : Chained bounds world members) {blocks : List (Int × Int)}
    (nodup : blocks.Nodup) : (blocks.flatMap members).Nodup := by
  apply nodup_flatMap.mpr
  constructor
  · intro block _
    exact chained.nodup block
  apply nodup.imp
  intro left right different creatureID inLeft inRight
  rcases ((chained.standing left creatureID).mp inLeft).2 with ⟨creature, known, atLeft⟩
  rcases ((chained.standing right creatureID).mp inRight).2 with ⟨again, isAgain, atRight⟩
  rw [known] at isAgain
  cases isAgain
  exact different (atLeft.symm.trans atRight)

/-- A search returns each creature that is wanted once, and nothing else. -/
theorem search_exact (chained : Chained bounds world members)
    (radiusX radiusY centerX centerY : Int) (skipID mask : UInt32) :
    ∃ found, Yields bounds world (startSearch radiusX radiusY centerX centerY skipID mask) found ∧
      found.Nodup ∧ ∀ creatureID, creatureID ∈ found ↔
        Wanted world (startSearch radiusX radiusY centerX centerY skipID mask) creatureID := by
  refine ⟨_, blocks_yield chained _ rfl rfl rfl, ?_, ?_⟩
  · exact (members_nodup chained (blocks_left_nodup _)).filter _
  intro creatureID
  rw [mem_filter, picks_iff, mem_flatMap, Wanted]
  constructor
  · intro both
    rcases both.1 with ⟨block, _, member⟩
    exact ⟨((chained.standing block creatureID).mp member).1, both.2⟩
  intro wanted
  rcases wanted.2 with ⟨creature, known, column, row, _, _⟩
  refine ⟨⟨creature.block, ?_, ?_⟩, wanted.2⟩
  · exact blocks_at_start _ _ _ _ _ _ column row
  · exact (chained.standing _ creatureID).mpr ⟨wanted.1, creature, known, rfl⟩


/-- After any run of allowed calls each creature on the map is once in the chain of its block
and in no other chain, and every search returns exactly the creatures that are wanted. -/
theorem chains_and_searches_exact (bounds : Bounds) (calls : List Call)
    (fine : allAllowed bounds emptyMap calls = true) :
    ∃ world members, run bounds emptyMap calls = some world ∧ Chained bounds world members ∧
      ∀ (radiusX radiusY centerX centerY : Int) (skipID mask : UInt32), ∃ found,
        Yields bounds world (startSearch radiusX radiusY centerX centerY skipID mask) found ∧
          found.Nodup ∧ ∀ creatureID, creatureID ∈ found ↔
            Wanted world (startSearch radiusX radiusY centerX centerY skipID mask) creatureID := by
  rcases run_chained calls (empty_chained bounds) fine with ⟨world, members, ran, chained⟩
  refine ⟨world, members, ran, chained, ?_⟩
  intro radiusX radiusY centerX centerY skipID mask
  exact search_exact chained radiusX radiusY centerX centerY skipID mask

def smallMatrix : Bounds := ⟨0, 0, 4, 4⟩

def playerAt (x y : Int) : Creature := ⟨.player, ⟨x, y, 7⟩, 0⟩

def walkAcross : List Call :=
  [.appear 1 (playerAt 5 5), .appear 2 (playerAt 6 5), .insert 1 0 0, .insert 2 0 0,
    .move 1 ⟨20, 5, 7⟩, .move 1 ⟨21, 5, 7⟩, .delete 2, .vanish 2]

theorem walk_across_exact :
    allAllowed smallMatrix emptyMap walkAcross = true ∧
      ∃ world members, run smallMatrix emptyMap walkAcross = some world ∧
        Chained smallMatrix world members ∧
          ∀ (radiusX radiusY centerX centerY : Int) (skipID mask : UInt32), ∃ found,
            Yields smallMatrix world (startSearch radiusX radiusY centerX centerY skipID mask) found ∧
              found.Nodup ∧ ∀ creatureID, creatureID ∈ found ↔
                Wanted world (startSearch radiusX radiusY centerX centerY skipID mask) creatureID :=
  ⟨by decide, chains_and_searches_exact smallMatrix walkAcross (by decide)⟩

theorem first_member {block : Int × Int} {creatureID : UInt32}
    (chained : Chained bounds world members) (isInside : inside bounds block = true)
    (first : world.firstChainCreature block = creatureID) (nonzero : creatureID ≠ 0) :
    creatureID ∈ members block := by
  have chain := chained.chains block isInside
  rw [first] at chain
  rcases listed : members block with _ | ⟨head, rest⟩
  · rw [listed] at chain
    exact absurd chain nonzero
  rw [listed] at chain
  rw [chain.1]
  exact mem_cons_self

def insertTwice : List Call := [.appear 1 (playerAt 5 5), .insert 1 0 0, .insert 1 0 0]

def moveUnplaced : List Call := [.appear 1 (playerAt 5 5), .move 1 ⟨20, 5, 7⟩]

/-- The new column is taken for none, and the creature is chained in its old block again. -/
def moveToBorder : List Call := [.appear 1 (playerAt 32 5), .insert 1 0 0, .move 1 ⟨0, 5, 7⟩]

def Breaks (calls : List Call) : Prop :=
  ¬ ∃ world members, run smallMatrix emptyMap calls = some world ∧
    Chained smallMatrix world members

theorem read_off {Value : Type} {calls : List Call} (ran : run smallMatrix emptyMap calls = some world)
    (read : World → Value) (value : Value)
    (same : (run smallMatrix emptyMap calls).map read = some value) : read world = value := by
  rw [ran] at same
  exact Option.some.inj same

theorem insert_twice_breaks : Breaks insertTwice := by
  intro both
  rcases both with ⟨world, members, ran, chained⟩
  have first := read_off ran (fun world => world.firstChainCreature (0, 0)) 1 rfl
  have again := read_off ran (fun world => nextOf world 1) 1 rfl
  have chain := chained.chains (0, 0) rfl
  have nodup := chained.nodup (0, 0)
  rw [first] at chain
  rcases listed : members (0, 0) with _ | ⟨head, rest⟩
  · rw [listed] at chain
    have ended : (1 : UInt32) = 0 := chain
    exact absurd ended (by decide)
  rw [listed] at chain nodup
  rcases chain with ⟨here, _, behind⟩
  rw [← here] at behind nodup
  rw [again] at behind
  rcases rest with _ | ⟨second, others⟩
  · have ended : (1 : UInt32) = 0 := behind
    exact absurd ended (by decide)
  rw [← behind.1] at nodup
  exact (nodup_cons.mp nodup).1 mem_cons_self

theorem move_unplaced_breaks : Breaks moveUnplaced := by
  intro both
  rcases both with ⟨world, members, ran, chained⟩
  have first := read_off ran (fun world => world.firstChainCreature (1, 0)) 1 rfl
  have off := read_off ran (fun world => world.onMap 1) false rfl
  have member := first_member chained rfl first (by decide)
  have on := ((chained.standing _ _).mp member).1
  rw [off] at on
  cases on

theorem move_to_border_breaks : Breaks moveToBorder := by
  intro both
  rcases both with ⟨world, members, ran, chained⟩
  have first := read_off ran (fun world => world.firstChainCreature (2, 0)) 1 rfl
  have block := read_off ran (fun world => (world.creatures 1).map Creature.block) (some (0, 0)) rfl
  have member := first_member chained rfl first (by decide)
  rcases ((chained.standing _ _).mp member).2 with ⟨creature, known, atBlock⟩
  rw [known, Option.map_some, atBlock] at block
  exact absurd block (by decide)

theorem chains_break : Breaks insertTwice ∧ Breaks moveUnplaced ∧ Breaks moveToBorder :=
  ⟨insert_twice_breaks, move_unplaced_breaks, move_to_border_breaks⟩

end TibiaGame.CreatureSearch
