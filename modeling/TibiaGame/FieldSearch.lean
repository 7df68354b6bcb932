import TibiaGame.FieldOrder
import TibiaGame.Library.SquareSpiral

/-!
# The search for a field

The searches of `info.cpp` that go around a place in a spiral, on the map as they read it: the
row of the objects on a field, and what its map container says of the field.
-/

namespace TibiaGame.FieldSearch

open GameTypes Library.SquareSpiral

structure Thing (cfg : GameConfig) where
  objectType : ObjectType cfg
  ofPlayer : Bool

/-- A field without a map container has no objects, no house and no flags. -/
structure Field (cfg : GameConfig) where
  objects : List (Thing cfg)
  houseID : UInt16
  noLogout : Bool
  protectionZone : Bool

structure Coordinate where
  x : Int
  y : Int
  z : Int
  deriving DecidableEq

abbrev GameMap (cfg : GameConfig) := Coordinate → Field cfg

variable {cfg : GameConfig}

def coordinateFlag (field : Field cfg) (flag : Flag) : Bool :=
  field.objects.any fun thing => thing.objectType.getFlag flag

def Field.isHouse (field : Field cfg) : Bool := field.houseID != 0

/-- The loop of `jump_possible`, with `HasBank`. -/
def jumpWalk (avoidPlayers : Bool) : List (Thing cfg) → Bool → Bool
  | [], hasBank => hasBank
  | thing :: rest, hasBank =>
      if thing.objectType.getFlag .unpass && thing.objectType.getFlag .unmove then false
      else if avoidPlayers && thing.objectType.isCreatureContainer && thing.ofPlayer then false
      else jumpWalk avoidPlayers rest (hasBank || thing.objectType.getFlag .bank)

def jumpPossible (field : Field cfg) (avoidPlayers : Bool) : Bool :=
  jumpWalk avoidPlayers field.objects false

/-- `MovePossible` of `search_free_field`. -/
def movePossible (field : Field cfg) (jump : Bool) : Bool :=
  if jump then jumpPossible field true
  else
    coordinateFlag field .bank && !coordinateFlag field .unpass &&
      (!coordinateFlag field .avoid || coordinateFlag field .bed)

def freeField (field : Field cfg) (houseID : UInt16) (jump : Bool) : Bool :=
  movePossible field jump &&
    (houseID == 0xFFFF || !field.isHouse || (houseID != 0 && field.houseID == houseID))

/-- The loop of `LoginPossible`, with `HasBank`. -/
def loginWalk (player : Bool) : List (Thing cfg) → Bool → Bool
  | [], hasBank => hasBank
  | thing :: rest, hasBank =>
      if thing.objectType.isCreatureContainer then false
      else if thing.objectType.getFlag .unpass && thing.objectType.getFlag .unmove then false
      else if !player && thing.objectType.getFlag .avoid && thing.objectType.getFlag .unmove then
        false
      else loginWalk player rest (hasBank || thing.objectType.getFlag .bank)

def loginPossible (field : Field cfg) (houseID : UInt16) (player : Bool) : Bool :=
  if field.objects.isEmpty then false
  else if player && field.noLogout then false
  else if field.isHouse && (houseID == 0 || field.houseID != houseID) then false
  else loginWalk player field.objects false

def Coordinate.shift (start : Coordinate) (offset : Int × Int) : Coordinate :=
  ⟨start.x + offset.1, start.y + offset.2, start.z⟩

/-- Whether a search ends with a field, and the coordinates it leaves. -/
structure Found where
  found : Bool
  field : Coordinate
  deriving DecidableEq

/-- The loop of both searches: which offsets it looks at, and at which it ends. -/
def spiral (admits : Coordinate → Bool) (start : Coordinate) (distance : Int) (fuel : Nat) :
    Option (List (Int × Int) × Option (Int × Int)) :=
  search (fun offset => admits (start.shift offset)) distance fuel first

def arrive (start : Coordinate) : Option (Int × Int) → Found
  | none => ⟨false, start⟩
  | some offset => ⟨true, start.shift offset⟩

def searchFreeField (map : GameMap cfg) (start : Coordinate) (distance : Int) (houseID : UInt16)
    (jump : Bool) (fuel : Nat) : Option Found :=
  (spiral (fun field => freeField (map field) houseID jump) start distance fuel).map
    fun ended => arrive start ended.2

def searchLoginField (map : GameMap cfg) (start : Coordinate) (distance : Int) (player : Bool)
    (fuel : Nat) : Option Found := do
  let houseID := (map start).houseID
  let free ← searchFreeField map start distance houseID false fuel
  if free.found && (!player || !(map free.field).noLogout) then return free
  else
    let ended ← spiral (fun field => loginPossible (map field) houseID player) free.field distance
      fuel
    return arrive free.field ended.2

section Nearest

variable {admits : Coordinate → Bool} {start : Coordinate} {distance fuel : Nat}

/-- An order of the fields of a square: each of them once, ring after ring. -/
structure InRings (distance : Nat) (order : List (Int × Int)) : Prop where
  once : order.Nodup
  square : ∀ offset, offset ∈ order ↔ ring offset ≤ distance
  rings : order.Pairwise fun early late => ring early ≤ ring late

theorem square_in_rings (distance : Nat) : InRings distance (square distance) :=
  ⟨square_nodup distance, fun _ => mem_square, square_ordered distance⟩

def far (start field : Coordinate) : Int := ring (field.x - start.x, field.y - start.y)

/-- The search has ended at a field that is admitted and has no nearer one that is, or there is
none in the square. -/
structure Nearest (admits : Coordinate → Bool) (start : Coordinate) (distance : Nat)
    (ended : Found) : Prop where
  level : ended.field.z = start.z
  found : ended.found = true → admits ended.field = true ∧ far start ended.field ≤ distance ∧
    ∀ other, other.z = start.z → admits other = true → far start ended.field ≤ far start other
  missed : ended.found = false → ended.field = start ∧
    ∀ other, other.z = start.z → far start other ≤ distance → admits other = false

@[simp] theorem far_shift (start : Coordinate) (offset : Int × Int) :
    far start (start.shift offset) = ring offset := by
  unfold far Coordinate.shift
  simp only [add_sub_cancel_left]

theorem shift_back {start other : Coordinate} (level : other.z = start.z) :
    start.shift (other.x - start.x, other.y - start.y) = other := by
  rcases other with ⟨x, y, z⟩
  cases level
  simp only [Coordinate.shift, add_sub_cancel]

def nearest (admits : Coordinate → Bool) (start : Coordinate) (distance : Nat) :
    Option (Int × Int) :=
  (square distance).find? fun offset => admits (start.shift offset)

theorem spiral_returns (admits : Coordinate → Bool) (start : Coordinate)
    (enough : area distance < fuel) :
    ∃ seen, spiral admits start distance fuel = some (seen, nearest admits start distance) ∧
      seen <+: square distance ∧ (nearest admits start distance = none → seen = square distance) :=
  search_square enough

theorem arrive_nearest (admits : Coordinate → Bool) (start : Coordinate) (distance : Nat) :
    Nearest admits start distance (arrive start (nearest admits start distance)) := by
  rcases known : nearest admits start distance with _ | offset
  · apply Nearest.mk
    · rfl
    · nofun
    · intro _
      refine ⟨rfl, ?_⟩
      intro other level near
      have rejected := List.find?_eq_none.mp known _ (mem_square.mpr near)
      simp only [shift_back level, Bool.not_eq_true] at rejected
      exact rejected
  have found := found_nearest known
  apply Nearest.mk
  · rfl
  · intro _
    refine ⟨found.1, ?_, ?_⟩
    · simp only [arrive, far_shift]
      exact found.2.1
    intro other level admitted
    have least := found.2.2 (other.x - start.x, other.y - start.y)
    rw [shift_back level] at least
    simp only [arrive, far_shift]
    exact least admitted
  · nofun

theorem free_field_returns (map : GameMap cfg) (start : Coordinate) (houseID : UInt16)
    (jump : Bool) (enough : area distance < fuel) :
    searchFreeField map start distance houseID jump fuel =
      some (arrive start (nearest (fun field => freeField (map field) houseID jump) start
        distance)) := by
  rcases spiral_returns (fun field => freeField (map field) houseID jump) start enough with
    ⟨seen, ended, _⟩
  rw [searchFreeField, ended]
  rfl

/-- The search ends, having looked at each field of the square at most once and at all of them if
it finds none, and what it finds is nearest. -/
theorem free_field_is_nearest (map : GameMap cfg) (start : Coordinate) (distance : Nat)
    (houseID : UInt16) (jump : Bool) :
    ∃ order, InRings distance order ∧ ∃ least, ∀ fuel, least < fuel → ∃ seen ended,
      spiral (fun field => freeField (map field) houseID jump) start distance fuel =
        some (seen, ended) ∧
      seen <+: order ∧ (ended = none → seen = order) ∧
      searchFreeField map start distance houseID jump fuel = some (arrive start ended) ∧
      Nearest (fun field => freeField (map field) houseID jump) start distance
        (arrive start ended) := by
  refine ⟨square distance, square_in_rings distance, area distance, ?_⟩
  intro fuel enough
  rcases spiral_returns (fun field => freeField (map field) houseID jump) start enough with
    ⟨seen, returns, early, all⟩
  exact ⟨seen, _, returns, early, all, free_field_returns map start houseID jump enough,
    arrive_nearest _ start distance⟩

end Nearest

section Login

variable {map : GameMap cfg} {start : Coordinate} {distance fuel : Nat}

/-- The field that is returned is near and lets players log out, and none leaves the
coordinates as they were. -/
structure Stays (map : GameMap cfg) (start : Coordinate) (distance : Int) (player : Bool)
    (ended : Found) : Prop where
  near : ended.found = true → far start ended.field ≤ distance ∧ ended.field.z = start.z
  allowed : ended.found = true → player = true → (map ended.field).noLogout = false
  unchanged : ended.found = false → ended.field = start

def freeOffset (map : GameMap cfg) (start : Coordinate) (distance : Nat) : Option (Int × Int) :=
  nearest (fun field => freeField (map field) (map start).houseID false) start distance

/-- Where the search for a field to log in ends, around another field than the first. -/
def loginOffset (map : GameMap cfg) (start center : Coordinate) (distance : Nat) (player : Bool) :
    Option (Int × Int) :=
  nearest (fun field => loginPossible (map field) (map start).houseID player) center distance

/-- The nearest free field is no field to log out, and around it the nearest one to log in is too
far from the start; or there is none, and the free field is another than the start. -/
def Astray (map : GameMap cfg) (start : Coordinate) (distance : Nat) (player : Bool) : Prop :=
  player = true ∧ ∃ free, freeOffset map start distance = some free ∧
    (map (start.shift free)).noLogout = true ∧
    match loginOffset map start (start.shift free) distance player with
    | some login => distance < ring (free.1 + login.1, free.2 + login.2)
    | none => free ≠ (0, 0)

theorem shift_shift (start : Coordinate) (left right : Int × Int) :
    (start.shift left).shift right = start.shift (left.1 + right.1, left.2 + right.2) := by
  simp only [Coordinate.shift, add_assoc]

theorem shift_zero_iff {offset : Int × Int} : start.shift offset = start ↔ offset = (0, 0) := by
  rcases offset with ⟨x, y⟩
  rcases start with ⟨startX, startY, startZ⟩
  simp only [Coordinate.shift, Coordinate.mk.injEq, Prod.mk.injEq, add_eq_left, and_true]

theorem login_walk_logout {field : Field cfg} {houseID : UInt16}
    (possible : loginPossible field houseID true = true) : field.noLogout = false := by
  unfold loginPossible at possible
  split_ifs at possible with empty refused
  simpa only [Bool.true_and, Bool.not_eq_true] using refused

theorem login_field_returns (player : Bool) (enough : area distance < fuel) :
    searchLoginField map start distance player fuel =
      let free := arrive start (freeOffset map start distance)
      if free.found && (!player || !(map free.field).noLogout) then some free
      else some (arrive free.field (loginOffset map start free.field distance player)) := by
  rcases spiral_returns (fun field => loginPossible (map field) (map start).houseID player)
    (arrive start (freeOffset map start distance)).field enough with ⟨seen, second, _⟩
  have free := free_field_returns map start (map start).houseID false enough
  simp only [searchLoginField, free, Option.bind_eq_bind, Option.bind_some, Option.pure_def]
  unfold freeOffset at second ⊢
  split_ifs
  · rfl
  · rw [second]
    rfl

theorem login_stays (center : Coordinate) (player : Bool) (near : ∀ offset,
      loginOffset map start center distance player = some offset →
        far start (center.shift offset) ≤ distance) (level : center.z = start.z)
    (home : loginOffset map start center distance player = none → center = start) :
    Stays map start distance player
      (arrive center (loginOffset map start center distance player)) := by
  have ended := arrive_nearest
    (fun field => loginPossible (map field) (map start).houseID player) center distance
  rcases known : loginOffset map start center distance player with _ | offset
  · apply Stays.mk
    · nofun
    · nofun
    · intro _
      exact home known
  apply Stays.mk
  · intro _
    exact ⟨near offset known, level⟩
  · intro _ isPlayer
    unfold loginOffset at known
    rw [known] at ended
    have possible := (ended.found rfl).1
    rw [isPlayer] at possible
    exact login_walk_logout possible
  · nofun

/-- The second search has gone around another field than the start. -/
theorem displaced_stays_iff (map : GameMap cfg) (start : Coordinate) (distance : Nat)
    (free : Int × Int) (player : Bool) :
    Stays map start distance player
        (arrive (start.shift free) (loginOffset map start (start.shift free) distance player)) ↔
      ¬ match loginOffset map start (start.shift free) distance player with
        | some login => distance < ring (free.1 + login.1, free.2 + login.2)
        | none => free ≠ (0, 0) := by
  constructor
  · intro stays
    rcases known : loginOffset map start (start.shift free) distance player with _ | login
    · rw [known] at stays
      have same := stays.unchanged rfl
      exact not_not_intro (shift_zero_iff.mp same)
    rw [known] at stays
    have near := (stays.near rfl).1
    simp only [arrive, shift_shift, far_shift] at near
    exact not_lt_of_ge near
  intro kept
  apply login_stays (start.shift free) player
  · intro login found
    rw [found] at kept
    rw [shift_shift, far_shift]
    exact not_lt.mp kept
  · rfl
  · intro missed
    rw [missed] at kept
    exact shift_zero_iff.mpr (not_not.mp kept)

theorem square_login_stays_iff (map : GameMap cfg) (start : Coordinate) (distance : Nat)
    (player : Bool) :
    ∃ least, ∀ fuel, least < fuel → ∃ ended,
      searchLoginField map start distance player fuel = some ended ∧
      (Stays map start distance player ended ↔ ¬ Astray map start distance player) := by
  refine ⟨area distance, ?_⟩
  intro fuel enough
  rw [login_field_returns player enough]
  rcases known : freeOffset map start distance with _ | free
  · refine ⟨_, by rw [if_neg (by simp only [arrive, Bool.false_and, Bool.false_eq_true,
      not_false_eq_true])], ?_⟩
    constructor
    · intro _ astray
      rcases astray.2 with ⟨free, found, _⟩
      rw [known] at found
      cases found
    intro _
    apply login_stays start player
    · intro offset found
      rw [far_shift]
      unfold loginOffset nearest at found
      exact (found_nearest found).2.1
    · rfl
    · intro _
      rfl
  have first := arrive_nearest
    (fun field => freeField (map field) (map start).houseID false) start distance
  have here : nearest (fun field => freeField (map field) (map start).houseID false) start
    distance = some free := known
  rw [here] at first
  by_cases refused : player = true ∧ (map (start.shift free)).noLogout = true
  · refine ⟨_, by rw [if_neg (by simp only [arrive, refused.1, refused.2]; decide)], ?_⟩
    have moved := displaced_stays_iff map start distance free player
    constructor
    · intro stays astray
      rcases astray.2 with ⟨other, found, _, lost⟩
      rw [known] at found
      cases found
      exact moved.mp stays lost
    intro kept
    apply moved.mpr
    intro lost
    exact kept ⟨refused.1, free, known, refused.2, lost⟩
  have passes : (!player || !(map (start.shift free)).noLogout) = true := by
    rw [Bool.or_eq_true, Bool.not_eq_true', Bool.not_eq_true']
    rw [not_and_or, Bool.not_eq_true, Bool.not_eq_true] at refused
    exact refused
  refine ⟨_, by rw [if_pos (by simp only [arrive, passes, Bool.true_and])], ?_⟩
  constructor
  · intro _ astray
    rcases astray.2 with ⟨other, found, logout, _⟩
    rw [known] at found
    cases found
    exact refused ⟨astray.1, logout⟩
  intro _
  apply Stays.mk
  · intro _
    exact ⟨(first.found rfl).2.1, rfl⟩
  · intro _ isPlayer
    have open_field := not_and.mp refused isPlayer
    exact eq_false_of_ne_true open_field
  · nofun

theorem spiral_nothing {distance : Int} (admits : Coordinate → Bool) (start : Coordinate)
    (negative : distance < 0) (some_fuel : 0 < fuel) :
    spiral admits start distance fuel = some ([], none) := by
  rcases fuel with _ | fuel
  · omega
  have ended : ¬ first.distance ≤ distance := not_le_of_gt negative
  rw [spiral, search, if_neg ended]

/-- The search ends, and stays near and allowed exactly where the nearest free field does not lead
it astray. -/
theorem login_field_stays_iff (map : GameMap cfg) (start : Coordinate) (distance : Int)
    (player : Bool) :
    ∃ least, ∀ fuel, least < fuel → ∃ ended,
      searchLoginField map start distance player fuel = some ended ∧
      (Stays map start distance player ended ↔
        ¬ (0 ≤ distance ∧ Astray map start distance.toNat player)) := by
  by_cases negative : distance < 0
  · refine ⟨0, ?_⟩
    intro fuel some_fuel
    refine ⟨⟨false, start⟩, ?_, ?_⟩
    · simp only [searchLoginField, searchFreeField, spiral_nothing _ _ negative some_fuel]
      rfl
    · constructor
      · intro _ astray
        omega
      · intro _
        apply Stays.mk
        · nofun
        · nofun
        · intro _
          rfl
  · have whole : ((distance.toNat : Nat) : Int) = distance := Int.toNat_of_nonneg (by omega)
    rcases square_login_stays_iff map start distance.toNat player with ⟨least, returns⟩
    refine ⟨least, ?_⟩
    intro fuel enough
    rcases returns fuel enough with ⟨ended, found, stays⟩
    rw [whole] at found stays
    refine ⟨ended, found, ?_⟩
    rw [stays]
    constructor
    · intro kept astray
      exact kept astray.2
    · intro kept astray
      exact kept ⟨by omega, astray⟩

/-- Ground at (1, 0), where nobody may log out, and at (2, 0). -/
def shoreMap : GameMap FieldOrder.groundConfig := fun field =>
  if field = ⟨1, 0, 7⟩ then ⟨[⟨FieldOrder.groundType, false⟩], 0, true, false⟩
  else if field = ⟨2, 0, 7⟩ then ⟨[⟨FieldOrder.groundType, false⟩], 0, false, false⟩
  else ⟨[], 0, false, false⟩

/-- A player at (0, 0) is sent two fields away where one is the limit. -/
theorem login_field_goes_astray :
    searchLoginField shoreMap ⟨0, 0, 7⟩ 1 true 20 = some ⟨true, ⟨2, 0, 7⟩⟩ ∧
      ¬ Stays shoreMap ⟨0, 0, 7⟩ 1 true ⟨true, ⟨2, 0, 7⟩⟩ := by
  refine ⟨by decide, ?_⟩
  intro stays
  exact absurd (stays.near rfl).1 (by decide)

end Login

end TibiaGame.FieldSearch
