import TibiaGame.FieldSearch

/-!
# What can be thrown where

`throw_possible` of `info.cpp`, which fighting, spells and the moving of objects ask. It tries the
floors from the highest that `Power` reaches down to the floor of the destination.
-/

namespace TibiaGame.Throwing

open GameTypes FieldOrder FieldSearch

variable {cfg : GameConfig} (map : GameMap cfg)

def hasBank (place : Coordinate) : Bool :=
  match (map place).objects with
  | [] => false
  | first :: _ => first.objectType.getFlag .bank

/-- `MinZ` behind the loop that goes up from the origin. -/
def ceilingLoop (x y minZ : Int) : Nat → Int
  | 0 => minZ
  | left + 1 => if hasBank map ⟨x, y, minZ + left⟩ then minZ + left + 1 else ceilingLoop x y minZ left

def interpolated (orig dest maxT t : Int) : Int := (orig * (maxT - t) + dest * t).tdiv maxT

def maxT (orig dest : Coordinate) : Int := max |dest.x - orig.x| |dest.y - orig.y|

def onLine (orig dest : Coordinate) (z t : Int) : Coordinate :=
  ⟨interpolated orig.x dest.x (maxT orig dest) t, interpolated orig.y dest.y (maxT orig dest) t, z⟩

def startT (orig dest : Coordinate) : Int :=
  if dest.x < orig.x ∧ coordinateFlag (map orig) .hookEast ∨
      dest.y < orig.y ∧ coordinateFlag (map orig) .hookSouth then 0
  else 1

/-- `LastX` and `LastY` behind the loop along the line. -/
def lineLoop (orig dest : Coordinate) (z : Int) : Nat → Int → Int × Int → Int × Int
  | 0, _, last => last
  | left + 1, t, last =>
      let cur := onLine orig dest z t
      if coordinateFlag (map cur) .unthrow then last
      else lineLoop orig dest z left (t + 1) (cur.x, cur.y)

/-- `LastZ` behind the loop that goes down to the destination. -/
def dropLoop (x y : Int) : Nat → Int → Int
  | 0, z => z
  | left + 1, z => if hasBank map ⟨x, y, z⟩ then z else dropLoop x y left (z + 1)

def lastOf (orig dest : Coordinate) (z : Int) : Int × Int :=
  if dest.x ≠ orig.x ∨ dest.y ≠ orig.y then
    lineLoop map orig dest z (maxT orig dest + 1 - startT map orig dest).toNat
      (startT map orig dest) (orig.x, orig.y)
  else (orig.x, orig.y)

def floorLoop (orig dest : Coordinate) : Nat → Int → Bool
  | 0, _ => false
  | left + 1, minZ =>
      if lastOf map orig dest minZ = (dest.x, dest.y) ∧
          dropLoop map dest.x dest.y (dest.z - minZ).toNat minZ = dest.z then true
      else floorLoop orig dest left (minZ + 1)

def highestZ (orig : Coordinate) (power : Int) : Int := max (orig.z - power) 0

def minZ (orig : Coordinate) (power : Int) : Int :=
  ceilingLoop map orig.x orig.y (highestZ orig power) (orig.z - highestZ orig power).toNat

def throwPossible (orig dest : Coordinate) (power : Int) : Bool :=
  floorLoop map orig dest (dest.z + 1 - minZ map orig power).toNat (minZ map orig power)

/-- No ground between two floors of a column. -/
def Shaft (x y low high : Int) : Prop := ∀ z, low ≤ z → z < high → hasBank map ⟨x, y, z⟩ = false

/-- Nothing on the line stops what is thrown, the destination included. -/
def Free (orig dest : Coordinate) (z : Int) : Prop :=
  dest.x ≠ orig.x ∨ dest.y ≠ orig.y → ∀ t, startT map orig dest ≤ t → t ≤ maxT orig dest →
    coordinateFlag (map (onLine orig dest z t)) .unthrow = false

theorem ceiling_le_iff (x y low z : Int) (left : Nat) :
    ceilingLoop map x y low left ≤ z ↔ low ≤ z ∧ Shaft map x y z (low + left) := by
  induction left with
  | zero => grind [ceilingLoop, Shaft]
  | succ left ih =>
    rw [ceilingLoop]
    split_ifs
    all_goals grind [Shaft]

theorem drop_iff (x y : Int) (left : Nat) (z : Int) :
    dropLoop map x y left z = z + left ↔ Shaft map x y z (z + left) := by
  induction left generalizing z with
  | zero => grind [dropLoop, Shaft]
  | succ left ih =>
    have turns : z + ((left + 1 : Nat) : Int) = z + 1 + left := by omega
    rw [dropLoop, turns]
    split_ifs
    all_goals grind [Shaft]

section Lines

variable {map} {orig dest : Coordinate} {z : Int}

theorem interpolated_end {start last length : Int} (some : length ≠ 0) :
    interpolated start last length length = last := by
  rw [interpolated, Int.sub_self, Int.mul_zero, Int.zero_add, Int.mul_tdiv_cancel _ some]

theorem interpolated_start {start last length : Int} (some : length ≠ 0) :
    interpolated start last length 0 = start := by
  rw [interpolated, Int.sub_zero, Int.mul_zero, Int.add_zero, Int.mul_tdiv_cancel _ some]

/-- Along its longer side a line takes one step at a time. -/
theorem interpolated_early {start last length t : Int} (long : length = |last - start|)
    (early : t < length) (some : 0 < length) : interpolated start last length t ≠ last := by
  rcases abs_choice (last - start) with up | down
  · have whole : start * (length - t) + last * t = (start + t) * length := by
      rw [show last = start + length by omega]
      ring
    rw [interpolated, whole, Int.mul_tdiv_cancel _ (by omega)]
    omega
  have whole : start * (length - t) + last * t = (start - t) * length := by
    rw [show last = start - length by omega]
    ring
  rw [interpolated, whole, Int.mul_tdiv_cancel _ (by omega)]
  omega

theorem start_le_one : 0 ≤ startT map orig dest ∧ startT map orig dest ≤ 1 := by
  rw [startT]
  split_ifs
  · omega
  · omega

theorem line_turned (t : Int) : onLine dest orig z t = onLine orig dest z (maxT orig dest - t) := by
  have same : maxT dest orig = maxT orig dest := by
    rw [maxT, maxT, abs_sub_comm, abs_sub_comm orig.y]
  simp only [onLine, same, interpolated, Int.sub_sub_self]
  congr 2
  all_goals rw [Int.add_comm]

variable (apart : dest.x ≠ orig.x ∨ dest.y ≠ orig.y)
include apart

theorem max_t_pos : 0 < maxT orig dest := by
  rcases apart with wide | high
  · exact lt_max_of_lt_left (abs_pos.mpr (sub_ne_zero.mpr wide))
  · exact lt_max_of_lt_right (abs_pos.mpr (sub_ne_zero.mpr high))

theorem line_end : onLine orig dest z (maxT orig dest) = ⟨dest.x, dest.y, z⟩ := by
  have some := (max_t_pos apart).ne'
  rw [onLine, interpolated_end some, interpolated_end some]

theorem line_early {t : Int} (early : t < maxT orig dest) :
    ((onLine orig dest z t).x, (onLine orig dest z t).y) ≠ (dest.x, dest.y) := by
  intro there
  have positive := max_t_pos apart
  rcases max_choice |dest.x - orig.x| |dest.y - orig.y| with long | long
  · exact interpolated_early long early positive (Prod.mk.inj there).1
  · exact interpolated_early long early positive (Prod.mk.inj there).2

theorem line_loop_iff (left : Nat) {t : Int} {last : Int × Int} (some : last ≠ (dest.x, dest.y))
    (turns : t + left = maxT orig dest + 1) (any : 0 < left) :
    lineLoop map orig dest z left t last = (dest.x, dest.y) ↔
      ∀ s, t ≤ s → s ≤ maxT orig dest →
        coordinateFlag (map (onLine orig dest z s)) .unthrow = false := by
  induction left generalizing t last with
  | zero => cases any
  | succ left ih =>
    rw [lineLoop]
    split_ifs with stops
    · grind
    rcases left with _ | left
    · have ends : t = maxT orig dest := by omega
      rw [lineLoop, ends, line_end apart]
      grind [line_end apart]
    rw [ih (line_early apart (by omega)) (by omega) (Nat.succ_pos left)]
    grind

end Lines

theorem last_iff (orig dest : Coordinate) (z : Int) :
    lastOf map orig dest z = (dest.x, dest.y) ↔ Free map orig dest z := by
  rw [lastOf]
  by_cases apart : dest.x ≠ orig.x ∨ dest.y ≠ orig.y
  · have positive := max_t_pos apart
    have start := @start_le_one cfg map orig dest
    have elsewhere : (orig.x, orig.y) ≠ (dest.x, dest.y) := by
      intro same
      rcases apart with wide | high
      · exact wide (Prod.mk.inj same).1.symm
      · exact high (Prod.mk.inj same).2.symm
    rw [if_pos apart, line_loop_iff apart _ elsewhere (by omega) (by omega)]
    exact ⟨fun free _ => free, fun free => free apart⟩
  rw [if_neg apart]
  constructor
  · intro _ far
    exact absurd far apart
  · intro _
    rw [not_or, not_ne_iff, not_ne_iff] at apart
    rw [apart.1, apart.2]

theorem floor_loop_iff (orig dest : Coordinate) (left : Nat) (low : Int)
    (turns : low + left = dest.z + 1 ∨ left = 0 ∧ dest.z < low) :
    floorLoop map orig dest left low = true ↔
      ∃ z, low ≤ z ∧ z ≤ dest.z ∧ Free map orig dest z ∧ Shaft map dest.x dest.y z dest.z := by
  induction left generalizing low with
  | zero => grind [floorLoop]
  | succ left ih =>
    have depth : low + ((dest.z - low).toNat : Int) = dest.z := by omega
    have drop := drop_iff map dest.x dest.y (dest.z - low).toNat low
    have test := and_congr (last_iff map orig dest low) drop
    rw [floorLoop]
    split_ifs with reached
    · grind
    · grind

theorem min_z_le_iff (orig : Coordinate) (power z : Int) :
    minZ map orig power ≤ z ↔ highestZ orig power ≤ z ∧ Shaft map orig.x orig.y z orig.z := by
  rw [minZ, ceiling_le_iff]
  apply and_congr_right
  intro high
  by_cases within : highestZ orig power ≤ orig.z
  · rw [Int.toNat_of_nonneg (by omega), add_sub_cancel]
  constructor
  all_goals
    intro _ floor from_z below
    omega

/-- A throw goes up a shaft above the origin as far as `Power` reaches, straight along one floor
and down a shaft above the destination. The ground under the origin does not hold it up. -/
theorem throw_possible_iff (orig dest : Coordinate) (power : Int) :
    throwPossible map orig dest power = true ↔
      ∃ z, highestZ orig power ≤ z ∧ z ≤ dest.z ∧ Shaft map orig.x orig.y z orig.z ∧
        Free map orig dest z ∧ Shaft map dest.x dest.y z dest.z := by
  rw [throwPossible, floor_loop_iff map orig dest _ _ (by omega)]
  constructor
  · intro reached
    rcases reached with ⟨z, above, below, found⟩
    have high := (min_z_le_iff map orig power z).mp above
    exact ⟨z, high.1, below, high.2, found⟩
  · intro way
    rcases way with ⟨z, high, below, shaft, found⟩
    exact ⟨z, (min_z_le_iff map orig power z).mpr ⟨high, shaft⟩, below, found⟩

section Sight

variable {map} {orig dest : Coordinate} (level : dest.z = orig.z)
include level

theorem thrown_back (clear : coordinateFlag (map orig) .unthrow = false)
    (thrown : throwPossible map orig dest 0 = true) : throwPossible map dest orig 0 = true := by
  rw [throwPossible, floor_loop_iff map orig dest _ _ (by omega)] at thrown
  rcases thrown with ⟨z, above, low, free, _⟩
  have high := ((min_z_le_iff map orig 0 z).mp above).1
  have floor : z = orig.z := by
    rw [highestZ] at high
    omega
  have nothing : ∀ x y, Shaft map x y z orig.z := by
    intro x y between from_z below
    omega
  rw [throwPossible, floor_loop_iff map dest orig _ _ (by omega)]
  refine ⟨z, (min_z_le_iff map dest 0 z).mpr ⟨?_, ?_⟩, floor.le, ?_, nothing orig.x orig.y⟩
  · rw [highestZ] at high ⊢
    omega
  · rw [level]
    exact nothing dest.x dest.y
  · intro apart t from_start until_end
    have same : maxT dest orig = maxT orig dest := by
      rw [maxT, maxT, abs_sub_comm, abs_sub_comm orig.y]
    rw [line_turned]
    by_cases last : t = maxT orig dest
    · rw [last, Int.sub_self, floor]
      have some := (max_t_pos (apart.imp Ne.symm Ne.symm)).ne'
      rw [onLine, interpolated_start some, interpolated_start some]
      exact clear
    apply free (apart.imp Ne.symm Ne.symm)
    · have := @start_le_one cfg map orig dest
      omega
    · have := @start_le_one cfg map dest orig
      omega

/-- On one floor, between fields that let pass what is thrown, who can hit can be hit. -/
theorem sight_is_mutual (clear : coordinateFlag (map orig) .unthrow = false)
    (open_dest : coordinateFlag (map dest) .unthrow = false) :
    throwPossible map orig dest 0 = throwPossible map dest orig 0 := by
  apply Bool.eq_iff_iff.mpr
  exact ⟨thrown_back level clear, thrown_back level.symm open_dest⟩

end Sight

theorem open_field_is_mutual :
    let map : GameMap groundConfig := fun _ => ⟨[], 0, false, false⟩
    throwPossible map ⟨0, 0, 7⟩ ⟨3, 2, 7⟩ 0 = throwPossible map ⟨3, 2, 7⟩ ⟨0, 0, 7⟩ 0 :=
  sight_is_mutual rfl rfl rfl

end TibiaGame.Throwing
