import Mathlib.Tactic

/-!
# A spiral over the squares of the plane

A walker goes around a square of growing size, ring after ring. Each point of the plane has its
number on the way: the walker is there after that many steps, and at no other time.
-/

namespace TibiaGame.Library.SquareSpiral

inductive Side where
  | north
  | west
  | south
  | east
  deriving DecidableEq

structure Walker where
  offsetX : Int
  offsetY : Int
  distance : Int
  direction : Side

def first : Walker := ⟨0, 0, 0, .east⟩

def next (walker : Walker) : Walker :=
  match walker.direction with
  | .north =>
      { walker with
        offsetY := walker.offsetY - 1
        direction := if walker.offsetY - 1 ≤ -walker.distance then .west else .north }
  | .west =>
      { walker with
        offsetX := walker.offsetX - 1
        direction := if walker.offsetX - 1 ≤ -walker.distance then .south else .west }
  | .south =>
      { walker with
        offsetY := walker.offsetY + 1
        direction := if walker.offsetY + 1 ≥ walker.distance then .east else .south }
  | .east =>
      if walker.offsetX + 1 > walker.distance then
        ⟨walker.offsetX + 1, walker.offsetY, walker.offsetX + 1, .north⟩
      else { walker with offsetX := walker.offsetX + 1 }

def position (walker : Walker) : Int × Int := (walker.offsetX, walker.offsetY)

/-- The points that are looked at, until one of them is admitted or the rings end, and the one
that is admitted. -/
def search (admits : Int × Int → Bool) (limit : Int) :
    Nat → Walker → Option (List (Int × Int) × Option (Int × Int))
  | 0, _ => none
  | fuel + 1, walker =>
      if walker.distance ≤ limit then
        if admits (position walker) then some ([position walker], some (position walker))
        else
          (search admits limit fuel (next walker)).map fun ended =>
            (position walker :: ended.1, ended.2)
      else some ([], none)

/-- The Chebyshev distance from the middle. -/
def ring (point : Int × Int) : Int := max point.1.natAbs point.2.natAbs

/-- Where the walker goes from a point of the ring. -/
def heading (distance x y : Int) : Side :=
  if x = distance ∧ -distance < y ∧ y < distance then .north
  else if y = -distance ∧ -distance < x then .west
  else if x = -distance ∧ y < distance then .south
  else .east

/-- How many points the rings inside have. -/
def inner (distance : Int) : Int := (2 * distance - 1) * (2 * distance - 1)

/-- The number of the point among those of its ring. -/
def along (distance x y : Int) : Int :=
  match heading distance x y with
  | .north => distance - 1 - y
  | .west => 3 * distance - 1 - x
  | .south => 5 * distance - 1 + y
  | .east => 7 * distance - 1 + x

def number (point : Int × Int) : Int :=
  inner (ring point) + along (ring point) point.1 point.2

def walkerAt (point : Int × Int) : Walker :=
  ⟨point.1, point.2, ring point, heading (ring point) point.1 point.2⟩

theorem inner_next (distance : Int) : inner (distance + 1) = inner distance + 8 * distance := by
  unfold inner
  ring_nf

theorem inner_mono {small large : Int} (some_ring : 0 ≤ small) (less : small < large) :
    inner (small + 1) ≤ inner large := by
  unfold inner
  nlinarith

theorem ring_nonneg (point : Int × Int) : 0 ≤ ring point := by
  unfold ring
  omega

theorem along_low (point : Int × Int) (outside : 0 < ring point) :
    0 ≤ along (ring point) point.1 point.2 := by
  unfold ring at outside
  unfold along heading ring
  split_ifs <;> simp only <;> omega

theorem along_high (point : Int × Int) : along (ring point) point.1 point.2 < 8 * ring point := by
  unfold along heading ring
  split_ifs <;> simp only <;> omega

/-- The walker that is at a point goes to the one with the next number. -/
theorem next_walker (point : Int × Int) :
    ∃ after, next (walkerAt point) = walkerAt after ∧ number after = number point + 1 := by
  rcases point with ⟨x, y⟩
  have inside : ring (x, y) = max (x.natAbs : Int) y.natAbs := rfl
  generalize known : ring (x, y) = distance at inside
  unfold next walkerAt number
  simp only [known]
  by_cases north : x = distance ∧ -distance < y ∧ y < distance
  · have up : ring (x, y - 1) = distance := by
      simp only [ring]
      omega
    refine ⟨(x, y - 1), ?_, ?_⟩
    · simp only [up, heading, if_pos north]
      congr 1
      split_ifs <;> first | rfl | omega
    · simp only [up, along, heading, if_pos north]
      split_ifs <;> simp only <;> omega
  by_cases west : y = -distance ∧ -distance < x
  · have left : ring (x - 1, y) = distance := by
      simp only [ring]
      omega
    refine ⟨(x - 1, y), ?_, ?_⟩
    · simp only [left, heading, if_neg north, if_pos west]
      congr 1
      split_ifs <;> first | rfl | omega
    · simp only [left, along, heading, if_neg north, if_pos west]
      split_ifs <;> simp only <;> omega
  by_cases south : x = -distance ∧ y < distance
  · have down : ring (x, y + 1) = distance := by
      simp only [ring]
      omega
    refine ⟨(x, y + 1), ?_, ?_⟩
    · simp only [down, heading, if_neg north, if_neg west, if_pos south]
      congr 1
      split_ifs <;> first | rfl | omega
    · simp only [down, along, heading, if_neg north, if_neg west, if_pos south]
      split_ifs <;> simp only <;> omega
  have east : heading distance x y = .east := by
    simp only [heading, if_neg north, if_neg west, if_neg south]
  by_cases corner : x = distance
  · have outer : ring (x + 1, y) = distance + 1 := by
      simp only [ring]
      omega
    have up : heading (distance + 1) (x + 1) y = .north := by
      simp only [heading]
      rw [if_pos (by omega)]
    refine ⟨(x + 1, y), ?_, ?_⟩
    · simp only [east, outer, up]
      rw [if_pos (by omega)]
      simp only [corner]
    · simp only [outer, along, east, up, inner_next]
      omega
  have right : ring (x + 1, y) = distance := by
    simp only [ring]
    omega
  have further : heading distance (x + 1) y = .east := by
    simp only [heading]
    rw [if_neg (by omega), if_neg (by omega), if_neg (by omega)]
  refine ⟨(x + 1, y), ?_, ?_⟩
  · simp only [east, right, further]
    rw [if_neg (by omega)]
  · simp only [right, along, east, further]
    omega

theorem number_lt (point : Int × Int) : number point < inner (ring point + 1) := by
  rw [inner_next, number]
  have high := along_high point
  omega

theorem number_of_smaller_ring {left right : Int × Int} (smaller : ring left < ring right) :
    number left < number right := by
  have low := along_low right (lt_of_le_of_lt (ring_nonneg left) smaller)
  calc number left
      < inner (ring left + 1) := number_lt left
    _ ≤ inner (ring right) := inner_mono (ring_nonneg left) smaller
    _ ≤ number right := by
        unfold number
        omega

/-- The point of a ring with the number. -/
def pointAlong (distance count : Int) : Int × Int :=
  if count < 2 * distance then (distance, distance - 1 - count)
  else if count < 4 * distance then (3 * distance - 1 - count, -distance)
  else if count < 6 * distance then (-distance, count - 5 * distance + 1)
  else (count - 7 * distance + 1, distance)

theorem point_along (point : Int × Int) :
    pointAlong (ring point) (along (ring point) point.1 point.2) = point := by
  have inside : ring point = max (point.1.natAbs : Int) point.2.natAbs := rfl
  generalize ring point = distance at inside
  apply Prod.ext_iff.mpr
  unfold along heading
  split_ifs with north west south <;> simp only [pointAlong] <;> split_ifs <;> simp only <;> omega

theorem number_injective {left right : Int × Int} (same : number left = number right) :
    left = right := by
  have rings : ring left = ring right := by
    rcases lt_trichotomy (ring left) (ring right) with less | others
    · exact absurd same (number_of_smaller_ring less).ne
    rcases others with equal | more
    · exact equal
    · exact absurd same (number_of_smaller_ring more).ne'
  unfold number at same
  rw [rings] at same
  rw [← point_along left, ← point_along right, rings]
  congr 1
  omega

def walkerAfter : Nat → Walker
  | 0 => first
  | steps + 1 => next (walkerAfter steps)

/-- Where the walker is after that many steps. -/
def place (steps : Nat) : Int × Int := position (walkerAfter steps)

theorem walker_after (steps : Nat) :
    walkerAfter steps = walkerAt (place steps) ∧ number (place steps) = steps := by
  induction steps with
  | zero => exact ⟨rfl, rfl⟩
  | succ steps induction =>
    rcases next_walker (place steps) with ⟨after, went, counts⟩
    have here : walkerAfter (steps + 1) = walkerAt after := by
      rw [walkerAfter, induction.1, went]
    have there : place (steps + 1) = after := by
      unfold place
      rw [here]
      rfl
    rw [there]
    refine ⟨here, ?_⟩
    rw [counts, induction.2]
    norm_cast

theorem number_of_place (steps : Nat) : number (place steps) = steps := (walker_after steps).2

theorem distance_after (steps : Nat) : (walkerAfter steps).distance = ring (place steps) := by
  rw [(walker_after steps).1]
  rfl

theorem place_injective {left right : Nat} (same : place left = place right) : left = right := by
  have numbers := number_of_place left
  rw [same, number_of_place right] at numbers
  exact_mod_cast numbers.symm

theorem number_nonneg (point : Int × Int) : 0 ≤ number point := by
  by_cases middle : ring point = 0
  · have origin : point = (0, 0) := by
      unfold ring at middle
      apply Prod.ext <;> simp only <;> omega
    rw [origin]
    decide
  have low := along_low point (lt_of_le_of_ne (ring_nonneg point) (Ne.symm middle))
  have square : 0 ≤ inner (ring point) := mul_self_nonneg _
  unfold number
  omega

theorem place_of_number (point : Int × Int) : place (number point).toNat = point := by
  apply number_injective
  rw [number_of_place, Int.toNat_of_nonneg (number_nonneg point)]

/-- The rings come one after the other. -/
theorem ring_mono {early late : Nat} (order : early ≤ late) :
    ring (place early) ≤ ring (place late) := by
  by_contra larger
  have less := number_of_smaller_ring (lt_of_not_ge larger)
  rw [number_of_place, number_of_place] at less
  omega

/-- How many points lie within a distance. -/
def area (limit : Nat) : Nat := (2 * limit + 1) * (2 * limit + 1)

theorem within_iff (steps limit : Nat) : ring (place steps) ≤ limit ↔ steps < area limit := by
  have square : inner (limit + 1) = area limit := by
    unfold inner area
    push_cast
    ring_nf
  have numbers := number_of_place steps
  constructor
  · intro within
    have high := number_lt (place steps)
    have less : inner (ring (place steps) + 1) ≤ inner (limit + 1) :=
      inner_mono (ring_nonneg _) (by omega)
    omega
  intro few
  by_contra outside
  have low := along_low (place steps) (by omega)
  have more : inner (limit + 1) ≤ inner (ring (place steps)) :=
    inner_mono (Int.natCast_nonneg limit) (by omega)
  unfold number at numbers
  omega

/-- The places of the walker from one step on. -/
def places : Nat → Nat → List (Int × Int)
  | _, 0 => []
  | start, count + 1 => place start :: places (start + 1) count

theorem mem_places {start count : Nat} {point : Int × Int} :
    point ∈ places start count ↔ ∃ steps, start ≤ steps ∧ steps < start + count ∧
      place steps = point := by
  induction count generalizing start with
  | zero =>
    constructor
    · nofun
    · intro numbered
      omega
  | succ count induction =>
    rw [places, List.mem_cons, induction]
    constructor
    · intro inside
      rcases inside with here | later
      · exact ⟨start, le_refl _, by omega, here.symm⟩
      rcases later with ⟨steps, low, high, there⟩
      exact ⟨steps, by omega, by omega, there⟩
    intro numbered
    rcases numbered with ⟨steps, low, high, there⟩
    by_cases now : steps = start
    · left
      rw [← there, now]
    right
    exact ⟨steps, by omega, by omega, there⟩

theorem places_nodup (start count : Nat) : (places start count).Nodup := by
  induction count generalizing start with
  | zero => exact List.nodup_nil
  | succ count induction =>
    apply List.nodup_cons.mpr
    refine ⟨?_, induction (start + 1)⟩
    intro again
    rcases mem_places.mp again with ⟨steps, low, _, there⟩
    have same := place_injective there
    omega

theorem places_ordered (start count : Nat) :
    (places start count).Pairwise fun early late => ring early ≤ ring late := by
  induction count generalizing start with
  | zero => exact List.Pairwise.nil
  | succ count induction =>
    apply List.Pairwise.cons
    · intro late inside
      rcases mem_places.mp inside with ⟨steps, low, _, there⟩
      rw [← there]
      exact ring_mono (by omega)
    · exact induction (start + 1)

section Searches

variable {admits : Int × Int → Bool} {limit fuel : Nat}

/-- The points of the square, in the order of the walker. -/
def square (limit : Nat) : List (Int × Int) := places 0 (area limit)

theorem mem_square {point : Int × Int} : point ∈ square limit ↔ ring point ≤ limit := by
  unfold square
  rw [mem_places]
  constructor
  · intro numbered
    rcases numbered with ⟨steps, _, few, there⟩
    rw [← there]
    exact (within_iff steps limit).mpr (by omega)
  · intro within
    rw [← place_of_number point, within_iff] at within
    exact ⟨(number point).toNat, Nat.zero_le _, by omega, place_of_number point⟩

theorem square_nodup (limit : Nat) : (square limit).Nodup := places_nodup 0 (area limit)

theorem square_ordered (limit : Nat) :
    (square limit).Pairwise fun early late => ring early ≤ ring late :=
  places_ordered 0 (area limit)

/-- A search looks at the places from the walker's on, and stops at the first that is admitted. -/
theorem search_from (steps : Nat) {count : Nat} (whole : steps + count = area limit)
    (enough : count < fuel) :
    ∃ seen, search admits limit fuel (walkerAfter steps) =
        some (seen, (places steps count).find? admits) ∧
      seen <+: places steps count ∧
      ((places steps count).find? admits = none → seen = places steps count) := by
  induction count generalizing steps fuel with
  | zero =>
    rcases fuel with _ | fuel
    · omega
    have ended : ¬ (walkerAfter steps).distance ≤ limit := by
      rw [distance_after, within_iff]
      omega
    refine ⟨[], ?_, List.nil_prefix, fun _ => rfl⟩
    rw [search, if_neg ended]
    rfl
  | succ count induction =>
    rcases fuel with _ | fuel
    · omega
    have inside : (walkerAfter steps).distance ≤ limit := by
      rw [distance_after, within_iff]
      omega
    rw [search, if_pos inside, places, List.find?_cons]
    change ∃ seen, (if admits (place steps) then _ else _) = _ ∧ _
    by_cases admitted : admits (place steps) = true
    · refine ⟨[place steps], ?_, ⟨places (steps + 1) count, rfl⟩, ?_⟩
      · rw [if_pos admitted, admitted]
        rfl
      · intro missed
        rw [admitted] at missed
        cases missed
    rcases induction (steps + 1) (by omega) (Nat.lt_of_succ_lt_succ enough) with
      ⟨seen, found, early, all⟩
    have rejected : admits (place steps) = false := by
      simpa only [Bool.not_eq_true] using admitted
    refine ⟨place steps :: seen, ?_, ?_, ?_⟩
    · rw [if_neg admitted, rejected]
      have went : next (walkerAfter steps) = walkerAfter (steps + 1) := rfl
      rw [went, found]
      rfl
    · exact (List.cons_prefix_cons).mpr ⟨rfl, early⟩
    · intro missed
      rw [rejected] at missed
      rw [all missed]

theorem search_square (enough : area limit < fuel) :
    ∃ seen, search admits limit fuel first = some (seen, (square limit).find? admits) ∧
      seen <+: square limit ∧ ((square limit).find? admits = none → seen = square limit) :=
  search_from 0 (Nat.zero_add _) enough

/-- The point that is found is admitted, and no admitted one is nearer to the middle. -/
theorem found_nearest {point : Int × Int} (found : (square limit).find? admits = some point) :
    admits point = true ∧ ring point ≤ limit ∧
      ∀ other, admits other = true → ring point ≤ ring other := by
  have admitted := List.find?_some found
  have inside := mem_square.mp (List.mem_of_find?_eq_some found)
  refine ⟨admitted, inside, ?_⟩
  intro other also
  by_cases near : ring other ≤ limit
  · rcases List.find?_eq_some_iff_append.mp found with ⟨_, before, behind, split, rejected⟩
    have ordered := square_ordered limit
    have member := mem_square.mpr near
    rw [split] at ordered member
    rw [List.pairwise_append, List.pairwise_cons] at ordered
    rw [List.mem_append, List.mem_cons] at member
    rcases member with early | late
    · have never := rejected other early
      rw [also] at never
      cases never
    rcases late with same | further
    · rw [same]
    · exact ordered.2.1.1 other further
  · omega

end Searches

end TibiaGame.Library.SquareSpiral
