import Mathlib.Tactic

/-!
# Growing vectors

`vector` of `containers.h`. The array has a cell for every index from `start` on, `space` of them,
and the logical range from `min` to `max` grows inside of it. A cell that nothing has been written
to since its array was allocated has no value.
-/

namespace TibiaGame.GrowingVector

open Function

structure Vector (Value : Type*) where
  min : Int
  max : Int
  start : Int
  space : Int
  block : Int
  initialized : Bool
  init : Option Value
  entry : Int → Option Value
  space_pos : 0 < space
  block_nonneg : 0 ≤ block

variable {Value : Type*}

def newSpace (min max : Int) : Int := if max - min + 1 < 1 then 1 else max - min + 1

theorem new_space_pos (min max : Int) : 0 < newSpace min max := by
  rw [newSpace]
  split_ifs
  · decide
  · omega

/-- The constructor without a value; `init` is not set. -/
def create (min max block : Int) : Vector Value where
  min := min
  max := max
  start := min
  space := newSpace min max
  block := if block < 0 then 0 else block
  initialized := false
  init := none
  entry := fun _ => none
  space_pos := new_space_pos min max
  block_nonneg := by split_ifs <;> omega

def createInit (min max block : Int) (init : Value) : Vector Value :=
  { (create min max block : Vector Value) with
    initialized := true
    init := some init
    entry := fun place => if 0 ≤ place ∧ place < newSpace min max then some init else none }

namespace Vector

variable (vector : Vector Value)

def increment : Int := if vector.block = 0 then vector.space else vector.block

theorem increment_pos : 0 < vector.increment := by
  have space := vector.space_pos
  have block := vector.block_nonneg
  rw [increment]
  split_ifs
  · exact space
  · omega

/-- The entries in use move to another array, `offset` places further on. -/
def moved (offset : Int) : Int → Option Value := fun place =>
  if vector.min - vector.start + offset ≤ place ∧ place ≤ vector.max - vector.start + offset then
    vector.entry (place - offset)
  else none

/-- A turn of the loop that makes room in front. -/
def growFront : Vector Value :=
  { vector with
    entry := vector.moved vector.increment
    start := vector.start - vector.increment
    space := vector.space + vector.increment
    space_pos := add_pos vector.space_pos vector.increment_pos }

def growBack : Vector Value :=
  { vector with
    entry := vector.moved 0
    space := vector.space + vector.increment
    space_pos := add_pos vector.space_pos vector.increment_pos }

def reserveFront (vector : Vector Value) (index : Int) : Vector Value :=
  if index < vector.start then reserveFront vector.growFront index else vector
termination_by (vector.start - index).toNat
decreasing_by
  have further := vector.increment_pos
  simp only [growFront]
  omega

def reserveBack (vector : Vector Value) (index : Int) : Vector Value :=
  if vector.start + vector.space ≤ index then reserveBack vector.growBack index else vector
termination_by (index + 1 - vector.start - vector.space).toNat
decreasing_by
  have further := vector.increment_pos
  simp only [growBack]
  omega

def write (index : Int) (value : Option Value) : Vector Value :=
  { vector with entry := Function.update vector.entry (index - vector.start) value }

/-- Whether the array has a cell for the index. -/
def holds (index : Int) : Bool :=
  decide (vector.start ≤ index) && decide (index < vector.start + vector.space)

/-- What a cell has when the logical range reaches it. -/
def fresh : Option Value := if vector.initialized then vector.init else none

/-- A cell that the logical range reaches; `none` is a write outside of the array. -/
def reach (index : Int) : Option (Vector Value) :=
  if !vector.initialized then some vector
  else if vector.holds index then some (vector.write index vector.init)
  else none

/-- The loop that lowers `min`, with the number of its turns. -/
def lowerMin : Nat → Vector Value → Option (Vector Value)
  | 0, vector => some vector
  | turns + 1, vector =>
      (reach { vector with min := vector.min - 1 } (vector.min - 1)).bind (lowerMin turns)

def raiseMax : Nat → Vector Value → Option (Vector Value)
  | 0, vector => some vector
  | turns + 1, vector =>
      (reach { vector with max := vector.max + 1 } (vector.max + 1)).bind (raiseMax turns)

/-- The vector after `at`, which returns the cell of the index. -/
def access (index : Int) : Option (Vector Value) :=
  let roomy := (vector.reserveFront index).reserveBack index
  (lowerMin (roomy.min - index).toNat roomy).bind fun lowered =>
    raiseMax (index - lowered.max).toNat lowered

def cell (index : Int) : Option Value := vector.entry (index - vector.start)

/-- `default` is the value of `T{}`. -/
def copyAt [Inhabited Value] (index : Int) : Option Value :=
  if vector.holds index then vector.cell index
  else if vector.initialized then vector.init
  else some default

end Vector

/-- Accesses one after the other, each with the value that is written, if one is. -/
def run (vector : Vector Value) : List (Int × Option Value) → Option (Vector Value)
  | [] => some vector
  | (index, written) :: rest =>
      (vector.access index).bind fun reached =>
        run (match written with
          | none => reached
          | some value => reached.write index (some value)) rest

/-- The value that was written last at the index. -/
def lastWritten (init : Value) (accesses : List (Int × Option Value)) (index : Int) : Value :=
  accesses.foldl (fun value access => if access.1 = index then access.2.getD value else value) init

/-- `copyAt` and the next `at` give the value. -/
def Agrees [Inhabited Value] (vector : Vector Value) (index : Int) (value : Value) : Prop :=
  vector.copyAt index = some value ∧
    ∃ reached, vector.access index = some reached ∧ reached.cell index = some value

/-- The index is in the logical range, or the array has no cell for it. -/
def Covered (vector : Vector Value) (index : Int) : Prop :=
  vector.min ≤ index ∧ index ≤ vector.max ∨ vector.holds index = false

section Growth

variable {vector : Vector Value} {fresh : Option Value} {values : Int → Option Value} {index : Int}

/-- The cells of the logical range have the values, and the other ones have none. -/
structure Filled (vector : Vector Value) (fresh : Option Value) (values : Int → Option Value) :
    Prop where
  unset : vector.fresh = fresh
  range : vector.initialized = true → vector.min ≤ vector.max + 1
  lower : vector.start ≤ vector.min
  upper : vector.max < vector.start + vector.space
  cell : ∀ index, vector.cell index =
    if vector.min ≤ index ∧ index ≤ vector.max then values index else none
  outside : ∀ index, ¬ (vector.min ≤ index ∧ index ≤ vector.max) → values index = fresh

theorem holds_iff : vector.holds index = true ↔
    vector.start ≤ index ∧ index < vector.start + vector.space := by
  rw [Vector.holds, Bool.and_eq_true, decide_eq_true_eq, decide_eq_true_eq]

theorem moved_cell (filled : Filled vector fresh values) (offset place : Int)
    (here : place - offset = index - vector.start) : vector.moved offset place =
      if vector.min ≤ index ∧ index ≤ vector.max then values index else none := by
  have before := filled.cell index
  rw [Vector.cell] at before
  rw [Vector.moved, here, before]
  by_cases inside : vector.min ≤ index ∧ index ≤ vector.max
  · rw [if_pos (by omega)]
  · rw [if_neg inside, if_neg (by omega)]

theorem grow_front_filled (filled : Filled vector fresh values) : Filled vector.growFront fresh values := by
  have positive := vector.increment_pos
  have lower := filled.lower
  have upper := filled.upper
  constructor
  · exact filled.unset
  · exact filled.range
  · change vector.start - vector.increment ≤ vector.min
    omega
  · change vector.max < vector.start - vector.increment + (vector.space + vector.increment)
    omega
  · intro index
    apply moved_cell filled
    change index - (vector.start - vector.increment) - vector.increment = index - vector.start
    omega
  · exact filled.outside

theorem grow_back_filled (filled : Filled vector fresh values) : Filled vector.growBack fresh values := by
  have positive := vector.increment_pos
  have upper := filled.upper
  constructor
  · exact filled.unset
  · exact filled.range
  · exact filled.lower
  · change vector.max < vector.start + (vector.space + vector.increment)
    omega
  · intro index
    exact moved_cell filled 0 (index - vector.start) (sub_zero _)
  · exact filled.outside

theorem reserve_front_spec (index : Int) (filled : Filled vector fresh values) :
    Filled (vector.reserveFront index) fresh values ∧ (vector.reserveFront index).start ≤ index := by
  fun_induction Vector.reserveFront vector index with
  | case1 vector short ih => exact ih (grow_front_filled filled)
  | case2 vector roomy => exact ⟨filled, not_lt.mp roomy⟩

theorem reserve_back_spec (index : Int) (filled : Filled vector fresh values) :
    Filled (vector.reserveBack index) fresh values ∧
      (vector.reserveBack index).start = vector.start ∧
      index < (vector.reserveBack index).start + (vector.reserveBack index).space := by
  fun_induction Vector.reserveBack vector index with
  | case1 vector short ih => exact ih (grow_back_filled filled)
  | case2 vector roomy => exact ⟨filled, rfl, not_le.mp roomy⟩

theorem reach_held (initialized : vector.initialized = true) (held : vector.holds index = true) :
    vector.reach index = some (vector.write index vector.init) := by
  rw [Vector.reach, held, initialized]
  rfl

theorem reach_missing (initialized : vector.initialized = true)
    (missing : vector.holds index = false) : vector.reach index = none := by
  rw [Vector.reach, missing, initialized]
  rfl

/-- The logical range from `low` to `high`, which is longer by `index`. -/
theorem reach_filled (filled : Filled vector fresh values) (index low high : Int)
    (further : ∀ other, low ≤ other ∧ other ≤ high ↔
      vector.min ≤ other ∧ other ≤ vector.max ∨ other = index ∧ low ≤ high)
    (new : ¬ (vector.min ≤ index ∧ index ≤ vector.max))
    (lower : vector.start ≤ low) (upper : high < vector.start + vector.space)
    (range : vector.initialized = true → low ≤ high) :
    ∃ reached, Vector.reach { vector with min := low, max := high } index = some reached ∧
      Filled reached fresh values ∧ reached.start = vector.start ∧ reached.space = vector.space ∧
      reached.min = low ∧ reached.max = high := by
  have unset := filled.outside index new
  rw [← filled.unset, Vector.fresh] at unset
  by_cases initialized : vector.initialized = true
  · have ordered := range initialized
    have here : low ≤ index ∧ index ≤ high := (further index).mpr (.inr ⟨rfl, ordered⟩)
    rw [if_pos initialized] at unset
    refine ⟨Vector.write { vector with min := low, max := high } index vector.init,
      ?_, ?_, rfl, rfl, rfl, rfl⟩
    · exact reach_held initialized (holds_iff.mpr ⟨lower.trans here.1, here.2.trans_lt upper⟩)
    refine ⟨filled.unset, fun _ => ordered.trans (Int.le_add_one le_rfl), lower, upper,
      fun other => ?_, fun other beyond => ?_⟩
    · change update vector.entry (index - vector.start) vector.init
        (other - vector.start) = if low ≤ other ∧ other ≤ high then values other else none
      by_cases same : other = index
      · rw [same, update_self, if_pos here, unset]
      rw [update_of_ne (by omega)]
      refine (filled.cell other).trans (if_congr ?_ rfl rfl)
      rw [further other]
      exact ⟨Or.inl, fun either => either.resolve_right fun both => same both.1⟩
    · exact filled.outside other fun inside => beyond ((further other).mpr (.inl inside))
  rw [if_neg initialized] at unset
  refine ⟨{ vector with min := low, max := high }, ?_, ?_, rfl, rfl, rfl, rfl⟩
  · rw [Vector.reach, if_pos (Bool.not_eq_true' _ ▸ Bool.eq_false_of_not_eq_true initialized)]
  refine ⟨filled.unset, fun set => absurd set initialized, lower, upper, fun other => ?_,
    fun other beyond => ?_⟩
  · refine (filled.cell other).trans ?_
    by_cases inside : vector.min ≤ other ∧ other ≤ vector.max
    · rw [if_pos inside]
      exact (if_pos ((further other).mpr (.inl inside))).symm
    rw [if_neg inside]
    by_cases reached : low ≤ other ∧ other ≤ high
    · obtain within | ⟨rfl, -⟩ := (further other).mp reached
      · exact absurd within inside
      · exact unset.symm.trans (if_pos reached).symm
    · exact (if_neg reached).symm
  · exact filled.outside other fun inside => beyond ((further other).mpr (.inl inside))

theorem lower_min_spec (turns : Nat) : ∀ {vector : Vector Value}, Filled vector fresh values →
    vector.start ≤ vector.min - turns → ∃ lowered, Vector.lowerMin turns vector = some lowered ∧
      Filled lowered fresh values ∧ lowered.start = vector.start ∧ lowered.space = vector.space ∧
      lowered.min = vector.min - turns := by
  induction turns with
  | zero =>
    intro vector filled room
    exact ⟨vector, rfl, filled, rfl, rfl, (sub_zero _).symm⟩
  | succ turns ih =>
    intro vector filled room
    obtain ⟨next, reached, after, start, space, min, max⟩ :=
      reach_filled filled (vector.min - 1) (vector.min - 1) vector.max
        (fun other => by omega) (by omega) (by omega) filled.upper
        (fun initialized => by have := filled.range initialized; omega)
    obtain ⟨lowered, rest, finished, starts, spaces, low⟩ := ih after (by omega)
    refine ⟨lowered, ?_, finished, starts.trans start, spaces.trans space, by omega⟩
    rw [Vector.lowerMin, reached]
    exact rest

theorem raise_max_spec (turns : Nat) : ∀ {vector : Vector Value}, Filled vector fresh values →
    vector.max + turns < vector.start + vector.space →
    ∃ raised, Vector.raiseMax turns vector = some raised ∧ Filled raised fresh values ∧
      raised.min = vector.min ∧ raised.max = vector.max + turns := by
  induction turns with
  | zero =>
    intro vector filled room
    exact ⟨vector, rfl, filled, rfl, (add_zero _).symm⟩
  | succ turns ih =>
    intro vector filled room
    have lower := filled.lower
    obtain ⟨next, reached, after, start, space, min, max⟩ :=
      reach_filled filled (vector.max + 1) vector.min (vector.max + 1)
        (fun other => by omega) (by omega) lower (by omega) filled.range
    obtain ⟨raised, rest, finished, low, high⟩ := ih after (by omega)
    refine ⟨raised, ?_, finished, low.trans min, by omega⟩
    rw [Vector.raiseMax, reached]
    exact rest

theorem access_spec (filled : Filled vector fresh values) (index : Int) :
    ∃ reached, vector.access index = some reached ∧ Filled reached fresh values ∧
      reached.min ≤ index ∧ index ≤ reached.max := by
  obtain ⟨front, before⟩ := reserve_front_spec index filled
  obtain ⟨roomy, start, behind⟩ := reserve_back_spec index front
  have lower := roomy.lower
  obtain ⟨lowered, lowers, low, starts, spaces, min⟩ :=
    lower_min_spec (((vector.reserveFront index).reserveBack index).min - index).toNat roomy
      (by omega)
  have upper := low.upper
  obtain ⟨raised, raises, high, same, max⟩ :=
    raise_max_spec (index - lowered.max).toNat low (by omega)
  refine ⟨raised, ?_, high, by omega, by omega⟩
  rw [Vector.access, lowers]
  exact raises

theorem write_filled (filled : Filled vector fresh values)
    (inside : vector.min ≤ index ∧ index ≤ vector.max) (value : Option Value) :
    Filled (vector.write index value) fresh (update values index value) := by
  refine ⟨filled.unset, filled.range, filled.lower, filled.upper, fun other => ?_, fun other beyond => ?_⟩
  · change update vector.entry (index - vector.start) value (other - vector.start) = _
    by_cases same : other = index
    · rw [same, update_self, update_self]
      exact (if_pos inside).symm
    rw [update_of_ne (by omega), update_of_ne same]
    exact filled.cell other
  · rw [update_of_ne fun same => beyond (by rw [same]; exact inside)]
    exact filled.outside other beyond

theorem create_filled (min max block : Int) :
    Filled (create min max block : Vector Value) none fun _ => none := by
  refine ⟨rfl, fun set => absurd set Bool.false_ne_true, le_rfl, ?_, fun other => ?_, fun other _ => rfl⟩
  · change max < min + newSpace min max
    rw [newSpace]
    split_ifs <;> omega
  · exact (ite_self none).symm

theorem create_init_filled {min max : Int} (block : Int) (init : Value) (ordered : min ≤ max) :
    Filled (createInit min max block init) (some init) fun _ => some init := by
  have space : newSpace min max = max - min + 1 := if_neg (by omega)
  refine ⟨rfl, fun _ => ?_, le_rfl, ?_, fun other => ?_, fun other _ => rfl⟩
  · change min ≤ max + 1
    omega
  · change max < min + newSpace min max
    omega
  · change (if 0 ≤ other - min ∧ other - min < newSpace min max then some init else none) =
      if min ≤ other ∧ other ≤ max then some init else none
    rw [space]
    exact if_congr (by omega) rfl rfl

theorem run_spec (accesses : List (Int × Option Value)) :
    ∀ {vector : Vector Value} {current : Int → Value}, Filled vector fresh (fun index => some (current index)) →
      ∃ after, run vector accesses = some after ∧
        Filled after fresh fun index => some (lastWritten (current index) accesses index) := by
  induction accesses with
  | nil =>
    intro vector current filled
    exact ⟨vector, rfl, filled⟩
  | cons access rest ih =>
    obtain ⟨index, written⟩ := access
    intro vector current filled
    obtain ⟨reached, found, before, inside⟩ := access_spec filled index
    rw [run, found]
    rcases written with _ | value
    · obtain ⟨after, finishes, finished⟩ := ih before
      refine ⟨after, finishes, ?_⟩
      convert finished using 3 with other
      exact congrArg (lastWritten · rest other) (ite_self (current other))
    have written : Filled (reached.write index (some value)) fresh
        fun other => some (if index = other then value else current other) := by
      convert write_filled before inside (some value) using 1
      funext other
      rw [update_apply, apply_ite some]
      exact if_congr eq_comm rfl rfl
    exact ih written

theorem agrees_iff [Inhabited Value] {vector : Vector Value} {values : Int → Option Value}
    {index : Int} {value : Value} (filled : Filled vector fresh values) (last : values index = some value) :
    Agrees vector index value ↔ Covered vector index := by
  obtain ⟨reached, found, after, inside⟩ := access_spec filled index
  have cell := after.cell index
  rw [if_pos inside, last] at cell
  have later : ∃ reached, vector.access index = some reached ∧ reached.cell index = some value :=
    ⟨reached, found, cell⟩
  rw [Agrees, Covered, and_iff_left later, Vector.copyAt]
  by_cases inside : vector.min ≤ index ∧ index ≤ vector.max
  · have held : vector.holds index = true :=
      holds_iff.mpr ⟨filled.lower.trans inside.1, inside.2.trans_lt filled.upper⟩
    rw [if_pos held, filled.cell index, if_pos inside]
    exact iff_of_true last (.inl inside)
  have fresh := filled.outside index inside
  rw [last, ← filled.unset, Vector.fresh] at fresh
  cases held : vector.holds index with
  | true =>
    rw [if_pos rfl, filled.cell index, if_neg inside]
    refine iff_of_false (fun unset => ?_) fun either => ?_
    · cases unset
    · obtain within | beyond := either
      · exact inside within
      · cases beyond
  | false =>
    rw [if_neg Bool.false_ne_true]
    cases initialized : vector.initialized with
    | true =>
      rw [initialized, if_pos rfl] at fresh
      exact iff_of_true fresh.symm (.inr rfl)
    | false =>
      rw [initialized, if_neg Bool.false_ne_true] at fresh
      cases fresh

/-- A vector without a logical range keeps nothing when it grows in front. -/
theorem access_front (initialized : vector.initialized = true)
    (start : vector.start = vector.max + 1) (min : vector.min = vector.max + 1)
    (space : vector.space = 1) : ∃ reached, vector.access vector.max = some reached ∧
      reached.holds (vector.max + 1) = true ∧ reached.cell (vector.max + 1) = none := by
  have positive := vector.increment_pos
  have front : vector.reserveFront vector.max = vector.growFront := by
    rw [Vector.reserveFront, if_pos (by omega), Vector.reserveFront, if_neg]
    change ¬ vector.max < vector.start - vector.increment
    omega
  have back : vector.growFront.reserveBack vector.max = vector.growFront := by
    rw [Vector.reserveBack, if_neg]
    change ¬ vector.start - vector.increment + (vector.space + vector.increment) ≤ vector.max
    omega
  have held : Vector.holds { vector.growFront with min := vector.min - 1 } (vector.min - 1) =
      true := by
    rw [holds_iff]
    change vector.start - vector.increment ≤ vector.min - 1 ∧
      vector.min - 1 < vector.start - vector.increment + (vector.space + vector.increment)
    omega
  refine ⟨Vector.write { vector.growFront with min := vector.min - 1 } (vector.min - 1) vector.init,
    ?_, ?_, ?_⟩
  · have one : (vector.growFront.min - vector.max).toNat = 1 := by
      change (vector.min - vector.max).toNat = 1
      omega
    have low : Vector.lowerMin 1 vector.growFront = some
        (Vector.write { vector.growFront with min := vector.min - 1 } (vector.min - 1)
          vector.init) :=
      congrArg (Option.bind · some)
        (@reach_held _ { vector.growFront with min := vector.min - 1 } _ initialized held)
    rw [Vector.access, front, back, one, low]
    change Vector.raiseMax (vector.max - vector.max).toNat _ = _
    rw [sub_self]
    rfl
  · rw [holds_iff]
    change vector.start - vector.increment ≤ vector.max + 1 ∧
      vector.max + 1 < vector.start - vector.increment + (vector.space + vector.increment)
    omega
  · change update (vector.moved vector.increment)
      (vector.min - 1 - (vector.start - vector.increment)) vector.init
      (vector.max + 1 - (vector.start - vector.increment)) = none
    rw [update_of_ne (by omega), Vector.moved, if_neg (by omega)]

end Growth

/-- Which values `copyAt` and the next `at` agree on, after any accesses. -/
theorem copy_at_agrees_iff [Inhabited Value] (min max block : Int) (init : Value) :
    (min ≤ max → ∀ accesses, ∃ vector, run (createInit min max block init) accesses = some vector ∧
      ∀ index, Agrees vector index (lastWritten init accesses index) ↔ Covered vector index) ∧
    (max < min → ∃ accesses index, ¬ ∃ vector,
      run (createInit min max block init) accesses = some vector ∧
        Agrees vector index (lastWritten init accesses index)) := by
  refine ⟨fun ordered accesses => ?_, fun reversed => ?_⟩
  · obtain ⟨vector, runs, filled⟩ := run_spec accesses (create_init_filled block init ordered)
    exact ⟨vector, runs, fun index => agrees_iff filled rfl⟩
  · have space : newSpace min max = 1 := if_pos (by omega)
    by_cases next : max + 1 = min
    · obtain ⟨reached, found, held, lost⟩ :=
        @access_front _ (createInit min max block init) rfl next.symm next.symm space
      change (createInit min max block init).access max = some reached at found
      change reached.holds (max + 1) = true at held
      change reached.cell (max + 1) = none at lost
      refine ⟨[(max, none)], max + 1, ?_⟩
      rintro ⟨vector, runs, copied, -⟩
      rw [run, found] at runs
      cases runs
      rw [Vector.copyAt, if_pos held, lost] at copied
      cases copied
    · have front : (createInit min max block init).reserveFront min =
          createInit min max block init := by
        rw [Vector.reserveFront]
        exact if_neg (lt_irrefl min)
      have back : (createInit min max block init).reserveBack min =
          createInit min max block init := by
        rw [Vector.reserveBack]
        refine if_neg ?_
        change ¬ min + newSpace min max ≤ min
        omega
      have fault : (createInit min max block init).access min = none := by
        obtain ⟨turns, count⟩ : ∃ turns, (min - max).toNat = turns + 1 :=
          ⟨(min - max).toNat - 1, by omega⟩
        have missing : Vector.holds
            { (createInit min max block init) with max := max + 1 } (max + 1) = false := by
          rw [← Bool.not_eq_true, holds_iff]
          change ¬ (min ≤ max + 1 ∧ _)
          omega
        rw [Vector.access, front, back]
        change (Vector.lowerMin (min - min).toNat _).bind _ = _
        rw [sub_self]
        change Vector.raiseMax (min - max).toNat (createInit min max block init) = _
        rw [count]
        exact congrArg (Option.bind · (Vector.raiseMax turns)) (reach_missing rfl missing)
      refine ⟨[(min, none)], min, ?_⟩
      rintro ⟨vector, runs, -⟩
      rw [run, fault] at runs
      cases runs

/-- Index 5 of a vector from 0 to 3 that has grown for index 4. -/
theorem copy_at_unset : ¬ ∀ (accesses : List (Int × Option Int)) index, ∃ vector,
    run (createInit 0 3 4 7) accesses = some vector ∧
      Agrees vector index (lastWritten 7 accesses index) := by
  intro claimed
  obtain ⟨vector, runs, copied, -⟩ := claimed [(4, none)] 5
  rw [run, Vector.access, Vector.reserveFront, if_neg (by decide), Vector.reserveBack,
    if_pos (by decide), Vector.reserveBack, if_neg (by decide)] at runs
  cases runs
  cases copied

end TibiaGame.GrowingVector
