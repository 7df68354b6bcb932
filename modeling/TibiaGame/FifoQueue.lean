import TibiaGame.Library.CircularWindow

/-!
# The fifo

`fifo` of `containers.h`. `head` and `tail` count on without end, and an element stands in the cell
of its number modulo the size. A cell that nothing has been written to has no value.
-/

namespace TibiaGame.FifoQueue

open Library.CircularWindow List Function

structure Fifo (Value : Type*) where
  entry : Nat → Option Value
  size : Nat
  head : Int
  tail : Int

variable {Value : Type*}

def create (initialSize : Nat) : Fifo Value := ⟨fun _ => none, initialSize, -1, 0⟩

namespace Fifo

variable (fifo : Fifo Value)

def place (size : Nat) (index : Int) : Nat := (index % size).toNat

def cell (index : Int) : Option Value := fifo.entry (place fifo.size index)

/-- What the pointer of `next` points to, and `none` for `NULL`. -/
def next : Option (Option Value) :=
  if fifo.tail ≤ fifo.head then some (fifo.cell fifo.tail) else none

/-- The array of `append` after so many turns of its loop. -/
def copied (newSize : Nat) : Nat → Nat → Option Value
  | 0 => fun _ => none
  | turns + 1 =>
      Function.update (copied newSize turns) (place newSize (fifo.tail + turns))
        (fifo.cell (fifo.tail + turns))

def grown : Fifo Value :=
  { fifo with
    entry := fifo.copied (fifo.size * 2) (fifo.head - fifo.tail + 1).toNat
    size := fifo.size * 2 }

/-- The fifo and the cell that `append` returns; `none` when an `int` overflows. -/
def append : Option (Fifo Value × Nat) :=
  let room : Option (Fifo Value) :=
    if fifo.head - fifo.tail + 1 = fifo.size then
      if fifo.size * 2 < 2 ^ 31 then some fifo.grown else none
    else some fifo
  room.bind fun room =>
    if room.head + 1 < 2 ^ 31 then
      some ({ room with head := room.head + 1 }, place room.size (room.head + 1))
    else none

/-- `append` and the write to the cell that it returns. -/
def push (value : Value) : Option (Fifo Value) :=
  fifo.append.map fun appended =>
    { appended.1 with entry := Function.update appended.1.entry appended.2 (some value) }

def remove : Fifo Value :=
  if fifo.head < fifo.tail then fifo else { fifo with tail := fifo.tail + 1 }

def iterFirst : Int := fifo.head

def iterLast : Int := fifo.tail

/-- What the returned pointer points to and the new position. -/
def iterNext (position : Int) : Option (Option Value × Int) :=
  if position < fifo.tail ∨ fifo.head < position then none
  else some (fifo.cell position, position - 1)

def iterPrev (position : Int) : Option (Option Value × Int) :=
  if position < fifo.tail ∨ fifo.head < position then none
  else some (fifo.cell position, position + 1)

end Fifo

/-- What an iterator gives from a position on until it returns `NULL`. -/
inductive Enumerates (iter : Int → Option (Option Value × Int)) : Int → List (Option Value) → Prop
  | done {position : Int} : iter position = none → Enumerates iter position []
  | more {position after : Int} {value : Option Value} {rest : List (Option Value)} :
      iter position = some (value, after) → Enumerates iter after rest →
      Enumerates iter position (value :: rest)

inductive Operation (Value : Type*) where
  | append (value : Value)
  | remove
  | next

def step (fifo : Fifo Value) : Operation Value → Option (Fifo Value)
  | .append value => fifo.push value
  | .remove => some fifo.remove
  | .next => some fifo

def run (fifo : Fifo Value) (operations : List (Operation Value)) : Option (Fifo Value) :=
  operations.foldlM step fifo

/-- The elements that have not been removed, the oldest one first. -/
def elements : List Value → List (Operation Value) → List Value
  | before, [] => before
  | before, .append value :: rest => elements (before ++ [value]) rest
  | before, .remove :: rest => elements before.tail rest
  | before, .next :: rest => elements before rest

def appends : List (Operation Value) → Nat
  | [] => 0
  | .append _ :: rest => appends rest + 1
  | _ :: rest => appends rest

/-- `next` and both iterators give the elements. -/
structure Serves (fifo : Fifo Value) (elements : List Value) : Prop where
  oldest : fifo.next = elements.head?.map some
  newestFirst : Enumerates fifo.iterNext fifo.iterFirst (elements.reverse.map some)
  oldestFirst : Enumerates fifo.iterPrev fifo.iterLast (elements.map some)

/-- An append meets a full array that is too large to be doubled. -/
def Overflows (fifo : Fifo Value) (operations : List (Operation Value)) : Prop :=
  ∃ before value after reached, operations = before ++ .append value :: after ∧
    run fifo before = some reached ∧ reached.head - reached.tail + 1 = reached.size ∧
    2 ^ 31 ≤ reached.size * 2

/-- The fifo has the elements of the stream from `removed` on. -/
structure Holds (fifo : Fifo Value) (stream : List Value) (removed : Nat) : Prop where
  head : fifo.head = stream.length - 1
  tail : fifo.tail = removed
  behind : removed ≤ stream.length
  positive : 0 < fifo.size
  window : Window fifo.size 0 fifo.entry (stream.map some) removed

section Cells

variable {fifo : Fifo Value} {stream : List Value} {removed : Nat}

theorem place_slot (size index : Nat) : Fifo.place size index = slot size 0 index := by
  rw [Fifo.place, slot, ← Int.natCast_mod, Int.toNat_natCast, Nat.zero_add]

theorem Holds.cell (holds : Holds fifo stream removed) {index : Nat} (inside : removed ≤ index)
    (bound : index < stream.length) : stream[index]?.map some = some (fifo.cell index) := by
  have held := holds.window.held index inside (by rwa [length_map])
  rw [List.getElem?_map] at held
  rw [Fifo.cell, place_slot]
  exact held

theorem copied_cell {newSize turns offset : Nat} (copied : offset < turns) (fits : turns ≤ newSize)
    (tail : fifo.tail = removed) :
    fifo.copied newSize turns (slot newSize 0 (removed + offset)) = fifo.cell (removed + offset) := by
  induction turns with
  | zero => omega
  | succ turns ih =>
    have last : Fifo.place newSize (fifo.tail + turns) = slot newSize 0 (removed + turns) := by
      rw [tail, ← place_slot, Nat.cast_add]
    rw [Fifo.copied, last]
    rcases Nat.lt_or_ge offset turns with before | same
    · rw [update_of_ne (slot_ne newSize 0 _ _ (by omega) (by omega))]
      exact ih before (by omega)
    have here : offset = turns := by omega
    rw [here, update_self, tail]

theorem grown_holds (holds : Holds fifo stream removed) : Holds fifo.grown stream removed where
  head := holds.head
  tail := holds.tail
  behind := holds.behind
  positive := Nat.mul_pos holds.positive two_pos
  window := by
    have fits := holds.window.fits
    have head := holds.head
    have tail := holds.tail
    rw [length_map] at fits
    refine ⟨by rw [length_map]; change _ ≤ removed + fifo.size * 2; omega, ?_⟩
    intro index inside bound
    rw [length_map] at bound
    obtain ⟨offset, rfl⟩ := Nat.exists_eq_add_of_le inside
    rw [List.getElem?_map, holds.cell inside bound]
    refine congrArg some (copied_cell ?_ ?_ tail).symm
    · omega
    · omega

theorem write_holds (holds : Holds fifo stream removed) (room : stream.length < removed + fifo.size)
    (value : Value) : Holds { fifo with
      head := fifo.head + 1
      entry := update fifo.entry (Fifo.place fifo.size (fifo.head + 1)) (some value) }
      (stream ++ [value]) removed := by
  have last : Fifo.place fifo.size (fifo.head + 1) = slot fifo.size 0 stream.length := by
    rw [holds.head, sub_add_cancel, place_slot]
  have behind := holds.behind
  refine ⟨?_, holds.tail, ?_, holds.positive, ?_⟩
  · rw [length_append, length_singleton, Nat.cast_add, Nat.cast_one, add_sub_cancel_right]
    change fifo.head + 1 = stream.length
    rw [holds.head, sub_add_cancel]
  · rw [length_append]
    omega
  · rw [map_append, last]
    have kept : Window fifo.size 0
        (update fifo.entry (slot fifo.size 0 stream.length) (some value))
        (stream.map some) removed := by
      apply holds.window.frame
      intro index inside bound
      rw [length_map] at bound
      exact update_of_ne (slot_ne fifo.size 0 _ _ bound (by omega)) ..
    apply kept.append
    · rw [length_map]
      exact room
    intro offset bound
    have first : offset = 0 := Nat.lt_one_iff.mp bound
    rw [first, length_map, Nat.add_zero, update_self]
    rfl

/-- An append, unless a full fifo is too large to be doubled. -/
theorem push_holds (holds : Holds fifo stream removed) (fewer : stream.length < 2 ^ 31)
    (value : Value) : (∃ after, fifo.push value = some after ∧ Holds after (stream ++ [value]) removed) ∨
      fifo.head - fifo.tail + 1 = fifo.size ∧ 2 ^ 31 ≤ fifo.size * 2 := by
  have head := holds.head
  have tail := holds.tail
  have fits := holds.window.fits
  have positive := holds.positive
  rw [length_map] at fits
  have number : fifo.head + 1 < 2 ^ 31 := by omega
  by_cases full : fifo.head - fifo.tail + 1 = fifo.size
  · by_cases small : fifo.size * 2 < 2 ^ 31
    · refine .inl ⟨_, ?_, write_holds (grown_holds holds) ?_ value⟩
      · rw [Fifo.push, Fifo.append, if_pos full, if_pos small]
        exact congrArg _ (if_pos number)
      · change stream.length < removed + fifo.size * 2
        omega
    · exact .inr ⟨full, not_lt.mp small⟩
  refine .inl ⟨_, ?_, write_holds holds ?_ value⟩
  · rw [Fifo.push, Fifo.append, if_neg full]
    exact congrArg _ (if_pos number)
  · omega

theorem remove_holds (holds : Holds fifo stream removed) : ∃ later,
    Holds fifo.remove stream later ∧ stream.drop later = (stream.drop removed).tail := by
  have head := holds.head
  have tail := holds.tail
  rw [Fifo.remove]
  by_cases empty : fifo.head < fifo.tail
  · rw [if_pos empty]
    refine ⟨removed, holds, ?_⟩
    rw [drop_eq_nil_of_le (by omega)]
    rfl
  rw [if_neg empty]
  refine ⟨removed + 1, ⟨head, ?_, by omega, holds.positive, ?_⟩, ?_⟩
  · exact congrArg (· + 1) tail
  · exact holds.window.advance (removed + 1) (Nat.le_succ removed)
  · rw [tail_drop]

theorem iter_prev_enumerates (holds : Holds fifo stream removed) (count : Nat) :
    ∀ index, removed ≤ index → index + count = stream.length →
      Enumerates fifo.iterPrev index ((stream.drop index).map some) := by
  have head := holds.head
  have tail := holds.tail
  induction count with
  | zero =>
    intro index inside last
    rw [drop_eq_nil_of_le (by omega)]
    exact .done (if_pos (.inr (by omega)))
  | succ count ih =>
    intro index inside last
    have bound : index < stream.length := by omega
    have cell := holds.cell inside bound
    rw [List.getElem?_eq_getElem bound] at cell
    rw [drop_eq_getElem_cons bound, map_cons, Option.some.inj cell]
    refine .more (if_neg (by omega)) ?_
    exact_mod_cast ih (index + 1) (by omega) (by omega)

theorem iter_next_enumerates (holds : Holds fifo stream removed) (count : Nat) :
    removed + count ≤ stream.length → Enumerates fifo.iterNext (removed + count - 1)
      (((stream.drop removed).take count).reverse.map some) := by
  have head := holds.head
  have tail := holds.tail
  induction count with
  | zero =>
    intro _
    exact .done (if_pos (.inl (by omega)))
  | succ count ih =>
    intro last
    have bound : removed + count < stream.length := by omega
    have cell := holds.cell (Nat.le_add_right removed count) bound
    rw [List.getElem?_eq_getElem bound] at cell
    have further : (stream.drop removed).take (count + 1) =
        (stream.drop removed).take count ++ [stream[removed + count]] := by
      rw [take_add_one, List.getElem?_drop, List.getElem?_eq_getElem bound]
      rfl
    have position : (removed + (count + 1 : Nat) - 1 : Int) = (removed + count : Nat) := by
      push_cast
      ring
    rw [further, reverse_append, reverse_singleton, singleton_append,
      map_cons, Option.some.inj cell, position]
    refine .more (if_neg (by omega)) ?_
    exact_mod_cast ih (by omega)

theorem Holds.serves (holds : Holds fifo stream removed) : Serves fifo (stream.drop removed) where
  oldest := by
    have head := holds.head
    have tail := holds.tail
    rw [Fifo.next]
    rcases Nat.lt_or_ge removed stream.length with inside | behind
    · have cell := holds.cell le_rfl inside
      rw [if_pos (by omega), List.head?_drop, tail, cell]
    rw [if_neg (by omega), drop_eq_nil_of_le behind]
    rfl
  newestFirst := by
    have behind := holds.behind
    have newest := iter_next_enumerates holds (stream.length - removed) (by omega)
    rw [take_of_length_le (by rw [length_drop])] at newest
    have position : fifo.iterFirst = removed + (stream.length - removed : Nat) - 1 := by
      rw [Fifo.iterFirst, holds.head]
      omega
    rw [position]
    exact newest
  oldestFirst := by
    rw [Fifo.iterLast, holds.tail]
    exact iter_prev_enumerates holds (stream.length - removed) removed le_rfl
      (Nat.add_sub_cancel' holds.behind)

end Cells

theorem overflows_cons {fifo next : Fifo Value} {operation : Operation Value}
    {rest : List (Operation Value)} (steps : step fifo operation = some next)
    (later : Overflows next rest) : Overflows fifo (operation :: rest) := by
  obtain ⟨before, value, after, reached, rfl, runs, full, large⟩ := later
  refine ⟨operation :: before, value, after, reached, rfl, ?_, full, large⟩
  rw [run, foldlM_cons, steps]
  exact runs

theorem run_holds (operations : List (Operation Value)) :
    ∀ {fifo : Fifo Value} {stream : List Value} {removed : Nat}, Holds fifo stream removed →
      stream.length + appends operations < 2 ^ 31 →
      (∃ after, run fifo operations = some after ∧
        Serves after (elements (stream.drop removed) operations)) ∨ Overflows fifo operations := by
  induction operations with
  | nil =>
    intro fifo stream removed holds fewer
    exact .inl ⟨fifo, rfl, holds.serves⟩
  | cons operation rest ih =>
    intro fifo stream removed holds fewer
    have onward {next : Fifo Value} (steps : step fifo operation = some next)
        {content : List Value} (follows : (∃ after, run next rest = some after ∧
          Serves after content) ∨ Overflows next rest) :
        (∃ after, run fifo (operation :: rest) = some after ∧ Serves after content) ∨
          Overflows fifo (operation :: rest) := by
      refine follows.imp (fun ⟨after, runs, serves⟩ => ⟨after, ?_, serves⟩) (overflows_cons steps)
      rw [run, foldlM_cons, steps]
      exact runs
    cases operation with
    | append value =>
      change stream.length + (appends rest + 1) < 2 ^ 31 at fewer
      obtain ⟨next, pushes, later⟩ | ⟨full, large⟩ := push_holds holds (by omega) value
      · have follows := ih later (by rw [length_append, length_singleton]; omega)
        rw [drop_append_of_le_length holds.behind] at follows
        exact onward pushes follows
      · exact .inr ⟨[], value, rest, fifo, rfl, rfl, full, large⟩
    | remove =>
      obtain ⟨later, holding, same⟩ := remove_holds holds
      have follows := ih holding fewer
      rw [same] at follows
      exact onward rfl follows
    | next => exact onward rfl (ih holds fewer)

theorem fifo_run (initialSize : Nat) (operations : List (Operation Value))
    (positive : 0 < initialSize) (fewer : appends operations < 2 ^ 31) :
    (∃ fifo, run (create initialSize) operations = some fifo ∧
      Serves fifo (elements [] operations)) ∨ Overflows (create initialSize) operations := by
  have start : Holds (create initialSize : Fifo Value) [] 0 :=
    ⟨rfl, rfl, le_rfl, positive, ⟨Nat.zero_le _, fun _ _ bound => absurd bound (Nat.not_lt_zero _)⟩⟩
  exact run_holds operations start (by rw [length_nil]; omega)

theorem fifo_run_doubled :
    (∃ fifo, run (create 1) [.append 'a', .append 'b', .remove, .append 'c', .append 'd'] =
      some fifo ∧ Serves fifo ['b', 'c', 'd']) ∨
    Overflows (create 1) [.append 'a', .append 'b', .remove, .append 'c', .append 'd'] :=
  fifo_run 1 _ one_pos (by decide)

theorem filled (initialSize : Nat) (small : initialSize < 2 ^ 31) (value : Value) (count : Nat) :
    count ≤ initialSize → ∃ fifo, run (create initialSize)
      (List.replicate count (.append value)) = some fifo ∧ fifo.size = initialSize ∧
        fifo.head = count - 1 ∧ fifo.tail = 0 := by
  induction count with
  | zero =>
    intro _
    exact ⟨create initialSize, rfl, rfl, rfl, rfl⟩
  | succ count ih =>
    intro room
    obtain ⟨fifo, runs, size, head, tail⟩ := ih (by omega)
    have number : fifo.head + 1 < 2 ^ 31 := by omega
    have short : ¬ fifo.head - fifo.tail + 1 = fifo.size := by omega
    have pushes : ∃ after, fifo.push value = some after ∧ after.size = fifo.size ∧
        after.head = fifo.head + 1 ∧ after.tail = fifo.tail := by
      rw [Fifo.push, Fifo.append, if_neg short]
      exact ⟨_, congrArg _ (if_pos number), rfl, rfl, rfl⟩
    obtain ⟨after, pushed, sizes, heads, tails⟩ := pushes
    refine ⟨after, ?_, sizes.trans size, by push_cast; omega, tails.trans tail⟩
    rw [run] at runs ⊢
    rw [replicate_succ', foldlM_append, runs]
    simp only [Option.bind_eq_bind, Option.bind_some, foldlM_cons, step, pushed,
      foldlM_nil]
    rfl

theorem appends_replicate (value : Value) (count : Nat) :
    appends (List.replicate count (.append value)) = count := by
  induction count with
  | zero => rfl
  | succ count ih => rw [replicate_succ, appends, ih]

/-- One more element than fits into a fifo of 2 ^ 30 elements. -/
theorem fifo_overflow : ¬ ∀ (initialSize : Nat) (operations : List (Operation Char)),
    0 < initialSize → appends operations < 2 ^ 31 →
    ∃ fifo, run (create initialSize) operations = some fifo ∧
      Serves fifo (elements [] operations) := by
  intro claimed
  have positive : 0 < 2 ^ 30 := by omega
  obtain ⟨fifo, runs, size, head, tail⟩ :=
    filled (2 ^ 30) (by omega) 'a' (2 ^ 30) le_rfl
  obtain ⟨after, finishes, -⟩ := claimed (2 ^ 30) (List.replicate (2 ^ 30 + 1) (.append 'a'))
    positive (by rw [appends_replicate]; omega)
  have full : fifo.head - fifo.tail + 1 = fifo.size := by omega
  have large : ¬ fifo.size * 2 < 2 ^ 31 := by omega
  have fails : fifo.push 'a' = none := by
    rw [Fifo.push, Fifo.append, if_pos full, if_neg large]
    rfl
  rw [run] at runs finishes
  rw [replicate_succ', foldlM_append, runs] at finishes
  simp only [Option.bind_eq_bind, Option.bind_some, foldlM_cons, step, fails,
    Option.bind_none] at finishes
  cases finishes

end TibiaGame.FifoQueue
