import Mathlib.Tactic

/-!
# Windows of a stream in a circular array

The elements of an unbounded stream are kept in an array of `size` cells, the
element with number `index` in the cell `slot size base index`. Only a window of
the last elements is there at a time; a window of at most `size` elements has
every element in a cell of its own.
-/

namespace TibiaGame.Library.CircularWindow

open List

variable {Cell : Type*} {size base start : Nat} {cells cells' : Nat → Cell} {stream : List Cell}

def slot (size base index : Nat) : Nat := (base + index) % size

theorem slot_ne (size base index other : Nat) (less : index < other) (near : other < index + size) :
    slot size base index ≠ slot size base other := by
  intro same
  have multiple : size ∣ other - index := by
    have difference := (Nat.modEq_iff_dvd' (Nat.add_le_add_left (Nat.le_of_lt less) base)).1 same
    simpa only [Nat.add_sub_add_left] using difference
  have bound := Nat.le_of_dvd (Nat.sub_pos_of_lt less) multiple
  omega

/-- The cells behind the cell of an element, up to the end of the array and on from its start. -/
theorem slot_add (size base index offset : Nat) (short : offset < size) :
    slot size base (index + offset) =
      if slot size base index + offset < size then slot size base index + offset
      else slot size base index + offset - size := by
  have below : slot size base index < size := Nat.mod_lt _ (by omega)
  have split : slot size base (index + offset) = (slot size base index + offset) % size := by
    simp only [slot, ← Nat.add_assoc, Nat.mod_add_mod]
  rw [split]
  split_ifs with inside
  · exact Nat.mod_eq_of_lt inside
  · rw [Nat.mod_eq_sub_mod (by omega)]
    exact Nat.mod_eq_of_lt (by omega)

/-- The stream from `start` on lies in the array. -/
structure Window (size base : Nat) (cells : Nat → Cell) (stream : List Cell) (start : Nat) :
    Prop where
  fits : stream.length ≤ start + size
  held : ∀ index, start ≤ index → index < stream.length →
    stream[index]? = some (cells (slot size base index))

/-- Elements of the front may be given up. -/
theorem Window.advance (window : Window size base cells stream start) (later : Nat)
    (behind : start ≤ later) : Window size base cells stream later where
  fits := window.fits.trans (Nat.add_le_add_right behind size)
  held := fun index inside => window.held index (behind.trans inside)

/-- Elements of the end may be given up as well. -/
theorem Window.restrict {front back : List Cell}
    (window : Window size base cells (front ++ back) start) : Window size base cells front start where
  fits := by
    have whole := window.fits
    rw [length_append] at whole
    omega
  held := by
    intro index inside bound
    have whole := window.held index inside (by rw [length_append]; omega)
    rwa [List.getElem?_append_left bound] at whole

section

variable (window : Window size base cells stream start)
include window

/-- Cells outside of the window may change. -/
theorem Window.frame (same : ∀ index, start ≤ index → index < stream.length →
      cells' (slot size base index) = cells (slot size base index)) :
    Window size base cells' stream start where
  fits := window.fits
  held := by
    intro index inside bound
    rw [same index inside bound]
    exact window.held index inside bound

/-- Elements that lie behind the window become part of it. -/
theorem Window.append (added : List Cell) (fits : stream.length + added.length ≤ start + size)
    (written : ∀ offset, offset < added.length →
      added[offset]? = some (cells (slot size base (stream.length + offset)))) :
    Window size base cells (stream ++ added) start where
  fits := by rwa [length_append]
  held := by
    intro index inside bound
    rw [length_append] at bound
    rcases Nat.lt_or_ge index stream.length with old | new
    · rw [List.getElem?_append_left old]
      exact window.held index inside old
    rw [List.getElem?_append_right new, written (index - stream.length) (by omega)]
    congr 3
    omega

theorem Window.read (count : Nat) (inside : start + count ≤ stream.length) :
    (List.range count).map (fun offset => cells (slot size base (start + offset))) =
      (stream.drop start).take count := by
  apply ext_getElem?
  intro offset
  rcases Nat.lt_or_ge offset count with bound | beyond
  · have held := window.held (start + offset) (Nat.le_add_right _ _) (by omega)
    rw [List.getElem?_map, List.getElem?_range bound, List.getElem?_take_of_lt bound,
      List.getElem?_drop, held]
    rfl
  rw [List.getElem?_eq_none (by simpa using beyond)]
  rw [List.getElem?_eq_none (by simp only [length_take]; omega)]

end

section Copying

/-- Consecutive cells from `offset` on get the elements of a list. -/
def copyInto (cells : Nat → Cell) (offset : Nat) (elements : List Cell) : Nat → Cell :=
  fun place =>
    if offset ≤ place then (elements[place - offset]?).getD (cells place) else cells place

def copyFrom (cells : Nat → Cell) (offset count : Nat) : List Cell :=
  (List.range count).map fun place => cells (offset + place)

theorem copy_into_inside (cells : Nat → Cell) (offset : Nat) (elements : List Cell) (place : Nat)
    (bound : place < elements.length) :
    some (copyInto cells offset elements (offset + place)) = elements[place]? := by
  have index : offset + place - offset = place := by omega
  rw [copyInto, if_pos (Nat.le_add_right _ _), index, List.getElem?_eq_getElem bound]
  rfl

theorem copy_into_outside (cells : Nat → Cell) (offset : Nat) (elements : List Cell) (place : Nat)
    (outside : place < offset ∨ offset + elements.length ≤ place) :
    copyInto cells offset elements place = cells place := by
  unfold copyInto
  split_ifs with behind
  · rw [List.getElem?_eq_none (by omega)]
    rfl
  · rfl

theorem slot_before_end (size base index offset : Nat) (inside : slot size base index + offset < size) :
    slot size base (index + offset) = slot size base index + offset := by
  rw [slot_add size base index offset (by omega), if_pos inside]

theorem slot_past_end (size base index offset : Nat) (short : offset < size)
    (past : size ≤ slot size base index + offset) :
    slot size base (index + offset) = offset - (size - slot size base index) := by
  have below : slot size base index < size := Nat.mod_lt _ (by omega)
  rw [slot_add size base index offset short, if_neg (by omega)]
  omega

/-- The first `count` of the elements lie in the cells from `index` on. -/
def Filled (size base : Nat) (cells : Nat → Cell) (index : Nat) (elements : List Cell)
    (count : Nat) : Prop :=
  ∀ offset, offset < count → elements[offset]? = some (cells (slot size base (index + offset)))

variable {index : Nat} {elements : List Cell}

/-- The piece up to the end of the array. -/
theorem filled_head (count : Nat) (short : count ≤ elements.length)
    (inside : slot size base index + count ≤ size) :
    Filled size base (copyInto cells (slot size base index) (elements.take count)) index elements
      count := by
  intro offset bound
  have written := copy_into_inside cells (slot size base index) (elements.take count) offset
    (by simp only [length_take]; omega)
  rw [slot_before_end size base index offset (by omega), written]
  exact (List.getElem?_take_of_lt bound).symm

/-- The piece from the start of the array. -/
theorem filled_tail (count : Nat) (rest : count = size - slot size base index)
    (short : elements.length ≤ size) (below : slot size base index < size)
    (head : Filled size base cells index elements count) :
    Filled size base (copyInto cells 0 (elements.drop count)) index elements elements.length := by
  intro offset bound
  rcases Nat.lt_or_ge offset count with before | behind
  · have place := slot_before_end size base index offset (by omega)
    rw [head offset before, copy_into_outside]
    right
    simp only [length_drop, place]
    omega
  have place := slot_past_end size base index offset (by omega) (by omega)
  have written := copy_into_inside cells 0 (elements.drop count) (offset - count)
    (by simp only [length_drop]; omega)
  rw [Nat.zero_add] at written
  rw [place, ← rest, written, List.getElem?_drop]
  congr 1
  omega

variable (window : Window size base cells stream start)
include window

/-- A copy into cells behind the window does not touch the window. -/
theorem Window.copy_behind (place count : Nat) (fits : stream.length + count ≤ start + size)
    (behind : ∀ offset, offset < elements.length → ∃ ahead, ahead < count ∧
      place + offset = slot size base (stream.length + ahead)) :
    Window size base (copyInto cells place elements) stream start := by
  apply window.frame
  intro index inside bound
  apply copy_into_outside
  by_contra touched
  obtain ⟨ahead, near, same⟩ := behind (slot size base index - place) (by omega)
  apply slot_ne size base index (stream.length + ahead) (by omega) (by omega)
  omega

theorem Window.copy_head (count : Nat) (fits : stream.length + count ≤ start + size)
    (short : elements.length ≤ count)
    (inside : slot size base stream.length + elements.length ≤ size) :
    Window size base (copyInto cells (slot size base stream.length) elements) stream start := by
  apply window.copy_behind _ count fits
  intro offset bound
  refine ⟨offset, by omega, ?_⟩
  exact (slot_before_end size base stream.length offset (by omega)).symm

theorem Window.copy_tail (count head : Nat) (fits : stream.length + count ≤ start + size)
    (inWindow : start ≤ stream.length) (cut : head = size - slot size base stream.length)
    (short : head + elements.length ≤ count) (positive : 0 < size) :
    Window size base (copyInto cells 0 elements) stream start := by
  have below : slot size base stream.length < size := Nat.mod_lt _ positive
  apply window.copy_behind _ count fits
  intro offset bound
  refine ⟨head + offset, by omega, ?_⟩
  rw [slot_past_end size base stream.length (head + offset) (by omega) (by omega)]
  omega

theorem Window.read_head (count : Nat) (inside : start + count ≤ stream.length)
    (straight : slot size base start + count ≤ size) :
    copyFrom cells (slot size base start) count = (stream.drop start).take count := by
  rw [← window.read count inside]
  apply map_congr_left
  intro offset member
  have bound := mem_range.1 member
  rw [slot_before_end size base start offset (by omega)]

theorem Window.read_tail (head count : Nat) (cut : head = size - slot size base start)
    (inside : start + (head + count) ≤ stream.length) (positive : 0 < size) :
    (stream.drop start).take head ++ copyFrom cells 0 count =
      (stream.drop start).take (head + count) := by
  have below : slot size base start < size := Nat.mod_lt _ positive
  have fits := window.fits
  rw [take_add, drop_drop]
  congr 1
  have later := (window.advance (start + head) (Nat.le_add_right _ _)).read count (by omega)
  rw [← later]
  apply map_congr_left
  intro offset member
  have bound := mem_range.1 member
  have place := slot_past_end size base start (head + offset) (by omega) (by omega)
  rw [Nat.add_assoc, place]
  congr 1
  omega

end Copying

end TibiaGame.Library.CircularWindow
