import Mathlib.Data.List.GetD
import Mathlib.Tactic

/-!
# Memory with rows of values

Rows of values are stored at a place of a memory and loaded from it. What is stored can be loaded
again, and what lies in front of it or behind it stays as it was.
-/

namespace TibiaGame.Library.ByteMemory

open List

universe u

variable {Value : Type u}

def store (memory : Nat → Value) (start : Nat) (values : List Value) : Nat → Value := fun place =>
  if start ≤ place then values.getD (place - start) (memory place) else memory place

def load (memory : Nat → Value) (start count : Nat) : List Value :=
  (List.range count).map fun index => memory (start + index)

variable {memory other : Nat → Value} {start place count more : Nat} {values : List Value}

@[simp] theorem load_length : (load memory start count).length = count := by
  rw [load, length_map, length_range]

theorem load_congr (same : ∀ index < count, memory (start + index) = other (start + index)) :
    load memory start count = load other start count := by
  apply map_congr_left
  intro index member
  exact same index (mem_range.mp member)

theorem load_add :
    load memory start (count + more) =
      load memory start count ++ load memory (start + count) more := by
  simp only [load, range_add, map_append, map_map]
  congr 1
  apply map_congr_left
  intro index _
  rw [Function.comp_apply, Nat.add_assoc]

theorem load_store : load (store memory start values) start values.length = values := by
  apply ext_getElem
  · exact load_length
  intro index _ inside
  simp only [load, getElem_map, getElem_range]
  rw [store, if_pos (Nat.le_add_right start index), Nat.add_sub_cancel_left,
    getD_eq_getElem _ _ inside]

theorem load_store_apart (apart : place + count ≤ start ∨ start + values.length ≤ place) :
    load (store memory start values) place count = load memory place count := by
  apply load_congr
  intro index inside
  unfold store
  split_ifs with after
  · rw [getD_eq_default _ _ (by omega)]
  · rfl

/-- What is stored behind a row that has been loaded makes it longer. -/
theorem load_store_append :
    load (store memory (start + count) values) start (count + values.length) =
      load memory start count ++ values := by
  rw [load_add, load_store, load_store_apart (Or.inl (Nat.le_refl _))]

end TibiaGame.Library.ByteMemory
