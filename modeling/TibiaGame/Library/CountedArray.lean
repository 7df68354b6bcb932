import Mathlib.Tactic

/-!
# Arrays with a count

An array of which only the first `count` entries are in use. What lies behind them is
left over from earlier use and is never read. An entry is taken out by moving the last one
into its place.
-/

namespace TibiaGame.Library.CountedArray

open Function List

variable {Entry : Type*}

structure Counted (Entry : Type*) where
  entry : Nat → Entry
  count : Nat

def Counted.Has (array : Counted Entry) (value : Entry) : Prop :=
  ∃ index < array.count, array.entry index = value

def Counted.Distinct (array : Counted Entry) : Prop :=
  ∀ left < array.count, ∀ right < array.count, array.entry left = array.entry right → left = right

def Counted.add (array : Counted Entry) (value : Entry) : Counted Entry where
  entry := Function.update array.entry array.count value
  count := array.count + 1

def Counted.swapAndPop (array : Counted Entry) (index : Nat) : Counted Entry where
  entry := Function.update array.entry index (array.entry (array.count - 1))
  count := array.count - 1

section Search

variable [DecidableEq Entry]

/-- The place of the first entry in use with this value. -/
def Counted.find (array : Counted Entry) (value : Entry) : Option Nat :=
  (List.range array.count).find? fun index => array.entry index == value

def Counted.contains (array : Counted Entry) (value : Entry) : Bool := (array.find value).isSome

def Counted.remove (array : Counted Entry) (value : Entry) : Counted Entry :=
  match array.find value with
  | none => array
  | some index => array.swapAndPop index

end Search

variable {array : Counted Entry} {value other : Entry} {index : Nat}

theorem has_of_index (within : index < array.count) : array.Has (array.entry index) :=
  ⟨index, within, rfl⟩

theorem has_nothing (empty : array.count = 0) : ¬ array.Has value := by
  intro has
  rcases has with ⟨index, within, _⟩
  rw [empty] at within
  cases within

theorem distinct_nothing (empty : array.count = 0) : array.Distinct := by
  intro left within
  rw [empty] at within
  cases within

theorem add_old (within : index < array.count) : (array.add value).entry index = array.entry index :=
  update_of_ne (Nat.ne_of_lt within) _ _

theorem add_new : (array.add value).entry array.count = value := update_self _ _ _

theorem has_add : (array.add value).Has other ↔ array.Has other ∨ other = value := by
  constructor
  · intro has
    rcases has with ⟨index, within, same⟩
    rcases Nat.lt_or_eq_of_le (Nat.le_of_lt_succ within) with old | fresh
    · rw [add_old old] at same
      exact Or.inl ⟨index, old, same⟩
    rw [fresh, add_new] at same
    exact Or.inr same.symm
  intro either
  rcases either with has | same
  · rcases has with ⟨index, within, same⟩
    exact ⟨index, Nat.lt_succ_of_lt within, (add_old within).trans same⟩
  rw [same]
  exact ⟨array.count, Nat.lt_succ_self _, add_new⟩

theorem distinct_add (distinct : array.Distinct) (absent : ¬ array.Has value) :
    (array.add value).Distinct := by
  intro left leftWithin right rightWithin same
  rcases Nat.lt_or_eq_of_le (Nat.le_of_lt_succ leftWithin) with leftOld | leftNew
  · rcases Nat.lt_or_eq_of_le (Nat.le_of_lt_succ rightWithin) with rightOld | rightNew
    · rw [add_old leftOld, add_old rightOld] at same
      exact distinct left leftOld right rightOld same
    rw [rightNew, add_old leftOld, add_new] at same
    exact absurd ⟨left, leftOld, same⟩ absent
  rcases Nat.lt_or_eq_of_le (Nat.le_of_lt_succ rightWithin) with rightOld | rightNew
  · rw [leftNew, add_old rightOld, add_new] at same
    exact absurd ⟨right, rightOld, same.symm⟩ absent
  · rw [leftNew, rightNew]

/-- The entries after a removal, by where they were before it. -/
theorem popped_from (index place : Nat) :
    (array.swapAndPop index).entry place =
      array.entry (if place = index then array.count - 1 else place) := by
  split_ifs with here
  · rw [here]
    exact update_self _ _ _
  · exact update_of_ne here _ _

theorem has_popped (distinct : array.Distinct) (within : index < array.count) :
    (array.swapAndPop index).Has other ↔ array.Has other ∧ other ≠ array.entry index := by
  constructor
  · intro has
    rcases has with ⟨place, inside, same⟩
    have below : place < array.count - 1 := inside
    rw [popped_from] at same
    rw [← same]
    split_ifs with here
    · refine ⟨has_of_index (by omega), ?_⟩
      intro again
      have lastHere := distinct _ (by omega) _ within again
      omega
    · refine ⟨has_of_index (by omega), ?_⟩
      intro again
      exact here (distinct _ (by omega) _ within again)
  intro both
  rcases both with ⟨⟨place, inside, same⟩, different⟩
  have notHere : place ≠ index := by
    intro here
    rw [here] at same
    exact different same.symm
  by_cases last : place = array.count - 1
  · refine ⟨index, ?_, ?_⟩
    · change index < array.count - 1
      omega
    · rw [popped_from, if_pos rfl, ← last]
      exact same
  refine ⟨place, ?_, ?_⟩
  · change place < array.count - 1
    omega
  · rw [popped_from, if_neg notHere]
    exact same

theorem distinct_popped (distinct : array.Distinct) (within : index < array.count) :
    (array.swapAndPop index).Distinct := by
  intro left leftWithin right rightWithin same
  have leftBelow : left < array.count - 1 := leftWithin
  have rightBelow : right < array.count - 1 := rightWithin
  rw [popped_from, popped_from] at same
  have places := distinct _ (by split_ifs <;> omega) _ (by split_ifs <;> omega) same
  split_ifs at places <;> omega

section Removal

variable [DecidableEq Entry]

theorem find_some (found : array.find value = some index) :
    index < array.count ∧ array.entry index = value := by
  constructor
  · exact mem_range.mp (mem_of_find?_eq_some found)
  · have same := List.find?_some found
    exact beq_iff_eq.mp same

theorem find_none (missing : array.find value = none) : ¬ array.Has value := by
  intro has
  rcases has with ⟨index, within, same⟩
  have passed := List.find?_eq_none.mp missing index (mem_range.mpr within)
  exact passed (beq_iff_eq.mpr same)

theorem contains_iff : array.contains value = true ↔ array.Has value := by
  rw [Counted.contains]
  rcases found : array.find value with _ | index
  · exact iff_of_false Bool.false_ne_true (find_none found)
  have here := find_some found
  exact iff_of_true rfl ⟨index, here⟩

theorem has_remove (distinct : array.Distinct) :
    (array.remove value).Has other ↔ array.Has other ∧ other ≠ value := by
  rw [Counted.remove]
  rcases found : array.find value with _ | index
  · constructor
    · intro has
      refine ⟨has, ?_⟩
      intro same
      rw [same] at has
      exact find_none found has
    · exact And.left
  have here := find_some found
  rw [has_popped distinct here.1, here.2]

theorem distinct_remove (distinct : array.Distinct) : (array.remove value).Distinct := by
  rw [Counted.remove]
  cases found : array.find value with
  | none => exact distinct
  | some index => exact distinct_popped distinct (find_some found).1

end Removal

/-- An entry is taken out in order: each of the next `length` entries moves one place down. -/
def closeUp (entry : Nat → Entry) (index : Nat) : Nat → Nat → Entry
  | 0 => entry
  | length + 1 =>
      Function.update (closeUp entry index length) (index + length)
        (closeUp entry index length (index + length + 1))

theorem close_up_at (entry : Nat → Entry) (index length place : Nat) :
    closeUp entry index length place =
      if index ≤ place ∧ place < index + length then entry (place + 1) else entry place := by
  induction length generalizing place with
  | zero =>
    rw [closeUp, if_neg]
    omega
  | succ length ih =>
    by_cases last : place = index + length
    · rw [closeUp, last, update_self, ih, if_neg (by omega), if_pos (by omega)]
    rw [closeUp, update_of_ne last, ih]
    split_ifs
    · rfl
    · omega
    · omega
    · rfl

/-- The entries in use, without the one that is taken out. -/
theorem close_up_row (entry : Nat → Entry) {index count : Nat} (within : index < count) :
    (List.range (count - 1)).map (closeUp entry index (count - 1 - index)) =
      ((List.range count).map entry).eraseIdx index := by
  apply ext_getElem
  · rw [length_eraseIdx_of_lt (by simpa using within)]
    simp
  intro place inside _
  rw [length_map, length_range] at inside
  rw [getElem_map, getElem_range, close_up_at, getElem_eraseIdx]
  split_ifs
  all_goals first
    | omega
    | simp

/-- The entries in use. -/
def Counted.row (array : Counted Entry) : List Entry := (List.range array.count).map array.entry

theorem mem_row : value ∈ array.row ↔ array.Has value := by
  simp only [Counted.row, mem_map, mem_range, Counted.Has]

/-- Each other entry is in use once as before. -/
theorem row_popped (within : index < array.count) :
    array.row.Perm (array.entry index :: (array.swapAndPop index).row) := by
  obtain ⟨last, counted⟩ : ∃ last, array.count = last + 1 := ⟨array.count - 1, by omega⟩
  have whole : array.row = (List.range last).map array.entry ++ [array.entry last] := by
    rw [Counted.row, counted, range_succ, map_append]
    rfl
  have popped : (array.swapAndPop index).row =
      (List.range last).map (update array.entry index (array.entry last)) := by
    rw [Counted.row, Counted.swapAndPop, counted]
    rfl
  rw [whole, popped]
  by_cases here : index = last
  · have untouched : (List.range last).map (update array.entry index (array.entry last)) =
        (List.range last).map array.entry := by
      apply map_congr_left
      intro place member
      apply update_of_ne
      rw [here]
      exact Nat.ne_of_lt (mem_range.mp member)
    rw [untouched, here]
    exact perm_append_singleton _ _
  have inside : index < ((List.range last).map array.entry).length := by
    rw [length_map, length_range]
    omega
  have replaced : (List.range last).map (update array.entry index (array.entry last)) =
      ((List.range last).map array.entry).set index (array.entry last) := by
    apply ext_getElem
    · simp only [length_map, length_set]
    intro place _ _
    rw [getElem_set, getElem_map, getElem_map, getElem_range,
      update_apply]
    split_ifs <;> first | rfl | omega
  have entry_here : ((List.range last).map array.entry)[index] = array.entry index := by
    rw [getElem_map, getElem_range]
  rw [replaced]
  have set := set_perm_cons_eraseIdx inside (array.entry last)
  have old := getElem_cons_eraseIdx_perm inside
  rw [entry_here] at old
  apply (perm_append_singleton _ _).trans
  apply (old.symm.cons (array.entry last)).trans
  apply (List.Perm.swap _ _ _).trans
  exact (set.symm.cons (array.entry index))

end TibiaGame.Library.CountedArray
