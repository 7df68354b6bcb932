import Mathlib.Data.List.Dedup
import Mathlib.Tactic

/-!
# The first entries of each key

An entry is added behind the others, unless there is one with its key already.
-/

namespace TibiaGame.Library.FirstEntries

open List

universe u v

variable {Entry : Type u} {Key : Type v} [DecidableEq Key] {key : Entry → Key}
  {list front : List Entry} {entry : Entry} {choose : Entry → Bool}

def add (key : Entry → Key) (list : List Entry) (entry : Entry) : List Entry :=
  if key entry ∈ list.map key then list else list ++ [entry]

def firsts (key : Entry → Key) (entries : List Entry) : List Entry := entries.foldl (add key) []

def Distinct (key : Entry → Key) (list : List Entry) : Prop := (list.map key).Nodup

/-- Entries with the same key are chosen together. -/
def ByKey (key : Entry → Key) (choose : Entry → Bool) : Prop :=
  ∀ entry other, key entry = key other → choose entry = choose other

theorem add_known (known : key entry ∈ list.map key) : add key list entry = list := if_pos known

theorem add_new (new : key entry ∉ list.map key) : add key list entry = list ++ [entry] :=
  if_neg new

theorem add_distinct (distinct : Distinct key list) : Distinct key (add key list entry) := by
  unfold add
  split_ifs with known
  · exact distinct
  unfold Distinct
  rw [map_append, map_singleton]
  exact List.Nodup.append distinct (nodup_singleton _)
    (disjoint_singleton.mpr known)

theorem mem_add {value : Key} :
    value ∈ (add key list entry).map key ↔ value ∈ list.map key ∨ value = key entry := by
  unfold add
  split_ifs with known
  · constructor
    · exact Or.inl
    intro either
    rcases either with inside | same
    · exact inside
    · exact same ▸ known
  · rw [map_append, mem_append, map_singleton, mem_singleton]

omit [DecidableEq Key] in
theorem filter_keys (byKey : ByKey key choose) (chosen : choose entry = true) :
    key entry ∈ (list.filter choose).map key ↔ key entry ∈ list.map key := by
  constructor
  · intro inside
    cases mem_map.mp inside with
    | intro other found => exact mem_map.mpr ⟨other, mem_of_mem_filter found.1, found.2⟩
  intro inside
  cases mem_map.mp inside with
  | intro other found =>
    have same := (byKey other entry found.2).trans chosen
    exact mem_map.mpr ⟨other, mem_filter.mpr ⟨found.1, same⟩, found.2⟩

theorem add_filter (byKey : ByKey key choose) (chosen : choose entry = true) :
    (add key list entry).filter choose = add key (list.filter choose) entry := by
  by_cases known : key entry ∈ list.map key
  · rw [add_known known, add_known ((filter_keys byKey chosen).mpr known)]
  rw [add_new known, add_new fun inside => known ((filter_keys byKey chosen).mp inside),
    filter_append, filter_cons_of_pos chosen, filter_nil]

theorem add_filter_other (other : choose entry = false) :
    (add key list entry).filter choose = list.filter choose := by
  unfold add
  split_ifs
  · rfl
  · rw [filter_append, filter_cons_of_neg (by rw [other]; decide), filter_nil,
      append_nil]

omit [DecidableEq Key] in
theorem filter_distinct (distinct : Distinct key list) : Distinct key (list.filter choose) :=
  List.Nodup.sublist (List.Sublist.map key filter_sublist) distinct

omit [DecidableEq Key] in
theorem distinct_front (distinct : Distinct key (front ++ list)) : Distinct key front := by
  unfold Distinct at distinct
  rw [map_append] at distinct
  exact List.Nodup.of_append_left distinct

omit [DecidableEq Key] in
theorem distinct_new (distinct : Distinct key (front ++ entry :: list)) :
    key entry ∉ front.map key := by
  unfold Distinct at distinct
  rw [map_append] at distinct
  intro inside
  exact disjoint_of_nodup_append distinct inside mem_cons_self

/-- Entries that all have a key of their own stay as they are. -/
theorem foldl_add_distinct (distinct : Distinct key (front ++ list)) :
    list.foldl (add key) front = front ++ list := by
  induction list generalizing front with
  | nil => exact (append_nil front).symm
  | cons entry rest ih =>
    have new := distinct_new distinct
    have longer : front ++ entry :: rest = front ++ [entry] ++ rest :=
      append_cons front entry rest
    rw [longer] at distinct
    rw [foldl_cons, add_new new, ih distinct, longer]

theorem foldl_distinct (distinct : Distinct key front) :
    Distinct key (list.foldl (add key) front) := by
  induction list generalizing front with
  | nil => exact distinct
  | cons entry rest ih => exact ih (add_distinct distinct)

theorem mem_foldl {value : Key} :
    value ∈ (list.foldl (add key) front).map key ↔ value ∈ front.map key ∨ value ∈ list.map key := by
  induction list generalizing front with
  | nil =>
    rw [foldl_nil, map_nil, or_iff_left not_mem_nil]
  | cons entry rest ih =>
    rw [foldl_cons, ih, mem_add, map_cons, mem_cons, or_assoc]

theorem firsts_distinct (entries : List Entry) : Distinct key (firsts key entries) :=
  foldl_distinct nodup_nil

theorem mem_firsts {entries : List Entry} {value : Key} :
    value ∈ (firsts key entries).map key ↔ value ∈ entries.map key := by
  rw [firsts, mem_foldl, map_nil, or_iff_right not_mem_nil]

theorem foldl_longer (front list : List Entry) : front <+: list.foldl (add key) front := by
  induction list generalizing front with
  | nil => exact prefix_rfl
  | cons entry rest ih =>
    apply List.IsPrefix.trans _ (ih (add key front entry))
    unfold add
    split_ifs
    · exact prefix_rfl
    · exact prefix_append front [entry]

theorem find_add (byKey : ByKey key choose) :
    (add key list entry).find? choose = (list ++ [entry]).find? choose := by
  by_cases known : key entry ∈ list.map key
  · rw [add_known known, List.find?_append]
    cases found : list.find? choose with
    | some first => rfl
    | none =>
      cases mem_map.mp known with
      | intro other same =>
        have refused := List.find?_eq_none.mp found other same.1
        rw [byKey other entry same.2] at refused
        rw [Option.none_or, List.find?_cons_of_neg refused, List.find?_nil]
  · rw [add_new known]

/-- What is looked for is found among the first entries when it is found at all. -/
theorem find_foldl (byKey : ByKey key choose) :
    (list.foldl (add key) front).find? choose = (front ++ list).find? choose := by
  induction list generalizing front with
  | nil => rw [foldl_nil, append_nil]
  | cons entry rest ih =>
    rw [foldl_cons, ih, List.find?_append, find_add byKey, ← List.find?_append,
      ← append_cons]

theorem find_firsts (byKey : ByKey key choose) (entries : List Entry) :
    (firsts key entries).find? choose = entries.find? choose := by
  rw [firsts, find_foldl byKey, nil_append]

end TibiaGame.Library.FirstEntries
