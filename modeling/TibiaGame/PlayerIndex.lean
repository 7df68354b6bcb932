import TibiaGame.WaitingList
import TibiaGame.Library.FirstEntries

/-!
# The index of the player names

`insert_player_index` and `search_player_index` of `player.cpp`: a tree that branches on one
character of a name after the other, with up to ten entries in a leaf.
-/

namespace TibiaGame.PlayerIndex

open List Function

open TibiaGame.WaitingList (Name key sameName same_name_iff toLower)
open Library.FirstEntries

deriving instance DecidableEq for Name

structure Entry where
  name : Name
  characterId : UInt32

/-- Every character but letters and digits, and the end of the name, has the last number. -/
def getPlayerIndexEntryNumber (name : Name) (position : Nat) : Nat :=
  match name.chars[position]? with
  | none => 36
  | some char =>
      let ch := char.toInt
      if 65 ≤ ch ∧ ch ≤ 90 then (ch - 65).toNat
      else if 97 ≤ ch ∧ ch ≤ 122 then (ch - 97).toNat
      else if 48 ≤ ch ∧ ch ≤ 57 then 26 + (ch - 48).toNat
      else 36

theorem entry_number_lt (name : Name) (position : Nat) :
    getPlayerIndexEntryNumber name position < 37 := by
  unfold getPlayerIndexEntryNumber
  rcases name.chars[position]? with _ | char
  · decide
  dsimp only
  split_ifs <;> omega

/-- The place in `Child`. -/
def childIndex (name : Name) (position : Nat) : Fin 37 :=
  ⟨getPlayerIndexEntryNumber name position, entry_number_lt name position⟩

inductive Node where
  | null
  | leaf (entries : List Entry)
  | internal (child : Fin 37 → Node)

def leafEntries : Nat := 10

abbrev Children := Fin 37 → Node

def noChildren : Children := fun _ => .null

/-- The recursion and the loop of `insert_player_index`, which end if there is a result. -/
def insertPlayerIndex : Nat → Children → Nat → Name → UInt32 → Option Children
  | 0, _, _, _, _ => none
  | fuel + 1, node, position, name, characterId =>
      let index := childIndex name position
      match node index with
      | .null => some (Function.update node index (.leaf [⟨name, characterId⟩]))
      | .internal child =>
          (insertPlayerIndex fuel child (position + 1) name characterId).map fun child =>
            Function.update node index (.internal child)
      | .leaf entries =>
          if name ∈ entries.map Entry.name then some node
          else if entries.length < leafEntries then
            some (Function.update node index (.leaf (entries ++ [⟨name, characterId⟩])))
          else
            (entries.foldlM (fun child entry =>
                insertPlayerIndex fuel child (position + 1) entry.name entry.characterId)
                noChildren).bind fun child =>
              (insertPlayerIndex fuel child (position + 1) name characterId).map fun child =>
                Function.update node index (.internal child)

def insertAll (fuel : Nat) (entries : List Entry) : Option Children :=
  entries.foldlM (fun index entry => insertPlayerIndex fuel index 0 entry.name entry.characterId)
    noChildren

def searchNode (name : Name) : Node → Nat → Option Entry
  | .null, _ => none
  | .leaf entries, _ => entries.find? fun entry => sameName entry.name name
  | .internal child, position => searchNode name (child (childIndex name position)) (position + 1)

def searchPlayerIndex (index : Children) (name : Name) : Option Entry :=
  searchNode name (.internal index) 0

variable {name other : Name} {position fuel : Nat} {characterId : UInt32} {entry : Entry}
  {entries list front : List Entry} {node after : Children}

theorem same_number (same : sameName name other = true) (position : Nat) :
    childIndex name position = childIndex other position := by
  have keys := congrArg (fun chars => chars[position]?) (same_name_iff.mp same)
  simp only [key, List.getElem?_map] at keys
  apply Fin.ext
  show getPlayerIndexEntryNumber name position = getPlayerIndexEntryNumber other position
  unfold getPlayerIndexEntryNumber
  rcases first : name.chars[position]? with _ | char
  · rw [first] at keys
    rcases second : other.chars[position]? with _ | char
    · rfl
    rw [second] at keys
    cases keys
  rw [first] at keys
  rcases second : other.chars[position]? with _ | small
  · rw [second] at keys
    cases keys
  rw [second, Option.map_some, Option.map_some, Option.some.injEq] at keys
  unfold toLower at keys
  dsimp only
  split_ifs at keys ⊢ <;> omega

def sameFrom (position : Nat) (name other : Name) : Bool :=
  (List.range 30).all fun index =>
    decide (childIndex name (position + index) = childIndex other (position + index))

theorem behind_name (behind : 29 ≤ position) :
    childIndex name position = childIndex other position := by
  have first := name.fits
  have second := other.fits
  apply Fin.ext
  show getPlayerIndexEntryNumber name position = getPlayerIndexEntryNumber other position
  unfold getPlayerIndexEntryNumber
  rw [List.getElem?_eq_none (by omega), List.getElem?_eq_none (by omega)]

theorem same_from_iff :
    sameFrom position name other = true ↔
      ∀ later, position ≤ later → childIndex name later = childIndex other later := by
  simp only [sameFrom, all_eq_true, mem_range, decide_eq_true_eq]
  constructor
  · intro near later behind
    by_cases close : later - position < 30
    · have same := near (later - position) close
      rw [Nat.add_sub_of_le behind] at same
      exact same
    · exact behind_name (by omega)
  · intro all index _
    exact all (position + index) (Nat.le_add_right position index)

theorem same_from_step :
    sameFrom position name other =
      (decide (childIndex other position = childIndex name position) &&
        sameFrom (position + 1) name other) := by
  apply Bool.eq_iff_iff.mpr
  rw [Bool.and_eq_true, decide_eq_true_eq, same_from_iff, same_from_iff]
  constructor
  · intro all
    exact ⟨(all position (Nat.le_refl _)).symm, fun later behind => all later (by omega)⟩
  intro both later behind
  by_cases here : later = position
  · rw [here]
    exact both.1.symm
  · exact both.2 later (by omega)

def atChild (position : Nat) (index : Fin 37) (entry : Entry) : Bool :=
  decide (childIndex entry.name position = index)

/-- The entries whose names cannot be told from this one by their numbers. -/
def alike (position : Nat) (name : Name) (entry : Entry) : Bool :=
  sameFrom position name entry.name

theorem at_child_by_key (position : Nat) (index : Fin 37) :
    ByKey Entry.name (atChild position index) := by
  intro entry other same
  unfold atChild
  rw [same]

theorem alike_filter (position : Nat) (name : Name) (list : List Entry) :
    list.filter (alike position name) =
      (list.filter (atChild position (childIndex name position))).filter
        (alike (position + 1) name) := by
  rw [filter_filter]
  apply filter_congr
  intro entry _
  rw [alike, same_from_step, Bool.and_comm]
  rfl

/-- What a node holds that is reached with so many characters: its entries in the order in which
they have been inserted. -/
def Holds : Node → Nat → List Entry → Prop
  | .null, _, list => list = []
  | .leaf entries, _, list => entries = list ∧ list.length ≤ leafEntries
  | .internal child, position, list =>
      ∀ index, Holds (child index) (position + 1) (list.filter (atChild position index))

theorem no_children_holds (position : Nat) : Holds (.internal noChildren) position [] :=
  fun _ => rfl

theorem search_holds {node : Node} (holds : Holds node position list) (name : Name) :
    searchNode name node position = list.find? fun entry => sameName entry.name name := by
  induction node generalizing position list with
  | null =>
    have empty : list = [] := holds
    rw [empty]
    rfl
  | leaf entries =>
    rw [← holds.1]
    rfl
  | internal child ih =>
    rw [searchNode, ih _ (holds _), List.find?_filter]
    congr 1
    funext entry
    apply Bool.eq_iff_iff.mpr
    rw [decide_eq_true_eq]
    constructor
    · exact And.right
    · intro same
      exact ⟨decide_eq_true (same_number same position), same⟩

theorem holds_alike {node : Node} (holds : Holds node position list)
    (known : name ∈ list.map Entry.name) :
    (list.filter (alike position name)).length ≤ leafEntries := by
  induction node generalizing position list with
  | null =>
    have empty : list = [] := holds
    rw [empty] at known
    cases known
  | leaf entries => exact Nat.le_trans (length_filter_le _ _) holds.2
  | internal child ih =>
    rw [alike_filter]
    apply ih _ (holds _)
    rcases mem_map.mp known with ⟨entry, member, same⟩
    have here : atChild position (childIndex name position) entry = true := by
      rw [atChild, same, decide_eq_true rfl]
    exact mem_map.mpr ⟨entry, mem_filter.mpr ⟨member, here⟩, same⟩

theorem update_holds {child : Node} (holds : Holds (.internal node) position list)
    (changed : Holds child (position + 1)
      (add Entry.name (list.filter (atChild position (childIndex entry.name position))) entry)) :
    Holds (.internal (update node (childIndex entry.name position) child)) position
      (add Entry.name list entry) := by
  intro index
  by_cases here : index = childIndex entry.name position
  · rw [here, update_self, add_filter (at_child_by_key _ _) (decide_eq_true rfl)]
    exact changed
  have elsewhere : atChild position index entry = false :=
    decide_eq_false fun same => here same.symm
  rw [update_of_ne here, add_filter_other elsewhere]
  exact holds index

theorem fold_holds
    (step : ∀ node after list (entry : Entry),
      insertPlayerIndex fuel node position entry.name entry.characterId = some after →
        Holds (.internal node) position list → Distinct Entry.name list →
          Holds (.internal after) position (add Entry.name list entry))
    (ended : entries.foldlM (fun child entry =>
      insertPlayerIndex fuel child position entry.name entry.characterId) node = some after)
    (holds : Holds (.internal node) position front) (distinct : Distinct Entry.name front) :
    Holds (.internal after) position (entries.foldl (add Entry.name) front) := by
  induction entries generalizing node front with
  | nil =>
    cases ended
    exact holds
  | cons entry rest ih =>
    rw [foldlM_cons] at ended
    rcases first : insertPlayerIndex fuel node position entry.name entry.characterId with _ | between
    · rw [first] at ended
      cases ended
    rw [first] at ended
    exact ih ended (step node between front entry first holds distinct)
      (add_distinct distinct)

theorem insert_holds
    (ended : insertPlayerIndex fuel node position entry.name entry.characterId = some after)
    (holds : Holds (.internal node) position list) (distinct : Distinct Entry.name list) :
    Holds (.internal after) position (add Entry.name list entry) := by
  induction fuel generalizing node position list entry after with
  | zero => cases ended
  | succ fuel ih =>
    have below := holds (childIndex entry.name position)
    have apart : Distinct Entry.name
        (list.filter (atChild position (childIndex entry.name position))) :=
      filter_distinct distinct
    unfold insertPlayerIndex at ended
    dsimp only at ended
    cases place : node (childIndex entry.name position) with
    | null =>
      rw [place] at ended below
      have empty : list.filter (atChild position (childIndex entry.name position)) = [] := below
      cases ended
      apply update_holds holds
      rw [empty, add_new not_mem_nil]
      exact ⟨rfl, show 1 ≤ 10 by decide⟩
    | internal child =>
      rw [place] at ended below
      rcases Option.map_eq_some_iff.mp ended with ⟨grown, inserted, same⟩
      rw [← same]
      exact update_holds holds (ih inserted below apart)
    | leaf entries =>
      rw [place] at ended below
      dsimp only at ended
      by_cases known : entry.name ∈ entries.map Entry.name
      · rw [if_pos known] at ended
        cases ended
        rw [below.1, filter_keys (at_child_by_key _ _) (decide_eq_true rfl)] at known
        rw [add_known known]
        exact holds
      rw [if_neg known] at ended
      by_cases room : entries.length < leafEntries
      · rw [if_pos room] at ended
        cases ended
        apply update_holds holds
        rw [← below.1, add_new known]
        refine ⟨rfl, ?_⟩
        rw [length_append, length_singleton]
        exact room
      rw [if_neg room] at ended
      rcases Option.bind_eq_some_iff.mp ended with ⟨split, moved, rest⟩
      rcases Option.map_eq_some_iff.mp rest with ⟨grown, inserted, same⟩
      rw [← same]
      have again := fold_holds
        (fun node after list entry ended holds distinct => ih ended holds distinct)
        moved (no_children_holds (position + 1)) nodup_nil
      rw [← below.1] at apart
      rw [foldl_add_distinct apart, nil_append, below.1] at again
      rw [below.1] at apart
      exact update_holds holds (ih inserted again apart)

theorem fold_more {index after : Children} {first second : Children → Entry → Option Children}
    (more : ∀ node entry after, first node entry = some after → second node entry = some after)
    (ended : entries.foldlM first index = some after) :
    entries.foldlM second index = some after := by
  induction entries generalizing index with
  | nil => exact ended
  | cons entry rest ih =>
    rw [foldlM_cons] at ended ⊢
    rcases between : first index entry with _ | next
    · rw [between] at ended
      cases ended
    rw [between] at ended
    rw [more index entry next between]
    exact ih ended

theorem insert_more
    (ended : insertPlayerIndex fuel node position name characterId = some after) :
    insertPlayerIndex (fuel + 1) node position name characterId = some after := by
  induction fuel generalizing node position name characterId after with
  | zero => cases ended
  | succ fuel ih =>
    unfold insertPlayerIndex at ended ⊢
    dsimp only at ended ⊢
    cases place : node (childIndex name position) with
    | null =>
      rw [place] at ended
      exact ended
    | internal child =>
      rw [place] at ended
      rcases Option.map_eq_some_iff.mp ended with ⟨grown, inserted, same⟩
      dsimp only
      rw [ih inserted, Option.map_some, same]
    | leaf entries =>
      rw [place] at ended
      dsimp only at ended ⊢
      by_cases known : name ∈ entries.map Entry.name
      · rw [if_pos known] at ended ⊢
        exact ended
      rw [if_neg known] at ended ⊢
      by_cases room : entries.length < leafEntries
      · rw [if_pos room] at ended ⊢
        exact ended
      rw [if_neg room] at ended ⊢
      rcases Option.bind_eq_some_iff.mp ended with ⟨split, moved, rest⟩
      rcases Option.map_eq_some_iff.mp rest with ⟨grown, inserted, same⟩
      rw [fold_more (fun node entry after ended => ih ended) moved, Option.bind_some,
        ih inserted, Option.map_some, same]

theorem insert_le {more : Nat}
    (ended : insertPlayerIndex fuel node position name characterId = some after)
    (le : fuel ≤ more) : insertPlayerIndex more node position name characterId = some after := by
  induction le with
  | refl => exact ended
  | step _ ih => exact insert_more ih

def Ends (node : Children) (position : Nat) (name : Name) (characterId : UInt32) : Prop :=
  ∃ fuel after, insertPlayerIndex fuel node position name characterId = some after

def Shallow (node : Children) : Prop := ∀ index child, node index ≠ .internal child

theorem shallow_update {index : Fin 37} (shallow : Shallow node) :
    Shallow (update node index (.leaf entries)) := by
  intro place child
  by_cases here : place = index
  · rw [here, update_self]
    nofun
  rw [update_of_ne here]
  exact shallow place child

theorem shallow_insert (shallow : Shallow node) (holds : Holds (.internal node) position list)
    (few : list.length < leafEntries) :
    ∃ after, insertPlayerIndex 1 node position name characterId = some after ∧ Shallow after := by
  have below := holds (childIndex name position)
  have fewer := length_filter_le (atChild position (childIndex name position)) list
  unfold insertPlayerIndex
  dsimp only
  cases place : node (childIndex name position) with
  | null => exact ⟨_, rfl, shallow_update shallow⟩
  | internal child => exact absurd place (shallow _ child)
  | leaf entries =>
    rw [place] at below
    dsimp only
    by_cases known : name ∈ entries.map Entry.name
    · rw [if_pos known]
      exact ⟨node, rfl, shallow⟩
    rw [if_neg known, if_pos (by rw [below.1]; omega)]
    exact ⟨_, rfl, shallow_update shallow⟩

theorem shallow_fold (shallow : Shallow node) (holds : Holds (.internal node) position front)
    (distinct : Distinct Entry.name (front ++ entries))
    (few : (front ++ entries).length ≤ leafEntries) :
    ∃ after, entries.foldlM (fun child entry =>
        insertPlayerIndex 1 child position entry.name entry.characterId) node = some after ∧
      Shallow after ∧ Holds (.internal after) position (front ++ entries) := by
  induction entries generalizing node front with
  | nil =>
    rw [append_nil]
    exact ⟨node, rfl, shallow, holds⟩
  | cons entry rest ih =>
    have longer := append_cons front entry rest
    have room : front.length < leafEntries := by
      rw [length_append, length_cons] at few
      omega
    rcases @shallow_insert entry.name position entry.characterId front node shallow holds room with
      ⟨after, inserted, still⟩
    have held := insert_holds inserted holds (distinct_front distinct)
    rw [add_new (distinct_new distinct)] at held
    rw [longer] at distinct few
    rcases ih still held distinct few with ⟨last, moved, result⟩
    rw [longer, foldlM_cons, inserted]
    exact ⟨last, moved, result⟩

theorem split_ends (place : node (childIndex name position) = .leaf entries)
    (new : name ∉ entries.map Entry.name) (full : entries.length = leafEntries)
    (distinct : Distinct Entry.name entries)
    (below : ∀ split, Shallow split → Holds (.internal split) (position + 1) entries →
      Ends split (position + 1) name characterId) : Ends node position name characterId := by
  rcases @shallow_fold (position + 1) entries [] noChildren
    (fun index child impossible => by cases impossible) (no_children_holds _) distinct
    (Nat.le_of_eq full) with ⟨split, moved, shallow, holds⟩
  rcases below split shallow holds with ⟨fuel, grown, inserted⟩
  have enough : 1 ≤ max 1 fuel := Nat.le_max_left 1 fuel
  have moved_more : entries.foldlM (fun child entry =>
      insertPlayerIndex (max 1 fuel) child (position + 1) entry.name entry.characterId)
      noChildren = some split := fold_more (fun node entry after ended => insert_le ended enough) moved
  refine ⟨max 1 fuel + 1, update node (childIndex name position) (.internal grown), ?_⟩
  unfold insertPlayerIndex
  dsimp only
  rw [place]
  dsimp only
  rw [if_neg new, if_neg (by rw [full]; exact Nat.lt_irrefl _), moved_more, Option.bind_some,
    insert_le inserted (Nat.le_max_right 1 fuel), Option.map_some]

theorem null_ends (place : node (childIndex name position) = .null) :
    Ends node position name characterId := by
  refine ⟨1, update node (childIndex name position) (.leaf [⟨name, characterId⟩]), ?_⟩
  unfold insertPlayerIndex
  dsimp only
  rw [place]

theorem leaf_ends (holds : Holds (.internal node) position list)
    (place : node (childIndex name position) = .leaf entries)
    (split : name ∉ entries.map Entry.name → entries.length = leafEntries →
      entries = list.filter (atChild position (childIndex name position)) →
      Ends node position name characterId) : Ends node position name characterId := by
  have below := holds (childIndex name position)
  rw [place] at below
  by_cases known : name ∈ entries.map Entry.name
  · refine ⟨1, node, ?_⟩
    unfold insertPlayerIndex
    dsimp only
    rw [place]
    exact if_pos known
  by_cases room : entries.length < leafEntries
  · refine ⟨1, update node (childIndex name position)
      (.leaf (entries ++ [⟨name, characterId⟩])), ?_⟩
    unfold insertPlayerIndex
    dsimp only
    rw [place]
    dsimp only
    rw [if_neg known, if_pos room]
  have most := below.2
  rw [← below.1] at most
  exact split known (Nat.le_antisymm most (Nat.not_lt.mp room)) below.1

/-- One of the entries differs from the name at a later position, so that the splits come to an end
there. -/
theorem shallow_ends (gap : Nat) (shallow : Shallow node)
    (holds : Holds (.internal node) position list) (distinct : Distinct Entry.name list)
    (few : list.length ≤ leafEntries)
    (differs : ∃ entry ∈ list,
      childIndex entry.name (position + gap) ≠ childIndex name (position + gap)) :
    Ends node position name characterId := by
  induction gap generalizing node position list with
  | zero =>
    cases place : node (childIndex name position) with
    | null => exact null_ends place
    | internal child => exact absurd place (shallow _ child)
    | leaf entries =>
      apply leaf_ends holds place
      intro _ full same
      rcases differs with ⟨entry, member, different⟩
      have all := length_filter_eq_length_iff.mp
        (Nat.le_antisymm (length_filter_le _ _) (by rw [← same, full]; exact few))
      exact absurd (of_decide_eq_true (all entry member)) different
  | succ gap ih =>
    cases place : node (childIndex name position) with
    | null => exact null_ends place
    | internal child => exact absurd place (shallow _ child)
    | leaf entries =>
      apply leaf_ends holds place
      intro new full same
      have whole : entries = list := by
        rw [same]
        apply filter_eq_self.mpr
        exact length_filter_eq_length_iff.mp
          (Nat.le_antisymm (length_filter_le _ _) (by rw [← same, full]; exact few))
      rw [← whole] at distinct few differs
      have later : position + 1 + gap = position + (gap + 1) := by omega
      apply split_ends place new full distinct
      intro split leaves held
      rw [← later] at differs
      exact ih leaves held distinct few differs

/-- Among ten entries there is one that differs from the name, or the name would be the eleventh
that cannot be told from them. -/
theorem one_differs (place : entries = list.filter (atChild position (childIndex name position)))
    (new : name ∉ entries.map Entry.name) (full : entries.length = leafEntries)
    (few : ((add Entry.name list ⟨name, characterId⟩).filter (alike position name)).length ≤
      leafEntries) :
    ∃ gap, ∃ entry ∈ entries,
      childIndex entry.name (position + 1 + gap) ≠ childIndex name (position + 1 + gap) := by
  by_contra none_differs
  have all : entries.filter (alike (position + 1) name) = entries := by
    apply filter_eq_self.mpr
    intro entry member
    apply same_from_iff.mpr
    intro later behind
    by_contra different
    apply none_differs
    refine ⟨later - (position + 1), entry, member, ?_⟩
    rw [Nat.add_sub_of_le behind]
    exact fun same => different same.symm
  have absent : name ∉ list.map Entry.name := by
    rw [place, @filter_keys _ _ Entry.name list ⟨name, characterId⟩ _ (at_child_by_key _ _)
      (decide_eq_true rfl)] at new
    exact new
  have itself : alike position name ⟨name, characterId⟩ = true :=
    same_from_iff.mpr fun _ _ => rfl
  have longer : (add Entry.name list ⟨name, characterId⟩).filter (alike position name) =
      entries ++ [⟨name, characterId⟩] := by
    rw [add_new absent, filter_append, alike_filter, ← place, all,
      filter_cons_of_pos itself, filter_nil]
  rw [longer, length_append, length_singleton, full] at few
  exact Nat.not_succ_le_self _ few

theorem insert_ends {tree : Node} (root : tree = .internal node)
    (holds : Holds (.internal node) position list) (distinct : Distinct Entry.name list)
    (few : ((add Entry.name list ⟨name, characterId⟩).filter (alike position name)).length ≤
      leafEntries) : Ends node position name characterId := by
  induction tree generalizing node position list with
  | null => cases root
  | leaf entries => cases root
  | internal child ih =>
    cases root
    cases place : child (childIndex name position) with
    | null => exact null_ends place
    | leaf entries =>
      apply leaf_ends holds place
      intro new full same
      have apart : Distinct Entry.name entries := by
        rw [same]
        exact filter_distinct distinct
      rcases one_differs same new full few with ⟨gap, differs⟩
      apply split_ends place new full apart
      intro split leaves held
      exact shallow_ends gap leaves held apart (Nat.le_of_eq full) differs
    | internal grown =>
      have below := holds (childIndex name position)
      rw [place] at below
      have here : atChild position (childIndex name position) ⟨name, characterId⟩ = true :=
        decide_eq_true rfl
      rw [alike_filter, add_filter (at_child_by_key _ _) here] at few
      rcases ih (childIndex name position) place below (filter_distinct distinct) few with
        ⟨fuel, after, inserted⟩
      refine ⟨fuel + 1, update child (childIndex name position) (.internal after), ?_⟩
      unfold insertPlayerIndex
      dsimp only
      rw [place]
      dsimp only
      rw [inserted, Option.map_some]

/-- The names that cannot be told from this one by the numbers of their characters. -/
def indistinguishable (names : List Name) (name : Name) : List Name :=
  names.dedup.filter (sameFrom 0 name)

theorem indistinguishable_length (entries : List Entry) (name : Name) :
    (indistinguishable (entries.map Entry.name) name).length =
      ((firsts Entry.name entries).filter (alike 0 name)).length := by
  have same : (entries.map Entry.name).dedup.Perm ((firsts Entry.name entries).map Entry.name) := by
    apply (perm_ext_iff_of_nodup (nodup_dedup _) (firsts_distinct entries)).mpr
    intro value
    rw [mem_dedup, mem_firsts]
  rw [indistinguishable, (same.filter _).length_eq, filter_map, length_map]
  rfl

/-- Every insertion ends as long as a leaf has room for all names that cannot be told apart. -/
theorem all_end (holds : Holds (.internal node) 0 front) (distinct : Distinct Entry.name front)
    (few : ∀ name ∈ (entries.foldl (add Entry.name) front).map Entry.name,
      ((entries.foldl (add Entry.name) front).filter (alike 0 name)).length ≤ leafEntries) :
    ∃ fuel after, entries.foldlM (fun index entry =>
      insertPlayerIndex fuel index 0 entry.name entry.characterId) node = some after := by
  induction entries generalizing node front with
  | nil => exact ⟨0, node, rfl⟩
  | cons entry rest ih =>
    have whole := @foldl_longer _ _ _ Entry.name (add Entry.name front entry) rest
    have inside : entry.name ∈ (rest.foldl (add Entry.name)
        (add Entry.name front entry)).map Entry.name :=
      mem_foldl.mpr (Or.inl (mem_add.mpr (Or.inr rfl)))
    have first := Nat.le_trans
      (List.Sublist.filter (alike 0 entry.name) whole.sublist).length_le (few _ inside)
    rcases insert_ends rfl holds distinct first with ⟨fuel, after, inserted⟩
    rcases ih (insert_holds inserted holds distinct) (add_distinct distinct) few with
      ⟨more, last, moved⟩
    refine ⟨max fuel more, last, ?_⟩
    rw [foldlM_cons, insert_le inserted (Nat.le_max_left fuel more)]
    exact fold_more (fun node entry after ended => insert_le ended (Nat.le_max_right fuel more))
      moved

/-- All insertions end, and a search finds the first entry whose name is the same but for small and
capital letters. -/
def IndexFinds (entries : List Entry) : Prop :=
  ∃ fuel index, insertAll fuel entries = some index ∧
    ∀ name, searchPlayerIndex index name = entries.find? fun entry => sameName entry.name name

theorem same_name_by_key (name : Name) : ByKey Entry.name fun entry => sameName entry.name name := by
  intro entry other same
  dsimp only
  rw [same]

theorem index_holds {index : Children} (ended : insertAll fuel entries = some index) :
    Holds (.internal index) 0 (firsts Entry.name entries) :=
  fold_holds (fun _ _ _ _ => insert_holds) ended (no_children_holds 0) nodup_nil

theorem index_few (finds : IndexFinds entries) (known : name ∈ entries.map Entry.name) :
    (indistinguishable (entries.map Entry.name) name).length ≤ leafEntries := by
  rcases finds with ⟨fuel, index, ended, _⟩
  rw [indistinguishable_length]
  exact holds_alike (index_holds ended) (mem_firsts.mpr known)

/-- The index works as long as there are at most ten different names that only differ in the case
of letters and in characters that are neither letters nor digits. -/
theorem index_finds_iff (entries : List Entry) :
    IndexFinds entries ↔
      ∀ name ∈ entries.map Entry.name,
        (indistinguishable (entries.map Entry.name) name).length ≤ leafEntries := by
  constructor
  · intro finds name known
    exact index_few finds known
  · intro few
    have room : ∀ name ∈ (firsts Entry.name entries).map Entry.name,
        ((firsts Entry.name entries).filter (alike 0 name)).length ≤ leafEntries := by
      intro name known
      rw [← indistinguishable_length]
      exact few name (mem_firsts.mp known)
    rcases all_end (no_children_holds 0) nodup_nil room with ⟨fuel, index, ended⟩
    refine ⟨fuel, index, ended, ?_⟩
    intro name
    rw [searchPlayerIndex, search_holds (index_holds ended)]
    exact find_firsts (same_name_by_key name) entries

theorem separated_chars (index : Fin 11) : 0 ∉ [97, Int8.ofNat (32 + index.val), 98] := by
  revert index
  decide

/-- Eleven names of two letters with different characters between them. -/
def separatedEntries : List Entry :=
  (List.finRange 11).map fun (index : Fin 11) =>
    ⟨⟨[97, Int8.ofNat (32 + index.val), 98], separated_chars index, show 3 < 30 by decide⟩,
      UInt32.ofNat (index.val + 1)⟩

/-- The leaf of these names is split again and again. -/
theorem separated_names_never_end : ¬IndexFinds separatedEntries := by
  intro finds
  have some_name : ∃ name ∈ separatedEntries.map Entry.name,
      leafEntries < (indistinguishable (separatedEntries.map Entry.name) name).length := by
    decide +kernel
  rcases some_name with ⟨name, known, many⟩
  exact absurd (index_few finds known) (Nat.not_le.mpr many)

end TibiaGame.PlayerIndex
