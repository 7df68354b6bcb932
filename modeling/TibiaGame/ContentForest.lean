import TibiaGame.ObjectOperations
import TibiaGame.Library.OrderedForest

/-!
# Content lists as a forest

An object holds the list that starts at its `CONTENT` attribute and continues
along `NextObject`; each member points back through `Container`. The lists are
described by the forest of their members, and every change of a link is one of
putting a loose object into a list, taking one out, or a change that no list sees.
-/

namespace TibiaGame.ContentForest

open GameTypes ObjectStore Library.LinkedList Library.OrderedForest Function

variable {cfg : GameConfig}

abbrev Records (cfg : GameConfig) := Object → Option (MapObject cfg)

def nextOf (records : Records cfg) (obj : Object) : Object :=
  ((records obj).map MapObject.nextObject).getD NONE

def containerOf (records : Records cfg) (obj : Object) : Option Object :=
  (records obj).map MapObject.container

def holdsOf (records : Records cfg) (obj : Object) : Option Bool :=
  (records obj).map fun record => record.type.holdsObjects

def contentOf (records : Records cfg) (obj : Object) : Option Object :=
  (records obj).map MapObject.content

/-- `kids con` is the content list of `con`. A loose object is in no list and has no
next object. -/
structure Forest (records : Records cfg) (kids : Object → List Object) : Prop where
  none_dead : records NONE = none
  chain : ∀ con first, holdsOf records con = some true → contentOf records con = some first →
    Chain NONE (nextOf records) first (kids con)
  barren : ∀ con, holdsOf records con ≠ some true → kids con = []
  member : ∀ con obj, obj ∈ kids con ↔ con ≠ NONE ∧ containerOf records obj = some con
  nodup : ∀ con, (kids con).Nodup
  ranked : Ranked kids
  loose_next : ∀ obj, containerOf records obj = some NONE → nextOf records obj = NONE

section Facts

theorem last_in_front {list front back : List Object} (split : list = front ++ back)
    (some_front : front ≠ []) : lastOf NONE front ∈ list := by
  rw [split]
  cases front with
  | nil => exact (some_front rfl).elim
  | cons node rest => exact List.mem_append_left _ (last_of_mem node rest)

variable {records newRecords : Records cfg} {kids newKids : Object → List Object}
  {obj con other : Object}

variable (forest : Forest records kids)
include forest

theorem Forest.single : SingleParent kids := by
  intro parent other child edge edge'
  have here := ((forest.member _ _).mp edge).2
  have there := ((forest.member _ _).mp edge').2
  rw [here] at there
  exact Option.some.inj there

theorem Forest.parent_holds (edge : obj ∈ kids con) : holdsOf records con = some true := by
  by_contra plain
  rw [forest.barren con plain] at edge
  cases edge

theorem Forest.kid_live (edge : obj ∈ kids con) :
    ∃ record, records obj = some record ∧ record.container = con :=
  Option.map_eq_some_iff.mp ((forest.member con obj).mp edge).2

theorem Forest.kid_ne_none (edge : obj ∈ kids con) : obj ≠ NONE := by
  rcases forest.kid_live edge with ⟨record, live, _⟩
  rintro rfl
  rw [forest.none_dead] at live
  cases live

theorem Forest.orphan (loose : containerOf records obj = some NONE) (con : Object) :
    obj ∉ kids con := by
  intro edge
  rcases (forest.member con obj).mp edge with ⟨notNone, here⟩
  rw [loose] at here
  exact notNone (Option.some.inj here).symm

theorem Forest.container_congr (newForest : Forest newRecords newKids)
    (same : ∀ con, obj ∈ newKids con ↔ obj ∈ kids con)
    (alive : (newRecords obj).isSome = (records obj).isSome) :
    containerOf newRecords obj = containerOf records obj := by
  rcases old : containerOf records obj with _ | con
  · rw [containerOf, Option.map_eq_none_iff] at old
    rw [old, Option.isSome_none, Option.isSome_eq_false_iff, Option.isNone_iff_eq_none] at alive
    rw [containerOf, alive]
    rfl
  by_cases loose : con = NONE
  · rcases new : containerOf newRecords obj with _ | newCon
    · rw [containerOf, Option.map_eq_none_iff] at new
      rcases Option.map_eq_some_iff.mp old with ⟨record, live, _⟩
      rw [new, live] at alive
      cases alive
    by_cases newLoose : newCon = NONE
    · rw [loose, newLoose]
    have edge := (same newCon).mp ((newForest.member newCon obj).mpr ⟨newLoose, new⟩)
    have back := ((forest.member newCon obj).mp edge).2
    rw [← back, old]
  have edge := (same con).mpr ((forest.member con obj).mpr ⟨loose, old⟩)
  exact ((newForest.member con obj).mp edge).2

theorem Forest.frame (next : ∀ node, nextOf newRecords node = nextOf records node)
    (container : ∀ node, containerOf newRecords node = containerOf records node)
    (holds : ∀ node, holdsOf newRecords node = holdsOf records node)
    (content : ∀ node, holdsOf records node = some true →
      contentOf newRecords node = contentOf records node) : Forest newRecords kids where
  none_dead := by
    have here := container NONE
    rw [containerOf, containerOf, forest.none_dead] at here
    exact Option.map_eq_none_iff.mp here
  chain := by
    intro con first isHolder start
    rw [holds] at isHolder
    rw [content con isHolder] at start
    apply chain_congr (forest.chain con first isHolder start)
    intro node _
    exact next node
  barren := by
    intro con plain
    rw [holds] at plain
    exact forest.barren con plain
  member := by
    intro con obj
    rw [container]
    exact forest.member con obj
  nodup := forest.nodup
  ranked := forest.ranked
  loose_next := by
    intro node loose
    rw [container] at loose
    rw [next]
    exact forest.loose_next node loose

theorem Forest.loose (notNone : obj ≠ NONE) (wasLoose : ∀ con, obj ∉ kids con)
    (empty : kids obj = []) (others : ∀ node, node ≠ obj → newRecords node = records node)
    (isLoose : ∀ record, newRecords obj = some record → record.container = NONE ∧
      record.nextObject = NONE ∧ (record.type.holdsObjects = true → record.content = NONE)) :
    Forest newRecords kids where
  none_dead := by
    rw [others NONE notNone.symm]
    exact forest.none_dead
  chain := by
    intro con first isHolder start
    by_cases here : con = obj
    · subst here
      rcases Option.map_eq_some_iff.mp start with ⟨record, live, rfl⟩
      have holds : record.type.holdsObjects = true := by
        rw [holdsOf, live] at isHolder
        exact Option.some.inj isHolder
      rw [empty]
      exact (isLoose record live).2.2 holds
    rw [holdsOf, others con here] at isHolder
    rw [contentOf, others con here] at start
    apply chain_congr (forest.chain con first isHolder start)
    intro node inside
    have different : node ≠ obj := by
      rintro rfl
      exact wasLoose con inside
    simp only [nextOf, others node different]
  barren := by
    intro con plain
    by_cases here : con = obj
    · rw [here, empty]
    apply forest.barren
    rwa [holdsOf, others con here] at plain
  member := by
    intro con node
    by_cases here : node = obj
    · subst here
      constructor
      · intro edge
        exact (wasLoose con edge).elim
      · rintro ⟨conNotNone, placed⟩
        rcases Option.map_eq_some_iff.mp placed with ⟨record, live, rfl⟩
        exact (conNotNone (isLoose record live).1).elim
    rw [containerOf, others node here]
    exact forest.member con node
  nodup := forest.nodup
  ranked := forest.ranked
  loose_next := by
    intro node loose
    by_cases here : node = obj
    · rcases Option.map_eq_some_iff.mp loose with ⟨record, live, _⟩
      rw [here] at live
      rw [here, nextOf, live]
      exact (isLoose record live).2.1
    rw [containerOf, others node here] at loose
    rw [nextOf, others node here]
    exact forest.loose_next node loose

/-- An object is changed in place; it keeps its own links and its list. -/
theorem Forest.retype {record newRecord : MapObject cfg} (live : records obj = some record)
    (newLive : newRecords obj = some newRecord)
    (others : ∀ node, node ≠ obj → newRecords node = records node)
    (next : newRecord.nextObject = record.nextObject)
    (container : newRecord.container = record.container)
    (content : newRecord.type.holdsObjects = true →
      Chain NONE (nextOf records) newRecord.content (kids obj))
    (plain : newRecord.type.holdsObjects = false → kids obj = []) : Forest newRecords kids := by
  have notNone : obj ≠ NONE := by
    rintro rfl
    rw [forest.none_dead] at live
    cases live
  have sameNext : ∀ node, nextOf newRecords node = nextOf records node := by
    intro node
    by_cases here : node = obj
    · rw [here, nextOf, nextOf, newLive, live, Option.map_some, Option.map_some, next]
    · simp only [nextOf, others node here]
  have sameContainer : ∀ node, containerOf newRecords node = containerOf records node := by
    intro node
    by_cases here : node = obj
    · rw [here, containerOf, containerOf, newLive, live, Option.map_some, Option.map_some, container]
    · simp only [containerOf, others node here]
  constructor
  · rw [others NONE notNone.symm]
    exact forest.none_dead
  · intro con first isHolder start
    have chain : Chain NONE (nextOf records) first (kids con) := by
      by_cases here : con = obj
      · rw [here, holdsOf, newLive] at isHolder
        rw [here, contentOf, newLive] at start
        rw [here, ← Option.some.inj start]
        exact content (Option.some.inj isHolder)
      rw [holdsOf, others con here] at isHolder
      rw [contentOf, others con here] at start
      exact forest.chain con first isHolder start
    exact chain_congr chain fun node _ => sameNext node
  · intro con notHolder
    by_cases here : con = obj
    · rw [here]
      apply plain
      rw [here, holdsOf, newLive] at notHolder
      simpa using notHolder
    apply forest.barren
    rwa [holdsOf, others con here] at notHolder
  · intro con node
    rw [sameContainer]
    exact forest.member con node
  · exact forest.nodup
  · exact forest.ranked
  · intro node loose
    rw [sameContainer] at loose
    rw [sameNext]
    exact forest.loose_next node loose

/-- The list of one holder becomes another one, in which `obj` has come or gone behind `front`. -/
theorem Forest.relist {front list : List Object} {place start : Object}
    (isHolder : holdsOf records con = some true) (notNone : obj ≠ NONE)
    (lastInCon : front ≠ [] → lastOf NONE front ∈ kids con)
    (elsewhere : ∀ holder, holder ≠ con → obj ∉ kids holder)
    (nextOther : ∀ node, node ≠ obj → node ≠ lastOf NONE front →
      nextOf newRecords node = nextOf records node)
    (container : ∀ node, containerOf newRecords node =
      if node = obj then some place else containerOf records node)
    (holds : ∀ node, holdsOf newRecords node = holdsOf records node)
    (content : ∀ node, holdsOf records node = some true → contentOf newRecords node =
      if node = con ∧ front = [] then some start else contentOf records node)
    (chain : ∀ first, Chain NONE (nextOf records) first (kids con) →
      Chain NONE (nextOf newRecords) (if front = [] then start else first) list)
    (objMember : ∀ holder, obj ∈ update kids con list holder ↔
      holder ≠ NONE ∧ place = holder)
    (otherMember : ∀ node, node ≠ obj → (node ∈ list ↔ node ∈ kids con)) (nodup : list.Nodup)
    (ranked : Ranked (update kids con list)) (loose : place = NONE → nextOf newRecords obj = NONE) :
    Forest newRecords (update kids con list) := by
  constructor
  · have here := container NONE
    rw [if_neg notNone.symm, containerOf, containerOf, forest.none_dead] at here
    exact Option.map_eq_none_iff.mp here
  · intro holder first isHolder' begins
    rw [holds] at isHolder'
    rw [content holder isHolder'] at begins
    by_cases here : holder = con
    · subst here
      rw [update_self]
      rcases Option.map_eq_some_iff.mp isHolder with ⟨record, live, _⟩
      have oldStart : contentOf records holder = some record.content := by
        rw [contentOf, live]
        rfl
      have newChain := chain record.content (forest.chain holder _ isHolder oldStart)
      rw [oldStart] at begins
      by_cases atStart : front = []
      · rw [if_pos ⟨rfl, atStart⟩] at begins
        rw [if_pos atStart] at newChain
        rwa [← Option.some.inj begins]
      rw [if_neg fun both => atStart both.2] at begins
      rw [if_neg atStart] at newChain
      rwa [← Option.some.inj begins]
    rw [update_of_ne here]
    rw [if_neg (fun both => here both.1)] at begins
    apply chain_congr (forest.chain holder first isHolder' begins)
    intro node inside
    apply nextOther
    · rintro rfl
      exact elsewhere holder here inside
    rintro rfl
    cases front with
    | nil => exact forest.kid_ne_none inside rfl
    | cons head rest =>
      exact here (forest.single _ _ _ inside (lastInCon (by simp)))
  · intro holder plain
    rw [holds] at plain
    by_cases here : holder = con
    · rw [here] at plain
      exact (plain isHolder).elim
    rw [update_of_ne here]
    exact forest.barren holder plain
  · intro holder node
    rw [container]
    by_cases isObj : node = obj
    · rw [isObj, if_pos rfl, Option.some.injEq]
      exact objMember holder
    rw [if_neg isObj, ← forest.member]
    by_cases here : holder = con
    · rw [here, update_self]
      exact otherMember node isObj
    · rw [update_of_ne here]
  · intro holder
    by_cases here : holder = con
    · rw [here, update_self]
      exact nodup
    rw [update_of_ne here]
    exact forest.nodup holder
  · exact ranked
  · intro node isLoose
    rw [container] at isLoose
    split_ifs at isLoose with isObj
    · rw [isObj]
      exact loose (Option.some.inj isLoose)
    rw [nextOther node isObj]
    · exact forest.loose_next node isLoose
    · rintro rfl
      by_cases some_front : front = []
      · rw [some_front, last_of_nil, containerOf, forest.none_dead] at isLoose
        cases isLoose
      · exact forest.orphan isLoose con (lastInCon some_front)

/-- A loose object is put between `front` and `back` of a list outside of it. -/
theorem Forest.insert {front back : List Object} (split : kids con = front ++ back)
    (isHolder : holdsOf records con = some true) (loose : containerOf records obj = some NONE)
    (notNone : obj ≠ NONE) (outside : ¬ Below kids obj con)
    (nextObj : nextOf newRecords obj = headOf NONE back)
    (nextJoined : front ≠ [] → nextOf newRecords (lastOf NONE front) = obj)
    (nextOther : ∀ node, node ≠ obj → node ≠ lastOf NONE front →
      nextOf newRecords node = nextOf records node)
    (container : ∀ node, containerOf newRecords node =
      if node = obj then some con else containerOf records node)
    (holds : ∀ node, holdsOf newRecords node = holdsOf records node)
    (content : ∀ node, holdsOf records node = some true → contentOf newRecords node =
      if node = con ∧ front = [] then some obj else contentOf records node) :
    Forest newRecords (update kids con (front ++ obj :: back)) := by
  have orphan := forest.orphan loose
  have conNotNone : con ≠ NONE := by
    rintro rfl
    rw [holdsOf, forest.none_dead] at isHolder
    cases isHolder
  have conNodup := forest.nodup con
  rw [split] at conNodup
  have fresh : obj ∉ front ++ back := by
    rw [← split]
    exact orphan con
  apply forest.relist isHolder notNone (last_in_front split) (fun holder _ => orphan holder)
    nextOther container holds content
  · intro first oldChain
    rw [split] at oldChain
    have newChain := chain_insert oldChain conNodup notNone
      (fun node inside notLast => nextOther node (fun same => fresh (same ▸ inside)) notLast)
      nextJoined nextObj
    cases front with
    | nil => exact newChain
    | cons node rest =>
      rw [if_neg (by simp), oldChain.1]
      exact newChain
  · intro holder
    by_cases here : holder = con
    · simp [here, conNotNone]
    rw [update_of_ne here]
    exact iff_of_false (orphan holder) fun both => here both.2.symm
  · intro node notObj
    simp [split, notObj]
  · exact List.nodup_middle.mpr (List.nodup_cons.mpr ⟨fresh, conNodup⟩)
  · apply forest.ranked.insert forest.single orphan outside
    intro node child edge
    by_cases here : node = con
    · subst here
      rw [update_self] at edge
      rw [split]
      simp only [List.mem_append, List.mem_cons] at edge ⊢
      tauto
    rw [update_of_ne here] at edge
    exact .inl edge
  · intro isNone
    exact absurd isNone conNotNone

theorem Forest.remove {front back : List Object} (split : kids con = front ++ obj :: back)
    (nextObj : nextOf newRecords obj = NONE)
    (nextJoined : front ≠ [] → nextOf newRecords (lastOf NONE front) = nextOf records obj)
    (nextOther : ∀ node, node ≠ obj → node ≠ lastOf NONE front →
      nextOf newRecords node = nextOf records node)
    (container : ∀ node, containerOf newRecords node =
      if node = obj then some NONE else containerOf records node)
    (holds : ∀ node, holdsOf newRecords node = holdsOf records node)
    (content : ∀ node, holdsOf records node = some true → contentOf newRecords node =
      if node = con ∧ front = [] then some (nextOf records obj) else contentOf records node) :
    Forest newRecords (update kids con (front ++ back)) := by
  have edge : obj ∈ kids con := by simp [split]
  have conNodup := forest.nodup con
  rw [split] at conNodup
  have goneFromList : obj ∉ front ++ back :=
    (List.nodup_cons.mp (List.nodup_middle.mp conNodup)).1
  have elsewhere : ∀ holder, holder ≠ con → obj ∉ kids holder :=
    fun holder other inside => other (forest.single _ _ _ inside edge)
  apply forest.relist (forest.parent_holds edge) (forest.kid_ne_none edge) (last_in_front split)
    elsewhere nextOther container holds content
  · intro first oldChain
    rw [split] at oldChain
    have newChain := chain_remove oldChain conNodup
      (fun node inside notLast => nextOther node (fun same => goneFromList (same ▸ inside)) notLast)
      nextJoined
    rcases front with _ | ⟨node, rest⟩
    · rw [if_pos rfl, chain_start oldChain.2.2]
      exact newChain
    rw [if_neg (by simp), oldChain.1]
    exact newChain
  · intro holder
    apply iff_of_false
    · by_cases here : holder = con
      · rw [here, update_self]
        exact goneFromList
      rw [update_of_ne here]
      exact elsewhere holder here
    · exact fun both => both.1 both.2.symm
  · intro node notObj
    simp [split, notObj]
  · exact (List.nodup_cons.mp (List.nodup_middle.mp conNodup)).2
  · apply forest.ranked.mono
    intro node child inside
    by_cases here : node = con
    · subst here
      rw [update_self] at inside
      rw [split]
      simp only [List.mem_append, List.mem_cons] at inside ⊢
      tauto
    · rwa [update_of_ne here] at inside
  · intro _
    exact nextObj

end Facts

end TibiaGame.ContentForest
