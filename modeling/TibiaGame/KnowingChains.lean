import TibiaGame.KnownCreatures
import TibiaGame.Library.LinkedList

/-!
# The lists of knowing connections

The invariant gives, for every identifier, the list that is stored for it: it
holds exactly the entries that are not free and name the creature. That no table
names a creature twice makes the search by connection find the right entry.
-/

namespace TibiaGame.KnowingChains

open Library.LinkedList ViewWindow KnownCreatures Function List

variable {n : Nat} {world after : Knowledge n} {members : UInt32 → List (Node n)}
  {conn : Fin n} {id : UInt32} {node : Node n}

def follow (world : Knowledge n) :
    Option (Node n) → Option (Node n)
  | none => none
  | some node => (world.table node).next

structure Knowing (world : Knowledge n) (members : UInt32 → List (Node n)) : Prop where
  chains : ∀ id creature, world.hashList id = some creature →
    Chain none (follow world) creature.firstKnowingConnection ((members id).map some)
  dead : ∀ id, world.hashList id = none → members id = []
  nodup : ∀ id, (members id).Nodup
  exact : ∀ id node, node ∈ members id ↔
    (world.table node).state ≠ .free ∧ (world.table node).creatureId = id
  unique : ∀ conn i j, (world.table (conn, i)).creatureId = (world.table (conn, j)).creatureId →
    (world.table (conn, i)).creatureId ≠ 0 → i = j
  zero : world.hashList 0 = none

@[simp] theorem set_table (entry : KnownCreature n) :
    (world.set node entry).table = update world.table node entry := rfl

@[simp] theorem set_hash_list (entry : KnownCreature n) :
    (world.set node entry).hashList = world.hashList := rfl

theorem follow_congr (same : ∀ node, (after.table node).next = (world.table node).next) :
    follow after = follow world := by
  funext pointer
  cases pointer with
  | none => rfl
  | some node => exact same node

theorem get_creature_some {creature : Creature n} :
    world.getCreature id = some creature ↔ id ≠ 0 ∧ world.hashList id = some creature := by
  unfold Knowledge.getCreature
  split_ifs with zero <;> simp [zero]

theorem first_index_some {test : Fin tableSize → Bool} {index : Fin tableSize}
    (found : firstIndex test = some index) : test index = true :=
  List.find?_some found

theorem first_index_none {test : Fin tableSize → Bool} (none' : firstIndex test = none)
    (index : Fin tableSize) : test index = false := by
  have missed := List.find?_eq_none.mp none' index (mem_finRange index)
  simpa using missed

theorem Knowing.live (knowing : Knowing world members) (member : node ∈ members id) :
    ∃ creature, world.hashList id = some creature := by
  cases found : world.hashList id with
  | none =>
    rw [knowing.dead id found] at member
    cases member
  | some creature => exact ⟨creature, rfl⟩

theorem Knowing.nonzero (knowing : Knowing world members) (member : node ∈ members id) : id ≠ 0 := by
  intro zero
  rcases knowing.live member with ⟨creature, found⟩
  rw [zero, knowing.zero] at found
  cases found

theorem Knowing.once (knowing : Knowing world members) {other : Node n} (member : node ∈ members id)
    (otherMember : other ∈ members id) (same : other.1 = node.1) : other = node := by
  have named := (knowing.exact id node).mp member
  have otherNamed := (knowing.exact id other).mp otherMember
  cases node with
  | mk conn i =>
    cases other with
    | mk conn' j =>
      have here : conn' = conn := same
      subst here
      have index : j = i := by
        apply knowing.unique conn' j i
        · rw [otherNamed.2, named.2]
        · rw [otherNamed.2]
          exact knowing.nonzero member
      rw [index]

theorem Knowing.short (knowing : Knowing world members) (id : UInt32) :
    (members id).length ≤ walkLimit n := by
  have bound := (knowing.nodup id).length_le_card
  simpa [walkLimit] using bound

/-- A change that frees no entry and takes none, and leaves names and pointers alone. -/
theorem Knowing.restate (knowing : Knowing world members)
    (links : ∀ node, (after.table node).next = (world.table node).next)
    (names : ∀ node, (after.table node).creatureId = (world.table node).creatureId)
    (freed : ∀ node, (after.table node).state = .free ↔ (world.table node).state = .free)
    (firsts : ∀ id, (after.hashList id).map Creature.firstKnowingConnection =
      (world.hashList id).map Creature.firstKnowingConnection) : Knowing after members := by
  have dead : ∀ id, after.hashList id = none ↔ world.hashList id = none := by
    intro id
    rw [← Option.map_eq_none_iff, firsts id, Option.map_eq_none_iff]
  constructor
  · intro id creature found
    have first := firsts id
    rw [found, Option.map_some] at first
    rcases Option.map_eq_some_iff.mp first.symm with ⟨old, oldFound, same⟩
    rw [follow_congr links, ← same]
    exact knowing.chains id old oldFound
  · intro id gone
    exact knowing.dead id ((dead id).mp gone)
  · exact knowing.nodup
  · intro id node
    rw [knowing.exact, names, Ne, Ne, freed]
  · intro conn i j same notZero
    rw [names] at notZero
    rw [names, names] at same
    exact knowing.unique conn i j same notZero
  · exact (dead 0).mpr knowing.zero

section Search

variable {start prev : Option (Node n)} {front back : List (Node n)} {fuel : Nat}

theorem search_apart {path : List (Node n)}
    (linked : Chain none (follow world) start (path.map some)) (apart : ∀ node ∈ path, node.1 ≠ conn) :
    (searchConnection world conn fuel prev start).2 = none := by
  induction path generalizing start prev fuel with
  | nil =>
    have ends : start = none := linked
    rw [ends]
    cases fuel <;> rfl
  | cons node rest ih =>
    rw [linked.1]
    rcases fuel with _ | fuel
    · rfl
    rw [searchConnection, if_neg (apart node (by simp))]
    apply ih linked.2.2
    intro other member
    exact apart other (mem_cons_of_mem node member)

theorem search_found (linked : Chain none (follow world) start ((front ++ node :: back).map some))
    (apart : ∀ other ∈ front, other.1 ≠ conn) (found : node.1 = conn) (room : front.length < fuel) :
    searchConnection world conn fuel prev start = (lastOf prev (front.map some), some node) := by
  induction front generalizing start prev fuel with
  | nil =>
    rw [linked.1]
    rcases fuel with _ | fuel
    · cases room
    rw [searchConnection, if_pos found]
    rfl
  | cons first rest ih =>
    rw [linked.1]
    rcases fuel with _ | fuel
    · cases room
    rw [searchConnection, if_neg (apart first (by simp))]
    apply ih linked.2.2
    · intro other member
      exact apart other (mem_cons_of_mem first member)
    · exact Nat.lt_of_succ_lt_succ room

theorem for_chain_visits {visit : Knowledge n → Node n → Knowledge n} {path : List (Node n)}
    (links : ∀ world node, follow (visit world node) = follow world)
    (linked : Chain none (follow world) start (path.map some)) (room : path.length ≤ fuel) :
    forChain visit fuel world start = path.foldl visit world := by
  induction path generalizing world start fuel with
  | nil =>
    have ends : start = none := linked
    rw [ends]
    cases fuel <;> rfl
  | cons node rest ih =>
    rw [linked.1]
    rcases fuel with _ | fuel
    · cases room
    rw [forChain, foldl_cons]
    apply ih
    · rw [links]
      have next : ((visit world node).table node).next = follow world (some node) :=
        congrFun (links world node) (some node)
      rw [next]
      exact linked.2.2
    · exact Nat.le_of_succ_le_succ room

end Search

structure Unchained (world after : Knowledge n) (node : Node n) : Prop where
  freed : (after.table node).state = .free
  states : ∀ other, other ≠ node → (after.table other).state = (world.table other).state
  names : ∀ other, (after.table other).creatureId = (world.table other).creatureId
  live : ∀ id, (after.hashList id).isSome = (world.hashList id).isSome

structure Relinked (world after : Knowledge n) (id : UInt32) (creature : Creature n)
    (node : Node n) (front back : List (Node n)) : Prop extends Unchained world after node where
  others : ∀ other, other ≠ id → after.hashList other = world.hashList other
  first : ∃ newCreature, after.hashList id = some newCreature ∧
    newCreature.firstKnowingConnection =
      if front = [] then (world.table node).next else creature.firstKnowingConnection
  kept : ∀ other, some other ≠ lastOf none (front.map some) →
    (after.table other).next = (world.table other).next
  joined : ∀ last, lastOf none (front.map some) = some last →
    (after.table last).next = (world.table node).next

theorem last_of_map_none {front : List (Node n)} (ends : lastOf none (front.map some) = none) :
    front = [] := by
  cases front with
  | nil => rfl
  | cons first rest =>
    have member := last_of_mem (some first) (rest.map some)
    have inFront : none ∈ (first :: rest).map some := ends ▸ member
    simp at inFront

theorem last_of_map_some {front : List (Node n)} {last : Node n}
    (ends : lastOf none (front.map some) = some last) : last ∈ front := by
  cases front with
  | nil => cases ends
  | cons first rest =>
    have member := last_of_mem (some first) (rest.map some)
    have inFront : some last ∈ (first :: rest).map some := ends ▸ member
    simpa using inFront

theorem Relinked.knowing {creature : Creature n} {front back : List (Node n)}
    (knowing : Knowing world members) (found : world.hashList id = some creature)
    (split : members id = front ++ node :: back)
    (relinked : Relinked world after id creature node front back) :
    Knowing after (update members id (front ++ back)) := by
  have nodup := knowing.nodup id
  rw [split] at nodup
  have linked := knowing.chains id creature found
  rw [split] at linked
  have lastMember : ∀ last, lastOf none (front.map some) = some last → last ∈ members id := by
    intro last same
    rw [split]
    exact mem_append_left _ (last_of_map_some same)
  have notNode : node ∉ front ++ back := by
    intro member
    have apart := nodup_middle.mp nodup
    exact (nodup_cons.mp apart).1 member
  constructor
  · intro other otherCreature otherFound
    by_cases here : other = id
    · rw [here, update_self]
      rcases relinked.first with ⟨newCreature, newFound, first⟩
      rw [here, newFound] at otherFound
      cases otherFound
      have shorter : Chain none (follow after) (headOf none ((front ++ back).map some))
          ((front ++ back).map some) := by
        rw [map_append]
        have longer : Chain none (follow world) creature.firstKnowingConnection
            (front.map some ++ some node :: back.map some) := by
          simpa using linked
        apply chain_remove longer
        · have whole := nodup.map (Option.some_injective (Node n))
          simpa using whole
        · intro pointer member notLast
          rw [← map_append] at member
          rcases mem_map.mp member with ⟨other, _, same⟩
          rw [← same] at notLast ⊢
          exact relinked.kept other notLast
        · intro some_front
          cases last : lastOf none (front.map some) with
          | none => exact absurd (congrArg (List.map some) (last_of_map_none last)) some_front
          | some prev => exact relinked.joined prev last
      have head : otherCreature.firstKnowingConnection = headOf none ((front ++ back).map some) := by
        rw [first]
        rcases front with _ | ⟨entry, rest⟩
        · rw [if_pos rfl]
          exact chain_start linked.2.2
        rw [if_neg (by simp)]
        exact linked.1
      rw [head]
      exact shorter
    rw [relinked.others other here] at otherFound
    rw [update_of_ne here]
    apply chain_congr (knowing.chains other otherCreature otherFound)
    intro pointer member
    rcases mem_map.mp member with ⟨entry, entryMember, same⟩
    rw [← same]
    apply relinked.kept
    intro isLast
    have named := ((knowing.exact id entry).mp (lastMember entry isLast.symm)).2
    exact here (((knowing.exact other entry).mp entryMember).2.symm.trans named)
  · intro other gone
    have wasGone : world.hashList other = none := by
      have same := relinked.live other
      rw [gone] at same
      exact Option.isSome_eq_false_iff.mp same.symm |> Option.isNone_iff_eq_none.mp
    by_cases here : other = id
    · rw [here, found] at wasGone
      cases wasGone
    rw [update_of_ne here]
    exact knowing.dead other wasGone
  · intro other
    by_cases here : other = id
    · rw [here, update_self]
      exact (nodup_cons.mp (nodup_middle.mp nodup)).2
    rw [update_of_ne here]
    exact knowing.nodup other
  · intro other entry
    rw [relinked.names]
    by_cases isNode : entry = node
    · have nodeNamed : (world.table node).creatureId = id := by
        apply ((knowing.exact id node).mp _).2
        rw [split]
        simp
      rw [isNode, relinked.freed]
      by_cases here : other = id
      · rw [here, update_self]
        simp [notNode]
      rw [update_of_ne here, knowing.exact, nodeNamed]
      simp [Ne.symm here]
    rw [relinked.states entry isNode, ← knowing.exact]
    by_cases here : other = id
    · rw [here, update_self, split]
      simp [isNode]
    · rw [update_of_ne here]
  · intro conn i j same notZero
    rw [relinked.names] at notZero
    rw [relinked.names, relinked.names] at same
    exact knowing.unique conn i j same notZero
  · have same := relinked.live 0
    rw [knowing.zero] at same
    exact Option.isSome_eq_false_iff.mp same |> Option.isNone_iff_eq_none.mp

theorem take_out_relinks {creature : Creature n} {front back : List (Node n)}
    (found : world.hashList id = some creature) (notFront : node ∉ front) :
    Relinked world (takeOut world id creature (lastOf none (front.map some), some node)) id creature
      node front back := by
  rcases ends : lastOf none (front.map some) with _ | prev
  · have empty := last_of_map_none ends
    constructor
    · constructor
      · simp [takeOut, Knowledge.setState, Knowledge.setFirst]
      · intro other apart
        simp [takeOut, Knowledge.setState, Knowledge.setFirst, apart]
      · intro other
        by_cases here : other = node <;>
          simp [takeOut, Knowledge.setState, Knowledge.setFirst, here]
      · intro other
        by_cases here : other = id <;>
          simp [takeOut, Knowledge.setState, Knowledge.setFirst, here, found]
    · intro other apart
      simp [takeOut, Knowledge.setState, Knowledge.setFirst, apart]
    · simp [takeOut, Knowledge.setState, Knowledge.setFirst, empty]
    · intro other _
      by_cases here : other = node <;>
        simp [takeOut, Knowledge.setState, Knowledge.setFirst, here]
    · intro last same
      rw [ends] at same
      cases same
  have inFront := last_of_map_some ends
  have prevApart : prev ≠ node := by
    intro same
    exact notFront (same ▸ inFront)
  have some_front : front ≠ [] := ne_nil_of_mem inFront
  constructor
  · constructor
    · simp [takeOut, Knowledge.setState, Knowledge.setNext, prevApart.symm]
    · intro other apart
      by_cases here : other = prev <;>
        simp [takeOut, Knowledge.setState, Knowledge.setNext, here, apart, prevApart]
    · intro other
      by_cases here : other = prev
      · simp [takeOut, Knowledge.setState, Knowledge.setNext, here, prevApart]
      by_cases isNode : other = node <;>
        simp [takeOut, Knowledge.setState, Knowledge.setNext, here, isNode, prevApart.symm]
    · intro other
      rfl
  · intro other _
    rfl
  · exact ⟨creature, found, (if_neg some_front).symm⟩
  · intro other apart
    have notPrev : other ≠ prev := by
      intro same
      exact apart (same ▸ ends.symm)
    by_cases isNode : other = node <;>
      simp [takeOut, Knowledge.setState, Knowledge.setNext, notPrev, isNode, prevApart.symm]
  · intro last same
    rw [ends] at same
    cases same
    simp [takeOut, Knowledge.setState, Knowledge.setNext]

/-- Either the connection has no entry in the list of the creature, or its entry is taken
out of that list. -/
theorem unchain_cases (knowing : Knowing world members) (conn : Fin n) (id : UInt32) :
    (unchainKnownCreature world conn id = world ∧ ∀ node ∈ members id, node.1 ≠ conn) ∨
      ∃ node ∈ members id, node.1 = conn ∧ Unchained world (unchainKnownCreature world conn id) node ∧
        ∃ rest, Knowing (unchainKnownCreature world conn id) rest := by
  by_cases apart : ∀ node ∈ members id, node.1 ≠ conn
  · left
    constructor
    · unfold unchainKnownCreature
      rcases found : world.getCreature id with _ | creature
      · rfl
      have linked := knowing.chains id creature (get_creature_some.mp found).2
      simp only
      rcases first : creature.firstKnowingConnection with _ | entry
      · rfl
      rw [first] at linked
      have missed : (searchConnection world conn (walkLimit n) none (some entry)).2 = none :=
        search_apart linked apart
      have ends : searchConnection world conn (walkLimit n) none (some entry) = (_, none) :=
        Prod.ext rfl missed
      change takeOut world id creature
        (searchConnection world conn (walkLimit n) none (some entry)) = world
      rw [ends]
      rfl
    · exact apart
  right
  simp only [not_forall, not_not] at apart
  rcases apart with ⟨node, member, own⟩
  exists node
  constructor
  · exact member
  constructor
  · exact own
  rcases append_of_mem member with ⟨front, back, split⟩
  rcases knowing.live member with ⟨creature, found⟩
  have nonzero := knowing.nonzero member
  have linked := knowing.chains id creature found
  have short := knowing.short id
  rw [split] at linked short
  have frontApart : ∀ other ∈ front, other.1 ≠ conn := by
    intro other inFront same
    have isNode : other = node := by
      apply knowing.once member
      · rw [split]
        exact mem_append_left _ inFront
      · rw [same, own]
    have nodup := knowing.nodup id
    rw [split, ← isNode] at nodup
    exact (nodup_cons.mp (nodup_middle.mp nodup)).1 (mem_append_left _ inFront)
  have room : front.length < walkLimit n := by
    rw [length_append, length_cons] at short
    omega
  have searched : searchConnection world conn (walkLimit n) none
      creature.firstKnowingConnection = (lastOf none (front.map some), some node) :=
    search_found linked frontApart own room
  have relinked : Relinked world (unchainKnownCreature world conn id) id creature node
      front back := by
    have registered : world.getCreature id = some creature :=
      get_creature_some.mpr ⟨nonzero, found⟩
    have notFront : node ∉ front := by
      intro inFront
      exact frontApart node inFront own
    have unchained : unchainKnownCreature world conn id =
        takeOut world id creature (lastOf none (front.map some), some node) := by
      unfold unchainKnownCreature
      rw [registered]
      rcases first : creature.firstKnowingConnection with _ | entry
      · rw [first] at linked
        have inList : some node ∈ (front ++ node :: back).map some := by simp
        rw [chain_unique linked (show Chain none (follow world) none [] from rfl)] at inList
        cases inList
      rw [first] at searched
      simp only
      rw [first]
      exact congrArg (takeOut world id creature) searched
    rw [unchained]
    exact take_out_relinks found notFront
  constructor
  · exact relinked.toUnchained
  · exact ⟨_, relinked.knowing knowing found split⟩

end TibiaGame.KnowingChains
