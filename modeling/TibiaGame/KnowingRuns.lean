import TibiaGame.KnowingChains

/-!
# Runs of the tables of known creatures

Every operation keeps the lists and the tables in agreement: entering a creature,
clearing a table, announcing a change, and the creation and the end of a creature.
-/

namespace TibiaGame.KnowingRuns

open Library.LinkedList ViewWindow KnownCreatures KnowingChains Function

variable {n : Nat} {world : Knowledge n} {members : UInt32 → List (Node n)}
  {conn : Fin n} {id : UInt32} {node : Node n}

/-- The tables and lists of a run: some assignment of lists fits them. -/
def Sound (world : Knowledge n) : Prop := ∃ members, Knowing world members

theorem unchain_sound (sound : Sound world) (conn : Fin n) (id : UInt32) :
    Sound (unchainKnownCreature world conn id) := by
  rcases sound with ⟨members, knowing⟩
  rcases unchain_cases knowing conn id with same | taken
  · rw [same.1]
    exact ⟨members, knowing⟩
  rcases taken with ⟨_, _, _, _, rest, knows⟩
  exact ⟨rest, knows⟩

/-- An entry that is not free is freed by unchaining the creature it names. -/
theorem unchain_frees (knowing : Knowing world members) (index : Fin tableSize)
    (taken : (world.table (conn, index)).state ≠ .free) :
    Unchained world (unchainKnownCreature world conn (world.table (conn, index)).creatureId)
      (conn, index) := by
  have member : (conn, index) ∈ members (world.table (conn, index)).creatureId :=
    (knowing.exact _ _).mpr ⟨taken, rfl⟩
  rcases unchain_cases knowing conn (world.table (conn, index)).creatureId with same | found
  · exact absurd rfl (same.2 _ member)
  rcases found with ⟨node, nodeMember, own, unchained, _⟩
  have isNode : node = (conn, index) := knowing.once member nodeMember own
  rw [isNode] at unchained
  exact unchained

theorem forget_knowing (knowing : Knowing world members) (free : (world.table node).state = .free) :
    Knowing (world.set node { world.table node with state := .free, creatureId := 0 }) members := by
  have links : ∀ other, ((world.set node { world.table node with
      state := .free, creatureId := 0 }).table other).next = (world.table other).next := by
    intro other
    by_cases here : other = node <;> simp [here]
  constructor
  · intro id creature found
    rw [follow_congr links]
    exact knowing.chains id creature found
  · exact knowing.dead
  · exact knowing.nodup
  · intro id other
    rw [knowing.exact]
    by_cases here : other = node <;> simp [here, free]
  · intro conn i j same notZero
    by_cases first : (conn, i) = node
    · simp [first] at notZero
    rw [set_table, update_of_ne first] at notZero same
    by_cases second : (conn, j) = node
    · rw [second, update_self] at same
      exact absurd same notZero
    rw [update_of_ne second] at same
    exact knowing.unique conn i j same notZero
  · exact knowing.zero

theorem clear_slot_sound (sound : Sound world) (conn : Fin n) (index : Fin tableSize) :
    Sound (clearSlot conn world index) := by
  unfold clearSlot
  by_cases taken : (world.table (conn, index)).state ≠ .free
  · rcases sound with ⟨members, knowing⟩
    rcases unchain_sound ⟨members, knowing⟩ conn (world.table (conn, index)).creatureId with
      ⟨rest, knows⟩
    exists rest
    simp only [if_pos taken]
    exact forget_knowing knows (unchain_frees knowing index taken).freed
  rcases sound with ⟨members, knowing⟩
  exists members
  simp only [if_neg taken]
  exact forget_knowing knowing (not_not.mp taken)

theorem clear_sound (sound : Sound world) (conn : Fin n) :
    Sound (clearKnownCreatureTable world conn) := by
  unfold clearKnownCreatureTable
  induction List.finRange tableSize generalizing world with
  | nil => exact sound
  | cons index rest ih => exact ih (clear_slot_sound sound conn index)

/-- A free entry takes the name of a living creature that no other entry of its table has. -/
theorem enter_sound (sound : Sound world) {index : Fin tableSize} {creature : Creature n}
    (free : (world.table (conn, index)).state = .free)
    (alone : ∀ other, (world.table (conn, other)).creatureId = id → other = index)
    (found : world.getCreature id = some creature) :
    Sound (enterCreature world (conn, index) id) := by
  rcases sound with ⟨members, knowing⟩
  have live := get_creature_some.mp found
  have linked := knowing.chains id creature live.2
  have outside : ∀ other, (conn, index) ∉ members other := by
    intro other member
    exact ((knowing.exact other _).mp member).1 free
  have named : ∀ entry : KnownCreature n,
      (world.set (conn, index) entry).getCreature id = some creature := by
    intro entry
    exact found
  exists update members id ((conn, index) :: members id)
  unfold enterCreature
  simp only [named]
  have others : ∀ node, node ≠ (conn, index) →
      (((world.set (conn, index) { world.table (conn, index) with
          state := .upToDate, creatureId := id }).setNext (conn, index)
        creature.firstKnowingConnection).setFirst id creature (some (conn, index))).table node =
        world.table node := by
    intro node apart
    simp [Knowledge.setNext, Knowledge.setFirst, apart]
  have entered : (((world.set (conn, index) { world.table (conn, index) with
          state := .upToDate, creatureId := id }).setNext (conn, index)
        creature.firstKnowingConnection).setFirst id creature (some (conn, index))).table
          (conn, index) = ⟨.upToDate, id, creature.firstKnowingConnection⟩ := by
    simp [Knowledge.setNext, Knowledge.setFirst]
  have hashList : (((world.set (conn, index) { world.table (conn, index) with
          state := .upToDate, creatureId := id }).setNext (conn, index)
        creature.firstKnowingConnection).setFirst id creature (some (conn, index))).hashList =
          update world.hashList id
            (some { creature with firstKnowingConnection := some (conn, index) }) := rfl
  generalize ((world.set (conn, index) { world.table (conn, index) with
          state := .upToDate, creatureId := id }).setNext (conn, index)
        creature.firstKnowingConnection).setFirst id creature (some (conn, index)) = after at *
  have kept : ∀ other, ∀ pointer ∈ (members other).map some,
      follow after pointer = follow world pointer := by
    intro other pointer member
    rcases List.mem_map.mp member with ⟨node, inside, same⟩
    have apart : node ≠ (conn, index) := by
      intro isEntry
      exact outside other (isEntry ▸ inside)
    rw [← same]
    exact congrArg KnownCreature.next (others node apart)
  constructor
  · intro other otherCreature otherFound
    rw [hashList] at otherFound
    by_cases here : other = id
    · rw [here, update_self] at otherFound
      cases otherFound
      rw [here, update_self, List.map_cons]
      constructor
      · rfl
      constructor
      · simp
      have next : follow after (some (conn, index)) = creature.firstKnowingConnection :=
        congrArg KnownCreature.next entered
      rw [next]
      exact chain_congr linked (kept id)
    rw [update_of_ne here] at otherFound ⊢
    exact chain_congr (knowing.chains other otherCreature otherFound) (kept other)
  · intro other gone
    rw [hashList] at gone
    by_cases here : other = id
    · rw [here, update_self] at gone
      cases gone
    rw [update_of_ne here] at gone ⊢
    exact knowing.dead other gone
  · intro other
    by_cases here : other = id
    · rw [here, update_self]
      exact List.nodup_cons.mpr ⟨outside id, knowing.nodup id⟩
    rw [update_of_ne here]
    exact knowing.nodup other
  · intro other node
    by_cases isEntry : node = (conn, index)
    · rw [isEntry, entered]
      by_cases here : other = id
      · rw [here, update_self]
        simp
      rw [update_of_ne here]
      simp [outside other, Ne.symm here]
    rw [others node isEntry, ← knowing.exact]
    by_cases here : other = id
    · rw [here, update_self]
      simp [isEntry]
    · rw [update_of_ne here]
  · intro owner i j same notZero
    by_cases first : (owner, i) = (conn, index)
    · by_cases second : (owner, j) = (conn, index)
      · rw [Prod.mk.injEq] at first second
        rw [first.2, second.2]
      rw [first, entered, others _ second] at same
      rw [Prod.mk.injEq] at first
      rw [first.1] at same
      rw [first.2, alone j same.symm]
    by_cases second : (owner, j) = (conn, index)
    · rw [second, entered, others _ first] at same
      rw [Prod.mk.injEq] at second
      rw [second.1] at same
      rw [second.2, alone i same]
    rw [others _ first] at notZero
    rw [others _ first, others _ second] at same
    exact knowing.unique owner i j same notZero
  · rw [hashList, update_of_ne live.1.symm]
    exact knowing.zero

/-- The entry that `new_known_creature` takes, before it is given its new name. -/
structure Chosen (world chosen : Knowledge n) (conn : Fin n) (newId oldId : UInt32)
    (index : Fin tableSize) : Prop where
  sound : Sound chosen
  free : (chosen.table (conn, index)).state = .free
  names : ∀ node, (chosen.table node).creatureId = (world.table node).creatureId
  old : (world.table (conn, index)).creatureId = oldId
  alone : ∀ other, (world.table (conn, other)).creatureId = newId → other = index
  live : ∀ id, (chosen.getCreature id).isSome = (world.getCreature id).isSome

theorem get_creature_live {chosen : Knowledge n}
    (live : ∀ id, (chosen.hashList id).isSome = (world.hashList id).isSome) (id : UInt32) :
    (chosen.getCreature id).isSome = (world.getCreature id).isSome := by
  unfold Knowledge.getCreature
  split_ifs
  · rfl
  · exact live id

theorem chosen_entry (sound : Sound world) {newId oldId : UInt32} {index : Fin tableSize}
    {chosen : Knowledge n} (nonzero : newId ≠ 0)
    (unknown : ∀ known, world.findId conn newId = some known →
      (world.table (conn, known)).state = .free)
    (choice : chooseEntry world conn newId = some (oldId, index, chosen)) :
    Chosen world chosen conn newId oldId index := by
  rcases sound with ⟨members, knowing⟩
  unfold chooseEntry at choice
  cases same : world.findId conn newId with
  | some known =>
    rw [same] at choice
    cases choice
    have named : (world.table (conn, index)).creatureId = newId := by
      simpa using first_index_some same
    constructor
    · exact ⟨members, knowing⟩
    · exact unknown index same
    · exact fun _ => rfl
    · exact named
    · intro other otherNamed
      apply knowing.unique conn other index (otherNamed.trans named.symm)
      rw [otherNamed]
      exact nonzero
    · exact fun _ => rfl
  | none =>
    rw [same] at choice
    have absent : ∀ other, (world.table (conn, other)).creatureId = newId → other = index := by
      intro other named
      have missed := first_index_none same other
      simp [named] at missed
    cases vacant : firstIndex fun index => decide ((world.table (conn, index)).state = .free) with
    | some found =>
      rw [vacant] at choice
      cases choice
      constructor
      · exact ⟨members, knowing⟩
      · simpa using first_index_some vacant
      · exact fun _ => rfl
      · rfl
      · exact absent
      · exact fun _ => rfl
    | none =>
      rw [vacant] at choice
      rcases forgotten : firstIndex (world.forgettable conn) with _ | found
      · rw [forgotten] at choice
        cases choice
      rw [forgotten] at choice
      cases choice
      have taken : (world.table (conn, index)).state ≠ .free := by
        simpa using first_index_none vacant index
      have unchained := unchain_frees knowing index taken
      constructor
      · exact unchain_sound ⟨members, knowing⟩ conn _
      · exact unchained.freed
      · exact unchained.names
      · rfl
      · exact absent
      · exact get_creature_live unchained.live

theorem new_known_creature_sound (sound : Sound world) {creature : Creature n}
    (found : world.getCreature id = some creature)
    (unknown : ∀ known, world.findId conn id = some known →
      (world.table (conn, known)).state = .free) : Sound (newKnownCreature world conn id).2 := by
  unfold newKnownCreature
  rcases choice : chooseEntry world conn id with _ | chosen
  · exact sound
  rcases chosen with ⟨oldId, index, chosen⟩
  have taken := chosen_entry sound (get_creature_some.mp found).1 unknown choice
  have live : (chosen.getCreature id).isSome = true := by
    rw [taken.live, found]
    rfl
  rcases Option.isSome_iff_exists.mp live with ⟨still, here⟩
  apply enter_sound taken.sound taken.free _ here
  intro other named
  rw [taken.names] at named
  exact taken.alone other named

theorem known_creature_sound (sound : Sound world) (conn : Fin n) (id : UInt32) (follows : Bool) :
    Sound (knownCreature world conn id follows).2 := by
  rcases sound with ⟨members, knowing⟩
  unfold knownCreature
  rcases world.findId conn id with _ | index
  · exact ⟨members, knowing⟩
  simp only
  split_ifs with outdated
  · exists members
    apply knowing.restate
    · intro node
      by_cases here : node = (conn, index) <;> simp [Knowledge.setState, here]
    · intro node
      by_cases here : node = (conn, index) <;> simp [Knowledge.setState, here]
    · intro node
      by_cases here : node = (conn, index) <;> simp [Knowledge.setState, here, outdated.1]
    · intro id
      rfl
  · exact ⟨members, knowing⟩

/-- `known_creature` answers `FREE` for a creature without an entry, or with a free one, and
then it has changed nothing. -/
theorem known_creature_free {follows : Bool} (free : (knownCreature world conn id follows).1 = .free) :
    (knownCreature world conn id follows).2 = world ∧
      ∀ known, world.findId conn id = some known → (world.table (conn, known)).state = .free := by
  unfold knownCreature at free ⊢
  rcases found : world.findId conn id with _ | index
  · simp
  rw [found] at free
  simp only at free ⊢
  split_ifs at free ⊢ with outdated
  · rw [outdated.1] at free
    cases free
  constructor
  · rfl
  · intro known same
    cases same
    exact free

theorem send_creature_sound (sound : Sound world) (conn : Fin n) (id : UInt32) :
    Sound (sendCreature world conn id) := by
  unfold sendCreature
  rcases found : world.getCreature id with _ | creature
  · exact sound
  simp only
  split_ifs with free
  · have unknown := known_creature_free free
    rw [unknown.1]
    exact new_known_creature_sound sound found unknown.2
  · exact known_creature_sound sound conn id true

@[simp] theorem set_state_follow (state : KnownState) :
    follow (world.setState node state) = follow world := by
  apply follow_congr
  intro other
  by_cases here : other = node <;> simp [Knowledge.setState, here]

theorem announce_to_knowing (position : Position) (knowing : Knowing world members)
    (taken : (world.table node).state ≠ .free) :
    Knowing (announceTo position world node) members ∧
      ∀ other, ((announceTo position world node).table other).state = .free ↔
        (world.table other).state = .free := by
  unfold announceTo
  split_ifs
  · exact ⟨knowing, fun _ => Iff.rfl⟩
  · exact ⟨knowing, fun _ => Iff.rfl⟩
  · have freed : ∀ other, ((world.setState node .outdated).table other).state = .free ↔
        (world.table other).state = .free := by
      intro other
      by_cases here : other = node <;> simp [Knowledge.setState, here, taken]
    constructor
    · apply knowing.restate
      · intro other
        by_cases here : other = node <;> simp [Knowledge.setState, here]
      · intro other
        by_cases here : other = node <;> simp [Knowledge.setState, here]
      · exact freed
      · intro id
        rfl
    · exact freed

theorem announce_path_knowing {position : Position} {path : List (Node n)}
    (knowing : Knowing world members) (taken : ∀ node ∈ path, (world.table node).state ≠ .free) :
    Knowing (path.foldl (announceTo position) world) members := by
  induction path generalizing world with
  | nil => exact knowing
  | cons node rest ih =>
    have first := announce_to_knowing position knowing (taken node (by simp))
    apply ih first.1
    intro other member
    rw [Ne, first.2]
    exact taken other (List.mem_cons_of_mem node member)

theorem announce_sound (sound : Sound world) (id : UInt32) :
    Sound (announceChangedCreature world id) := by
  rcases sound with ⟨members, knowing⟩
  unfold announceChangedCreature
  rcases found : world.getCreature id with _ | creature
  · exact ⟨members, knowing⟩
  exists members
  have links : ∀ (world : Knowledge n) node,
      follow (announceTo creature.position world node) = follow world := by
    intro world node
    unfold announceTo
    split_ifs <;> simp
  have linked := knowing.chains id creature (get_creature_some.mp found).2
  simp only
  rw [for_chain_visits links linked (knowing.short id)]
  apply announce_path_knowing knowing
  intro node member
  exact ((knowing.exact id node).mp member).1

theorem free_path_table (path : List (Node n)) (world : Knowledge n) (node : Node n) :
    (path.foldl (fun world node => world.setState node .free) world).table node =
      if node ∈ path then { world.table node with state := .free } else world.table node := by
  induction path generalizing world with
  | nil => simp
  | cons first rest ih =>
    rw [List.foldl_cons, ih]
    by_cases isFirst : node = first
    all_goals simp [Knowledge.setState, isFirst]

theorem free_path_hash_list (path : List (Node n)) (world : Knowledge n) :
    (path.foldl (fun world node => world.setState node .free) world).hashList = world.hashList := by
  induction path generalizing world with
  | nil => rfl
  | cons first rest ih =>
    rw [List.foldl_cons, ih]
    rfl

theorem destroy_sound (sound : Sound world) (id : UInt32) : Sound (destroyCreature world id) := by
  rcases sound with ⟨members, knowing⟩
  unfold destroyCreature
  rcases found : world.getCreature id with _ | creature
  · exact ⟨members, knowing⟩
  have live := get_creature_some.mp found
  have linked := knowing.chains id creature live.2
  simp only
  let erased : Knowledge n :=
    { world with hashList := update world.hashList id none }
  have walked : forChain (fun world node => world.setState node .free) (walkLimit n) erased
      creature.firstKnowingConnection =
        (members id).foldl (fun world node => world.setState node .free) erased :=
    for_chain_visits (fun world node => set_state_follow KnownState.free) linked
      (knowing.short id)
  have table := free_path_table (members id) erased
  have hashList : ((members id).foldl (fun world node => world.setState node .free)
      erased).hashList = update world.hashList id none :=
    free_path_hash_list (members id) erased
  rw [walked]
  generalize (members id).foldl (fun world node => world.setState node .free) erased =
    after at *
  have links : follow after = follow world := by
    apply follow_congr
    intro node
    rw [table]
    split_ifs <;> rfl
  have names : ∀ node, (after.table node).creatureId = (world.table node).creatureId := by
    intro node
    rw [table]
    split_ifs <;> rfl
  exists update members id []
  constructor
  · intro other otherCreature otherFound
    rw [hashList] at otherFound
    by_cases here : other = id
    · rw [here, update_self] at otherFound
      cases otherFound
    rw [update_of_ne here] at otherFound ⊢
    rw [links]
    exact knowing.chains other otherCreature otherFound
  · intro other gone
    rw [hashList] at gone
    by_cases here : other = id
    · rw [here, update_self]
    rw [update_of_ne here] at gone ⊢
    exact knowing.dead other gone
  · intro other
    by_cases here : other = id
    · rw [here, update_self]
      exact List.nodup_nil
    rw [update_of_ne here]
    exact knowing.nodup other
  · intro other node
    rw [names, table]
    by_cases member : node ∈ members id
    · have named := ((knowing.exact id node).mp member).2
      by_cases here : other = id
      · simp [here, member]
      rw [update_of_ne here, knowing.exact, named]
      simp [Ne.symm here]
    rw [if_neg member, ← knowing.exact]
    by_cases here : other = id
    · simp [here, member]
    · rw [update_of_ne here]
  · intro conn i j same notZero
    rw [names] at notZero
    rw [names, names] at same
    exact knowing.unique conn i j same notZero
  · rw [hashList, update_of_ne live.1.symm]
    exact knowing.zero

theorem create_sound (sound : Sound world) (id : UInt32) (position : Position) :
    Sound (createCreature world id position) := by
  rcases sound with ⟨members, knowing⟩
  exists members
  unfold createCreature
  split_ifs with taken
  · exact knowing
  have nonzero : id ≠ 0 := fun zero => taken (.inl zero)
  have absent : world.hashList id = none := by
    rcases found : world.hashList id with _ | creature
    · rfl
    have registered := get_creature_some.mpr ⟨nonzero, found⟩
    exact absurd (.inr (by rw [registered]; rfl)) taken
  constructor
  · intro other creature found
    by_cases here : other = id
    · rw [here]
      simp only [here, update_self] at found
      cases found
      rw [knowing.dead id absent]
      rfl
    simp only [update_of_ne here] at found
    exact knowing.chains other creature found
  · intro other gone
    by_cases here : other = id
    · simp [here] at gone
    simp only [update_of_ne here] at gone
    exact knowing.dead other gone
  · exact knowing.nodup
  · exact knowing.exact
  · exact knowing.unique
  · simp only [update_of_ne nonzero.symm]
    exact knowing.zero

theorem move_sound (sound : Sound world) (id : UInt32) (position : Position) :
    Sound (moveCreature world id position) := by
  rcases sound with ⟨members, knowing⟩
  exists members
  unfold moveCreature
  rcases found : world.getCreature id with _ | creature
  · exact knowing
  have live := get_creature_some.mp found
  apply knowing.restate
  · exact fun _ => rfl
  · exact fun _ => rfl
  · exact fun _ => Iff.rfl
  · intro other
    by_cases here : other = id <;> simp [here, live.2]

theorem step_sound (sound : Sound world) (event : Event n) : Sound (step world event) := by
  cases event with
  | sendCreature conn id => exact send_creature_sound sound conn id
  | unchain conn id => exact unchain_sound sound conn id
  | clear conn => exact clear_sound sound conn
  | announce id => exact announce_sound sound id
  | destroy id => exact destroy_sound sound id
  | create id position => exact create_sound sound id position
  | move id position => exact move_sound sound id position
  | view inGame player =>
    rcases sound with ⟨members, knowing⟩
    exact ⟨members, knowing.chains, knowing.dead, knowing.nodup, knowing.exact, knowing.unique,
      knowing.zero⟩

theorem start_sound (n : Nat) : Sound (start n) := by
  exists fun _ => []
  constructor
  · nofun
  · exact fun _ _ => rfl
  · exact fun _ => List.nodup_nil
  · intro id node
    simp [start]
  · intro conn i j _ notZero
    exact absurd rfl notZero
  · rfl

theorem run_sound (events : List (Event n)) : Sound (run n events) := by
  induction events using List.reverseRecOn with
  | nil => exact start_sound n
  | append_singleton earlier event ih =>
    rw [run, List.foldl_append]
    exact step_sound ih event

/-- After every sequence of events, over any number of connections: each creature has a list
that ends and meets no entry twice, an entry that is not free is in the list of exactly the
living creature that it names, every member of a list is such an entry, and a list has at
most one entry of each connection. -/
theorem knowing_connections (n : Nat) (events : List (Event n)) :
    ∃ members : UInt32 → List (Node n),
      (∀ id creature, (run n events).getCreature id = some creature →
        Chain none (follow (run n events)) creature.firstKnowingConnection
          ((members id).map some)) ∧
      (∀ id, (members id).Nodup) ∧
      (∀ node id, node ∈ members id ↔ ((run n events).table node).state ≠ .free ∧
        ((run n events).table node).creatureId = id) ∧
      (∀ node, ((run n events).table node).state ≠ .free →
        ((run n events).getCreature ((run n events).table node).creatureId).isSome) ∧
      ∀ id, ∀ node ∈ members id, ∀ other ∈ members id, other.1 = node.1 → other = node := by
  rcases run_sound events with ⟨members, knowing⟩
  exists members
  constructor
  · intro id creature found
    exact knowing.chains id creature (get_creature_some.mp found).2
  · constructor
    · exact knowing.nodup
    · constructor
      · intro node id
        exact knowing.exact id node
      · constructor
        · intro node taken
          have member := (knowing.exact _ node).mpr ⟨taken, rfl⟩
          rcases knowing.live member with ⟨creature, found⟩
          rw [get_creature_some.mpr ⟨knowing.nonzero member, found⟩]
          rfl
        · intro id node member other otherMember same
          exact knowing.once member otherMember same

end TibiaGame.KnowingRuns
