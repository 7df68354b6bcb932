import TibiaGame.KnowingRuns

/-!
# Known creatures at the server and at the client

The packets built for one connection: `send_map_object` enters a creature into the
table while the packet is composed, and `finish_send_data` drops the packet when
one of its parts did not fit. What else happens in the game goes on between them.
-/

namespace TibiaGame.KnownAgreement

open KnownCreatures KnowingChains KnowingRuns List

/-- The creature entries of a packet, of the types 97, 98 and 99. -/
inductive Entry where
  | added (oldId newId : UInt32)
  | outdated (id : UInt32)
  | upToDate (id : UInt32)
deriving DecidableEq

/-- `Overflow` and the creature entries of the packet in progress, the entries of all
packets that were committed, and the tables. -/
structure Session (n : Nat) where
  world : Knowledge n
  composing : Bool
  overflow : Bool
  packet : List Entry
  delivered : List Entry

/-- `fits` says whether there is room for what a call sends. -/
inductive Event (n : Nat) where
  | beginSendData (accepted : Bool)
  | sendMapObject (id : UInt32) (fits : Bool)
  | sendOther (fits : Bool)
  | finishSendData (live : Bool)
  | elsewhere (event : KnownCreatures.Event n)
  | newClient

variable {n : Nat}

/-- The state of the creature, the tables afterwards, and the entry that is sent. -/
def creatureEntry (world : Knowledge n) (conn : Fin n) (id : UInt32) : Entry × Knowledge n :=
  let (state, looked) := knownCreature world conn id true
  match state with
  | .upToDate => (.upToDate id, looked)
  | .outdated => (.outdated id, looked)
  | .free =>
      let (oldId, entered) := newKnownCreature looked conn id
      (.added oldId id, entered)

def sendMapObject (conn : Fin n) (session : Session n) (id : UInt32) (fits : Bool) : Session n :=
  match session.world.getCreature id with
  | none => session
  | some _ =>
      let (entry, world) := creatureEntry session.world conn id
      { session with
        world := world
        packet := session.packet ++ [entry]
        overflow := session.overflow || !fits }

def onTableOf (conn : Fin n) : KnownCreatures.Event n → Bool
  | .sendCreature other _ | .unchain other _ | .clear other => decide (other = conn)
  | _ => false

def step (conn : Fin n) (session : Session n) : Event n → Session n
  | .beginSendData accepted =>
      if accepted then { session with composing := true, overflow := false, packet := [] }
      else { session with composing := false, packet := [] }
  | .sendMapObject id fits =>
      if session.composing then sendMapObject conn session id fits else session
  | .sendOther fits =>
      if session.composing then { session with overflow := session.overflow || !fits } else session
  | .finishSendData live =>
      if session.composing ∧ live ∧ session.overflow = false then
        { session with
          composing := false
          packet := []
          delivered := session.delivered ++ session.packet }
      else { session with composing := false, packet := [] }
  | .elsewhere event =>
      if onTableOf conn event then session
      else { session with world := KnownCreatures.step session.world event }
  | .newClient =>
      { session with
        world := clearKnownCreatureTable session.world conn
        composing := false
        packet := []
        delivered := [] }

def start (n : Nat) : Session n := ⟨KnownCreatures.start n, false, false, [], []⟩

def run (conn : Fin n) (events : List (Event n)) : Session n := events.foldl (step conn) (start n)

/-- What an entry tells the client: a new creature in place of an old one. -/
def hear (told : List UInt32) : Entry → List UInt32
  | .added oldId newId => newId :: told.filter (· ≠ oldId)
  | _ => told

def told (entries : List Entry) : List UInt32 := entries.foldl hear []

/-- The entries of types 98 and 99 that come up name creatures told before. -/
def Referring : List UInt32 → List Entry → Prop
  | _, [] => True
  | known, entry :: rest =>
      (match entry with
        | .added _ _ => True
        | .outdated id | .upToDate id => id ∈ known) ∧ Referring (hear known entry) rest

def Entry.adds : Entry → Bool
  | .added _ _ => true
  | _ => false

/-- A packet in progress that is given up has added no creature. -/
def nothingAdded (session : Session n) : Bool := !session.packet.any Entry.adds

/-- A creature that is new to the client finds an entry, and a packet that adds a creature
is committed. -/
def kept (conn : Fin n) (session : Session n) : Event n → Bool
  | .beginSendData _ => nothingAdded session
  | .sendMapObject id _ =>
      !session.composing || (session.world.getCreature id).isNone ||
        (knownCreature session.world conn id true).1 ≠ .free ||
        (chooseEntry session.world conn id).isSome
  | .finishSendData live => (live && !session.overflow) || nothingAdded session
  | _ => true

def allKept (conn : Fin n) : Session n → List (Event n) → Bool
  | _, [] => true
  | session, event :: events =>
      kept conn session event && allKept conn (step conn session event) events

section Hearing

variable {known : List UInt32} {id : UInt32} {entries : List Entry} {entry : Entry}

theorem mem_hear_added {oldId newId : UInt32} :
    id ∈ hear known (.added oldId newId) ↔ id = newId ∨ id ∈ known ∧ id ≠ oldId := by
  simp [hear]

theorem hear_kept (same : entry.adds = false) : hear known entry = known := by
  cases entry with
  | added oldId newId => cases same
  | outdated id => rfl
  | upToDate id => rfl

theorem hear_all_kept (same : entries.any Entry.adds = false) : entries.foldl hear known = known := by
  induction entries with
  | nil => rfl
  | cons entry rest ih =>
    rw [any_cons, Bool.or_eq_false_iff] at same
    rw [foldl_cons, hear_kept same.1]
    exact ih same.2

theorem referring_append (more : List Entry) :
    Referring known (entries ++ more) ↔
      Referring known entries ∧ Referring (entries.foldl hear known) more := by
  induction entries generalizing known with
  | nil => simp [Referring]
  | cons entry rest ih =>
    simp only [cons_append, Referring, foldl_cons, ih, and_assoc]

end Hearing

def Named (world : Knowledge n) (conn : Fin n) (id : UInt32) : Prop :=
  id ≠ 0 ∧ ∃ index, (world.table (conn, index)).creatureId = id

/-- What an operation leaves to a table: the names of its entries. -/
def SameNames (world after : Knowledge n) (conn : Fin n) : Prop :=
  ∀ index, (after.table (conn, index)).creatureId = (world.table (conn, index)).creatureId

section Names

variable {world after last : Knowledge n} {conn other : Fin n} {id : UInt32}

theorem SameNames.named (same : SameNames world after conn) :
    Named after conn id ↔ Named world conn id := by
  unfold Named
  simp only [same _]

theorem SameNames.trans (first : SameNames world after conn) (second : SameNames after last conn) :
    SameNames world last conn := by
  intro index
  rw [second, first]

theorem unchain_names (sound : Sound world) (owner : Fin n) (id : UInt32) :
    SameNames world (unchainKnownCreature world owner id) conn := by
  rcases sound with ⟨members, knowing⟩
  intro index
  rcases unchain_cases knowing owner id with same | taken
  · rw [same.1]
  rcases taken with ⟨node, _, _, unchained, _⟩
  exact unchained.names (conn, index)

theorem known_creature_names (owner : Fin n) (id : UInt32) (follows : Bool) :
    SameNames world (knownCreature world owner id follows).2 conn := by
  intro index
  unfold knownCreature
  rcases world.findId owner id with _ | found
  · rfl
  simp only
  split_ifs
  · by_cases here : (conn, index) = (owner, found) <;> simp [Knowledge.setState, here]
  · rfl

theorem enter_names (node : Node n) (id : UInt32) (other : Node n) :
    ((enterCreature world node id).table other).creatureId =
      if other = node then id else (world.table other).creatureId := by
  unfold enterCreature
  simp only
  split
  · by_cases here : other = node <;> simp [here]
  · by_cases here : other = node <;>
      simp [Knowledge.setNext, Knowledge.setFirst, here]

/-- A new creature takes the place of the one that `new_known_creature` returns. -/
theorem new_known_names {oldId index : _} {chosen : Knowledge n} {newId : UInt32}
    (taken : Chosen world chosen conn newId oldId index) (sound : Sound world) (nonzero : newId ≠ 0)
    (id : UInt32) :
    Named (enterCreature chosen (conn, index) newId) conn id ↔
      id = newId ∨ Named world conn id ∧ id ≠ oldId := by
  rcases sound with ⟨members, knowing⟩
  have names : ∀ place, ((enterCreature chosen (conn, index) newId).table (conn, place)).creatureId =
      if place = index then newId else (world.table (conn, place)).creatureId := by
    intro place
    rw [enter_names, taken.names]
    simp
  unfold Named
  simp only [names]
  constructor
  · intro named
    rcases named with ⟨notZero, place, same⟩
    by_cases here : place = index
    · rw [if_pos here] at same
      exact .inl same.symm
    rw [if_neg here] at same
    right
    constructor
    · exact ⟨notZero, place, same⟩
    intro isOld
    apply here
    apply knowing.unique conn place index
    · rw [same, taken.old, isOld]
    · rw [same]
      exact notZero
  intro described
  rcases described with isNew | held
  · rw [isNew]
    exact ⟨nonzero, index, if_pos rfl⟩
  rcases held with ⟨⟨notZero, place, same⟩, notOld⟩
  have apart : place ≠ index := by
    intro here
    apply notOld
    rw [← same, here, taken.old]
  exact ⟨notZero, place, by rw [if_neg apart, same]⟩

theorem clear_slot_names (sound : Sound world) (index place : Fin tableSize) :
    ((clearSlot conn world index).table (conn, place)).creatureId =
      if place = index then 0 else (world.table (conn, place)).creatureId := by
  have kept : SameNames world
      (unchainKnownCreature world conn (world.table (conn, index)).creatureId) conn :=
    unchain_names sound conn _
  unfold clearSlot
  by_cases here : place = index
  · simp [here]
  have apart : (conn, place) ≠ (conn, index) := by simpa using here
  rw [set_table, Function.update_of_ne apart, if_neg here]
  split_ifs
  · exact kept place
  · rfl

theorem clear_table_names (indices : List (Fin tableSize)) (sound : Sound world)
    (place : Fin tableSize) :
    ((indices.foldl (clearSlot conn) world).table (conn, place)).creatureId =
      if place ∈ indices then 0 else (world.table (conn, place)).creatureId := by
  induction indices generalizing world with
  | nil => simp
  | cons index rest ih =>
    rw [foldl_cons, ih (clear_slot_sound sound conn index), clear_slot_names sound]
    by_cases later : place ∈ rest <;> by_cases here : place = index <;> simp [later, here]

theorem clear_names (sound : Sound world) (id : UInt32) :
    ¬ Named (clearKnownCreatureTable world conn) conn id := by
  intro named
  rcases named with ⟨notZero, index, same⟩
  rw [clearKnownCreatureTable, clear_table_names _ sound, if_pos (mem_finRange index)] at same
  exact notZero same.symm

theorem for_chain_names {visit : Knowledge n → Node n → Knowledge n}
    (turn : ∀ world node, SameNames world (visit world node) conn) (fuel : Nat)
    (first : Option (Node n)) : SameNames world (forChain visit fuel world first) conn := by
  induction fuel generalizing world first with
  | zero => exact fun _ => rfl
  | succ fuel ih =>
    cases first with
    | none => exact fun _ => rfl
    | some node => exact (turn world node).trans (ih _)

theorem set_state_names (node : Node n) (state : KnownState) :
    SameNames world (world.setState node state) conn := by
  intro index
  by_cases here : (conn, index) = node <;> simp [Knowledge.setState, here]

theorem send_other_names (sound : Sound world) (apart : other ≠ conn) (id : UInt32) :
    SameNames world (sendCreature world other id) conn := by
  unfold sendCreature
  rcases found : world.getCreature id with _ | creature
  · exact fun _ => rfl
  simp only
  split_ifs with free
  · have unknown := known_creature_free free
    rw [unknown.1]
    unfold newKnownCreature
    rcases choice : chooseEntry world other id with _ | chosen
    · exact fun _ => rfl
    rcases chosen with ⟨oldId, index, chosen⟩
    have taken := chosen_entry sound (get_creature_some.mp found).1 unknown.2 choice
    intro place
    have notIndex : (conn, place) ≠ (other, index) := by
      intro same
      exact apart (congrArg Prod.fst same).symm
    rw [enter_names, if_neg notIndex, taken.names]
  · exact known_creature_names other id true

theorem clear_other_names (sound : Sound world) (apart : other ≠ conn) (indices : List (Fin tableSize)) :
    SameNames world (indices.foldl (clearSlot other) world) conn := by
  induction indices generalizing world with
  | nil => exact fun _ => rfl
  | cons index rest ih =>
    have first : SameNames world (clearSlot other world index) conn := by
      have kept : SameNames world
          (unchainKnownCreature world other (world.table (other, index)).creatureId) conn :=
        unchain_names sound other _
      intro place
      have notIndex : (conn, place) ≠ (other, index) := by
        intro same
        exact apart (congrArg Prod.fst same).symm
      unfold clearSlot
      simp only
      rw [set_table, Function.update_of_ne notIndex]
      split_ifs
      · exact kept place
      · rfl
    exact first.trans (ih (clear_slot_sound sound other index))

/-- What happens in the game does not rename the entries of a table, unless it is an
operation on that table. -/
theorem elsewhere_names (sound : Sound world) (event : KnownCreatures.Event n)
    (apart : onTableOf conn event = false) :
    SameNames world (KnownCreatures.step world event) conn := by
  cases event with
  | sendCreature other id => exact send_other_names sound (of_decide_eq_false apart) id
  | unchain other id => exact unchain_names sound other id
  | clear other => exact clear_other_names sound (of_decide_eq_false apart) _
  | announce id =>
    simp only [KnownCreatures.step, announceChangedCreature]
    split
    · exact fun _ => rfl
    apply for_chain_names
    intro world node
    unfold announceTo
    split_ifs
    · exact fun _ => rfl
    · exact fun _ => rfl
    · exact set_state_names node .outdated
  | destroy id =>
    simp only [KnownCreatures.step, destroyCreature]
    split
    · exact fun _ => rfl
    rename_i creature _
    have walked : SameNames { world with hashList := Function.update world.hashList id none }
        (forChain (fun world node => world.setState node .free) (walkLimit n)
          { world with hashList := Function.update world.hashList id none }
          creature.firstKnowingConnection) conn :=
      for_chain_names (fun world node => set_state_names node .free) _ _
    exact walked
  | create id position =>
    simp only [KnownCreatures.step, createCreature]
    split_ifs <;> exact fun _ => rfl
  | move id position =>
    simp only [KnownCreatures.step, moveCreature]
    split <;> exact fun _ => rfl
  | view inGame player => exact fun _ => rfl

end Names

/-- The client knows what the table names, once it has the packet in progress; no entry it
gets refers to a creature that it was not told about. -/
structure Agrees (conn : Fin n) (session : Session n) : Prop where
  sound : Sound session.world
  same : ∀ id, id ∈ told (session.delivered ++ session.packet) ↔ Named session.world conn id
  referring : Referring [] (session.delivered ++ session.packet)
  idle : session.composing = false → session.packet = []

section Steps

variable {conn : Fin n} {session : Session n}

theorem Agrees.give_up (agrees : Agrees conn session) (nothing : nothingAdded session = true)
    (composing overflow : Bool) :
    Agrees conn { session with composing := composing, overflow := overflow, packet := [] } := by
  have none' : session.packet.any Entry.adds = false := by
    simpa [nothingAdded] using nothing
  have heard : told (session.delivered ++ session.packet) = told session.delivered := by
    rw [told, foldl_append, hear_all_kept none']
    rfl
  constructor
  · exact agrees.sound
  · intro id
    rw [append_nil, ← heard]
    exact agrees.same id
  · rw [append_nil]
    exact ((referring_append session.packet).mp agrees.referring).1
  · intro _
    rfl

theorem Agrees.more (agrees : Agrees conn session) {world : Knowledge n} {entry : Entry}
    (fits : Bool) (composing : session.composing = true) (sound : Sound world)
    (same : ∀ id, id ∈ hear (told (session.delivered ++ session.packet)) entry ↔ Named world conn id)
    (refers : Referring (told (session.delivered ++ session.packet)) [entry]) :
    Agrees conn { session with
      world := world
      packet := session.packet ++ [entry]
      overflow := session.overflow || !fits } := by
  constructor
  · exact sound
  · intro id
    rw [← append_assoc, told, foldl_append]
    exact same id
  · rw [← append_assoc, referring_append]
    exact ⟨agrees.referring, refers⟩
  · intro closed
    rw [composing] at closed
    cases closed

/-- An entry that is known is of a creature that the client was told about. -/
theorem known_named {world : Knowledge n} {id : UInt32} (nonzero : id ≠ 0)
    (known : (knownCreature world conn id true).1 ≠ .free) : Named world conn id := by
  unfold knownCreature at known
  cases found : world.findId conn id with
  | none =>
    rw [found] at known
    exact absurd rfl known
  | some index => exact ⟨nonzero, index, by simpa using first_index_some found⟩

theorem send_map_object_agrees (agrees : Agrees conn session) (id : UInt32) (fits : Bool)
    (composing : session.composing = true)
    (kept : kept conn session (.sendMapObject id fits) = true) :
    Agrees conn (sendMapObject conn session id fits) := by
  unfold sendMapObject
  rcases found : session.world.getCreature id with _ | creature
  · exact agrees
  have nonzero := (get_creature_some.mp found).1
  have names : SameNames session.world (knownCreature session.world conn id true).2 conn :=
    known_creature_names conn id true
  have looked := known_creature_sound agrees.sound conn id true
  have stays : ∀ other, other ∈ told (session.delivered ++ session.packet) ↔
      Named (knownCreature session.world conn id true).2 conn other := by
    intro other
    rw [agrees.same, names.named]
  simp only [creatureEntry]
  cases state : (knownCreature session.world conn id true).1 with
  | upToDate =>
    have here : id ∈ told (session.delivered ++ session.packet) :=
      (agrees.same id).mpr (known_named nonzero (by rw [state]; simp))
    exact agrees.more fits composing looked stays ⟨here, trivial⟩
  | outdated =>
    have here : id ∈ told (session.delivered ++ session.packet) :=
      (agrees.same id).mpr (known_named nonzero (by rw [state]; simp))
    exact agrees.more fits composing looked stays ⟨here, trivial⟩
  | free =>
    have unknown := known_creature_free state
    rw [unknown.1] at stays ⊢
    have available : (chooseEntry session.world conn id).isSome = true := by
      simpa [KnownAgreement.kept, composing, found, state] using kept
    rcases Option.isSome_iff_exists.mp available with ⟨choice, chosen⟩
    rcases choice with ⟨oldId, index, after⟩
    have taken := chosen_entry agrees.sound nonzero unknown.2 chosen
    have entered : newKnownCreature session.world conn id =
        (oldId, enterCreature after (conn, index) id) := by
      unfold newKnownCreature
      rw [chosen]
    have sound : Sound (newKnownCreature session.world conn id).2 :=
      new_known_creature_sound agrees.sound found unknown.2
    rw [entered] at sound ⊢
    apply agrees.more fits composing sound
    · intro other
      rw [mem_hear_added, new_known_names taken agrees.sound nonzero, agrees.same]
    · exact ⟨trivial, trivial⟩

theorem step_agrees (agrees : Agrees conn session) (event : Event n)
    (kept : kept conn session event = true) : Agrees conn (step conn session event) := by
  cases event with
  | beginSendData accepted =>
    simp only [step]
    split_ifs
    · exact agrees.give_up kept true false
    · exact agrees.give_up kept false session.overflow
  | sendMapObject id fits =>
    simp only [step]
    split_ifs with composing
    · exact send_map_object_agrees agrees id fits composing kept
    · exact agrees
  | sendOther fits =>
    simp only [step]
    split_ifs
    · exact ⟨agrees.sound, agrees.same, agrees.referring, agrees.idle⟩
    · exact agrees
  | finishSendData live =>
    simp only [step]
    split_ifs with committed
    · constructor
      · exact agrees.sound
      · intro id
        rw [append_nil]
        exact agrees.same id
      · rw [append_nil]
        exact agrees.referring
      · intro _
        rfl
    have nothing : nothingAdded session = true := by
      rcases composing : session.composing with _ | _
      · simp [nothingAdded, agrees.idle composing]
      rw [composing] at committed
      cases live <;> cases overflow : session.overflow <;>
        simp [KnownAgreement.kept, overflow] at kept committed <;> exact kept
    exact agrees.give_up nothing false session.overflow
  | elsewhere event =>
    simp only [step]
    split_ifs with own
    · exact agrees
    have names := elsewhere_names agrees.sound event (Bool.eq_false_iff.mpr own)
    constructor
    · exact step_sound agrees.sound event
    · intro id
      rw [names.named]
      exact agrees.same id
    · exact agrees.referring
    · exact agrees.idle
  | newClient =>
    constructor
    · exact clear_sound agrees.sound conn
    · intro id
      constructor
      · nofun
      · intro named
        exact absurd named (clear_names agrees.sound id)
    · trivial
    · intro _
      rfl

end Steps

theorem start_agrees (conn : Fin n) : Agrees conn (start n) := by
  constructor
  · exact start_sound n
  · intro id
    constructor
    · nofun
    · intro named
      rcases named with ⟨notZero, index, same⟩
      exact absurd same.symm notZero
  · trivial
  · intro _
    rfl

theorem agrees_from {conn : Fin n} {session : Session n} (agrees : Agrees conn session)
    (events : List (Event n)) (kept : allKept conn session events = true) :
    Agrees conn (events.foldl (step conn) session) := by
  induction events generalizing session with
  | nil => exact agrees
  | cons event events ih =>
    rw [allKept, Bool.and_eq_true] at kept
    exact ih (step_agrees agrees event kept.1) kept.2

/-- In every run in which a new creature finds an entry, and no packet that adds a creature
is dropped: between packets the client has been told about exactly the creatures that the
table names, and its entries of types 98 and 99 refer to creatures it knows. -/
theorem client_knows_table (conn : Fin n) (events : List (Event n))
    (kept : allKept conn (start n) events = true) :
    ((run conn events).composing = false → ∀ id : UInt32, id ∈ told (run conn events).delivered ↔
      id ≠ 0 ∧ ∃ index, ((run conn events).world.table (conn, index)).creatureId = id) ∧
    Referring [] (run conn events).delivered := by
  have agrees : Agrees conn (run conn events) := agrees_from (start_agrees conn) events kept
  constructor
  · intro closed id
    have same := agrees.same id
    rw [agrees.idle closed, append_nil] at same
    exact same
  · exact ((referring_append _).mp agrees.referring).1

/-- A creature comes into sight and is described in a packet for which there is room or not. -/
def describe (fits : Bool) : List (Event 1) :=
  [.elsewhere (.create 7 ⟨0, 0, 0⟩), .beginSendData true, .sendMapObject 7 fits,
    .finishSendData true]

theorem client_knows_table_described :
    (run 0 (describe true)).composing = false ∧
      (7 ∈ told (run 0 (describe true)).delivered ↔ (7 : UInt32) ≠ 0 ∧
        ∃ index, ((run 0 (describe true)).world.table (0, index)).creatureId = 7) :=
  ⟨by decide, (client_knows_table 0 (describe true) (by decide)).1 (by decide) 7⟩

/-- The packet overflows and is dropped, and the table keeps the creature. -/
theorem dropped_packet_forgotten :
    ¬ ∀ (n : Nat) (conn : Fin n) (events : List (Event n)),
      (run conn events).composing = false → ∀ id : UInt32, id ∈ told (run conn events).delivered ↔
        id ≠ 0 ∧ ∃ index, ((run conn events).world.table (conn, index)).creatureId = id := by
  intro all
  have same := all 1 0 (describe false) (by decide) 7
  have untold : 7 ∉ told (run 0 (describe false)).delivered := by decide
  exact untold (same.mpr ⟨by decide, ⟨0, by decide⟩, by decide⟩)

end TibiaGame.KnownAgreement
