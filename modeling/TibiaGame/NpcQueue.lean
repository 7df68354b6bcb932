import TibiaGame.Library.ArrivalOrder
import TibiaGame.Library.CountedArray
import TibiaGame.StringRuns

/-!
# The queue of an NPC

Players who speak to a busy NPC are queued in `npc.cpp`, with what they said as a dynamic
string. A reaction of the NPC can do anything to the game, so that `IdleStimulus` is cut into
steps where it reacts, and the other calls may come between any two of them.
-/

namespace TibiaGame.NpcQueue

open DynamicStrings StringRuns Library.ArrivalOrder Library.CountedArray List

inductive Mode where
  | sleeping
  | idle
  | talking
  | leaving
  deriving DecidableEq

/-- The kinds of a move of `notify_all_creatures`. -/
inductive MoveType where
  | deleted
  | created
  | changed
  deriving DecidableEq

structure Position where
  x : Int
  y : Int
  z : Int

/-- What the modelled functions read of a `TNPC`. -/
structure Npc where
  id : UInt32
  pos : Position
  state : Mode
  interlocutor : UInt32
  lastTalk : UInt32
  queuedPlayers : Nat → UInt32
  queuedAddresses : Nat → UInt32
  queueLength : Nat

/-- Where `IdleStimulus` is, with the text that it has taken out of the queue. -/
inductive Place where
  | outside
  | vanishing
  | looping
  | answering (text : UInt32)
  deriving DecidableEq

/-- A player was queued, with the number of the text that was given. -/
structure Enqueued where
  player : UInt32
  address : UInt32
  text : Option (List UInt8)

/-- The NPC in the game. The last two fields record what `Enqueue` has added, the latest in
front, and which numbers the NPC has passed to `DeleteDynamicString`. -/
structure World where
  npc : Npc
  place : Place
  creatures : UInt32 → Option Position
  roundNr : UInt32
  strings : StringRun
  added : List Enqueued
  deleted : List UInt32

def Npc.remove (npc : Npc) (index : Nat) : Npc :=
  let queueLength := npc.queueLength - 1
  { npc with
    queuedPlayers := closeUp npc.queuedPlayers index (queueLength - index)
    queuedAddresses := closeUp npc.queuedAddresses index (queueLength - index)
    queueLength := queueLength }

def Npc.isQueued (npc : Npc) (player : UInt32) : Bool :=
  (List.range npc.queueLength).any fun index => npc.queuedPlayers index == player

/-- `AddDynamicString` and `DeleteDynamicString`, with the strings that are live then. -/
def addString (strings : StringRun) (text : Option (List UInt8)) : StringRun :=
  strings.goOn (addDynamicString strings.table text).2
    (if Storable (cString (text.getD [])) then
      ((addDynamicString strings.table text).1, cString (text.getD [])) :: strings.live
    else strings.live)

def deleteString (strings : StringRun) (number : UInt32) : StringRun :=
  strings.goOn (deleteDynamicString strings.table number)
    (strings.live.filter fun entry => entry.1 ≠ number)

def append (world : World) (interlocutorID : UInt32) (text : Option (List UInt8)) : World :=
  let npc := world.npc
  let address := (addDynamicString world.strings.table text).1
  { world with
    npc := { npc with
      queuedPlayers := Function.update npc.queuedPlayers npc.queueLength interlocutorID
      queuedAddresses := Function.update npc.queuedAddresses npc.queueLength address
      queueLength := npc.queueLength + 1 }
    strings := addString world.strings text
    added := ⟨interlocutorID, address, text⟩ :: world.added }

def enqueue (world : World) (interlocutorID : UInt32) (text : Option (List UInt8)) : World :=
  if interlocutorID = 0 then world
  else if text = none then world
  else if world.npc.isQueued interlocutorID then world
  else append world interlocutorID text

def near (pos other : Position) : Bool :=
  pos.z == other.z && decide (|pos.x - other.x| < 5) && decide (|pos.y - other.y| < 4)

/-- Whether a queued player leaves the queue; a player who does not exist is accessed. -/
def leaves (world : World) (creatureID : UInt32) (type : MoveType) (player : UInt32) :
    Option Bool :=
  if creatureID ≠ player ∧ creatureID ≠ world.npc.id then some false
  else if type = .deleted then some true
  else (world.creatures player).map fun pos => !near pos world.npc.pos

/-- The loop of `CreatureMoveStimulus`, with the number of entries that are still to be seen. -/
def moveLoop (world : World) (creatureID : UInt32) (type : MoveType) :
    Nat → Nat → Npc → Option Npc
  | 0, _, npc => some npc
  | rest + 1, index, npc => do
      if ← leaves world creatureID type (npc.queuedPlayers index) then
        moveLoop world creatureID type rest index (npc.remove index)
      else moveLoop world creatureID type rest (index + 1) npc

/-- The interlocutor moves; a reaction before the change of state is a step of its own. -/
def moveState (world : World) (creatureID : UInt32) (type : MoveType) : Mode :=
  let npc := world.npc
  let state :=
    if (npc.state = .talking ∨ npc.state = .leaving) ∧
        (creatureID = npc.interlocutor ∨ creatureID = npc.id) then
      match world.creatures npc.interlocutor with
      | none => .idle
      | some pos =>
          if npc.state = .talking ∧ (type = .deleted ∨ near pos npc.pos = false) then .idle
          else npc.state
    else npc.state
  if creatureID ≠ npc.id ∧ state = .sleeping ∧ type ≠ .deleted then .idle else state

def creatureMove (world : World) (creatureID : UInt32) (type : MoveType) : Option World :=
  (moveLoop world creatureID type world.npc.queueLength 0 world.npc).map fun npc =>
    { world with npc := { npc with state := moveState world creatureID type } }

/-- The start of `IdleStimulus`, up to its first reaction. -/
def idleStimulus (world : World) : Option World :=
  if world.place ≠ .outside then none
  else if world.npc.state = .talking then
    if world.npc.lastTalk + 30 > world.roundNr then some world
    else some { world with place := .vanishing }
  else if world.npc.state = .idle then some { world with place := .looping }
  else some world

/-- `IdleStimulus` goes on, up to its next reaction or its end. -/
def idleNext (world : World) (alone : Bool) : Option World :=
  let npc := world.npc
  match world.place with
  | .outside => none
  | .vanishing => some { world with npc := { npc with state := .idle }, place := .looping }
  | .looping =>
      if 0 < npc.queueLength then
        let interlocutorID := npc.queuedPlayers 0
        let text := npc.queuedAddresses 0
        let npc := npc.remove 0
        match world.creatures interlocutorID with
        | some _ =>
            some { world with
              npc := { npc with state := .talking, interlocutor := interlocutorID }
              place := .answering text }
        | none => some { world with npc := npc, place := .answering text }
      else
        some { world with
          npc := { npc with state := if alone then .sleeping else npc.state }
          place := .outside }
  | .answering text =>
      let world := { world with
        strings := deleteString world.strings text
        deleted := text :: world.deleted }
      if npc.state = .talking then
        some { world with npc := { npc with lastTalk := world.roundNr }, place := .outside }
      else some { world with place := .looping }

def Npc.queue (npc : Npc) : List (UInt32 × UInt32) :=
  (List.range npc.queueLength).map fun index => (npc.queuedPlayers index, npc.queuedAddresses index)

def World.players (world : World) : List UInt32 := world.npc.queue.map Prod.fst

/-- The text that `IdleStimulus` holds. -/
def Place.text : Place → List UInt32
  | .answering text => [text]
  | _ => []

def World.addresses (world : World) : List UInt32 :=
  world.npc.queue.map Prod.snd ++ world.place.text

/-- What else happens: the game goes on, a reaction or another stimulus changes the state of
the NPC, and the string table serves others, who delete strings of their own. -/
inductive Step where
  | enqueue (interlocutorID : UInt32) (text : Option (List UInt8))
  | creatureMove (creatureID : UInt32) (type : MoveType)
  | idleStimulus
  | idleNext (alone : Bool)
  | elsewhere (creatures : UInt32 → Option Position) (roundNr : UInt32) (pos : Position)
      (state : Mode) (interlocutor lastTalk : UInt32)
  | strings (call : StringCall)

def foreign (world : World) : StringCall → Bool
  | .delete number =>
      decide (number ∉ world.addresses) && (world.strings.live.map Prod.fst).contains number
  | _ => true

def step (world : World) : Step → Option World
  | .enqueue interlocutorID text => some (enqueue world interlocutorID text)
  | .creatureMove creatureID type => creatureMove world creatureID type
  | .idleStimulus => idleStimulus world
  | .idleNext alone => idleNext world alone
  | .elsewhere creatures roundNr pos state interlocutor lastTalk =>
      some { world with
        creatures := creatures
        roundNr := roundNr
        npc := { world.npc with
          pos := pos, state := state, interlocutor := interlocutor, lastTalk := lastTalk } }
  | .strings call =>
      if foreign world call then
        (stringCall world.strings call).map fun strings => { world with strings := strings }
      else none

def run (world : World) : List Step → Option World
  | [] => some world
  | call :: rest => (step world call).bind fun after => run after rest

def newNpc (id : UInt32) (pos : Position) : World where
  npc := ⟨id, pos, .sleeping, 0, 0, fun _ => 0, fun _ => 0, 0⟩
  place := .outside
  creatures := fun _ => none
  roundNr := 0
  strings := ⟨[], [], 0⟩
  added := []
  deleted := []

section Rows

variable {world after : World} {npc : Npc}

theorem queue_length (npc : Npc) : npc.queue.length = npc.queueLength := by
  rw [Npc.queue, length_map, length_range]

theorem queue_players (npc : Npc) :
    npc.queue.map Prod.fst = (List.range npc.queueLength).map npc.queuedPlayers := by
  rw [Npc.queue, map_map]
  rfl

theorem is_queued_iff {player : UInt32} :
    npc.isQueued player = true ↔ player ∈ npc.queue.map Prod.fst := by
  rw [queue_players, Npc.isQueued, any_eq_true, mem_map]
  constructor
  · rintro ⟨index, within, same⟩
    exact ⟨index, within, beq_iff_eq.mp same⟩
  · rintro ⟨index, within, same⟩
    exact ⟨index, within, beq_iff_eq.mpr same⟩

theorem remove_queue (npc : Npc) {index : Nat} (within : index < npc.queueLength) :
    (npc.remove index).queue = npc.queue.eraseIdx index := by
  have pairs := close_up_row (fun place => (npc.queuedPlayers place, npc.queuedAddresses place))
    within
  rw [Npc.queue, Npc.queue, ← pairs]
  apply map_congr_left
  intro place _
  simp only [Npc.remove, close_up_at]
  split_ifs <;> rfl

theorem moved_sublist {creatureID : UInt32} {type : MoveType} (rest index : Nat) (npc : Npc)
    {moved : Npc} (total : index + rest = npc.queueLength)
    (went : moveLoop world creatureID type rest index npc = some moved) :
    moved.queue.Sublist npc.queue := by
  induction rest generalizing index npc with
  | zero =>
    cases went
    exact List.Sublist.refl _
  | succ rest ih =>
    rcases Option.bind_eq_some_iff.mp went with ⟨gone, _, goesOn⟩
    cases gone with
    | true =>
      have shorter := ih index (npc.remove index) (by simp only [Npc.remove]; omega) goesOn
      rw [remove_queue npc (by omega)] at shorter
      exact shorter.trans (eraseIdx_sublist _ _)
    | false => exact ih (index + 1) npc (by omega) goesOn

theorem append_queue (world : World) (interlocutorID : UInt32) (text : Option (List UInt8)) :
    (append world interlocutorID text).npc.queue =
      world.npc.queue ++ [(interlocutorID, (addDynamicString world.strings.table text).1)] := by
  simp only [append, Npc.queue, range_succ, map_append, map_singleton,
    Function.update_self]
  congr 1
  apply map_congr_left
  intro place inRange
  have different := Nat.ne_of_lt (mem_range.mp inRange)
  rw [Function.update_of_ne different, Function.update_of_ne different]

theorem enqueue_cases (world : World) (interlocutorID : UInt32) (text : Option (List UInt8)) :
    enqueue world interlocutorID text = world ∨
      interlocutorID ≠ 0 ∧ text ≠ none ∧ interlocutorID ∉ world.players ∧
        enqueue world interlocutorID text = append world interlocutorID text := by
  unfold enqueue
  split_ifs with missing noText queued
  · exact .inl rfl
  · exact .inl rfl
  · exact .inl rfl
  · right
    refine ⟨missing, noText, ?_, rfl⟩
    intro member
    exact queued (is_queued_iff.mpr member)

/-- In each step players leave the queue, or `Enqueue` puts a new one at its end. -/
theorem step_players {call : Step} (went : step world call = some after) :
    after.players.Sublist world.players ∨ ∃ player text, call = .enqueue player text ∧
      player ∉ world.players ∧ after.players = world.players ++ [player] := by
  have same : ∀ {next : World}, next.npc.queue = world.npc.queue →
      next.players.Sublist world.players := by
    intro next same
    rw [World.players, World.players, same]
  cases call with
  | enqueue interlocutorID text =>
    cases went
    rcases enqueue_cases world interlocutorID text with kept | grown
    · exact .inl (same (congrArg (fun next => next.npc.queue) kept))
    refine .inr ⟨interlocutorID, text, rfl, grown.2.2.1, ?_⟩
    rw [World.players, grown.2.2.2, append_queue, map_append]
    rfl
  | creatureMove creatureID type =>
    left
    rcases Option.map_eq_some_iff.mp went with ⟨npc, moved, rfl⟩
    exact (moved_sublist _ 0 world.npc (Nat.zero_add _) moved).map _
  | idleStimulus =>
    left
    simp only [step, idleStimulus] at went
    split_ifs at went <;> cases went <;> exact same rfl
  | idleNext alone =>
    left
    simp only [step, idleNext] at went
    cases place : world.place with
    | outside => rw [place] at went; cases went
    | vanishing =>
      rw [place] at went
      cases went
      exact same rfl
    | looping =>
      rw [place] at went
      by_cases some_queued : 0 < world.npc.queueLength
      · rw [if_pos some_queued] at went
        have erased := remove_queue world.npc some_queued
        have shorter : ((world.npc.remove 0).queue.map Prod.fst).Sublist world.players := by
          rw [erased]
          exact (eraseIdx_sublist _ _).map _
        rcases found : world.creatures (world.npc.queuedPlayers 0) with _ | pos
        · rw [found] at went
          cases went
          exact shorter
        rw [found] at went
        cases went
        exact shorter
      rw [if_neg some_queued] at went
      cases went
      exact same rfl
    | answering text =>
      rw [place] at went
      split_ifs at went <;> cases went <;> exact same rfl
  | elsewhere creatures roundNr pos state interlocutor lastTalk =>
    cases went
    exact .inl (same rfl)
  | strings call =>
    left
    simp only [step] at went
    split_ifs at went
    rcases Option.map_eq_some_iff.mp went with ⟨strings, _, rfl⟩
    exact same rfl

end Rows

section Order

variable {world after : World}

theorem run_append (steps later : List Step) (world : World) :
    run world (steps ++ later) = (run world steps).bind fun middle => run middle later := by
  induction steps generalizing world with
  | nil => rfl
  | cons call rest ih =>
    rw [cons_append, run, run]
    cases step world call with
    | none => rfl
    | some next => exact ih next

def rows (world : World) (steps : List Step) (now : Nat) : List UInt32 :=
  ((run world (steps.take now)).map World.players).getD []

theorem rows_of_run {steps : List Step} {now : Nat} (ran : run world (steps.take now) = some after) :
    rows world steps now = after.players := by
  rw [rows, ran]
  rfl

theorem run_prefix {steps : List Step} (ran : run world steps = some after) (now : Nat) :
    ∃ middle, run world (steps.take now) = some middle ∧
      run middle (steps.drop now) = some after := by
  rw [← take_append_drop now steps, run_append] at ran
  exact Option.bind_eq_some_iff.mp ran

theorem rows_step {steps : List Step} (ran : run world steps = some after) (now : Nat) :
    (rows world steps (now + 1)).Sublist (rows world steps now) ∨ ∃ player text,
      steps[now]? = some (.enqueue player text) ∧ player ∉ rows world steps now ∧
      rows world steps (now + 1) = rows world steps now ++ [player] := by
  rcases run_prefix ran now with ⟨middle, came, _⟩
  rcases run_prefix ran (now + 1) with ⟨next, further, _⟩
  rw [rows_of_run came, rows_of_run further]
  rcases found : steps[now]? with _ | call
  · have beyond := List.getElem?_eq_none_iff.mp found
    rw [take_of_length_le (by omega)] at came further
    rw [came] at further
    cases further
    exact .inl (List.Sublist.refl _)
  rw [take_add_one, found, run_append, came] at further
  have went : step middle call = some next := by
    change ((step middle call).bind fun after => some after) = some next at further
    rw [Option.bind_fun_some] at further
    exact further
  rcases step_players went with fewer | grown
  · exact .inl fewer
  rcases grown with ⟨player, text, same, away, last⟩
  rw [same]
  exact .inr ⟨player, text, rfl, away, last⟩

theorem rows_queueing {steps : List Step} {id : UInt32} {pos : Position}
    (ran : run (newNpc id pos) steps = some after) : Queueing (rows (newNpc id pos) steps) := by
  constructor
  · rfl
  intro now
  rcases rows_step ran now with fewer | grown
  · exact .inl fewer
  rcases grown with ⟨player, text, _, away, last⟩
  exact .inr ⟨player, away, last⟩

theorem came_by_enqueue {steps : List Step} (ran : run world steps = some after) {now came : Nat}
    {player : UInt32} (since : Since (rows world steps) now came player) :
    ∃ text, steps[came]? = some (.enqueue player text) := by
  have inside := since.stays (came + 1) (Nat.lt_succ_self came) since.before
  rcases rows_step ran came with fewer | grown
  · exact absurd (fewer.subset inside) since.away
  rcases grown with ⟨other, text, call, _, last⟩
  rw [last, mem_append, mem_singleton] at inside
  rcases inside with before | same
  · exact absurd before since.away
  rw [same]
  exact ⟨text, call⟩

end Order

section Texts

variable {world after : World}

/-- What `Enqueue` has added for the player the last time. -/
def World.latest (world : World) (player : UInt32) : Option Enqueued :=
  world.added.find? fun entry => entry.player == player

/-- The table has numbers that fit an `int`. -/
def Few (world : World) : Prop := world.strings.table.length < 8388608

/-- Nobody leaves the queue by a move, and what is queued is a string that the table takes. -/
def Suits (world : World) : Step → Prop
  | .enqueue interlocutorID text =>
      interlocutorID ≠ 0 → text ≠ none → world.npc.isQueued interlocutorID = false →
        Storable (cString (text.getD []))
  | .creatureMove creatureID type =>
      ∀ player ∈ world.players, leaves world creatureID type player = some false
  | _ => True

def Suitable (world : World) : List Step → Prop
  | [] => Few world
  | call :: rest =>
      Few world ∧ Suits world call ∧ ∀ after, step world call = some after → Suitable after rest

instance (world : World) : Decidable (Few world) := inferInstanceAs (Decidable (_ < _))

instance decidableSuits (world : World) : (call : Step) → Decidable (Suits world call)
  | .enqueue _ _ => inferInstanceAs (Decidable (_ → _ → _ → _))
  | .creatureMove _ _ => List.decidableBAll _ _
  | .idleStimulus => .isTrue trivial
  | .idleNext _ => .isTrue trivial
  | .elsewhere .. => .isTrue trivial
  | .strings _ => .isTrue trivial

instance decidableSuitable : (steps : List Step) → (world : World) →
    Decidable (Suitable world steps)
  | [], world => inferInstanceAs (Decidable (Few world))
  | call :: rest, world =>
    match went : step world call with
    | none =>
      decidable_of_iff (Few world ∧ Suits world call) (by simp [Suitable, went])
    | some after =>
      have := decidableSuitable rest after
      decidable_of_iff (Few world ∧ Suits world call ∧ Suitable after rest)
        (by simp [Suitable, went])

/-- Every entry of the queue has its text, and the strings are accounted for: those that were
added for the NPC are deleted, or it has them. -/
structure Kept (world : World) : Prop where
  texts : ∀ player address, (player, address) ∈ world.npc.queue → ∃ entry,
    world.latest player = some entry ∧ entry.address = address ∧
      getDynamicString world.strings.table address = some (cString (entry.text.getD []))
  held : ∀ address ∈ world.place.text, (getDynamicString world.strings.table address).isSome = true
  ledger : ∀ number, (world.added.map Enqueued.address).count number =
    world.deleted.count number + world.addresses.count number

structure Tended (world : World) : Prop where
  sound : TableSound world.strings.table
  agrees : Agrees world.strings
  texts : ∀ player address, (player, address) ∈ world.npc.queue → ∃ entry,
    world.latest player = some entry ∧ entry.address = address ∧
      (address, cString (entry.text.getD [])) ∈ world.strings.live
  held : ∀ address ∈ world.place.text, address ∈ world.strings.live.map Prod.fst
  apart : world.addresses.Nodup
  ledger : ∀ number, (world.added.map Enqueued.address).count number =
    world.deleted.count number + world.addresses.count number

section

variable (tended : Tended world)
include tended

theorem tended_kept (few : Few world) : Kept world := by
  have correct := tended.agrees.correct world.strings tended.sound few
  constructor
  · intro player address member
    rcases tended.texts player address member with ⟨entry, latest, same, live⟩
    exact ⟨entry, latest, same, correct.read _ _ live⟩
  · intro address member
    rcases mem_map.mp (tended.held address member) with ⟨entry, live, same⟩
    have found := correct.read entry.1 entry.2 live
    rw [← same, found]
    rfl
  · exact tended.ledger

theorem tended_same (strings : after.strings = world.strings)
    (queue : after.npc.queue = world.npc.queue) (text : after.place.text = world.place.text)
    (added : after.added = world.added) (deleted : after.deleted = world.deleted) :
    Tended after := by
  have addresses : after.addresses = world.addresses := by
    rw [World.addresses, World.addresses, queue, text]
  constructor
  · rw [strings]
    exact tended.sound
  · rw [strings]
    exact tended.agrees
  · rw [queue, strings]
    intro player address member
    rw [World.latest, added]
    exact tended.texts player address member
  · rw [text, strings]
    exact tended.held
  · rw [addresses]
    exact tended.apart
  · rw [added, deleted, addresses]
    exact tended.ledger

theorem tended_strings {call : StringCall} {strings : StringRun} (mine : foreign world call = true)
    (called : stringCall world.strings call = some strings) (fewBefore : Few world)
    (few : strings.table.length < 8388608) : Tended { world with strings := strings } := by
  have proper : ∀ number, call = .delete number → number.toNat < 2147483648 := by
    intro number same
    rw [same] at mine
    simp only [foreign, Bool.and_eq_true, contains_iff_mem] at mine
    rcases mem_map.mp mine.2 with ⟨entry, live, here⟩
    rcases tended.agrees.slots entry.1 entry.2 live with ⟨index, place, value, stored⟩
    rw [← here, value]
    exact stored_small _ index place entry.2 stored fewBefore
  have stays : ∀ address ∈ world.addresses, ∀ text, (address, text) ∈ world.strings.live →
      (address, text) ∈ strings.live := by
    intro address isMine text live
    cases call with
    | add string =>
      cases called
      split_ifs
      · exact mem_cons_of_mem _ live
      · exact live
    | delete number =>
      cases called
      simp only [foreign, Bool.and_eq_true, decide_eq_true_eq] at mine
      apply mem_filter.mpr
      refine ⟨live, decide_eq_true ?_⟩
      intro same
      rw [← same] at mine
      exact mine.1 isMine
    | cleanup =>
      rcases Option.map_eq_some_iff.mp called with ⟨table, _, rfl⟩
      exact live
  rcases call_sound world.strings call tended.sound with ⟨result, returned, sound, _⟩
  rw [called] at returned
  cases returned
  constructor
  · exact sound
  · exact call_agrees world.strings strings call tended.agrees tended.sound called proper few
  · intro player address member
    rcases tended.texts player address member with ⟨entry, latest, same, live⟩
    refine ⟨entry, latest, same, stays address ?_ _ live⟩
    exact mem_append_left _ (mem_map.mpr ⟨(player, address), member, rfl⟩)
  · intro address member
    rcases mem_map.mp (tended.held address member) with ⟨entry, live, same⟩
    have isMine : entry.1 ∈ world.addresses := by
      rw [same]
      exact mem_append_right _ member
    exact mem_map.mpr ⟨entry, stays entry.1 isMine entry.2 live, same⟩
  · exact tended.apart
  · exact tended.ledger

theorem tended_append {interlocutorID : UInt32} {text : Option (List UInt8)}
    (away : interlocutorID ∉ world.players) (storable : Storable (cString (text.getD [])))
    (few : Few (append world interlocutorID text)) : Tended (append world interlocutorID text) := by
  have queue := append_queue world interlocutorID text
  set number := (addDynamicString world.strings.table text).1 with numberIs
  have live : (append world interlocutorID text).strings.live =
      (number, cString (text.getD [])) :: world.strings.live := by
    simp only [append, addString, StringRun.goOn, if_pos storable]
    rfl
  have sound : TableSound (append world interlocutorID text).strings.table := by
    rcases call_sound world.strings (.add text) tended.sound with ⟨result, returned, sound, _⟩
    cases returned
    exact sound
  have agrees : Agrees (append world interlocutorID text).strings := by
    have grown := tended.agrees.add world.strings text tended.sound storable few
    simpa only [append, addString, if_pos storable] using grown
  have isLive : ∀ address ∈ world.addresses, address ∈ world.strings.live.map Prod.fst := by
    intro address member
    rcases mem_append.mp member with queued | pending
    · rcases mem_map.mp queued with ⟨pair, inQueue, same⟩
      rcases tended.texts pair.1 pair.2 inQueue with ⟨entry, _, _, stored⟩
      rw [← same]
      exact mem_map.mpr ⟨_, stored, rfl⟩
    · exact tended.held address pending
  have fresh : number ∉ world.addresses := by
    intro member
    have distinct := agrees.distinct
    rw [live, map_cons, nodup_cons] at distinct
    exact distinct.1 (isLive number member)
  have addresses : (append world interlocutorID text).addresses.Perm (number :: world.addresses) := by
    rw [World.addresses, queue, map_append, append_assoc]
    exact perm_middle
  constructor
  · exact sound
  · exact agrees
  · intro player address member
    rw [queue, mem_append, mem_singleton] at member
    rw [live]
    rcases member with before | last
    · rcases tended.texts player address before with ⟨entry, latest, same, stored⟩
      refine ⟨entry, ?_, same, mem_cons_of_mem _ stored⟩
      have different : ¬ interlocutorID = player := by
        intro again
        rw [again] at away
        exact away (mem_map.mpr ⟨(player, address), before, rfl⟩)
      have skips : ((⟨interlocutorID, number, text⟩ : Enqueued).player == player) = false :=
        beq_eq_false_iff_ne.mpr different
      rw [World.latest, append, List.find?_cons, skips]
      exact latest
    cases last
    refine ⟨⟨interlocutorID, number, text⟩, ?_, rfl, mem_cons_self⟩
    rw [World.latest, append, List.find?_cons, beq_self_eq_true]
  · intro address member
    rw [live, map_cons]
    exact mem_cons_of_mem _ (tended.held address member)
  · apply addresses.nodup_iff.mpr
    exact nodup_cons.mpr ⟨fresh, tended.apart⟩
  · intro other
    have before := tended.ledger other
    rw [addresses.count_eq]
    simp only [append, map_cons, count_cons, ← numberIs]
    omega

theorem tended_enqueue {interlocutorID : UInt32} {text : Option (List UInt8)}
    (suits : Suits world (.enqueue interlocutorID text))
    (few : Few (enqueue world interlocutorID text)) :
    Tended (enqueue world interlocutorID text) := by
  rcases enqueue_cases world interlocutorID text with same | grown
  · rw [same]
    exact tended
  rcases grown with ⟨notZero, some_text, away, same⟩
  rw [same] at few ⊢
  apply tended_append tended away _ few
  apply suits notZero some_text
  apply Bool.eq_false_iff.mpr
  intro queued
  exact away (is_queued_iff.mp queued)

theorem tended_pop (isLoop : world.place = .looping) (some_queued : 0 < world.npc.queueLength)
    (queue : after.npc.queue = (world.npc.remove 0).queue)
    (place : after.place = .answering (world.npc.queuedAddresses 0))
    (strings : after.strings = world.strings) (added : after.added = world.added)
    (deleted : after.deleted = world.deleted) : Tended after := by
  have split : world.npc.queue =
      (world.npc.queuedPlayers 0, world.npc.queuedAddresses 0) :: after.npc.queue := by
    rw [queue, remove_queue world.npc some_queued, eraseIdx_zero]
    have notEmpty : world.npc.queue ≠ [] := by
      intro empty
      have length := queue_length world.npc
      rw [empty] at length
      exact absurd some_queued (by rw [← length]; exact Nat.lt_irrefl 0)
    rw [← cons_head_tail notEmpty, tail_cons]
    congr 1
    rw [head_eq_getElem]
    simp only [Npc.queue, getElem_map, getElem_range]
  have addresses : world.addresses.Perm after.addresses := by
    rw [World.addresses, World.addresses, split, isLoop, place]
    simp only [Place.text, map_cons, append_nil]
    exact (perm_append_singleton _ _).symm
  constructor
  · rw [strings]
    exact tended.sound
  · rw [strings]
    exact tended.agrees
  · intro player address member
    rw [World.latest, added, strings]
    apply tended.texts player address
    rw [split]
    exact mem_cons_of_mem _ member
  · intro address member
    rw [place, Place.text, mem_singleton] at member
    have first := tended.texts (world.npc.queuedPlayers 0) (world.npc.queuedAddresses 0) (by
      rw [split]
      exact mem_cons_self)
    rcases first with ⟨entry, _, _, stored⟩
    rw [strings, member]
    exact mem_map.mpr ⟨_, stored, rfl⟩
  · exact addresses.nodup_iff.mp tended.apart
  · intro other
    rw [added, deleted, ← addresses.count_eq]
    exact tended.ledger other

theorem tended_delete (few : Few world) {text : UInt32} (isAnswer : world.place = .answering text)
    (queue : after.npc.queue = world.npc.queue) (place : after.place.text = [])
    (strings : after.strings = deleteString world.strings text) (added : after.added = world.added)
    (deleted : after.deleted = text :: world.deleted) : Tended after := by
  have addresses : world.addresses = after.addresses ++ [text] := by
    rw [World.addresses, World.addresses, queue, isAnswer, place, append_nil]
    rfl
  have apart := tended.apart
  rw [addresses, nodup_append] at apart
  have small : text.toNat < 2147483648 := by
    have held := tended.held text (by
      rw [isAnswer]
      exact mem_singleton_self text)
    rcases mem_map.mp held with ⟨entry, live, same⟩
    rcases tended.agrees.slots entry.1 entry.2 live with ⟨index, slot, value, stored⟩
    rw [← same, value]
    exact stored_small _ index slot entry.2 stored few
  constructor
  · rw [strings]
    exact delete_sound world.strings.table text tended.sound
  · rw [strings]
    exact tended.agrees.delete world.strings text small
  · intro player address member
    rw [queue] at member
    rcases tended.texts player address member with ⟨entry, latest, same, stored⟩
    refine ⟨entry, ?_, same, ?_⟩
    · rw [World.latest, added]
      exact latest
    rw [strings]
    apply mem_filter.mpr
    refine ⟨stored, decide_eq_true ?_⟩
    apply apart.2.2 address _ text (mem_singleton_self text)
    rw [World.addresses, queue]
    exact mem_append_left _ (mem_map.mpr ⟨(player, address), member, rfl⟩)
  · intro address member
    rw [place] at member
    cases member
  · exact apart.1
  · intro other
    have before := tended.ledger other
    rw [addresses, count_append, count_singleton] at before
    rw [added, deleted, count_cons]
    omega

end

theorem moved_same {creatureID : UInt32} {type : MoveType} (rest index : Nat) (npc : Npc)
    (total : index + rest = npc.queueLength)
    (stay : ∀ player ∈ npc.queue.map Prod.fst, leaves world creatureID type player = some false) :
    moveLoop world creatureID type rest index npc = some npc := by
  induction rest generalizing index with
  | zero => rfl
  | succ rest ih =>
    have member : npc.queuedPlayers index ∈ npc.queue.map Prod.fst := by
      rw [queue_players]
      exact mem_map.mpr ⟨index, mem_range.mpr (by omega), rfl⟩
    rw [moveLoop, stay _ member]
    exact ih (index + 1) (by omega)

theorem step_tended (tended : Tended world) {call : Step} (suits : Suits world call)
    (went : step world call = some after) (fewBefore : Few world) (few : Few after) :
    Tended after := by
  cases call with
  | enqueue interlocutorID text =>
    cases went
    exact tended_enqueue tended suits few
  | creatureMove creatureID type =>
    simp only [step, creatureMove] at went
    rw [moved_same _ 0 world.npc (Nat.zero_add _) suits] at went
    cases went
    exact tended_same tended rfl rfl rfl rfl rfl
  | idleStimulus =>
    simp only [step, idleStimulus] at went
    split_ifs at went with isInside isTalking isSoon isIdle
    all_goals
      have noText : world.place.text = [] := by
        rw [not_not.mp isInside]
        rfl
      cases went
    · exact tended
    · exact tended_same tended rfl rfl noText.symm rfl rfl
    · exact tended_same tended rfl rfl noText.symm rfl rfl
    · exact tended
  | idleNext alone =>
    simp only [step, idleNext] at went
    cases place : world.place with
    | outside => rw [place] at went; cases went
    | vanishing =>
      have noText : world.place.text = [] := by
        rw [place]
        rfl
      rw [place] at went
      cases went
      exact tended_same tended rfl rfl noText.symm rfl rfl
    | looping =>
      rw [place] at went
      by_cases some_queued : 0 < world.npc.queueLength
      · rw [if_pos some_queued] at went
        rcases found : world.creatures (world.npc.queuedPlayers 0) with _ | pos
        · rw [found] at went
          cases went
          exact tended_pop tended place some_queued rfl rfl rfl rfl rfl
        rw [found] at went
        cases went
        exact tended_pop tended place some_queued rfl rfl rfl rfl rfl
      rw [if_neg some_queued] at went
      have noText : world.place.text = [] := by
        rw [place]
        rfl
      cases went
      exact tended_same tended rfl rfl noText.symm rfl rfl
    | answering text =>
      rw [place] at went
      split_ifs at went
      all_goals
        cases went
        exact tended_delete tended fewBefore place rfl rfl rfl rfl rfl
  | elsewhere creatures roundNr pos state interlocutor lastTalk =>
    cases went
    exact tended_same tended rfl rfl rfl rfl rfl
  | strings call =>
    simp only [step] at went
    split_ifs at went with mine
    rcases Option.map_eq_some_iff.mp went with ⟨strings, called, rfl⟩
    exact tended_strings tended mine called fewBefore few

theorem suitable_few {steps : List Step} (suitable : Suitable world steps) : Few world := by
  cases steps with
  | nil => exact suitable
  | cons call rest => exact suitable.1

theorem run_tended (steps : List Step) (tended : Tended world) (suitable : Suitable world steps)
    (ran : run world steps = some after) : Tended after ∧ Few after := by
  induction steps generalizing world with
  | nil =>
    cases ran
    exact ⟨tended, suitable⟩
  | cons call rest ih =>
    rcases Option.bind_eq_some_iff.mp ran with ⟨middle, went, goesOn⟩
    have later := suitable.2.2 middle went
    have kept := step_tended tended suitable.2.1 went suitable.1 (suitable_few later)
    exact ih kept later goesOn

theorem new_tended (id : UInt32) (pos : Position) : Tended (newNpc id pos) := by
  constructor
  · nofun
  · constructor
    · nofun
    · exact nodup_nil
  · nofun
  · nofun
  · exact nodup_nil
  · intro number
    rfl

/-- The queue stands in the order of the calls of `Enqueue` that have put its players there.
When nobody leaves by a move, every entry has its text and every string is deleted once. -/
theorem queue_is_kept (id : UInt32) (pos : Position) (steps : List Step)
    (ran : run (newNpc id pos) steps = some after) :
    after.players.Nodup ∧
      (∀ player ∈ after.players, ∃ came text, steps[came]? = some (.enqueue player text) ∧
        Since (rows (newNpc id pos) steps) steps.length came player) ∧
      (after.players.Pairwise fun front back => ∀ frontCame backCame,
        Since (rows (newNpc id pos) steps) steps.length frontCame front →
        Since (rows (newNpc id pos) steps) steps.length backCame back → frontCame < backCame) ∧
      (Suitable (newNpc id pos) steps → Kept after) := by
  have queueing := rows_queueing ran
  have last : rows (newNpc id pos) steps steps.length = after.players := by
    apply rows_of_run
    rw [take_length]
    exact ran
  rw [← last]
  refine ⟨queueing.nodup _, ?_, queueing.order _, ?_⟩
  · intro player member
    rcases queueing.arrived member with ⟨came, since⟩
    rcases came_by_enqueue ran since with ⟨text, call⟩
    exact ⟨came, text, call, since⟩
  · intro suitable
    have tended := run_tended steps (new_tended id pos) suitable ran
    exact tended_kept tended.1 tended.2

/-- Player 5 says something to the NPC 1 while it is busy, and is answered. -/
def conversation : List Step :=
  [.enqueue 5 (some [104, 105]),
    .elsewhere (fun id => if id = 5 then some ⟨0, 0, 7⟩ else none) 100 ⟨0, 0, 7⟩ .idle 0 0,
    .creatureMove 5 .changed, .idleStimulus, .idleNext false, .idleNext false]

theorem conversation_suitable : Suitable (newNpc 1 ⟨0, 0, 7⟩) conversation := by
  decide +kernel

theorem conversation_is_kept : ∃ after, run (newNpc 1 ⟨0, 0, 7⟩) conversation = some after ∧
    Kept after := by
  have returns : (run (newNpc 1 ⟨0, 0, 7⟩) conversation).isSome = true := by decide +kernel
  rcases Option.isSome_iff_exists.mp returns with ⟨after, ran⟩
  exact ⟨after, ran, (queue_is_kept 1 ⟨0, 0, 7⟩ conversation ran).2.2.2 conversation_suitable⟩

def departure : List Step := [.enqueue 5 (some [104, 105]), .creatureMove 5 .deleted]

/-- The queue is empty, and nobody has deleted the string. -/
theorem departure_leaks : ∃ after, run (newNpc 1 ⟨0, 0, 7⟩) departure = some after ∧
    after.players = [] ∧ after.deleted = [] ∧ after.strings.live = [(1, [104, 105])] ∧
    ¬ Kept after := by
  refine ⟨_, rfl, by decide, by decide, by decide, ?_⟩
  intro kept
  have balance := kept.ledger 1
  exact absurd balance (by decide)

end Texts

end TibiaGame.NpcQueue
