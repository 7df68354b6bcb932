import TibiaGame.CommandTruncation

/-!
# A path that ends too early

`CGoPath` clears the list of the player, and then adds a step for every byte that it reads. The
`ToDo` functions are those of the creatures; the rest of the game is a parameter.
-/

namespace TibiaGame.TruncatedPaths

open CommandHandlers CommandSafety CommandTruncation
open TibiaGame.HouseOperations (Operation Position ResultCode)
open Library.ThrowingState
open TibiaGame.ToDoScheduler (World Creature ToDoEntry newCreature cleared toDoAdd)

variable {σ : Type}

/-- The calls of `ToDo` functions that need nothing but the list, and all others. -/
def toDoPerform (others : UInt32 → Action → Operation (World σ) Unit) (player : UInt32) :
    Action → Operation (World σ) Unit
  | .toDoGo position => modify fun world =>
      toDoAdd world player (.go position.x position.y position.z)
  | .toDoStart => modify fun world => ToDoScheduler.toDoStart world player
  | .toDoWait delay => modify fun world => ToDoScheduler.toDoWait world player (UInt32.ofNat delay)
  | .toDoRotate direction =>
      if 3 < direction then throw (some .error)
      else modify fun world => toDoAdd world player (.rotate direction.toNat)
  | action => others player action

def toDoDeed (others : Option UInt32 → Deed → World σ → World σ) :
    Option UInt32 → Deed → World σ → World σ
  | some player, .sendSnapback => fun world => ToDoScheduler.sendSnapback world player
  | some player, .toDoYield => fun world => ToDoScheduler.toDoYield world player
  | some player, .toDoStop => fun world => ToDoScheduler.toDoStop world player
  | player, deed => others player deed

/-- A game with the lists of the creatures; the timers of a connection are no part of these. -/
def toDoGame (others : Game (World σ)) (timers : UInt8 → World σ → σ) : Game (World σ) :=
  { others with
    resetTimer := fun command world => { world with rest := timers command world }
    perform := toDoPerform others.perform
    deed := toDoDeed others.deed
    toDoClear := fun player world => ToDoScheduler.toDoClear world player }

/-- `ToDoList` up to `NrToDo`, `ActToDo` and `LockToDo`. -/
structure ToDo where
  entries : List ToDoEntry
  actToDo : Nat
  lockToDo : Bool

def toDoOf (creature : Creature) : ToDo :=
  ⟨creature.toDoList, creature.actToDo, creature.lockToDo⟩

def Restarted (list : ToDo) : Prop := list.lockToDo = true ∧ list.actToDo = 0

def Settled (list : ToDo) : Prop := list.lockToDo = false → list.entries = []

def Intact (before after : ToDo) : Prop := (after = before ∨ Restarted after) ∧ Settled after

def directions : List UInt8 := [1, 2, 3, 4, 5, 6, 7, 8]

/-- The list of a player before a packet that ends too early: if it is a path, then nothing is to
do, and none of the bytes behind the number of steps is a step. -/
def Unharmed (command : UInt8) (rest : List UInt8) (before : ToDo) : Prop :=
  Settled before ∧ (command = goPathCommand →
    before = ⟨[], 0, false⟩ ∧ ∀ byte ∈ rest.tail, byte ∉ directions)

section Path

variable (others : Game (World σ)) (timers : UInt8 → World σ → σ) {player : UInt32}
  {creature : Creature}

theorem stepped_none_iff (position : Position) (byte : UInt8) :
    stepped position byte = none ↔ byte ∉ directions := by
  unfold stepped directions
  split <;> simp_all

theorem stepped_some {position next : Position} {byte : UInt8}
    (step : stepped position byte = some next) : byte ∈ directions := by
  by_contra none_there
  rw [← stepped_none_iff position, step] at none_there
  cases none_there

theorem add_unlocked {world : World σ} (known : world.creatures player = some creature)
    (unlocked : creature.lockToDo = false) (entry : ToDoEntry) :
    (toDoAdd world player entry).creatures player =
      some { creature with toDoList := creature.toDoList ++ [entry] } := by
  have free : ToDoScheduler.isLocked world player = false := by
    simp only [ToDoScheduler.isLocked, known, unlocked]
  simp only [toDoAdd, free, ToDoScheduler.append, ToDoScheduler.World.set, known, Option.map_some,
    Bool.false_eq_true, if_false, Function.update_self]

theorem finish_byte (first : UInt8) (world : World σ) (rest : List UInt8) :
    finish (receive byte) (⟨world, first :: rest⟩ : Session (World σ)) =
      .ok (.ok first, ⟨world, rest⟩) := by
  rfl

theorem go_steps_passed {game : Game (World σ)} {position : Position} {byte : UInt8}
    (step : stepped position byte = none) (steps : Nat) (world : World σ) (rest : List UInt8) :
    finish (goSteps game player (steps + 1) position) ⟨world, byte :: rest⟩ =
      finish (goSteps game player steps position) ⟨world, rest⟩ := by
  rw [goSteps, finish_bind, finish_byte]
  simp only [step]

theorem go_steps_taken {game : Game (World σ)} {position next : Position} {byte : UInt8}
    (step : stepped position byte = some next) (steps : Nat) (world : World σ) (rest : List UInt8) :
    finish (goSteps game player (steps + 1) position) ⟨world, byte :: rest⟩ =
      finish (do
        tries game player (.toDoGo next)
        goSteps game player steps next) ⟨world, rest⟩ := by
  rw [goSteps, finish_bind, finish_byte]
  simp only [step]

/-- The steps that are read before the packet ends are in the list. -/
theorem steps_truncated (steps : Nat) (position : Position) (start : Session (World σ))
    (known : start.world.creatures player = some creature) (unlocked : creature.lockToDo = false) :
    Meets (goSteps (toDoGame others timers) player steps position) start (fun _ _ => True)
      (fun thrown after => isText thrown → ∃ entries,
        after.world.creatures player =
          some { creature with toDoList := creature.toDoList ++ entries } ∧
        (entries = [] ↔ ∀ byte ∈ start.buffer, byte ∉ directions)) fun _ => True := by
  induction steps generalizing position start creature with
  | zero => trivial
  | succ steps induction =>
    rcases start with ⟨world, buffer⟩
    unfold Meets
    rcases buffer with _ | ⟨byte, rest⟩
    · intro _
      refine ⟨[], ?_, ?_⟩
      · rw [List.append_nil]
        exact known
      · simp
    rcases step : stepped position byte with _ | next
    · rw [go_steps_passed step]
      apply (induction position ⟨world, rest⟩ known unlocked).imp (fun _ _ _ => trivial) _
        fun _ _ => trivial
      intro thrown after truncated text
      rcases truncated text with ⟨entries, holds, empty⟩
      refine ⟨entries, holds, ?_⟩
      rw [empty, List.forall_mem_cons]
      exact (and_iff_right ((stepped_none_iff position byte).mp step)).symm
    rw [go_steps_taken step]
    have added := add_unlocked known unlocked (.go next.x next.y next.z)
    apply (induction next
      ⟨toDoAdd world player (.go next.x next.y next.z), rest⟩ added unlocked).imp
      (fun _ _ _ => trivial) _ fun _ _ => trivial
    intro thrown after truncated text
    rcases truncated text with ⟨entries, holds, _⟩
    refine ⟨.go next.x next.y next.z :: entries, ?_, ?_⟩
    · rw [holds, List.append_assoc]
      rfl
    constructor
    · nofun
    · intro none_there
      exact absurd (stepped_some step) (none_there byte List.mem_cons_self)

theorem finish_with_player {game : Game (World σ)} {start : Session (World σ)}
    {body : UInt32 → Command (World σ) Unit} (playing : game.getPlayer start.world = some player) :
    finish (withPlayer game body) start = finish (body player) start := by
  have asked : finish (inquire game.getPlayer) start = .ok (.ok (some player), start) := by
    rw [← playing]
    rfl
  rw [withPlayer, finish_bind, asked]

theorem snapback_creatures (world : World σ) (id : UInt32) :
    (ToDoScheduler.sendSnapback world id).creatures = world.creatures := by
  unfold ToDoScheduler.sendSnapback
  rcases known : world.creatures id with _ | creature
  · rfl
  simp only
  split_ifs
  · rfl
  · rfl

/-- `CGoPath` from the number of steps on. -/
def readPath (game : Game (World σ)) (player : UInt32) : Command (World σ) Unit := do
  let steps ← receive byte
  let position ← inquire (game.position player)
  catchResult
    (do
      goSteps game player steps.toNat position
      tries game player .toDoStart)
    (sendAndYield game player)

/-- A list that is cleared has the steps of the packet in it, and is not started. -/
theorem read_path_truncated (start : Session (World σ))
    (known : start.world.creatures player = some creature)
    (empty : toDoOf creature = ⟨[], 0, false⟩) :
    Meets (readPath (toDoGame others timers) player) start (fun _ _ => True)
      (fun thrown after => isText thrown → ∃ entries later,
        after.world.creatures player = some later ∧ toDoOf later = ⟨entries, 0, false⟩ ∧
        (entries = [] ↔ ∀ byte ∈ start.buffer.tail, byte ∉ directions)) fun _ => True := by
  rcases start with ⟨world, buffer⟩
  unfold readPath Meets
  rw [finish_bind, finish_receive]
  rcases buffer with _ | ⟨steps, rest⟩
  · intro _
    refine ⟨[], creature, known, empty, ?_⟩
    simp
  have unlocked : creature.lockToDo = false := congrArg ToDo.lockToDo empty
  have nothing : creature.toDoList = [] := congrArg ToDo.entries empty
  have beginning : creature.actToDo = 0 := congrArg ToDo.actToDo empty
  have read := steps_truncated others timers steps.toNat
    ((toDoGame others timers).position player world) ⟨world, rest⟩ known unlocked
  change Meets (catchResult (do
      goSteps (toDoGame others timers) player steps.toNat
        ((toDoGame others timers).position player world)
      tries (toDoGame others timers) player .toDoStart)
    (sendAndYield (toDoGame others timers) player)) ⟨world, rest⟩ _ _ _
  apply meets_catch
  · apply meets_bind read
    intro _ after _
    have calm : Quiet (tries (toDoGame others timers) player .toDoStart) := Throws.throws
    apply (calm after).imp
    · intro _ _ _
      trivial
    · intro thrown _ noText text
      exact absurd text noText
    · intro _ _
      trivial
  intro thrown after truncated
  cases thrown with
  | text message =>
    apply meets_throw
    intro _
    rcases truncated trivial with ⟨entries, holds, none_there⟩
    refine ⟨entries, _, holds, ?_, none_there⟩
    simp only [toDoOf, nothing, unlocked, beginning, List.nil_append]
  | result code =>
    have calm : Quiet (sendAndYield (toDoGame others timers) player code) := Throws.throws
    apply (calm after).imp
    · intro _ _ _
      trivial
    · intro thrown _ noText text
      exact absurd text noText
    · intro _ _
      trivial

theorem go_path_truncated (start : Session (World σ))
    (playing : (toDoGame others timers).getPlayer start.world = some player)
    (known : start.world.creatures player = some creature) :
    Meets (cGoPath (toDoGame others timers)) start (fun _ _ => True)
      (fun thrown after => isText thrown → ∃ entries later,
        after.world.creatures player = some later ∧ toDoOf later = ⟨entries, 0, false⟩ ∧
        (entries = [] ↔ ∀ byte ∈ start.buffer.tail, byte ∉ directions)) fun _ => True := by
  have emptied : ((ToDoScheduler.toDoClear start.world player).2).creatures player =
      some (cleared creature) := by
    simp only [ToDoScheduler.toDoClear, known, ToDoScheduler.World.set, Function.update_self]
  generalize isWorld : (ToDoScheduler.toDoClear start.world player).2 = world at emptied
  unfold cGoPath Meets
  rw [finish_with_player playing]
  change Meets (do
      whenever (ToDoScheduler.toDoClear start.world player).1
        (does (toDoGame others timers) player .sendSnapback)
      readPath (toDoGame others timers) player)
    ⟨(ToDoScheduler.toDoClear start.world player).2, start.buffer⟩ _ _ _
  rw [isWorld]
  rcases (ToDoScheduler.toDoClear start.world player).1 with _ | _
  · exact read_path_truncated others timers ⟨world, start.buffer⟩ emptied rfl
  have told : (ToDoScheduler.sendSnapback world player).creatures player =
      some (cleared creature) := by
    rw [snapback_creatures]
    exact emptied
  exact read_path_truncated others timers
    ⟨ToDoScheduler.sendSnapback world player, start.buffer⟩ told rfl

end Path

section Packets

variable (others : Game (World σ)) (timers : UInt8 → World σ → σ) {player : UInt32}
  {creature : Creature}

theorem handle_truncated (command : UInt8) (world : World σ) (rest : List UInt8)
    {message : String} {after : Session (World σ)}
    (playing : (toDoGame others timers).getPlayer world = some player)
    (known : world.creatures player = some creature)
    (truncated : finish (handle (toDoGame others timers) command) ⟨world, rest⟩ =
      .ok (.error (.text message), after)) :
    ∃ later, after.world.creatures player = some later ∧
      (Intact (toDoOf creature) (toDoOf later) ↔ Unharmed command rest (toDoOf creature)) := by
  by_cases path : command = goPathCommand
  · have ended := go_path_truncated others timers ⟨world, rest⟩ playing known
    rw [path] at truncated
    unfold Meets at ended
    have same : finish (cGoPath (toDoGame others timers)) ⟨world, rest⟩ =
      .ok (.error (.text message), after) := truncated
    rw [same] at ended
    rcases ended trivial with ⟨entries, later, holds, list, none_there⟩
    refine ⟨later, holds, ?_⟩
    rw [list]
    constructor
    · intro intact
      have nothing : entries = [] := intact.2 rfl
      rcases intact.1 with same | restarted
      · rw [nothing] at same
        refine ⟨?_, fun _ => ⟨same.symm, none_there.mp nothing⟩⟩
        rw [← same]
        intro _
        rfl
      · exact absurd restarted.1 Bool.false_ne_true
    intro unharmed
    have before := unharmed.2 path
    have nothing := none_there.mpr before.2
    rw [nothing, before.1]
    exact ⟨.inl rfl, fun _ => rfl⟩
  have ended := handle_wary (toDoGame others timers) command path ⟨world, rest⟩
  unfold Meets at ended
  rw [truncated] at ended
  have same : after.world = world := ended trivial
  refine ⟨creature, by rw [same]; exact known, ?_⟩
  constructor
  · intro intact
    exact ⟨intact.2, fun isPath => absurd isPath path⟩
  · intro unharmed
    exact ⟨.inl rfl, unharmed.1⟩

/-- The handler is the one that `receive_data` runs, which catches the text. -/
theorem truncated_packet_intact_iff (command : UInt8) (world : World σ) (rest : List UInt8)
    {message : String} {after : Session (World σ)} (inGame : others.state world = .game)
    (playing : others.getPlayer ((toDoGame others timers).resetTimer command world) = some player)
    (known : world.creatures player = some creature)
    (truncated : finish (handle (toDoGame others timers) command)
        ⟨(toDoGame others timers).resetTimer command world, rest⟩ =
      .ok (.error (.text message), after)) :
    finish (receiveData (toDoGame others timers)) ⟨world, command :: rest⟩ = .ok (.ok (), after) ∧
      ∃ later, after.world.creatures player = some later ∧
        (Intact (toDoOf creature) (toDoOf later) ↔ Unharmed command rest (toDoOf creature)) := by
  refine ⟨?_, handle_truncated others timers command _ rest playing known truncated⟩
  have allowed : commandAllowed (toDoGame others timers) command world =
      (command != 10 && command != 11) := by
    have state : (toDoGame others timers).state world = .game := inGame
    rw [commandAllowed, state]
  change finish (whenever (commandAllowed (toDoGame others timers) command world) (do
    tell ((toDoGame others timers).resetTimer command)
    catchText (handle (toDoGame others timers) command) fun _ => pure ())) ⟨world, rest⟩ = _
  cases answered : commandAllowed (toDoGame others timers) command world with
  | true =>
    change finish (catchText (handle (toDoGame others timers) command) fun _ => pure ())
      ⟨(toDoGame others timers).resetTimer command world, rest⟩ = _
    unfold catchText
    rw [finish_catch, truncated]
    rfl
  | false =>
    rw [answered] at allowed
    have login : command = 10 ∨ command = 11 := by
      by_contra neither
      rw [not_or] at neither
      simp_all
    rcases login with request | join
    · rw [request] at truncated
      cases truncated
    · rw [join] at truncated
      cases truncated

end Packets

def stillGame : Game (World Unit) where
  getHouse := fun _ _ => none
  setHouse := fun _ _ world => world
  checkAccessRight := fun _ _ _ => 0
  checkRight := fun _ _ _ => false
  position := fun _ _ => ⟨0, 0, 0⟩
  getHouseID := fun _ _ => 0
  foundPlayers := fun _ _ => []
  crObject := fun _ _ => 0
  graphicalEffect := fun _ world => world
  fieldObjects := fun _ _ => []
  isBed := fun _ _ => false
  textString := fun _ _ => 0
  useObjects := fun _ _ _ => pure ()
  getMapContainer := fun _ _ => 0
  move := fun _ _ _ _ _ _ => pure ()
  doorPosition := fun _ _ => ⟨0, 0, 0⟩
  hasText := fun _ _ => false
  deleteDynamicString := fun _ world => world
  changeText := fun _ _ => pure ()
  trade := fun _ _ => ⟨0, 0, false⟩
  setTrade := fun _ _ world => world
  playerExists := fun _ _ => false
  objectAccessible := fun _ _ _ => false
  flag := fun _ _ _ => false
  carryStrength := fun _ _ => none
  inventoryWeight := fun _ _ => 0
  completeWeight := fun _ _ => 0
  objectCreatureID := fun _ _ => 0
  bodyObject := fun _ _ => pure 0
  bodyContainer := fun _ _ => pure 0
  checkInventoryPlace := fun _ _ _ => pure ()
  capacity := fun _ _ => 0
  countObjectsInContainer := fun _ _ => 0
  container := fun _ _ => 0
  refusedOffer := fun _ _ _ world => world
  closeTrade := fun _ world => world
  creatureField := fun _ _ => 0
  state := fun _ => .game
  getPlayer := fun _ => some 1
  resetTimer := fun _ world => world
  perform := fun _ _ => pure ()
  joinChannel := fun _ _ => pure false
  deed := fun _ _ world => world
  toDoClear := fun _ world => (false, world)
  logoutPossible := fun _ world => (0, world)
  objectTypeExists := fun _ _ => false
  typeFlag := fun _ _ _ => false
  isOnMap := fun _ _ => false
  isVisible := fun _ _ => false
  objectExists := fun _ _ => false
  objectType := fun _ _ => 0
  maxLength := fun _ _ => 0
  maxLengthOnce := fun _ _ => 0
  getObject := fun _ _ _ _ _ => 0
  monster := fun _ _ => none
  inReach := fun _ _ _ => false
  inspectTrade := fun _ _ _ _ => 0
  hasRight := fun _ _ _ => false
  level := fun _ _ => 1
  numberOfChannels := fun _ => 0
  channelSubscribed := fun _ _ _ => false
  channelAvailable := fun _ _ _ => false
  request := fun _ _ => 0
  requestProcessingGamemaster := fun _ _ => 0
  playerName := fun _ _ => none
  inParty := fun _ _ => false
  challengePending := fun _ => false

def restingWorld : World Unit :=
  { ToDoScheduler.start () with
    creatures := Function.update (ToDoScheduler.start ()).creatures 1 (some (newCreature .player)) }

def playedGame : Game (World Unit) := toDoGame stillGame fun _ _ => ()

/-- A `MOVE_OBJECT` of one byte. -/
theorem short_move_is_harmless :
    finish (receiveData playedGame) ⟨restingWorld, [120, 5]⟩ = .ok (.ok (), ⟨restingWorld, [5]⟩) ∧
      ∃ later, restingWorld.creatures 1 = some later ∧
        (Intact (toDoOf (newCreature .player)) (toDoOf later) ↔
          Unharmed 120 [5] (toDoOf (newCreature .player))) :=
  truncated_packet_intact_iff stillGame (fun _ _ => ()) 120 restingWorld [5] rfl rfl rfl rfl

/-- A path of two steps whose second is missing: the first one is added and never started. -/
theorem short_path_adds : ∃ after later,
    finish (receiveData playedGame) ⟨restingWorld, [100, 2, 1]⟩ = .ok (.ok (), after) ∧
      after.world.creatures 1 = some later ∧ later.lockToDo = false ∧ later.toDoList ≠ [] ∧
      ¬ Intact (toDoOf (newCreature .player)) (toDoOf later) := by
  refine ⟨_, _, rfl, rfl, rfl, List.cons_ne_nil _ _, ?_⟩
  intro intact
  cases intact.2 rfl

end TibiaGame.TruncatedPaths
