import Mathlib.Tactic

/-!
# The beats of the game

`AdvanceGame` of `main.cpp`, which is called with the time that has passed since the last call.
Four of its tasks are due once a second, and their counters are a quarter of a second apart.
-/

namespace TibiaGame.GameBeats

open List

inductive Task where
  | processCreatures | processCronSystem | processSkills | processConnections | challenges
  | processMonsterhomes | processMonsterRaids | processCommunicationControl
  | processReaderThreadReplies | processWriterThreadReplies | processCommand | sendAmbiente
  | netLoadCheck | challengeBanCleanup | refreshCylinders | createPlayerList | savePlayerDataOrder
  | createHighscores | netLoadSummary | writeKillStatistics | broadcastMessage (text : String)
  | closeGame | logoutAllPlayers | refreshMap | saveMap | endGame | cleanupDynamicStrings
  | logLag (delay : Int) | moveCreatures (delay : Int) | errorLag (delay : Int) | sendAll
  deriving DecidableEq

structure Settings where
  beat : Int
  challengeEnabled : Bool
  challengeBanMinutes : Int
  rebootTime : Int
  reboot : Bool

/-- The local time of a call, and the brightness of `GetAmbiente`. -/
structure Moment where
  hour : Int
  minute : Int
  second : Int
  brightness : Int

structure Game where
  creatureTimeCounter : Int
  cronTimeCounter : Int
  skillTimeCounter : Int
  otherTimeCounter : Int
  oldAmbiente : Int
  nextMinute : UInt32
  roundNr : UInt32
  lag : Bool

def startGame : Game := ⟨0, 0, 0, 0, -1, 30, 0, false⟩

def only (due : Bool) (tasks : List Task) : List Task := if due then tasks else []

variable (settings : Settings)

def warning (time : String) : Task :=
  .broadcastMessage (if settings.reboot then
    "Server is saving game in " ++ time ++ ".\nPlease " ++
      (if time = "one minute" then "log out." else "come back in 10 minutes.")
  else "Server is going down in " ++ time ++ ".\nPlease log out.")

def rebootTasks (realTime : Int) : List Task :=
  if (realTime + 5).tmod 1440 = settings.rebootTime then [warning settings "5 minutes", .closeGame]
  else if (realTime + 3).tmod 1440 = settings.rebootTime then [warning settings "3 minutes"]
  else if (realTime + 1).tmod 1440 = settings.rebootTime then [warning settings "one minute"]
  else if realTime = settings.rebootTime then
    [.closeGame, .logoutAllPlayers, .sendAll] ++ only settings.reboot [.refreshMap] ++
      [.saveMap, .endGame]
  else []

def minuteTasks (moment : Moment) : List Task :=
  .refreshCylinders :: only (moment.minute.tmod 5 = 0) [.createPlayerList] ++
    only (moment.minute.tmod 15 = 0) [.savePlayerDataOrder, .createHighscores] ++
    only (moment.minute = 0) [.netLoadSummary] ++
    only (moment.minute = 55) [.writeKillStatistics] ++
    rebootTasks settings (moment.minute + moment.hour * 60)

/-- What a round does behind `process_connections`, with the number of the round. -/
def roundTasks (game : Game) (moment : Moment) (roundNr : UInt32) : List Task :=
  only settings.challengeEnabled [.challenges] ++
    [.processMonsterhomes, .processMonsterRaids, .processCommunicationControl,
      .processReaderThreadReplies, .processWriterThreadReplies, .processCommand] ++
    only (game.oldAmbiente ≠ moment.brightness) [.sendAmbiente] ++
    only (roundNr % 10 = 0) [.netLoadCheck] ++
    only (settings.challengeEnabled && 0 < settings.challengeBanMinutes && roundNr % 60 = 0)
      [.challengeBanCleanup] ++
    only (game.nextMinute ≤ roundNr) (minuteTasks settings moment) ++ [.cleanupDynamicStrings]

/-- `GetRoundForNextMinute`, half a minute behind the full minute. -/
def getRoundForNextMinute (moment : Moment) (roundNr : UInt32) : UInt32 :=
  UInt32.ofInt (60 - moment.second) + roundNr + 30

def nextRound (game : Game) (moment : Moment) : Game :=
  let roundNr := game.roundNr + 1
  { game with
    roundNr
    oldAmbiente := moment.brightness
    nextMinute :=
      if game.nextMinute ≤ roundNr then getRoundForNextMinute moment roundNr else game.nextMinute }

def restart (threshold counter : Int) : Int := if threshold ≤ counter then counter - 1000 else counter

def advanceGame (game : Game) (moment : Moment) (delay : Int) : List Task × Game :=
  let creatures := game.creatureTimeCounter + delay
  let cron := game.cronTimeCounter + delay
  let skills := game.skillTimeCounter + delay
  let other := game.otherTimeCounter + delay
  let later := if 1000 ≤ other then nextRound game moment else game
  (only (1750 ≤ creatures) [.processCreatures] ++ only (1500 ≤ cron) [.processCronSystem] ++
      only (1250 ≤ skills) [.processSkills] ++
      only (1000 ≤ other) (.processConnections :: roundTasks settings game moment later.roundNr) ++
      only (settings.beat < delay) [.logLag delay] ++
      (if delay < 1000 then [.moveCreatures delay]
      else only (!game.lag && 10 < later.roundNr) [.errorLag delay]) ++ [.sendAll],
    { later with
      creatureTimeCounter := restart 1750 creatures
      cronTimeCounter := restart 1500 cron
      skillTimeCounter := restart 1250 skills
      otherTimeCounter := restart 1000 other
      lag := decide (1000 ≤ delay) })

def run (game : Game) : List (Moment × Nat) → List (List Task) × Game
  | [] => ([], game)
  | call :: calls =>
      let (tasks, later) := advanceGame settings game call.1 call.2
      let (rest, last) := run later calls
      (tasks :: rest, last)

/-- The tasks that are due once a second. -/
def slow (task : Task) : Bool :=
  task ∈ [.processCreatures, .processCronSystem, .processSkills, .processConnections]

@[simp]
theorem only_filter (due : Bool) (tasks : List Task) :
    (only due tasks).filter slow = only due (tasks.filter slow) := by
  cases due <;> rfl

@[simp]
theorem only_nil (due : Bool) : only due [] = [] := by
  cases due <;> rfl

variable {game : Game} {moment : Moment} {delay time : Nat}

theorem reboot_tasks_quick (realTime : Int) :
    (rebootTasks settings realTime).filter slow = [] := by
  rw [rebootTasks]
  split_ifs
  · rfl
  · rfl
  · rfl
  · simp [slow]
  · rfl

theorem round_tasks_quick (roundNr : UInt32) :
    (roundTasks settings game moment roundNr).filter slow = [] := by
  simp [roundTasks, minuteTasks, reboot_tasks_quick, slow]

theorem slow_tasks : (advanceGame settings game moment delay).1.filter slow =
    only (1750 ≤ game.creatureTimeCounter + delay) [.processCreatures] ++
      only (1500 ≤ game.cronTimeCounter + delay) [.processCronSystem] ++
      only (1250 ≤ game.skillTimeCounter + delay) [.processSkills] ++
      only (1000 ≤ game.otherTimeCounter + delay) [.processConnections] := by
  simp only [advanceGame, filter_append, only_filter, filter_cons, round_tasks_quick]
  split_ifs <;> simp_all [slow]

/-- The counters when the time has always been advanced in small steps. -/
structure Phased (time : Nat) (game : Game) : Prop where
  creatures : game.creatureTimeCounter = time - 1000 * ((time - 750) / 1000 : Nat)
  cron : game.cronTimeCounter = time - 1000 * ((time - 500) / 1000 : Nat)
  skills : game.skillTimeCounter = time - 1000 * ((time - 250) / 1000 : Nat)
  other : game.otherTimeCounter = time - 1000 * (time / 1000 : Nat)

theorem Phased.step (moment : Moment) (phased : Phased time game) (brisk : delay ≤ 250) :
    Phased (time + delay) (advanceGame settings game moment delay).2 ∧
      ((advanceGame settings game moment delay).1.filter slow).length ≤ 1 := by
  rcases phased with ⟨creatures, cron, skills, other⟩
  refine ⟨⟨?_, ?_, ?_, ?_⟩, ?_⟩
  iterate 4
    simp only [advanceGame, restart]
    split_ifs <;> omega
  rw [slow_tasks]
  simp only [only, decide_eq_true_eq]
  split_ifs <;> simp <;> omega

theorem phased_run (phased : Phased time game) {calls : List (Moment × Nat)}
    (brisk : ∀ call ∈ calls, call.2 ≤ 250) :
    Phased (time + (calls.map Prod.snd).sum) (run settings game calls).2 ∧
      ∀ tasks ∈ (run settings game calls).1, (tasks.filter slow).length ≤ 1 := by
  induction calls generalizing time game with
  | nil => exact ⟨phased, fun _ member => absurd member not_mem_nil⟩
  | cons call calls ih =>
    have first := phased.step settings call.1 (brisk call (mem_cons_self ..))
    have later := ih first.1 fun other member => brisk other (mem_cons_of_mem call member)
    rw [run, map_cons, sum_cons, ← Nat.add_assoc]
    exact ⟨later.1, forall_mem_cons.mpr ⟨first.2, later.2⟩⟩

def counter (game : Game) : Task → Int
  | .processCreatures => game.creatureTimeCounter
  | .processCronSystem => game.cronTimeCounter
  | .processSkills => game.skillTimeCounter
  | _ => game.otherTimeCounter

variable {task : Task} (counted : slow task = true) (game)
include counted

theorem time_kept (moment : Moment) (delay : Nat) :
    1000 * ((advanceGame settings game moment delay).1.count task : Int) +
      counter (advanceGame settings game moment delay).2 task = counter game task + delay := by
  rw [← count_filter counted, slow_tasks]
  simp only [slow, decide_eq_true_eq, mem_cons, not_mem_nil, or_false] at counted
  rcases counted with rfl | rfl | rfl | rfl
  all_goals
    simp only [counter, advanceGame, restart, only, decide_eq_true_eq]
    split_ifs <;> simp

/-- However late the calls come, no second is lost to a task. -/
theorem run_kept (calls : List (Moment × Nat)) :
    1000 * ((run settings game calls).1.flatten.count task : Int) +
      counter (run settings game calls).2 task = counter game task + (calls.map Prod.snd).sum := by
  induction calls generalizing game with
  | nil => simp [run]
  | cons call calls ih =>
    have first := time_kept settings game counted call.1 call.2
    have later := ih (advanceGame settings game call.1 call.2).2
    simp only [run, flatten_cons, count_append, map_cons, sum_cons, Nat.cast_add]
    omega

omit counted

/-- While no call comes late, no two of the tasks are due in one call, and each is done once a
second. -/
theorem slow_tasks_are_spread (calls : List (Moment × Nat))
    (brisk : ∀ call ∈ calls, call.2 ≤ 250) :
    let log := (run settings startGame calls).1
    let time := (calls.map Prod.snd).sum
    (∀ tasks ∈ log, (tasks.filter slow).length ≤ 1) ∧
      log.flatten.count .processCreatures = (time - 750) / 1000 ∧
      log.flatten.count .processCronSystem = (time - 500) / 1000 ∧
      log.flatten.count .processSkills = (time - 250) / 1000 ∧
      log.flatten.count .processConnections = time / 1000 := by
  have start : Phased 0 startGame := ⟨rfl, rfl, rfl, rfl⟩
  have whole := phased_run settings start brisk
  rw [Nat.zero_add] at whole
  rcases whole.1 with ⟨creatures, cron, skills, other⟩
  have kept (task : Task) := @run_kept settings startGame task
  have zero (task : Task) : counter startGame task = 0 := by cases task <;> rfl
  refine ⟨whole.2, ?_, ?_, ?_, ?_⟩
  · have := kept .processCreatures rfl calls
    rw [zero, counter, creatures] at this
    omega
  · have := kept .processCronSystem rfl calls
    rw [zero, counter, cron] at this
    omega
  · have := kept .processSkills rfl calls
    rw [zero, counter, skills] at this
    omega
  · have := kept .processConnections rfl calls
    rw [zero, counter, other] at this
    · omega
    all_goals simp

theorem ten_calls_connect_twice :
    (run ⟨200, false, 0, 360, true⟩ startGame (replicate 10 (⟨6, 0, 0, 51⟩, 200))).1.flatten.count
      .processConnections = 2 :=
  (slow_tasks_are_spread _ (replicate 10 (⟨6, 0, 0, 51⟩, 200)) (by decide)).2.2.2.2

end TibiaGame.GameBeats
