import Mathlib.Tactic

/-!
# Monster homes and the monsters that live in them

Every home counts its living monsters and runs a timer for the next one. The homes are loaded
from `monster.db`; monsters spawn when a timer runs out, and a death or a conviction notifies
the home. The outcomes of random numbers, searches and player positions are arguments.
-/

namespace TibiaGame.Monsterhomes

open List

structure Position where
  x : Int
  y : Int
  z : Int
  deriving DecidableEq

structure Monsterhome where
  race : Int
  x : Int
  y : Int
  z : Int
  radius : Int
  maxMonsters : Int
  actMonsters : Int
  regenerationTime : Int
  timer : Int
  deriving DecidableEq

/-- `home` is zero for a monster without one. -/
structure Monster where
  race : Int
  home : Nat
  deriving DecidableEq

/-- `homes` is the storage of `MonsterhomeList`, also where `Monsterhomes` does not reach. -/
structure World where
  homes : Nat → Monsterhome
  monsterhomes : Nat
  monsters : List Monster

/-- What one call meets: `get_number_of_players`, the players `FindCreatures` gives around each
home, the answers of `search_spawn_field` by home, attempt and radius, and `rand` by home. -/
structure Chance where
  numPlayers : Int
  watchers : Nat → List (Option Position)
  search : Nat → Nat → Int → Option Position
  rand : Nat → Nat

/-- The names of `race_data`. -/
abbrev RaceNames := Int → List UInt8

def maxRaces : Int := 512

def isRaceValid (race : Int) : Bool := decide (1 ≤ race ∧ race < maxRaces)

def wrap (value : Int) : Int := Int.bmod value (2 ^ 32)

def random (min max : Int) (rand : Nat) : Int :=
  let range := max - min + 1
  if range > 0 then min + rand % range else min

def setHome (world : World) (nr : Nat) (home : Monsterhome) : World :=
  { world with homes := Function.update world.homes nr home }

/-- The regeneration time, shortened when many players are online. -/
def maxTimer (regenerationTime numPlayers : Int) : Int :=
  if numPlayers > 800 then (wrap (regenerationTime * 2)).tdiv 5
  else if numPlayers > 200 then
    (wrap (regenerationTime * 200)).tdiv (numPlayers.tdiv 2 + 100)
  else regenerationTime

def startMonsterhomeTimer (world : World) (nr : Nat) (chance : Chance) : World :=
  if nr < 1 ∨ world.monsterhomes < nr then world
  else
    let home := world.homes nr
    if home.timer > 0 then world
    else if home.actMonsters ≥ home.maxMonsters then world
    else
      let time := maxTimer home.regenerationTime chance.numPlayers
      setHome world nr { home with timer := random (time.tdiv 2) time (chance.rand nr) }

/-- Whether `create_monster` makes a monster of the race. -/
def creates (names : RaceNames) (race : Int) : Bool := isRaceValid race && names race ≠ []

def createMonster (names : RaceNames) (race : Int) (home : Nat) (world : World) : World :=
  if creates names race then { world with monsters := world.monsters ++ [⟨race, home⟩] }
  else world

/-- The answer of `create_monster` is not looked at. -/
def spawn (names : RaceNames) (nr : Nat) (found : Bool) (world : World) : World :=
  if found then
    let home := world.homes nr
    setHome (createMonster names home.race nr world) nr
      { home with actMonsters := home.actMonsters + 1 }
  else world

/-- The numbers of `monster.db`; a race of zero ends the file. -/
def readMonsterhomes : List Int → Option (List Monsterhome)
  | race :: rest =>
      if race = 0 then some []
      else match rest with
        | x :: y :: z :: radius :: maxMonsters :: regenerationTime :: rest =>
            (readMonsterhomes rest).map fun homes =>
              ⟨race, x, y, z, radius, maxMonsters, 0, regenerationTime, 0⟩ :: homes
        | _ => none
  | [] => none

/-- Homes are counted from one; the rest of the storage is left as it was. -/
def storeHomes (storage : Nat → Monsterhome) (filed : List Monsterhome) : World where
  homes nr := (if nr = 0 then none else filed[nr - 1]?).getD (storage nr)
  monsterhomes := filed.length
  monsters := []

/-- A negative radius asks `search_spawn_field` for its extended search. -/
def loadRadius (radius : Int) (attempt : Nat) : Int :=
  if attempt = 0 then (if radius > 1 then 1 else radius)
  else -(if radius > 10 then 10 else radius)

def foundAtLoad (chance : Chance) (nr : Nat) (radius : Int) (attempt : Nat) : Bool :=
  (chance.search nr attempt (loadRadius radius attempt)).isSome

def populate (names : RaceNames) (chance : Chance) (nr : Nat) (radius : Int) :
    List Nat → World → World
  | [], world => world
  | attempt :: rest, world =>
      populate names chance nr radius rest
        (spawn names nr (foundAtLoad chance nr radius attempt) world)

def loadHome (names : RaceNames) (chance : Chance) (world : World) (nr : Nat) : World :=
  let home := world.homes nr
  let world := populate names chance nr home.radius (List.range home.maxMonsters.toNat) world
  let home := world.homes nr
  if home.timer > 0 then world
  else if home.actMonsters < home.maxMonsters then startMonsterhomeTimer world nr chance
  else world

/-- The loop runs from zero to the number before `Monsterhomes`. -/
def loadMonsterhomes (names : RaceNames) (storage : Nat → Monsterhome) (filed : List Monsterhome)
    (chance : Chance) : World :=
  (List.range filed.length).foldl (loadHome names chance) (storeHomes storage filed)

def canSeeFloor (player : Position) (floorZ : Int) : Bool :=
  if player.z ≤ 7 then decide (floorZ ≤ 7) else decide (|player.z - floorZ| ≤ 2)

/-- The radius shrinks so that no player who sees the floor watches the monster appear. -/
def unwatchedRadius (x y z : Int) : Int → List (Option Position) → Int
  | radius, [] => radius
  | radius, none :: _ => radius
  | radius, some player :: rest =>
      if canSeeFloor player z then
        let watched := max (|player.x - x| - 9) (|player.y - y| - 7)
        unwatchedRadius x y z (if watched < radius then watched else radius) rest
      else unwatchedRadius x y z radius rest

def spawnRadius (home : Monsterhome) (radius : Int) : Int :=
  if home.actMonsters = 0 then (if radius > 1 then 1 else radius) else -radius

/-- Whether a monster finds a place when the timer of the home has run out. -/
def foundInRound (chance : Chance) (nr : Nat) (home : Monsterhome) : Bool :=
  let radius := unwatchedRadius home.x home.y home.z
    (if home.radius > 10 then 10 else home.radius) (chance.watchers nr)
  decide (radius ≥ 0) && (chance.search nr 0 (spawnRadius home radius)).isSome

def tick (world : World) (nr : Nat) : World :=
  let home := world.homes nr
  setHome world nr { home with timer := home.timer - 1 }

def respawn (names : RaceNames) (chance : Chance) (world : World) (nr : Nat) : World :=
  let world := spawn names nr (foundInRound chance nr (world.homes nr)) world
  if (world.homes nr).actMonsters < (world.homes nr).maxMonsters then
    startMonsterhomeTimer world nr chance
  else world

/-- One round of one home; a failed assertion ends the server. -/
def processHome (names : RaceNames) (chance : Chance) (world : World) (nr : Nat) :
    Option World :=
  if (world.homes nr).timer < 0 then none
  else if (world.homes nr).timer = 0 then some world
  else
    let world := tick world nr
    if (world.homes nr).timer > 0 then some world
    else some (respawn names chance world nr)

def processHomes (names : RaceNames) (chance : Chance) : List Nat → World → Option World
  | [], world => some world
  | nr :: rest, world =>
      (processHome names chance world nr).bind (processHomes names chance rest)

def processMonsterhomes (names : RaceNames) (chance : Chance) (world : World) : Option World :=
  processHomes names chance ((List.range world.monsterhomes).map (· + 1)) world

def notifyMonsterhomeOfDeath (world : World) (nr : Nat) (chance : Chance) : World :=
  if nr < 1 ∨ world.monsterhomes < nr then world
  else
    let home := world.homes nr
    if home.actMonsters < 1 then world
    else
      let home := { home with actMonsters := home.actMonsters - 1 }
      let world := setHome world nr home
      if home.actMonsters ≥ home.maxMonsters then world
      else if home.timer = 0 then startMonsterhomeTimer world nr chance
      else world

def notifyHome (world : World) (home : Nat) (chance : Chance) : World :=
  if home ≠ 0 then notifyMonsterhomeOfDeath world home chance else world

/-- `~TMonster`, after a death or a despawn. -/
def destroy (world : World) (index : Nat) (monster : Monster) (chance : Chance) : World :=
  let world := notifyHome world monster.home chance
  { world with monsters := world.monsters.eraseIdx index }

/-- `Convince` by a master who exists. -/
def convince (world : World) (index : Nat) (monster : Monster) (chance : Chance) : World :=
  let world := notifyHome world monster.home chance
  { world with monsters := world.monsters.set index { monster with home := 0 } }

/-- Summoned monsters, raids and scripts create monsters without a home. -/
inductive Call where
  | processMonsterhomes (chance : Chance)
  | destroy (index : Nat) (chance : Chance)
  | convince (index : Nat) (chance : Chance)
  | createMonster (race : Int)

def step (names : RaceNames) (world : World) : Call → Option World
  | .processMonsterhomes chance => processMonsterhomes names chance world
  | .destroy index chance =>
      world.monsters[index]?.map fun monster => destroy world index monster chance
  | .convince index chance =>
      world.monsters[index]?.map fun monster => convince world index monster chance
  | .createMonster race => some (createMonster names race 0 world)

def run (names : RaceNames) (world : World) : List Call → Option World
  | [] => some world
  | call :: rest => (step names world call).bind fun after => run names after rest

def population (world : World) (nr : Nat) : Nat :=
  world.monsters.countP fun monster => monster.home = nr

structure Accounted (home : Monsterhome) (monsters : Nat) : Prop where
  counted : home.actMonsters = monsters
  room : home.actMonsters ≤ home.maxMonsters
  awaits : home.actMonsters < home.maxMonsters → 0 < home.timer

instance (home : Monsterhome) (monsters : Nat) : Decidable (Accounted home monsters) :=
  decidable_of_iff (home.actMonsters = monsters ∧ home.actMonsters ≤ home.maxMonsters ∧
    (home.actMonsters < home.maxMonsters → 0 < home.timer))
    ⟨fun h => ⟨h.1, h.2.1, h.2.2⟩, fun h => ⟨h.counted, h.room, h.awaits⟩⟩

def LongEnough (home : Monsterhome) (nr : Nat) (chance : Chance) : Prop :=
  2 ≤ maxTimer home.regenerationTime chance.numPlayers ∨
    maxTimer home.regenerationTime chance.numPlayers = 1 ∧ chance.rand nr % 2 = 1

def placesAtLoad (chance : Chance) (nr : Nat) (home : Monsterhome) : Nat :=
  (List.range home.maxMonsters.toNat).countP (foundAtLoad chance nr home.radius)

/-- The home is not the last one, its race exists, and it gets a timer if it is not full. -/
structure LoadsWell (names : RaceNames) (chance : Chance) (homes nr : Nat)
    (home : Monsterhome) : Prop where
  bounded : 0 ≤ home.maxMonsters
  reached : nr = homes → home.maxMonsters = 0
  creates : 0 < placesAtLoad chance nr home → creates names home.race = true
  restarts : placesAtLoad chance nr home < home.maxMonsters → LongEnough home nr chance

/-- One call does the home no harm: a monster that finds a place has a race that exists, and a
timer that is started does not run out at once. -/
def Harmless (names : RaceNames) (world : World) (nr : Nat) : Call → Prop
  | .processMonsterhomes chance =>
      let home := world.homes nr
      let found := foundInRound chance nr home
      home.timer = 1 → (found = true → creates names home.race = true) ∧
        (¬ (found = true ∧ home.actMonsters + 1 = home.maxMonsters) → LongEnough home nr chance)
  | .destroy index chance =>
      world.monsters[index]?.map Monster.home = some nr → (world.homes nr).timer = 0 →
        LongEnough (world.homes nr) nr chance
  | .convince index chance =>
      world.monsters[index]?.map Monster.home = some nr → (world.homes nr).timer = 0 →
        LongEnough (world.homes nr) nr chance
  | .createMonster _ => True

def HarmlessRun (names : RaceNames) (nr : Nat) : World → List Call → Prop
  | _, [] => True
  | world, call :: rest =>
      Harmless names world nr call ∧
        ∀ after, step names world call = some after → HarmlessRun names nr after rest

section Timers

variable {home : Monsterhome} {nr : Nat} {chance : Chance} {world : World}

theorem draw_positive (long : LongEnough home nr chance) :
    0 < random ((maxTimer home.regenerationTime chance.numPlayers).tdiv 2)
      (maxTimer home.regenerationTime chance.numPlayers) (chance.rand nr) := by
  unfold LongEnough at long
  unfold random
  generalize maxTimer home.regenerationTime chance.numPlayers = time at long ⊢
  rcases long with long | ⟨one, odd⟩
  · have half : 1 ≤ time.tdiv 2 := by
      rw [Int.tdiv_eq_ediv_of_nonneg (by omega)]
      omega
    dsimp only
    split_ifs with range
    · have drawn := Int.emod_nonneg (chance.rand nr : Int) (Int.ne_of_gt range)
      omega
    · omega
  subst one
  have range : (1 : Int) - Int.tdiv 1 2 + 1 = 2 := by decide
  have half : Int.tdiv 1 2 = 0 := by decide
  rw [range, half, if_pos (by omega)]
  omega

theorem start_timer_own (first : 1 ≤ nr) (last : nr ≤ world.monsterhomes)
    (stopped : (world.homes nr).timer ≤ 0)
    (missing : (world.homes nr).actMonsters < (world.homes nr).maxMonsters) :
    startMonsterhomeTimer world nr chance =
      setHome world nr { world.homes nr with
        timer := random ((maxTimer (world.homes nr).regenerationTime chance.numPlayers).tdiv 2)
          (maxTimer (world.homes nr).regenerationTime chance.numPlayers) (chance.rand nr) } := by
  unfold startMonsterhomeTimer
  rw [if_neg (by omega)]
  rw [if_neg (by omega), if_neg (by omega)]

end Timers

structure Apart (nr : Nat) (before after : World) : Prop where
  home : after.homes nr = before.homes nr
  population : population after nr = population before nr
  monsterhomes : after.monsterhomes = before.monsterhomes

section Frames

variable {nr other : Nat} {world before after : World} {names : RaceNames} {chance : Chance}

theorem apart_refl : Apart nr world world := ⟨rfl, rfl, rfl⟩

theorem Apart.trans {middle : World} (first : Apart nr before middle)
    (second : Apart nr middle after) : Apart nr before after :=
  ⟨second.home.trans first.home, second.population.trans first.population,
    second.monsterhomes.trans first.monsterhomes⟩

theorem set_home_apart (home : Monsterhome) (different : nr ≠ other) :
    Apart nr world (setHome world other home) :=
  ⟨Function.update_of_ne different _ _, rfl, rfl⟩

theorem start_timer_apart (different : nr ≠ other) :
    Apart nr world (startMonsterhomeTimer world other chance) := by
  unfold startMonsterhomeTimer
  dsimp only
  split_ifs
  · exact apart_refl
  · exact apart_refl
  · exact apart_refl
  · exact set_home_apart _ different

theorem create_monster_apart (race : Int) (different : nr ≠ other) :
    Apart nr world (createMonster names race other world) := by
  unfold createMonster
  split_ifs
  · refine ⟨rfl, ?_, rfl⟩
    simp [population, countP_append, different.symm]
  · exact apart_refl

theorem spawn_apart (found : Bool) (different : nr ≠ other) :
    Apart nr world (spawn names other found world) := by
  unfold spawn
  split_ifs
  · apply Apart.trans (create_monster_apart _ different)
    exact set_home_apart _ different
  · exact apart_refl

theorem populate_apart (radius : Int) (attempts : List Nat) (different : nr ≠ other) :
    Apart nr world (populate names chance other radius attempts world) := by
  induction attempts generalizing world with
  | nil => exact apart_refl
  | cons attempt rest ih => exact (spawn_apart _ different).trans ih

variable (different : nr ≠ other)
include different

theorem load_home_apart : Apart nr world (loadHome names chance world other) := by
  have populated : Apart nr world (populate names chance other (world.homes other).radius
      (List.range (world.homes other).maxMonsters.toNat) world) :=
    populate_apart _ _ different
  unfold loadHome
  dsimp only
  split_ifs
  · exact populated
  · exact populated.trans (start_timer_apart different)
  · exact populated

theorem respawn_apart : Apart nr world (respawn names chance world other) := by
  have spawned : Apart nr world
      (spawn names other (foundInRound chance other (world.homes other)) world) :=
    spawn_apart _ different
  unfold respawn
  dsimp only
  split_ifs
  · exact spawned.trans (start_timer_apart different)
  · exact spawned

theorem process_home_apart (went : processHome names chance world other = some after) :
    Apart nr world after := by
  have ticked : Apart nr world (tick world other) := set_home_apart _ different
  unfold processHome at went
  dsimp only at went
  split_ifs at went
  · cases went
    exact apart_refl
  · cases went
    exact ticked
  · cases went
    exact ticked.trans (respawn_apart different)

theorem notify_apart : Apart nr world (notifyMonsterhomeOfDeath world other chance) := by
  unfold notifyMonsterhomeOfDeath
  dsimp only
  split_ifs
  · exact apart_refl
  · exact apart_refl
  · exact set_home_apart _ different
  · exact (set_home_apart _ different).trans (start_timer_apart different)
  · exact set_home_apart _ different

end Frames

structure Balanced (home : Monsterhome) (monsters : Nat) : Prop where
  counted : home.actMonsters = monsters
  room : home.actMonsters ≤ home.maxMonsters
  awaits : home.actMonsters < home.maxMonsters → 0 < home.timer
  rests : home.actMonsters = home.maxMonsters → home.timer = 0

section Homes

variable {nr : Nat} {world after : World} {names : RaceNames} {chance : Chance}

theorem Balanced.accounted {home : Monsterhome} {monsters : Nat}
    (balanced : Balanced home monsters) : Accounted home monsters :=
  ⟨balanced.counted, balanced.room, balanced.awaits⟩

theorem set_home_own (home : Monsterhome) : (setHome world nr home).homes nr = home := by
  simp only [setHome, Function.update_self]

/-- A full home keeps its stopped timer, any other home gets a new one. -/
theorem restart_balanced (first : 1 ≤ nr) (last : nr ≤ world.monsterhomes)
    (counted : (world.homes nr).actMonsters = population world nr)
    (room : (world.homes nr).actMonsters ≤ (world.homes nr).maxMonsters)
    (stopped : (world.homes nr).timer = 0)
    (long : (world.homes nr).actMonsters < (world.homes nr).maxMonsters →
      LongEnough (world.homes nr) nr chance) :
    let after := if (world.homes nr).actMonsters < (world.homes nr).maxMonsters then
      startMonsterhomeTimer world nr chance else world
    Balanced (after.homes nr) (population after nr) := by
  dsimp only
  split_ifs with missing
  · rw [start_timer_own first last (by omega) missing, set_home_own]
    have drawn := draw_positive (long missing)
    exact ⟨counted, room, fun _ => drawn, fun full => absurd full (Int.ne_of_lt missing)⟩
  · exact ⟨counted, room, fun below => absurd below missing, fun _ => stopped⟩

def Monsterhome.grown (home : Monsterhome) (more : Nat) : Monsterhome :=
  { home with actMonsters := home.actMonsters + more }

/-- The home has that many monsters more, in its books and in the world. -/
structure Grown (nr more : Nat) (before after : World) : Prop where
  home : after.homes nr = (before.homes nr).grown more
  population : population after nr = population before nr + more
  monsterhomes : after.monsterhomes = before.monsterhomes

theorem grown_zero (home : Monsterhome) : home.grown 0 = home := by
  simp [Monsterhome.grown]

theorem grown_grown (home : Monsterhome) (first second : Nat) :
    (home.grown first).grown second = home.grown (first + second) := by
  simp [Monsterhome.grown, add_assoc]

theorem Grown.trans {middle : World} {first second : Nat} (one : Grown nr first world middle)
    (two : Grown nr second middle after) : Grown nr (first + second) world after where
  home := by rw [two.home, one.home, grown_grown]
  population := by rw [two.population, one.population, add_assoc]
  monsterhomes := two.monsterhomes.trans one.monsterhomes

theorem create_monster_population {race : Int} (created : creates names race = true) :
    population (createMonster names race nr world) nr = population world nr + 1 := by
  rw [createMonster, if_pos created]
  simp [population, countP_append]

theorem create_monster_homes (race : Int) (home : Nat) :
    (createMonster names race home world).homes = world.homes ∧
      (createMonster names race home world).monsterhomes = world.monsterhomes := by
  unfold createMonster
  split_ifs <;> exact ⟨rfl, rfl⟩

theorem spawn_grows (found : Bool)
    (created : found = true → creates names (world.homes nr).race = true) :
    Grown nr (if found then 1 else 0) world (spawn names nr found world) := by
  rcases found with _ | _
  · exact ⟨(grown_zero _).symm, rfl, rfl⟩
  exact ⟨set_home_own _, create_monster_population (created rfl),
    (create_monster_homes _ _).2⟩

theorem populate_grows (radius : Int) (attempts : List Nat)
    (created : 0 < attempts.countP (foundAtLoad chance nr radius) →
      creates names (world.homes nr).race = true) :
    Grown nr (attempts.countP (foundAtLoad chance nr radius)) world
      (populate names chance nr radius attempts world) := by
  induction attempts generalizing world with
  | nil => exact ⟨(grown_zero _).symm, rfl, rfl⟩
  | cons attempt rest ih =>
    rw [countP_cons] at created ⊢
    have spawned := spawn_grows (foundAtLoad chance nr radius attempt) fun found =>
      created (by simp [found])
    have later : 0 < rest.countP (foundAtLoad chance nr radius) →
        creates names ((spawn names nr (foundAtLoad chance nr radius attempt) world).homes
          nr).race = true := by
      intro positive
      rw [spawned.home]
      exact created (by omega)
    rw [add_comm]
    exact spawned.trans (ih later)

theorem load_home_balanced (first : 1 ≤ nr) (last : nr ≤ world.monsterhomes)
    (empty : (world.homes nr).actMonsters = 0) (uninhabited : population world nr = 0)
    (stopped : (world.homes nr).timer = 0) (bounded : 0 ≤ (world.homes nr).maxMonsters)
    (created : 0 < placesAtLoad chance nr (world.homes nr) →
      creates names (world.homes nr).race = true)
    (restarts : placesAtLoad chance nr (world.homes nr) < (world.homes nr).maxMonsters →
      LongEnough (world.homes nr) nr chance) :
    Balanced ((loadHome names chance world nr).homes nr)
      (population (loadHome names chance world nr) nr) := by
  have grown : Grown nr (placesAtLoad chance nr (world.homes nr)) world
      (populate names chance nr (world.homes nr).radius
        (List.range (world.homes nr).maxMonsters.toNat) world) :=
    populate_grows _ _ created
  have most : placesAtLoad chance nr (world.homes nr) ≤ (world.homes nr).maxMonsters.toNat :=
    countP_le_length.trans_eq length_range
  unfold loadHome
  dsimp only
  generalize populate names chance nr (world.homes nr).radius
    (List.range (world.homes nr).maxMonsters.toNat) world = filled at grown ⊢
  have act : (filled.homes nr).actMonsters = placesAtLoad chance nr (world.homes nr) := by
    rw [grown.home]
    change (world.homes nr).actMonsters + _ = _
    omega
  have still : (filled.homes nr).timer = 0 := by
    rw [grown.home]
    exact stopped
  have limit : (filled.homes nr).maxMonsters = (world.homes nr).maxMonsters := by
    rw [grown.home]
    rfl
  rw [if_neg (by omega)]
  apply restart_balanced first (by rw [grown.monsterhomes]; exact last)
  · rw [act, grown.population, uninhabited, zero_add]
  · omega
  · exact still
  · intro missing
    rw [grown.home]
    exact restarts (by omega)

theorem respawn_balanced (first : 1 ≤ nr) (last : nr ≤ world.monsterhomes)
    (counted : (world.homes nr).actMonsters = population world nr)
    (missing : (world.homes nr).actMonsters < (world.homes nr).maxMonsters)
    (stopped : (world.homes nr).timer = 0)
    (created : foundInRound chance nr (world.homes nr) = true →
      creates names (world.homes nr).race = true)
    (restarts : ¬ (foundInRound chance nr (world.homes nr) = true ∧
      (world.homes nr).actMonsters + 1 = (world.homes nr).maxMonsters) →
      LongEnough (world.homes nr) nr chance) :
    Balanced ((respawn names chance world nr).homes nr)
      (population (respawn names chance world nr) nr) := by
  have grown := spawn_grows (foundInRound chance nr (world.homes nr)) created
  unfold respawn
  generalize spawn names nr (foundInRound chance nr (world.homes nr)) world = filled at grown ⊢
  have act : (filled.homes nr).actMonsters = (world.homes nr).actMonsters +
      ((if foundInRound chance nr (world.homes nr) then 1 else 0 : Nat) : Int) := by
    rw [grown.home]
    rfl
  have limit : (filled.homes nr).maxMonsters = (world.homes nr).maxMonsters := by
    rw [grown.home]
    rfl
  have still : (filled.homes nr).timer = 0 := by
    rw [grown.home]
    exact stopped
  apply restart_balanced first (by rw [grown.monsterhomes]; exact last)
  · rw [act, grown.population, counted, Nat.cast_add]
  · split_ifs at act <;> omega
  · exact still
  · intro below
    rw [grown.home]
    apply restarts
    rintro ⟨found, full⟩
    rw [if_pos found] at act
    omega

theorem start_timer_monsterhomes :
    (startMonsterhomeTimer world nr chance).monsterhomes = world.monsterhomes := by
  unfold startMonsterhomeTimer
  dsimp only
  split_ifs <;> rfl

theorem respawn_monsterhomes :
    (respawn names chance world nr).monsterhomes = world.monsterhomes := by
  have spawned : (spawn names nr (foundInRound chance nr (world.homes nr)) world).monsterhomes =
      world.monsterhomes := by
    unfold spawn
    split_ifs
    · exact (create_monster_homes _ _).2
    · rfl
  unfold respawn
  dsimp only
  split_ifs
  · exact start_timer_monsterhomes.trans spawned
  · exact spawned

theorem process_home_monsterhomes (went : processHome names chance world nr = some after) :
    after.monsterhomes = world.monsterhomes := by
  unfold processHome at went
  dsimp only at went
  split_ifs at went
  · cases went
    rfl
  · cases went
    rfl
  · cases went
    exact respawn_monsterhomes

theorem process_home_balanced (first : 1 ≤ nr) (last : nr ≤ world.monsterhomes)
    (balanced : Balanced (world.homes nr) (population world nr))
    (harmless : Harmless names world nr (.processMonsterhomes chance))
    (went : processHome names chance world nr = some after) :
    Balanced (after.homes nr) (population after nr) := by
  have ticked : (tick world nr).homes nr =
      { world.homes nr with timer := (world.homes nr).timer - 1 } := set_home_own _
  unfold processHome at went
  dsimp only at went
  rw [ticked] at went
  split_ifs at went with negative zero running
  · cases went
    exact balanced
  · cases went
    rw [ticked]
    exact ⟨balanced.counted, balanced.room, fun _ => running,
      fun full => absurd (balanced.rests full) zero⟩
  · cases went
    have due : (world.homes nr).timer = 1 := by
      dsimp only at running
      omega
    have missing : (world.homes nr).actMonsters < (world.homes nr).maxMonsters :=
      lt_of_le_of_ne balanced.room fun full => zero (balanced.rests full)
    have limit : nr ≤ (tick world nr).monsterhomes := last
    apply respawn_balanced first limit
    · rw [ticked]
      exact balanced.counted
    · rw [ticked]
      exact missing
    · rw [ticked]
      dsimp only
      omega
    · rw [ticked]
      exact (harmless due).1
    · rw [ticked]
      exact (harmless due).2

theorem balanced_of_apart (apart : Apart nr world after)
    (balanced : Balanced (world.homes nr) (population world nr)) :
    Balanced (after.homes nr) (population after nr) := by
  rw [apart.home, apart.population]
  exact balanced

theorem process_homes_apart (turns : List Nat) (absent : nr ∉ turns)
    (went : processHomes names chance turns world = some after) : Apart nr world after := by
  induction turns generalizing world with
  | nil =>
    cases went
    exact apart_refl
  | cons turn rest ih =>
    obtain ⟨middle, turned, rested⟩ := Option.bind_eq_some_iff.mp went
    rw [mem_cons, not_or] at absent
    exact (process_home_apart absent.1 turned).trans (ih absent.2 rested)

theorem process_homes_monsterhomes (turns : List Nat)
    (went : processHomes names chance turns world = some after) :
    after.monsterhomes = world.monsterhomes := by
  induction turns generalizing world with
  | nil =>
    cases went
    rfl
  | cons turn rest ih =>
    obtain ⟨middle, turned, rested⟩ := Option.bind_eq_some_iff.mp went
    exact (ih rested).trans (process_home_monsterhomes turned)

/-- Every home has one turn; the turns of the others do not matter to it. -/
theorem process_homes_balanced (first : 1 ≤ nr) (turns : List Nat) (once : turns.Nodup)
    (last : nr ≤ world.monsterhomes) (balanced : Balanced (world.homes nr) (population world nr))
    (harmless : Harmless names world nr (.processMonsterhomes chance))
    (went : processHomes names chance turns world = some after) :
    Balanced (after.homes nr) (population after nr) := by
  induction turns generalizing world with
  | nil =>
    cases went
    exact balanced
  | cons turn rest ih =>
    obtain ⟨middle, turned, rested⟩ := Option.bind_eq_some_iff.mp went
    rw [nodup_cons] at once
    by_cases own : nr = turn
    · subst turn
      have processed := process_home_balanced first last balanced harmless turned
      exact balanced_of_apart (process_homes_apart rest once.1 rested) processed
    have apart := process_home_apart own turned
    apply ih once.2 _ (balanced_of_apart apart balanced) _ rested
    · rw [apart.monsterhomes]
      exact last
    · unfold Harmless
      rw [apart.home]
      exact harmless

theorem load_homes_apart (turns : List Nat) (absent : nr ∉ turns) :
    Apart nr world (turns.foldl (loadHome names chance) world) := by
  induction turns generalizing world with
  | nil => exact apart_refl
  | cons turn rest ih =>
    rw [mem_cons, not_or] at absent
    exact (load_home_apart absent.1).trans (ih absent.2)

theorem load_home_monsterhomes (other : Nat) :
    (loadHome names chance world other).monsterhomes = world.monsterhomes := by
  have different : other + 1 ≠ other := by omega
  have populated : (populate names chance other (world.homes other).radius
      (List.range (world.homes other).maxMonsters.toNat) world).monsterhomes =
        world.monsterhomes :=
    (populate_apart _ _ different).monsterhomes
  unfold loadHome
  dsimp only
  split_ifs
  · exact populated
  · exact start_timer_monsterhomes.trans populated
  · exact populated

theorem load_homes_balanced (first : 1 ≤ nr) (turns : List Nat) (once : turns.Nodup)
    (turn : nr ∈ turns) (last : nr ≤ world.monsterhomes)
    (empty : (world.homes nr).actMonsters = 0) (uninhabited : population world nr = 0)
    (stopped : (world.homes nr).timer = 0)
    (loads : LoadsWell names chance world.monsterhomes nr (world.homes nr)) :
    Balanced ((turns.foldl (loadHome names chance) world).homes nr)
      (population (turns.foldl (loadHome names chance) world) nr) := by
  induction turns generalizing world with
  | nil => exact absurd turn not_mem_nil
  | cons head rest ih =>
    rw [nodup_cons] at once
    by_cases own : nr = head
    · subst head
      apply balanced_of_apart (load_homes_apart rest once.1)
      exact load_home_balanced first last empty uninhabited stopped loads.bounded loads.creates
        loads.restarts
    have apart : Apart nr world (loadHome names chance world head) := load_home_apart own
    apply ih once.2 ((mem_cons.mp turn).resolve_left own)
    · rw [apart.monsterhomes]
      exact last
    · rw [apart.home]
      exact empty
    · rw [apart.population]
      exact uninhabited
    · rw [apart.home]
      exact stopped
    · rw [apart.home, apart.monsterhomes]
      exact loads

end Homes

section Files

variable {numbers : List Int} {filed : List Monsterhome} {storage : Nat → Monsterhome}
  {names : RaceNames} {chance : Chance} {nr : Nat}

theorem read_homes_empty (file : readMonsterhomes numbers = some filed) :
    ∀ home ∈ filed, home.actMonsters = 0 ∧ home.timer = 0 := by
  fun_induction readMonsterhomes numbers generalizing filed with
  | case1 rest =>
    cases file
    exact fun home member => absurd member not_mem_nil
  | case2 race nonzero x y z radius maxMonsters regenerationTime rest ih =>
    obtain ⟨homes, read, rfl⟩ := Option.map_eq_some_iff.mp file
    intro home member
    cases member with
    | head => exact ⟨rfl, rfl⟩
    | tail _ later => exact ih read home later
  | case3 => cases file
  | case4 => cases file

theorem stored_home (storage : Nat → Monsterhome) {home : Monsterhome}
    (entry : filed[nr - 1]? = some home) (first : 1 ≤ nr) :
    (storeHomes storage filed).homes nr = home := by
  change (if nr = 0 then none else filed[nr - 1]?).getD (storage nr) = home
  rw [if_neg (by omega), entry]
  rfl

theorem load_monsterhomes_balanced {home : Monsterhome}
    (file : readMonsterhomes numbers = some filed) (first : 1 ≤ nr)
    (entry : filed[nr - 1]? = some home) (loads : LoadsWell names chance filed.length nr home) :
    Balanced ((loadMonsterhomes names storage filed chance).homes nr)
      (population (loadMonsterhomes names storage filed chance) nr) := by
  have stored := stored_home storage entry first
  obtain ⟨empty, stopped⟩ := read_homes_empty file home (mem_of_getElem? entry)
  have last : nr ≤ filed.length := by
    obtain ⟨inside, -⟩ := List.getElem?_eq_some_iff.mp entry
    omega
  by_cases reached : nr < filed.length
  · apply load_homes_balanced first _ nodup_range (mem_range.mpr reached) last
    · rw [stored]
      exact empty
    · rfl
    · rw [stored]
      exact stopped
    · rw [stored]
      exact loads
  have none : home.maxMonsters = 0 := loads.reached (by omega)
  apply balanced_of_apart (load_homes_apart _ fun member => reached (mem_range.mp member))
  rw [stored]
  exact ⟨empty, by omega, fun missing => by omega, fun _ => stopped⟩

end Files


section Runs

variable {world after : World} {names : RaceNames} {chance : Chance} {nr index : Nat}
  {monster : Monster}

theorem erase_population (nr : Nat) (entry : world.monsters[index]? = some monster) :
    (if monster.home = nr then 1 else 0) +
      (world.monsters.eraseIdx index).countP (fun monster => monster.home = nr) =
        population world nr := by
  obtain ⟨inside, rfl⟩ := List.getElem?_eq_some_iff.mp entry
  have same := (getElem_cons_eraseIdx_perm inside).countP_eq fun monster => monster.home = nr
  rw [countP_cons, add_comm] at same
  simpa [population] using same

theorem set_population (entry : world.monsters[index]? = some monster) (first : 1 ≤ nr) :
    (world.monsters.set index { monster with home := 0 }).countP
      (fun monster => monster.home = nr) =
        (world.monsters.eraseIdx index).countP fun monster => monster.home = nr := by
  obtain ⟨inside, -⟩ := List.getElem?_eq_some_iff.mp entry
  have same := (set_perm_cons_eraseIdx inside { monster with home := 0 }).countP_eq
    fun monster => monster.home = nr
  rw [countP_cons] at same
  rw [same, if_neg (by simp only [decide_eq_true_eq]; omega), add_zero]

theorem notify_monsters (home : Nat) : (notifyHome world home chance).monsters = world.monsters := by
  unfold notifyHome notifyMonsterhomeOfDeath startMonsterhomeTimer
  dsimp only
  split_ifs <;> rfl

theorem notify_monsterhomes (home : Nat) :
    (notifyHome world home chance).monsterhomes = world.monsterhomes := by
  unfold notifyHome notifyMonsterhomeOfDeath startMonsterhomeTimer
  dsimp only
  split_ifs <;> rfl

theorem notify_home_apart {home : Nat} (different : nr ≠ home) :
    Apart nr world (notifyHome world home chance) := by
  unfold notifyHome
  split_ifs
  · exact notify_apart different
  · exact apart_refl

section

variable (first : 1 ≤ nr) (last : nr ≤ world.monsterhomes)
include first last

theorem notify_balanced {fewer : Nat} (balanced : Balanced (world.homes nr) (fewer + 1))
    (long : (world.homes nr).timer = 0 → LongEnough (world.homes nr) nr chance) :
    Balanced ((notifyHome world nr chance).homes nr) fewer := by
  have counted := balanced.counted
  have room := balanced.room
  unfold notifyHome notifyMonsterhomeOfDeath
  dsimp only
  rw [if_pos (by omega), if_neg (by omega), if_neg (by omega), if_neg (by omega)]
  split_ifs with stopped
  · have limit : nr ≤ (setHome world nr { world.homes nr with
        actMonsters := (world.homes nr).actMonsters - 1 }).monsterhomes := last
    rw [start_timer_own first limit (by rw [set_home_own]; exact stopped.le)
      (by rw [set_home_own]; dsimp only; omega), set_home_own, set_home_own]
    have drawn := draw_positive (long stopped)
    exact ⟨by dsimp only; omega, by dsimp only; omega, fun _ => drawn,
      fun full => by dsimp only at full; omega⟩
  rw [set_home_own]
  have running : 0 < (world.homes nr).timer :=
    balanced.awaits (lt_of_le_of_ne room fun full => stopped (balanced.rests full))
  exact ⟨by dsimp only; omega, by dsimp only; omega, fun _ => running,
    fun full => by dsimp only at full; omega⟩

theorem leave_balanced (balanced : Balanced (world.homes nr) (population world nr))
    (entry : world.monsters[index]? = some monster)
    (long : world.monsters[index]?.map Monster.home = some nr → (world.homes nr).timer = 0 →
      LongEnough (world.homes nr) nr chance) :
    Balanced ((notifyHome world monster.home chance).homes nr)
      ((world.monsters.eraseIdx index).countP fun monster => monster.home = nr) := by
  have erased := erase_population nr entry
  by_cases own : monster.home = nr
  · rw [if_pos own, add_comm] at erased
    rw [← erased] at balanced
    rw [own]
    apply notify_balanced first last balanced
    apply long
    rw [entry, Option.map_some, own]
  rw [if_neg own, zero_add] at erased
  rw [(notify_home_apart fun same => own same.symm).home, erased]
  exact balanced

theorem step_balanced {call : Call} (balanced : Balanced (world.homes nr) (population world nr))
    (harmless : Harmless names world nr call) (went : step names world call = some after) :
    Balanced (after.homes nr) (population after nr) := by
  cases call with
  | processMonsterhomes chance =>
    apply process_homes_balanced first _ _ last balanced harmless went
    exact nodup_range.map (Nat.succ_injective)
  | destroy index chance =>
    obtain ⟨monster, entry, rfl⟩ := Option.map_eq_some_iff.mp went
    have left := leave_balanced first last balanced entry harmless
    rw [← notify_monsters monster.home] at left
    exact left
  | convince index chance =>
    obtain ⟨monster, entry, rfl⟩ := Option.map_eq_some_iff.mp went
    have left := leave_balanced first last balanced entry harmless
    rw [← set_population entry first, ← notify_monsters monster.home] at left
    exact left
  | createMonster race =>
    cases went
    exact balanced_of_apart (create_monster_apart race (by omega)) balanced

end

theorem step_monsterhomes {call : Call} (went : step names world call = some after) :
    after.monsterhomes = world.monsterhomes := by
  cases call with
  | processMonsterhomes chance => exact process_homes_monsterhomes _ went
  | destroy index chance =>
    obtain ⟨monster, entry, rfl⟩ := Option.map_eq_some_iff.mp went
    exact notify_monsterhomes monster.home
  | convince index chance =>
    obtain ⟨monster, entry, rfl⟩ := Option.map_eq_some_iff.mp went
    exact notify_monsterhomes monster.home
  | createMonster race =>
    cases went
    exact (create_monster_homes race 0).2

theorem run_balanced (first : 1 ≤ nr) (calls : List Call) (last : nr ≤ world.monsterhomes)
    (balanced : Balanced (world.homes nr) (population world nr))
    (harmless : HarmlessRun names nr world calls) (went : run names world calls = some after) :
    Balanced (after.homes nr) (population after nr) := by
  induction calls generalizing world with
  | nil =>
    cases went
    exact balanced
  | cons call rest ih =>
    obtain ⟨middle, stepped, rested⟩ := Option.bind_eq_some_iff.mp went
    apply ih _ (step_balanced first last balanced harmless.1 stepped)
      (harmless.2 middle stepped) rested
    rw [step_monsterhomes stepped]
    exact last

theorem load_monsterhomes_count (names : RaceNames) (chance : Chance)
    (storage : Nat → Monsterhome) (filed : List Monsterhome) :
    (loadMonsterhomes names storage filed chance).monsterhomes = filed.length := by
  unfold loadMonsterhomes
  generalize List.range filed.length = turns
  suffices count : ∀ world : World,
      (turns.foldl (loadHome names chance) world).monsterhomes = world.monsterhomes from
    count (storeHomes storage filed)
  induction turns with
  | nil => exact fun world => rfl
  | cons turn rest ih => exact fun world => (ih _).trans (load_home_monsterhomes turn)

/-- A home that is loaded well and comes to no harm has as many monsters as it counts, never
too many, and waits for the next one while there is room. -/
theorem homes_are_accounted (numbers : List Int) {filed : List Monsterhome}
    {storage : Nat → Monsterhome} {home : Monsterhome} {calls : List Call}
    (file : readMonsterhomes numbers = some filed) (first : 1 ≤ nr)
    (entry : filed[nr - 1]? = some home) (loads : LoadsWell names chance filed.length nr home)
    (harmless : HarmlessRun names nr (loadMonsterhomes names storage filed chance) calls)
    (went : run names (loadMonsterhomes names storage filed chance) calls = some after) :
    Accounted (after.homes nr) (population after nr) := by
  have last : nr ≤ filed.length := by
    obtain ⟨inside, -⟩ := List.getElem?_eq_some_iff.mp entry
    omega
  rw [← load_monsterhomes_count names chance storage filed] at last
  exact (run_balanced first calls last (load_monsterhomes_balanced file first entry loads)
    harmless went).accounted

def rats : RaceNames := fun race => if race = 1 then [114, 97, 116] else []

def lucky : Chance where
  numPlayers := 0
  watchers _ := []
  search _ attempt _ := if attempt = 0 then some ⟨100, 100, 7⟩ else none
  rand _ := 0

def emptyStorage : Nat → Monsterhome := fun _ => ⟨0, 0, 0, 0, 0, 0, 0, 0, 0⟩

theorem home_is_accounted :
    let loaded := loadMonsterhomes rats emptyStorage
      [⟨1, 100, 100, 7, 5, 2, 0, 2, 0⟩, ⟨1, 120, 100, 7, 5, 1, 0, 60, 0⟩] lucky
    let after := destroy (respawn rats lucky (tick loaded 1) 1) 0 ⟨1, 1⟩ lucky
    run rats loaded [.processMonsterhomes lucky, .destroy 0 lucky] = some after ∧
      Accounted (after.homes 1) (population after 1) := by
  intro loaded after
  have went : run rats loaded [.processMonsterhomes lucky, .destroy 0 lucky] = some after := rfl
  refine ⟨went, homes_are_accounted
    [1, 100, 100, 7, 5, 2, 2, 1, 120, 100, 7, 5, 1, 60, 0] rfl (by decide) rfl
    ⟨by decide, by decide, fun _ => by decide, fun _ => Or.inl (by decide)⟩ ?_ went⟩
  refine ⟨fun _ => ⟨fun _ => by decide, fun short => absurd (by decide) short⟩, ?_⟩
  intro middle processed
  cases processed
  exact ⟨fun _ _ => Or.inl (by decide), fun _ _ => trivial⟩

/-- The only home of the file has room for one monster, and a place would be found for it. -/
theorem only_home_is_not_loaded :
    readMonsterhomes [1, 100, 100, 7, 5, 1, 60, 0] = some [⟨1, 100, 100, 7, 5, 1, 0, 60, 0⟩] ∧
      ¬ Accounted
        ((loadMonsterhomes rats emptyStorage [⟨1, 100, 100, 7, 5, 1, 0, 60, 0⟩] lucky).homes 1)
        (population (loadMonsterhomes rats emptyStorage [⟨1, 100, 100, 7, 5, 1, 0, 60, 0⟩] lucky)
          1) := by
  decide

theorem process_homes_silent (turns : List Nat) (stopped : (world.homes nr).timer = 0)
    (went : processHomes names chance turns world = some after) : Apart nr world after := by
  induction turns generalizing world with
  | nil =>
    cases went
    exact apart_refl
  | cons turn rest ih =>
    obtain ⟨middle, turned, rested⟩ := Option.bind_eq_some_iff.mp went
    have apart : Apart nr world middle := by
      by_cases own : nr = turn
      · subst turn
        rw [processHome, if_neg (by omega), if_pos stopped] at turned
        cases turned
        exact apart_refl
      · exact process_home_apart own turned
    apply apart.trans
    apply ih _ rested
    rw [apart.home]
    exact stopped

/-- Nothing happens to a home whose timer stands still and in which nobody lives. -/
theorem step_silent {call : Call} (first : 1 ≤ nr) (empty : population world nr = 0)
    (stopped : (world.homes nr).timer = 0) (went : step names world call = some after) :
    Apart nr world after := by
  have elsewhere : ∀ {index : Nat} {monster : Monster}, world.monsters[index]? = some monster →
      nr ≠ monster.home ∧
        (world.monsters.eraseIdx index).countP (fun monster => monster.home = nr) =
          population world nr := by
    intro index monster entry
    have erased := erase_population nr entry
    split_ifs at erased with own
    · omega
    · exact ⟨fun same => own same.symm, by omega⟩
  cases call with
  | processMonsterhomes chance => exact process_homes_silent _ stopped went
  | destroy index chance =>
    obtain ⟨monster, entry, rfl⟩ := Option.map_eq_some_iff.mp went
    obtain ⟨different, kept⟩ := elsewhere entry
    have apart : Apart nr world (notifyHome world monster.home chance) :=
      notify_home_apart different
    rw [← notify_monsters monster.home] at kept
    exact ⟨apart.home, kept, apart.monsterhomes⟩
  | convince index chance =>
    obtain ⟨monster, entry, rfl⟩ := Option.map_eq_some_iff.mp went
    obtain ⟨different, kept⟩ := elsewhere entry
    have apart : Apart nr world (notifyHome world monster.home chance) :=
      notify_home_apart different
    rw [← set_population entry first, ← notify_monsters monster.home] at kept
    exact ⟨apart.home, kept, apart.monsterhomes⟩
  | createMonster race =>
    cases went
    exact create_monster_apart race (by omega)

theorem run_silent (first : 1 ≤ nr) (calls : List Call) (empty : population world nr = 0)
    (stopped : (world.homes nr).timer = 0) (went : run names world calls = some after) :
    Apart nr world after := by
  induction calls generalizing world with
  | nil =>
    cases went
    exact apart_refl
  | cons call rest ih =>
    obtain ⟨middle, stepped, rested⟩ := Option.bind_eq_some_iff.mp went
    have apart := step_silent first empty stopped stepped
    apply apart.trans
    apply ih (apart.population.trans empty) _ rested
    rw [apart.home]
    exact stopped

theorem last_home_stays_dead {numbers : List Int} {filed : List Monsterhome}
    {storage : Nat → Monsterhome} {home : Monsterhome} {calls : List Call}
    (file : readMonsterhomes numbers = some filed) (entry : filed[filed.length - 1]? = some home)
    (went : run names (loadMonsterhomes names storage filed chance) calls = some after) :
    after.homes filed.length = home ∧ home.actMonsters = 0 ∧ home.timer = 0 ∧
      population after filed.length = 0 := by
  have first : 1 ≤ filed.length := by
    obtain ⟨inside, -⟩ := List.getElem?_eq_some_iff.mp entry
    omega
  obtain ⟨empty, stopped⟩ := read_homes_empty file home (mem_of_getElem? entry)
  have loaded : Apart filed.length (storeHomes storage filed)
      (loadMonsterhomes names storage filed chance) :=
    load_homes_apart _ not_mem_range_self
  have stored := stored_home storage entry first
  have ran := loaded.trans (run_silent first calls loaded.population
    (by rw [loaded.home, stored]; exact stopped) went)
  exact ⟨ran.home.trans stored, empty, stopped, ran.population⟩

theorem only_home_stays_dead :
    let home : Monsterhome := ⟨1, 100, 100, 7, 5, 1, 0, 60, 0⟩
    let world := loadMonsterhomes rats emptyStorage [home] lucky
    world.homes 1 = home ∧ home.actMonsters = 0 ∧ home.timer = 0 ∧ population world 1 = 0 := by
  intro home world
  have file : readMonsterhomes [1, 100, 100, 7, 5, 1, 60, 0] = some [home] := rfl
  have went : run rats world [.processMonsterhomes lucky] = some world := rfl
  exact last_home_stays_dead file rfl went

end Runs

end TibiaGame.Monsterhomes
