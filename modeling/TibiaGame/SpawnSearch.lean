import TibiaGame.FieldSearch
import TibiaGame.Monsterhomes
import TibiaGame.Library.PhaseSearch

/-!
# The search for a field to spawn on

The search spreads over a square around the start, phase after phase. A field of the current phase
is looked at in full: it may lead on to its neighbors, and it may admit a login, where a random
number decides between the fields of one phase.
-/

namespace TibiaGame.SpawnSearch

open GameTypes FieldSearch List
open TibiaGame.Monsterhomes (random)
open Library.PhaseSearch

variable {cfg : GameConfig}

structure Survey where
  expansionPossible : Bool
  loginPossible : Bool
  loginBad : Bool
  deriving DecidableEq

def surveyCreature (seen : Survey) (thing : Thing cfg) : Survey :=
  if thing.objectType.isCreatureContainer then { seen with loginPossible := false } else seen

def surveyUnpass (seen : Survey) (thing : Thing cfg) : Survey :=
  if thing.objectType.getFlag .unpass then
    if thing.objectType.getFlag .unmove then
      { seen with expansionPossible := false, loginPossible := false }
    else { seen with loginBad := true }
  else seen

def surveyAvoid (player : Bool) (seen : Survey) (thing : Thing cfg) : Survey :=
  if thing.objectType.getFlag .avoid then
    if thing.objectType.getFlag .unmove then
      { seen with expansionPossible := false, loginPossible := seen.loginPossible && !player }
    else { seen with loginBad := true }
  else seen

def surveyThing (player : Bool) (seen : Survey) (thing : Thing cfg) : Survey :=
  surveyAvoid player (surveyUnpass (surveyCreature seen thing) thing) thing

def survey (player : Bool) (field : Field cfg) : Survey :=
  field.objects.foldl (surveyThing player) ⟨true, true, false⟩

def surveyed (field : Field cfg) (houseID : UInt16) (player : Bool) : Bool :=
  if field.isHouse && (houseID == 0 || field.houseID != houseID) then false
  else if !player && field.protectionZone then false
  else !field.objects.isEmpty

section Phases

abbrev Offset := Int × Int

/-- From `-distance` to `distance`. -/
def span (distance : Nat) : List Int :=
  (List.range (2 * distance + 1)).map fun (index : Nat) => (index : Int) - distance

def offsets (distance : Nat) : List Offset :=
  (span distance).flatMap fun y => (span distance).map fun x => (x, y)

/-- The offsets around one, and this one itself, that are inside the square, with the phases they
are away. -/
def neighbors (distance : Nat) (offset : Offset) : List (Offset × Nat) :=
  [-1, 0, 1].flatMap fun y => [-1, 0, 1].filterMap fun x =>
    let neighbor : Offset := (offset.1 + x, offset.2 + y)
    if -distance ≤ neighbor.1 ∧ neighbor.1 ≤ distance ∧ -distance ≤ neighbor.2 ∧
        neighbor.2 ≤ distance then
      some (neighbor, (neighbor.1 - offset.1).natAbs + (neighbor.2 - offset.2).natAbs)
    else none

/-- The state of the search. An offset without a phase holds `INT_MAX` in the matrix. -/
structure Spawn where
  marks : Marks Offset
  bestX : Int
  bestY : Int
  bestTieBreaker : Int
  found : Bool
  expanded : Bool
  draws : Nat

variable (map : GameMap cfg) (start : Coordinate) (distance : Nat) (player : Bool)
  (rand : Nat → Nat)

def spread (phase : Nat) (spawn : Spawn) (offset : Offset) : Spawn :=
  { spawn with
    marks := (neighbors distance offset).foldl (assign phase) spawn.marks
    expanded := true }

/-- A field that admits a login draws a number against the best one. -/
def contend (loginBad : Bool) (spawn : Spawn) (field : Coordinate) : Spawn :=
  let drawn := random 0 99 (rand spawn.draws)
  let tieBreaker := if !loginBad then drawn + 100 else drawn
  if tieBreaker > spawn.bestTieBreaker then
    { spawn with
      found := true
      bestX := field.x
      bestY := field.y
      bestTieBreaker := tieBreaker
      draws := spawn.draws + 1 }
  else { spawn with draws := spawn.draws + 1 }

def lookAt (phase : Nat) (spawn : Spawn) (offset : Offset) : Spawn :=
  if spawn.marks.phases offset ≠ some phase then spawn
  else
    let place := start.shift offset
    if !surveyed (map place) (map start).houseID player then spawn
    else
      let seen := survey player (map place)
      let spawn :=
        if seen.expansionPossible || phase == 0 then spread distance phase spawn offset else spawn
      if seen.loginPossible && (!player || !(map place).noLogout) then
        contend rand seen.loginBad spawn place
      else spawn

def scan (phase : Nat) (spawn : Spawn) : Spawn :=
  (offsets distance).foldl (lookAt map start distance player rand phase)
    { spawn with found := false, expanded := false }

def searchPhases (minimize : Bool) : Nat → Nat → Spawn → Option Spawn
  | 0, _, _ => none
  | fuel + 1, phase, spawn =>
      let scanned := scan map start distance player rand phase spawn
      if scanned.found && minimize || !scanned.expanded then some scanned
      else searchPhases minimize fuel (phase + 1) scanned

def firstSpawn : Spawn := ⟨begin (0, 0), 0, 0, -1, false, false, 0⟩

def searchSpawnField (distance : Int) (fuel : Nat) : Option (Spawn × Found) :=
  (searchPhases map start distance.natAbs player rand (decide (0 ≤ distance)) fuel 0
    firstSpawn).map fun spawn =>
      if spawn.bestTieBreaker ≥ 0 then (spawn, ⟨true, ⟨spawn.bestX, spawn.bestY, start.z⟩⟩)
      else (spawn, ⟨false, start⟩)

end Phases

def blocks (thing : Thing cfg) : Bool :=
  (thing.objectType.getFlag .unpass || thing.objectType.getFlag .avoid) &&
    thing.objectType.getFlag .unmove

def admitsBeside (player : Bool) (thing : Thing cfg) : Bool :=
  !thing.objectType.isCreatureContainer &&
    !(thing.objectType.getFlag .unpass && thing.objectType.getFlag .unmove) &&
    !(player && thing.objectType.getFlag .avoid && thing.objectType.getFlag .unmove)

def admitsLogin (field : Field cfg) (houseID : UInt16) (player : Bool) : Bool :=
  surveyed field houseID player && field.objects.all (admitsBeside player) &&
    (!player || !field.noLogout)

theorem survey_thing_expansion (player : Bool) (seen : Survey) (thing : Thing cfg) :
    (surveyThing player seen thing).expansionPossible =
      (seen.expansionPossible && !blocks thing) := by
  unfold surveyThing surveyAvoid surveyUnpass surveyCreature blocks
  cases thing.objectType.getFlag .unpass <;> cases thing.objectType.getFlag .avoid <;>
    cases thing.objectType.getFlag .unmove <;> cases thing.objectType.isCreatureContainer <;>
    simp

theorem survey_thing_login (player : Bool) (seen : Survey) (thing : Thing cfg) :
    (surveyThing player seen thing).loginPossible =
      (seen.loginPossible && admitsBeside player thing) := by
  unfold surveyThing surveyAvoid surveyUnpass surveyCreature admitsBeside
  cases thing.objectType.getFlag .unpass <;> cases thing.objectType.getFlag .avoid <;>
    cases thing.objectType.getFlag .unmove <;> cases thing.objectType.isCreatureContainer <;>
    simp

theorem survey_walk (player : Bool) (things : List (Thing cfg)) (seen : Survey) :
    (things.foldl (surveyThing player) seen).expansionPossible =
        (seen.expansionPossible && !things.any blocks) ∧
      (things.foldl (surveyThing player) seen).loginPossible =
        (seen.loginPossible && things.all (admitsBeside player)) := by
  induction things generalizing seen with
  | nil => simp only [foldl_nil, any_nil, all_nil, Bool.not_false, Bool.and_true,
      and_self]
  | cons thing rest ih =>
    rw [foldl_cons, (ih _).1, (ih _).2, survey_thing_expansion, survey_thing_login,
      any_cons, all_cons, Bool.not_or, Bool.and_assoc, Bool.and_assoc]
    exact ⟨rfl, rfl⟩

theorem survey_expansion (player : Bool) (field : Field cfg) :
    (survey player field).expansionPossible = !field.objects.any blocks := by
  rw [survey, (survey_walk player field.objects _).1, Bool.true_and]

theorem survey_login (player : Bool) (field : Field cfg) :
    (survey player field).loginPossible = field.objects.all (admitsBeside player) := by
  rw [survey, (survey_walk player field.objects _).2, Bool.true_and]

def Inside (distance : Nat) (offset : Offset) : Prop :=
  offset.1.natAbs ≤ distance ∧ offset.2.natAbs ≤ distance

theorem mem_span {distance : Nat} {x : Int} : x ∈ span distance ↔ x.natAbs ≤ distance := by
  rw [span, mem_map]
  constructor
  · intro listed
    rcases listed with ⟨index, inside, equal⟩
    have small := mem_range.mp inside
    omega
  · intro near
    exact ⟨(x + distance).toNat, mem_range.mpr (by omega), by omega⟩

theorem mem_offsets {distance : Nat} {offset : Offset} :
    offset ∈ offsets distance ↔ Inside distance offset := by
  rcases offset with ⟨x, y⟩
  simp only [offsets, mem_flatMap, mem_map, Prod.mk.injEq, mem_span, Inside]
  constructor
  · intro listed
    rcases listed with ⟨other, tall, another, wide, equal⟩
    rw [← equal.1, ← equal.2]
    exact ⟨wide, tall⟩
  · intro inside
    exact ⟨y, inside.2, x, inside.1, rfl, rfl⟩

theorem offsets_length (distance : Nat) :
    (offsets distance).length = (2 * distance + 1) * (2 * distance + 1) := by
  simp only [offsets, span, length_flatMap, length_map, length_range,
    map_const', sum_replicate, smul_eq_mul]

/-- The neighbors of an offset are at most one step away in each direction, inside the square, and
a straight step counts one and a diagonal one two. -/
theorem mem_neighbors {distance : Nat} {offset other : Offset} {price : Nat} :
    (other, price) ∈ neighbors distance offset ↔
      (other.1 - offset.1).natAbs ≤ 1 ∧ (other.2 - offset.2).natAbs ≤ 1 ∧ Inside distance other ∧
        price = (other.1 - offset.1).natAbs + (other.2 - offset.2).natAbs := by
  rcases offset with ⟨x, y⟩
  rcases other with ⟨otherX, otherY⟩
  simp only [neighbors, mem_flatMap, mem_filterMap, Option.ite_none_right_eq_some,
    Option.some.injEq, Prod.mk.injEq, Inside, mem_cons, not_mem_nil, or_false]
  constructor
  · intro listed
    rcases listed with ⟨dy, rows, dx, columns, inside, ⟨sameX, sameY⟩, equal⟩
    omega
  intro near
  refine ⟨otherY - y, by omega, otherX - x, by omega, by omega, ?_, ?_⟩
  · omega
  · rw [near.2.2.2]
    congr 2 <;> omega

/-- The parity of an offset is that of the phases on the way to it. -/
def side (offset : Offset) : Nat := (offset.1 + offset.2).natAbs

section Scans

variable {map : GameMap cfg} {start : Coordinate} {distance : Nat} {player : Bool}
  {rand : Nat → Nat} {phase : Nat}

section

variable {spawn : Spawn}

/-- A field can be left for its neighbors; nothing stops this at the start but the first checks. -/
def graph (map : GameMap cfg) (start : Coordinate) (distance : Nat) (player : Bool) :
    Graph Offset where
  leads offset := surveyed (map (start.shift offset)) (map start).houseID player &&
    (offset == (0, 0) || !(map (start.shift offset)).objects.any blocks)
  next := neighbors distance

def admits (map : GameMap cfg) (start : Coordinate) (player : Bool) (offset : Offset) : Bool :=
  admitsLogin (map (start.shift offset)) (map start).houseID player

theorem graph_two_sided (map : GameMap cfg) (start : Coordinate) (distance : Nat)
    (player : Bool) : TwoSided (graph map start distance player) side := by
  apply TwoSided.mk
  · intro offset other price edge
    have near := mem_neighbors.mp edge
    omega
  · intro offset other edge
    have near := mem_neighbors.mp edge
    apply Prod.ext <;> omega
  · intro offset other price edge
    have near := mem_neighbors.mp edge
    unfold side
    omega

theorem path_inside {offset : Offset} {cost : Nat}
    (path : Path (graph map start distance player) (0, 0) offset cost) : Inside distance offset := by
  cases path with
  | start => exact ⟨Nat.zero_le distance, Nat.zero_le distance⟩
  | step _ _ edge => exact (mem_neighbors.mp edge).2.2.1

theorem phase_zero_iff {marks : Marks Offset} {offset : Offset}
    (settled : Settled (graph map start distance player) (0, 0) phase marks)
    (here : marks.phases offset = some phase) : phase = 0 ↔ offset = (0, 0) := by
  have short := settled.shortest offset phase here
  constructor
  · intro first
    exact path_free (graph_two_sided map start distance player) short.1 first
  · intro home
    rw [home] at short
    exact Nat.le_zero.mp (short.2 Path.start)

structure SameBest (before after : Spawn) : Prop where
  found : after.found = before.found
  bestX : after.bestX = before.bestX
  bestY : after.bestY = before.bestY
  bestTieBreaker : after.bestTieBreaker = before.bestTieBreaker

structure Wins (field : Coordinate) (after : Spawn) : Prop where
  found : after.found = true
  bestX : after.bestX = field.x
  bestY : after.bestY = field.y
  bestTieBreaker : 0 ≤ after.bestTieBreaker

structure Looked (map : GameMap cfg) (start : Coordinate) (distance : Nat) (player : Bool)
    (phase : Nat) (before : Spawn) (offset : Offset) (after : Spawn) : Prop where
  marks : after.marks = visit (graph map start distance player) phase before.marks offset
  expanded : after.expanded = true →
    before.expanded = true ∨ before.marks.phases offset = some phase
  passed : ¬ (before.marks.phases offset = some phase ∧ admits map start player offset = true) →
    SameBest before after
  contended : before.marks.phases offset = some phase → admits map start player offset = true →
    Wins (start.shift offset) after ∨ 0 ≤ before.bestTieBreaker ∧ SameBest before after

theorem random_percent (rand : Nat) : 0 ≤ random 0 99 rand := by
  unfold random
  norm_num
  omega

theorem contend_cases (rand : Nat → Nat) (loginBad : Bool) (spawn : Spawn) (field : Coordinate) :
    (contend rand loginBad spawn field).marks = spawn.marks ∧
      (contend rand loginBad spawn field).expanded = spawn.expanded ∧
      (Wins field (contend rand loginBad spawn field) ∨
        0 ≤ spawn.bestTieBreaker ∧ SameBest spawn (contend rand loginBad spawn field)) := by
  have drawn := random_percent (rand spawn.draws)
  have positive : 0 ≤ if !loginBad then random 0 99 (rand spawn.draws) + 100
      else random 0 99 (rand spawn.draws) := by
    split_ifs <;> omega
  simp only [contend]
  by_cases better : (if !loginBad then random 0 99 (rand spawn.draws) + 100
      else random 0 99 (rand spawn.draws)) > spawn.bestTieBreaker
  · simp only [if_pos better]
    exact ⟨trivial, trivial, Or.inl ⟨rfl, rfl, rfl, positive⟩⟩
  simp only [if_neg better]
  exact ⟨trivial, trivial, Or.inr ⟨by omega, rfl, rfl, rfl, rfl⟩⟩

theorem SameBest.trans {first second third : Spawn} (early : SameBest first second)
    (late : SameBest second third) : SameBest first third :=
  ⟨late.found.trans early.found, late.bestX.trans early.bestX, late.bestY.trans early.bestY,
    late.bestTieBreaker.trans early.bestTieBreaker⟩

theorem spread_if_leads {offset : Offset} (here : spawn.marks.phases offset = some phase) :
    (if (graph map start distance player).leads offset = true then
        spread distance phase spawn offset else spawn).marks =
      visit (graph map start distance player) phase spawn.marks offset ∧
    SameBest spawn (if (graph map start distance player).leads offset = true then
      spread distance phase spawn offset else spawn) := by
  rw [visit, if_pos here]
  split_ifs
  all_goals exact ⟨rfl, rfl, rfl, rfl, rfl⟩

theorem look_at_looked (rand : Nat → Nat) (spawn : Spawn) (offset : Offset)
    (settled : Settled (graph map start distance player) (0, 0) phase spawn.marks) :
    Looked map start distance player phase spawn offset
      (lookAt map start distance player rand phase spawn offset) := by
  by_cases here : spawn.marks.phases offset = some phase
  · have zero : (phase == 0) = (offset == (0, 0)) :=
      Bool.eq_iff_iff.mpr (by rw [beq_iff_eq, beq_iff_eq]; exact phase_zero_iff settled here)
    rw [lookAt, if_neg (not_not_intro here)]
    rcases checked : surveyed (map (start.shift offset)) (map start).houseID player with _ | _
    · have stays : (graph map start distance player).leads offset = false := by
        simp only [graph, checked, Bool.false_and]
      have refused : admits map start player offset = false := by
        simp only [admits, admitsLogin, checked, Bool.false_and]
      simp only [checked, Bool.not_false, if_true]
      apply Looked.mk
      · rw [visit, if_pos here, stays]
        rfl
      · exact Or.inl
      · intro _
        exact ⟨rfl, rfl, rfl, rfl⟩
      · intro _ impossible
        rw [refused] at impossible
        cases impossible
    have leads : (graph map start distance player).leads offset =
        ((survey player (map (start.shift offset))).expansionPossible || phase == 0) := by
      rw [survey_expansion, zero, Bool.or_comm]
      simp only [graph, checked, Bool.true_and]
    have login : admits map start player offset =
        ((survey player (map (start.shift offset))).loginPossible &&
          (!player || !(map (start.shift offset)).noLogout)) := by
      rw [survey_login]
      simp only [admits, admitsLogin, checked, Bool.true_and]
    simp only [checked, Bool.not_true, Bool.false_eq_true, if_false, ← leads, ← login]
    rcases spread_if_leads here with ⟨reached, kept⟩
    by_cases wanted : admits map start player offset = true
    · rw [if_pos wanted]
      rcases contend_cases rand (survey player (map (start.shift offset))).loginBad
        (if (graph map start distance player).leads offset = true then
          spread distance phase spawn offset else spawn) (start.shift offset) with
        ⟨marks, _, outcome⟩
      apply Looked.mk
      · exact marks.trans reached
      · intro _
        exact Or.inr here
      · intro refused
        exact absurd ⟨here, wanted⟩ refused
      · intro _ _
        rcases outcome with won | lost
        · exact Or.inl won
        rw [kept.bestTieBreaker] at lost
        exact Or.inr ⟨lost.1, kept.trans lost.2⟩
    rw [if_neg wanted]
    apply Looked.mk reached
    · intro _
      exact Or.inr here
    · intro _
      exact kept
    · intro _ impossible
      exact absurd impossible wanted
  rw [lookAt, if_pos here]
  apply Looked.mk
  · rw [visit, if_neg here]
  · exact Or.inl
  · intro _
    exact ⟨rfl, rfl, rfl, rfl⟩
  · intro impossible
    exact absurd impossible here

structure Chosen (map : GameMap cfg) (start : Coordinate) (player : Bool) (phase : Nat)
    (spawn : Spawn) (offset : Offset) : Prop where
  current : spawn.marks.phases offset = some phase
  admitted : admits map start player offset = true
  bestX : spawn.bestX = (start.shift offset).x
  bestY : spawn.bestY = (start.shift offset).y
  bestTieBreaker : 0 ≤ spawn.bestTieBreaker

/-- A phase some of whose fields have been looked at, when no field was found before it. -/
structure Scanned (map : GameMap cfg) (start : Coordinate) (distance : Nat) (player : Bool)
    (phase : Nat) (before : Marks Offset) (seen : List Offset) (spawn : Spawn) : Prop where
  swept : Swept (graph map start distance player) (0, 0) phase before seen spawn.marks
  expanded : spawn.expanded = true → ∃ offset, spawn.marks.phases offset = some phase
  missed : spawn.found = false → spawn.bestTieBreaker = -1 ∧ ∀ offset, offset ∈ seen →
    spawn.marks.phases offset = some phase → admits map start player offset = false
  chosen : spawn.found = true → ∃ offset, Chosen map start player phase spawn offset

theorem scan_step (rand : Nat → Nat) {before : Marks Offset} {seen : List Offset}
    (scanned : Scanned map start distance player phase before seen spawn) (offset : Offset) :
    Scanned map start distance player phase before (seen ++ [offset])
      (lookAt map start distance player rand phase spawn offset) := by
  have sided := graph_two_sided map start distance player
  have looked := look_at_looked rand spawn offset scanned.swept.settled
  have swept := scanned.swept.visit sided offset
  have moved := (visit_step sided offset scanned.swept.settled).2.1
  rw [← looked.marks] at swept moved
  have steady : ∀ other, (lookAt map start distance player rand phase spawn offset).marks.phases
      other = some phase ↔ spawn.marks.phases other = some phase := by
    intro other
    exact moved.steady other phase (Nat.le_refl phase)
  have old : SameBest spawn (lookAt map start distance player rand phase spawn offset) →
      ∀ other, Chosen map start player phase spawn other → Chosen map start player phase
        (lookAt map start distance player rand phase spawn offset) other := by
    intro same other chosen
    apply Chosen.mk ((steady other).mpr chosen.current) chosen.admitted
    · rw [same.bestX]
      exact chosen.bestX
    · rw [same.bestY]
      exact chosen.bestY
    · rw [same.bestTieBreaker]
      exact chosen.bestTieBreaker
  have kept : SameBest spawn (lookAt map start distance player rand phase spawn offset) →
      (lookAt map start distance player rand phase spawn offset).found = true →
      ∃ other, Chosen map start player phase
        (lookAt map start distance player rand phase spawn offset) other := by
    intro same found
    rw [same.found] at found
    cases scanned.chosen found with
    | intro other chosen => exact ⟨other, old same other chosen⟩
  apply Scanned.mk swept
  · intro grown
    rcases looked.expanded grown with before | here
    · cases scanned.expanded before with
      | intro other here => exact ⟨other, (steady other).mpr here⟩
    · exact ⟨offset, (steady offset).mpr here⟩
  · intro missed
    by_cases wanted : spawn.marks.phases offset = some phase ∧
        admits map start player offset = true
    · rcases looked.contended wanted.1 wanted.2 with won | lost
      · rw [won.found] at missed
        cases missed
      rw [lost.2.found] at missed
      have none_yet := (scanned.missed missed).1
      omega
    have same := looked.passed wanted
    rw [same.found] at missed
    rw [same.bestTieBreaker]
    refine ⟨(scanned.missed missed).1, ?_⟩
    intro other member here
    have earlier := (steady other).mp here
    rcases mem_append.mp member with listed | new
    · exact (scanned.missed missed).2 other listed earlier
    cases mem_singleton.mp new
    exact Bool.eq_false_of_not_eq_true fun admitted => wanted ⟨earlier, admitted⟩
  · intro found
    by_cases wanted : spawn.marks.phases offset = some phase ∧
        admits map start player offset = true
    · rcases looked.contended wanted.1 wanted.2 with won | lost
      · exact ⟨offset, (steady offset).mpr wanted.1, wanted.2, won.bestX, won.bestY,
          won.bestTieBreaker⟩
      · exact kept lost.2 found
    · exact kept (looked.passed wanted) found

theorem scan_run (rand : Nat → Nat) {before : Marks Offset} (rest : List Offset)
    {seen : List Offset} (scanned : Scanned map start distance player phase before seen spawn) :
    Scanned map start distance player phase before (seen ++ rest)
      (rest.foldl (lookAt map start distance player rand phase) spawn) := by
  induction rest generalizing seen spawn with
  | nil =>
    rw [append_nil]
    exact scanned
  | cons offset rest ih =>
    have further := ih (scan_step rand scanned offset)
    rw [append_assoc] at further
    exact further

/-- What holds before a phase, when no field was found in the phases before it. -/
structure Ready (map : GameMap cfg) (start : Coordinate) (distance : Nat) (player : Bool)
    (phase : Nat) (spawn : Spawn) : Prop where
  settled : Settled (graph map start distance player) (0, 0) phase spawn.marks
  nothing : spawn.bestTieBreaker = -1
  filled : ∀ earlier, earlier < phase → ∃ offset, spawn.marks.phases offset = some earlier
  refused : ∀ offset earlier, earlier < phase → spawn.marks.phases offset = some earlier →
    admits map start player offset = false

theorem ready_inside {offset : Offset} {value : Nat}
    (settled : Settled (graph map start distance player) (0, 0) phase spawn.marks)
    (known : spawn.marks.phases offset = some value) : offset ∈ offsets distance :=
  mem_offsets.mpr (path_inside (settled.shortest offset value known).1)

theorem ready_bound (ready : Ready map start distance player phase spawn) :
    phase ≤ (2 * distance + 1) * (2 * distance + 1) := by
  rw [← offsets_length]
  apply phases_le_nodes
  intro earlier early
  cases ready.filled earlier early with
  | intro offset known => exact ⟨offset, ready_inside ready.settled known, known⟩

theorem scan_scanned (rand : Nat → Nat) (ready : Ready map start distance player phase spawn) :
    Scanned map start distance player phase spawn.marks (offsets distance)
      (scan map start distance player rand phase spawn) := by
  have first : Scanned map start distance player phase spawn.marks []
      { spawn with found := false, expanded := false } := by
    apply Scanned.mk
    · exact Swept.begin ready.settled
    · nofun
    · intro _
      refine ⟨ready.nothing, ?_⟩
      nofun
    · nofun
  exact scan_run rand (offsets distance) first

theorem scan_ready (rand : Nat → Nat) (ready : Ready map start distance player phase spawn)
    (missed : (scan map start distance player rand phase spawn).found = false)
    (expanded : (scan map start distance player rand phase spawn).expanded = true) :
    Ready map start distance player (phase + 1)
      (scan map start distance player rand phase spawn) := by
  have scanned := scan_scanned rand ready
  have nothing := scanned.missed missed
  have settled := scanned.swept.settled
  apply Ready.mk
  · apply scanned.swept.advance (graph_two_sided map start distance player)
    intro offset known
    exact ready_inside settled known
  · exact nothing.1
  · intro earlier early
    rcases Nat.lt_succ_iff_lt_or_eq.mp early with before | now
    · cases ready.filled earlier before with
      | intro offset known =>
        exact ⟨offset, (scanned.swept.progress.steady offset earlier
          (Nat.le_of_lt before)).mpr known⟩
    rw [now]
    exact scanned.expanded expanded
  · intro offset earlier early known
    rcases Nat.lt_succ_iff_lt_or_eq.mp early with before | now
    · have same := (scanned.swept.progress.steady offset earlier (Nat.le_of_lt before)).mp known
      exact ready.refused offset earlier before same
    rw [now] at known
    exact nothing.2 offset (ready_inside settled known) known

end

end Scans

section Results

variable {map : GameMap cfg} {start : Coordinate} {distance : Nat} {player : Bool}
  {rand : Nat → Nat} {phase : Nat}

/-- The last phase of a search, in which a field was found or none led on. -/
structure LastPhase (map : GameMap cfg) (start : Coordinate) (distance : Nat) (player : Bool)
    (phase : Nat) (before : Spawn) (spawn : Spawn) : Prop where
  ready : Ready map start distance player phase before
  scanned : Scanned map start distance player phase before.marks (offsets distance) spawn

theorem first_ready (map : GameMap cfg) (start : Coordinate) (distance : Nat) (player : Bool) :
    Ready map start distance player 0 firstSpawn := by
  apply Ready.mk
  · exact begin_settled (graph_two_sided map start distance player)
  · rfl
  · intro earlier impossible
    exact absurd impossible (Nat.not_lt_zero earlier)
  · intro offset earlier impossible
    exact absurd impossible (Nat.not_lt_zero earlier)

theorem search_phases_returns (rand : Nat → Nat) {fuel : Nat} {spawn : Spawn}
    (ready : Ready map start distance player phase spawn)
    (enough : (2 * distance + 1) * (2 * distance + 1) < phase + fuel) :
    ∃ last before ended,
      searchPhases map start distance player rand true fuel phase spawn = some ended ∧
        LastPhase map start distance player last before ended := by
  induction fuel generalizing phase spawn with
  | zero =>
    have bound := ready_bound ready
    omega
  | succ fuel ih =>
    have scanned := scan_scanned rand ready
    rw [searchPhases]
    cases found : (scan map start distance player rand phase spawn).found with
    | true =>
      refine ⟨phase, spawn, _, ?_, ready, scanned⟩
      simp only [Bool.and_self, Bool.true_or, if_true]
    | false =>
      rcases expanded : (scan map start distance player rand phase spawn).expanded with _ | _
      · refine ⟨phase, spawn, _, ?_, ready, scanned⟩
        simp only [Bool.false_and, Bool.not_false, Bool.or_true, if_true]
      simp only [Bool.false_and, Bool.not_true, Bool.or_self, Bool.false_eq_true, if_false]
      exact ih (scan_ready rand ready found expanded) (by omega)

/-- All phases that are assigned are costs of shortest paths, none is assigned over a smaller one,
and the field that is found has the smallest phase of those that admit a login. -/
structure Minimal (map : GameMap cfg) (start : Coordinate) (distance : Nat) (player : Bool)
    (spawn : Spawn) (ended : Found) : Prop where
  shortest : ∀ offset phase, (offset, phase) ∈ spawn.marks.log →
    Shortest (graph map start distance player) (0, 0) offset phase
  kept : ∀ offset phase, spawn.marks.phases offset = some phase ↔ (offset, phase) ∈ spawn.marks.log
  never_larger : spawn.marks.log.Pairwise fun early late => early.1 = late.1 → late.2 ≤ early.2
  bounded : ∀ offset phase, (offset, phase) ∈ spawn.marks.log →
    phase ≤ (2 * distance + 1) * (2 * distance + 1) + 2
  chosen : ended.found = true → ∃ offset phase, ended.field = start.shift offset ∧
    spawn.marks.phases offset = some phase ∧ admits map start player offset = true ∧
    ∀ other later, spawn.marks.phases other = some later → admits map start player other = true →
      phase ≤ later
  missed : ended.found = false → ended.field = start

theorem last_phase_least {before spawn : Spawn} {other : Offset} {later : Nat}
    (last : LastPhase map start distance player phase before spawn)
    (known : spawn.marks.phases other = some later)
    (admitted : admits map start player other = true) : phase ≤ later := by
  by_contra early
  have smaller := Nat.lt_of_not_le early
  have same := (last.scanned.swept.progress.steady other later (Nat.le_of_lt smaller)).mp known
  rw [last.ready.refused other later smaller same] at admitted
  cases admitted

theorem last_phase_minimal {before spawn : Spawn} {ended : Found}
    (last : LastPhase map start distance player phase before spawn)
    (result : ended = if spawn.bestTieBreaker ≥ 0 then
      ⟨true, ⟨spawn.bestX, spawn.bestY, start.z⟩⟩ else ⟨false, start⟩) :
    Minimal map start distance player spawn ended := by
  have settled := last.scanned.swept.settled
  have shortest : ∀ offset value, (offset, value) ∈ spawn.marks.log →
      Shortest (graph map start distance player) (0, 0) offset value := by
    intro offset value listed
    exact settled.shortest offset value ((settled.kept offset value).mpr listed)
  apply Minimal.mk shortest settled.kept
  · rw [pairwise_iff_forall_sublist]
    intro early late sublist same
    have first := shortest early.1 early.2 (sublist.subset mem_cons_self)
    have second := shortest late.1 late.2
      (sublist.subset (mem_cons_of_mem early mem_cons_self))
    rw [same] at first
    exact Nat.le_of_eq (shortest_unique second first)
  · intro offset value listed
    have near := settled.bounded offset value ((settled.kept offset value).mpr listed)
    have bound := ready_bound last.ready
    omega
  · intro found
    have positive : spawn.bestTieBreaker ≥ 0 := by
      by_contra negative
      rw [result, if_neg negative] at found
      cases found
    have hit : spawn.found = true := by
      by_contra missed
      have nothing := (last.scanned.missed (Bool.eq_false_of_not_eq_true missed)).1
      omega
    cases last.scanned.chosen hit with
    | intro offset chosen =>
      refine ⟨offset, phase, ?_, chosen.current, chosen.admitted, ?_⟩
      · rw [result, if_pos positive, chosen.bestX, chosen.bestY]
        rfl
      · intro other later known admitted
        exact last_phase_least last known admitted
  · intro missed
    by_cases positive : spawn.bestTieBreaker ≥ 0
    · rw [result, if_pos positive] at missed
      cases missed
    · rw [result, if_neg positive]

/-- The search ends, its phases are the costs of shortest paths, and the field it chooses is a
nearest one. -/
theorem spawn_field_is_nearest (map : GameMap cfg) (start : Coordinate) (distance : Nat)
    (player : Bool) (rand : Nat → Nat) :
    ∃ least, ∀ fuel, least < fuel → ∃ spawn ended,
      searchSpawnField map start player rand distance fuel = some (spawn, ended) ∧
        Minimal map start distance player spawn ended := by
  refine ⟨(2 * distance + 1) * (2 * distance + 1), ?_⟩
  intro fuel enough
  rcases search_phases_returns rand (first_ready map start distance player)
    (by rw [Nat.zero_add]; exact enough) with ⟨phase, before, spawn, returns, last⟩
  refine ⟨spawn, _, ?_, last_phase_minimal last rfl⟩
  have minimize : decide (0 ≤ (distance : Int)) = true := decide_eq_true (Int.natCast_nonneg _)
  rw [searchSpawnField, minimize, Int.natAbs_natCast, returns, Option.map_some]
  split_ifs <;> rfl

end Results

end TibiaGame.SpawnSearch
