import TibiaGame.SpawnSearch

/-!
# When the search for a spawn field succeeds

The search goes on to the next phase only if some field of the current phase leads on. A diagonal
step takes two phases, so a phase can be without such a field while fields of later phases wait.
-/

namespace TibiaGame.SpawnCompleteness

open GameTypes FieldSearch
open TibiaGame.FieldOrder (groundConfig groundType)
open SpawnSearch Library.PhaseSearch

variable {cfg : GameConfig}

/-- A field that the search could leave; the start always counts as one. -/
def Expandable (map : GameMap cfg) (start : Coordinate) (player : Bool) (offset : Offset) : Prop :=
  offset = (0, 0) ∨ surveyed (map (start.shift offset)) (map start).houseID player = true ∧
    (map (start.shift offset)).objects.any blocks = false

/-- The offsets that steps inside the square reach through expandable fields. -/
inductive Reaches (map : GameMap cfg) (start : Coordinate) (distance : Nat) (player : Bool) :
    Offset → Prop where
  | start : Reaches map start distance player (0, 0)
  | step {offset other : Offset} : Reaches map start distance player offset →
      Expandable map start player offset → (other.1 - offset.1).natAbs ≤ 1 →
      (other.2 - offset.2).natAbs ≤ 1 → Inside distance other →
      Reaches map start distance player other

/-- Some field that admits a login has, in every phase before its own, a field that leads on. -/
def Unbroken (map : GameMap cfg) (start : Coordinate) (distance : Nat) (player : Bool) : Prop :=
  ∃ offset phase, admits map start player offset = true ∧
    Shortest (graph map start distance player) (0, 0) offset phase ∧
    ∀ earlier < phase, ∃ node, Shortest (graph map start distance player) (0, 0) node earlier ∧
      (graph map start distance player).leads node = true

section Scans

variable {map : GameMap cfg} {start : Coordinate} {distance : Nat} {player : Bool} {phase : Nat}

section

variable (rand : Nat → Nat) {seen : List Offset}

theorem contend_expanded (loginBad : Bool) (spawn : Spawn) (field : Coordinate) :
    (contend rand loginBad spawn field).expanded = spawn.expanded :=
  (contend_cases rand loginBad spawn field).2.1

theorem look_at_expanded (spawn : Spawn) (offset : Offset)
    (settled : Settled (graph map start distance player) (0, 0) phase spawn.marks) :
    (lookAt map start distance player rand phase spawn offset).expanded = true ↔
      spawn.expanded = true ∨ spawn.marks.phases offset = some phase ∧
        (graph map start distance player).leads offset = true := by
  by_cases here : spawn.marks.phases offset = some phase
  · have zero : (phase == 0) = (offset == (0, 0)) :=
      Bool.eq_iff_iff.mpr (by rw [beq_iff_eq, beq_iff_eq]; exact phase_zero_iff settled here)
    rw [lookAt, if_neg (not_not_intro here)]
    rcases checked : surveyed (map (start.shift offset)) (map start).houseID player with _ | _
    · have stays : (graph map start distance player).leads offset = false := by
        simp only [graph, checked, Bool.false_and]
      simp only [checked, Bool.not_false, if_true, stays, Bool.false_eq_true, and_false, or_false]
    have leads : (graph map start distance player).leads offset =
        ((survey player (map (start.shift offset))).expansionPossible || phase == 0) := by
      rw [survey_expansion, zero, Bool.or_comm]
      simp only [graph, checked, Bool.true_and]
    simp only [checked, Bool.not_true, Bool.false_eq_true, if_false, ← leads]
    rw [apply_ite Spawn.expanded, contend_expanded, ite_self, apply_ite Spawn.expanded]
    cases led : (graph map start distance player).leads offset with
    | true => simp only [spread, if_true, here, and_self, or_true]
    | false => simp only [Bool.false_eq_true, if_false, and_false, or_false]
  rw [lookAt, if_pos here]
  simp only [here, false_and, or_false]

structure Watched (map : GameMap cfg) (start : Coordinate) (distance : Nat) (player : Bool)
    (phase : Nat) (before : Spawn) (seen : List Offset) (spawn : Spawn) : Prop where
  swept : Swept (graph map start distance player) (0, 0) phase before.marks seen spawn.marks
  expanded : spawn.expanded = true ↔ ∃ offset ∈ seen, spawn.marks.phases offset = some phase ∧
    (graph map start distance player).leads offset = true
  best : 0 ≤ spawn.bestTieBreaker ↔ 0 ≤ before.bestTieBreaker ∨
    ∃ offset ∈ seen, spawn.marks.phases offset = some phase ∧ admits map start player offset = true
  found : spawn.found = true → 0 ≤ spawn.bestTieBreaker

theorem exists_mem_snoc {offset : Offset} {property : Offset → Prop} :
    (∃ other ∈ seen ++ [offset], property other) ↔
      (∃ other ∈ seen, property other) ∨ property offset := by
  simp only [List.mem_append, List.mem_singleton, or_and_right, exists_or, exists_eq_left]

theorem look_at_best {spawn : Spawn} {offset : Offset}
    (looked : Looked map start distance player phase spawn offset
      (lookAt map start distance player rand phase spawn offset)) :
    0 ≤ (lookAt map start distance player rand phase spawn offset).bestTieBreaker ↔
      0 ≤ spawn.bestTieBreaker ∨
        spawn.marks.phases offset = some phase ∧ admits map start player offset = true := by
  by_cases wanted : spawn.marks.phases offset = some phase ∧ admits map start player offset = true
  · rcases looked.contended wanted.1 wanted.2 with won | lost
    · exact iff_of_true won.bestTieBreaker (Or.inr wanted)
    rw [lost.2.bestTieBreaker]
    exact iff_of_true lost.1 (Or.inr wanted)
  rw [(looked.passed wanted).bestTieBreaker]
  exact (or_iff_left wanted).symm

theorem watch_step {before : Spawn} {spawn : Spawn}
    (watched : Watched map start distance player phase before seen spawn) (offset : Offset) :
    Watched map start distance player phase before (seen ++ [offset])
      (lookAt map start distance player rand phase spawn offset) := by
  have sided := graph_two_sided map start distance player
  have looked := look_at_looked rand spawn offset watched.swept.settled
  have swept := watched.swept.visit sided offset
  have moved := (visit_step sided offset watched.swept.settled).2.1
  rw [← looked.marks] at swept moved
  have steady : ∀ other, (lookAt map start distance player rand phase spawn offset).marks.phases
      other = some phase ↔ spawn.marks.phases other = some phase := by
    intro other
    exact moved.steady other phase (Nat.le_refl phase)
  apply Watched.mk swept
  · rw [look_at_expanded rand spawn offset watched.swept.settled, watched.expanded]
    simp only [steady]
    exact exists_mem_snoc.symm
  · rw [look_at_best rand looked, watched.best, or_assoc]
    simp only [steady]
    rw [exists_mem_snoc]
  · intro found
    by_cases wanted : spawn.marks.phases offset = some phase ∧
        admits map start player offset = true
    · exact (look_at_best rand looked).mpr (Or.inr wanted)
    rw [(looked.passed wanted).found] at found
    exact (look_at_best rand looked).mpr (Or.inl (watched.found found))

theorem watch_run {before : Spawn} (rest : List Offset) {spawn : Spawn}
    (watched : Watched map start distance player phase before seen spawn) :
    Watched map start distance player phase before (seen ++ rest)
      (rest.foldl (lookAt map start distance player rand phase) spawn) := by
  induction rest generalizing seen spawn with
  | nil =>
    rw [List.append_nil]
    exact watched
  | cons offset rest ih =>
    have further := ih (watch_step rand watched offset)
    rw [List.append_assoc] at further
    exact further

structure Prepared (map : GameMap cfg) (start : Coordinate) (distance : Nat) (player : Bool)
    (phase : Nat) (spawn : Spawn) : Prop where
  settled : Settled (graph map start distance player) (0, 0) phase spawn.marks
  leading : ∀ earlier < phase, ∃ offset, spawn.marks.phases offset = some earlier ∧
    (graph map start distance player).leads offset = true
  best : 0 ≤ spawn.bestTieBreaker ↔ ∃ offset, ∃ earlier < phase,
    spawn.marks.phases offset = some earlier ∧ admits map start player offset = true

theorem scan_watched {spawn : Spawn} (prepared : Prepared map start distance player phase spawn) :
    Watched map start distance player phase spawn (offsets distance)
      (scan map start distance player rand phase spawn) := by
  have first : Watched map start distance player phase spawn []
      { spawn with found := false, expanded := false } := by
    apply Watched.mk
    · exact Swept.begin prepared.settled
    · simp
    · simp
    · nofun
  exact watch_run rand (offsets distance) first

end

section Watching

variable {before spawn : Spawn}
  (watched : Watched map start distance player phase before (offsets distance) spawn)

include watched

theorem Watched.leads_now : spawn.expanded = true ↔ ∃ offset,
    spawn.marks.phases offset = some phase ∧
      (graph map start distance player).leads offset = true := by
  rw [watched.expanded]
  constructor
  · intro listed
    rcases listed with ⟨offset, _, here⟩
    exact ⟨offset, here⟩
  · intro somewhere
    rcases somewhere with ⟨offset, here⟩
    exact ⟨offset, ready_inside watched.swept.settled here.1, here⟩

theorem Watched.best_now (prepared : Prepared map start distance player phase before) :
    0 ≤ spawn.bestTieBreaker ↔ ∃ offset, ∃ earlier < phase + 1,
      spawn.marks.phases offset = some earlier ∧ admits map start player offset = true := by
  have steady := watched.swept.progress.steady
  rw [watched.best, prepared.best]
  constructor
  · intro either
    rcases either with old | new
    · rcases old with ⟨offset, earlier, early, known, admitted⟩
      exact ⟨offset, earlier, by omega,
        (steady offset earlier (Nat.le_of_lt early)).mpr known, admitted⟩
    rcases new with ⟨offset, _, known, admitted⟩
    exact ⟨offset, phase, Nat.lt_succ_self phase, known, admitted⟩
  intro somewhere
  rcases somewhere with ⟨offset, earlier, early, known, admitted⟩
  rcases Nat.lt_succ_iff_lt_or_eq.mp early with old | now
  · exact Or.inl ⟨offset, earlier, old,
      (steady offset earlier (Nat.le_of_lt old)).mp known, admitted⟩
  rw [now] at known
  exact Or.inr ⟨offset, ready_inside watched.swept.settled known, known, admitted⟩

theorem Watched.advance (prepared : Prepared map start distance player phase before)
    (expanded : spawn.expanded = true) :
    Prepared map start distance player (phase + 1) spawn where
  settled := by
    apply watched.swept.advance (graph_two_sided map start distance player)
    intro offset known
    exact ready_inside watched.swept.settled known
  leading := by
    intro earlier early
    rcases Nat.lt_succ_iff_lt_or_eq.mp early with old | now
    · rcases prepared.leading earlier old with ⟨offset, known, leads⟩
      exact ⟨offset, (watched.swept.progress.steady offset earlier
        (Nat.le_of_lt old)).mpr known, leads⟩
    rw [now]
    exact watched.leads_now.mp expanded
  best := watched.best_now prepared

/-- The phases up to the current one are the costs of shortest paths. -/
theorem Watched.shortest_iff {offset : Offset} {cost : Nat} (early : cost ≤ phase) :
    Shortest (graph map start distance player) (0, 0) offset cost ↔
      spawn.marks.phases offset = some cost := by
  have settled := watched.swept.settled
  constructor
  · intro short
    rcases settled.least offset cost short.1 early with ⟨value, _, known⟩
    rw [known, shortest_unique (settled.shortest offset value known) short]
  · exact settled.shortest offset cost

/-- A search that ends in this phase has found a field just if one is there without a gap in the
phases before it. -/
theorem Watched.unbroken_iff (prepared : Prepared map start distance player phase before)
    (ends : spawn.found = true ∨ spawn.expanded = false) :
    0 ≤ spawn.bestTieBreaker ↔ Unbroken map start distance player := by
  have leading : ∀ earlier < phase, ∃ node, Shortest (graph map start distance player) (0, 0) node
      earlier ∧ (graph map start distance player).leads node = true := by
    intro earlier early
    rcases prepared.leading earlier early with ⟨node, known, leads⟩
    exact ⟨node, prepared.settled.shortest node earlier known, leads⟩
  constructor
  · intro positive
    rcases (watched.best_now prepared).mp positive with ⟨offset, earlier, early, known, admitted⟩
    refine ⟨offset, earlier, admitted,
      (watched.shortest_iff (Nat.le_of_lt_succ early)).mpr known, ?_⟩
    intro other less
    exact leading other (by omega)
  intro unbroken
  rcases unbroken with ⟨offset, cost, admitted, short, connected⟩
  by_cases early : cost ≤ phase
  · exact (watched.best_now prepared).mpr
      ⟨offset, cost, Nat.lt_succ_of_le early, (watched.shortest_iff early).mp short, admitted⟩
  rcases ends with found | stuck
  · exact watched.found found
  rcases connected phase (Nat.lt_of_not_le early) with ⟨node, here, leads⟩
  have expanded := watched.leads_now.mpr
    ⟨node, (watched.shortest_iff (Nat.le_refl phase)).mp here, leads⟩
  rw [stuck] at expanded
  cases expanded

end Watching

theorem prepared_bound {spawn : Spawn} (prepared : Prepared map start distance player phase spawn) :
    phase ≤ (2 * distance + 1) * (2 * distance + 1) := by
  rw [← offsets_length]
  apply phases_le_nodes
  intro earlier early
  rcases prepared.leading earlier early with ⟨offset, known, _⟩
  exact ⟨offset, ready_inside prepared.settled known, known⟩

theorem first_prepared (map : GameMap cfg) (start : Coordinate) (distance : Nat)
    (player : Bool) : Prepared map start distance player 0 firstSpawn where
  settled := begin_settled (graph_two_sided map start distance player)
  leading := by
    intro earlier impossible
    exact absurd impossible (Nat.not_lt_zero earlier)
  best := by
    constructor
    · nofun
    · intro somewhere
      rcases somewhere with ⟨_, earlier, impossible, _⟩
      exact absurd impossible (Nat.not_lt_zero earlier)

/-- Both ways of searching end, and with a field just if one is there without a gap before it. -/
theorem search_phases_unbroken (rand : Nat → Nat) (minimize : Bool) {fuel : Nat} {spawn : Spawn}
    (prepared : Prepared map start distance player phase spawn)
    (enough : (2 * distance + 1) * (2 * distance + 1) < phase + fuel) :
    ∃ ended, searchPhases map start distance player rand minimize fuel phase spawn = some ended ∧
      (0 ≤ ended.bestTieBreaker ↔ Unbroken map start distance player) := by
  induction fuel generalizing phase spawn with
  | zero =>
    have bound := prepared_bound prepared
    omega
  | succ fuel ih =>
    have watched := scan_watched rand prepared
    rw [searchPhases]
    rcases expanded : (scan map start distance player rand phase spawn).expanded with _ | _
    · refine ⟨_, ?_, watched.unbroken_iff prepared (Or.inr expanded)⟩
      simp only [Bool.not_false, Bool.or_true, if_true]
    have next := watched.advance prepared expanded
    cases stop : (scan map start distance player rand phase spawn).found && minimize with
    | true =>
      refine ⟨_, ?_, watched.unbroken_iff prepared
        (Or.inl (Bool.and_eq_true_iff.mp stop).1)⟩
      simp only [Bool.true_or, if_true]
    | false =>
      simp only [Bool.not_true, Bool.or_self, Bool.false_eq_true, if_false]
      exact ih next (by omega)

end Scans

/-- Whenever a field that admits a login can be reached, the search finds one, if and only if
then one of them has a field that leads on in each phase before its own. -/
theorem spawn_search_complete_iff (map : GameMap cfg) (start : Coordinate) (distance : Int)
    (player : Bool) (rand : Nat → Nat) :
    ∃ least, ∀ fuel, least < fuel → ∃ spawn ended,
      searchSpawnField map start player rand distance fuel = some (spawn, ended) ∧
      ((∀ offset, Reaches map start distance.natAbs player offset →
          admits map start player offset = true → ended.found = true) ↔
        ∀ offset, Reaches map start distance.natAbs player offset →
          admits map start player offset = true → Unbroken map start distance.natAbs player) := by
  refine ⟨(2 * distance.natAbs + 1) * (2 * distance.natAbs + 1), ?_⟩
  intro fuel enough
  rcases search_phases_unbroken rand (decide (0 ≤ distance))
    (first_prepared map start distance.natAbs player) (by rw [Nat.zero_add]; exact enough) with
    ⟨spawn, returns, unbroken⟩
  rw [searchSpawnField, returns, Option.map_some]
  by_cases positive : spawn.bestTieBreaker ≥ 0
  · rw [if_pos positive]
    refine ⟨spawn, _, rfl, ?_⟩
    exact iff_of_true (fun _ _ _ => rfl) (fun _ _ _ => unbroken.mp positive)
  · rw [if_neg positive]
    refine ⟨spawn, _, rfl, ?_⟩
    constructor
    · intro complete offset reached admitted
      cases complete offset reached admitted
    · intro connected offset reached admitted
      exact absurd (unbroken.mpr (connected offset reached admitted)) positive

def corner : Coordinate := ⟨0, 0, 7⟩

def openField (noLogout : Bool) : Field groundConfig := ⟨[⟨groundType, false⟩], 0, noLogout, false⟩

/-- Ground on the start, where nobody may log out, and on the four fields diagonal to it; nothing
on the fields beside it. -/
def diagonalMap : GameMap groundConfig := fun place =>
  if place = corner then openField true
  else if place.x.natAbs = 1 ∧ place.y.natAbs = 1 then openField false
  else ⟨[], 0, false, false⟩

/-- No field of the first phase leads on, so the search ends before it comes to the diagonal
fields of the second one. -/
theorem search_stops_before_diagonal :
    (searchSpawnField diagonalMap corner true (fun _ => 0) 1 100).map Prod.snd =
        some ⟨false, corner⟩ ∧
      Reaches diagonalMap corner 1 true (1, 1) ∧ admits diagonalMap corner true (1, 1) = true := by
  refine ⟨by decide, ?_, by decide⟩
  exact Reaches.start.step (Or.inl rfl) (by decide) (by decide) ⟨by decide, by decide⟩

end TibiaGame.SpawnCompleteness
