import TibiaGame.ObjectStore
import TibiaGame.SectorRefresh

/-!
# The target of a monster

The search of `TMonster::IdleStimulus` for a monster that has neither a master nor a target. Every
`random(0, 99)` is the next one of the rolls.
-/

namespace TibiaGame.MonsterTarget

open ViewWindow CreatureChains CreatureSearch SectorRefresh List

/-- What a monster asks of a creature beside its type and its position. -/
structure Traits where
  isPlayerControlled : Bool
  ignoredByMonsters : Bool
  isInvisible : Bool
  hitpoints : Int32
  damage : UInt32

structure Scene where
  world : World
  traits : UInt32 → Traits
  protectionZone : Position → Bool
  house : Position → Bool

structure Monster where
  creatureID : UInt32
  position : Position
  strategy : Fin 4 → Int
  seeInvisible : Bool

/-- The loop over all strategies but the last one. -/
def pickStrategy : List Int → Int → Nat
  | [], _ => 0
  | weight :: rest, strategyRoll =>
      if strategyRoll < weight then 0 else pickStrategy rest (strategyRoll - weight) + 1

def Monster.pick (monster : Monster) (strategyRoll : Int) : Nat :=
  pickStrategy [monster.strategy 0, monster.strategy 1, monster.strategy 2] strategyRoll

variable (scene : Scene) (monster : Monster) (strategy : Nat) (rolls : Nat → Int)

def isWild (targetID : UInt32) (target : Creature) : Bool :=
  target.type == .monster && !(scene.traits targetID).isPlayerControlled

def distanceX (target : Creature) : Int := |target.position.x - monster.position.x|

def distanceY (target : Creature) : Int := |target.position.y - monster.position.y|

def isOutOfReach (targetID : UInt32) (target : Creature) : Bool :=
  target.position.z != monster.position.z || decide (10 < distanceX monster target) ||
    decide (10 < distanceY monster target) ||
    (target.type == .player && (scene.traits targetID).ignoredByMonsters) ||
    ((scene.traits targetID).isInvisible && !monster.seeInvisible) ||
    scene.protectionZone target.position || scene.house target.position

def strategyParam (targetID : UInt32) (target : Creature) : Int32 :=
  match strategy with
  | 0 => Int32.ofInt (-(distanceX monster target + distanceY monster target))
  | 1 => -(scene.traits targetID).hitpoints
  | 2 => (scene.traits targetID).damage.toInt32
  | _ => 0

structure Choice where
  target : UInt32
  bestStrategyParam : Int32
  bestTieBreaker : Int
  shouldSleep : Bool
  rolled : Nat

/-- The comparison of a creature that has got its roll. -/
def Choice.compare (choice : Choice) (targetID : UInt32) (param : Int32) (tieBreaker : Int) :
    Choice :=
  if choice.bestStrategyParam ≤ param ∨
      param = choice.bestStrategyParam ∧ choice.bestTieBreaker < tieBreaker then
    { choice with
      target := targetID
      bestStrategyParam := param
      bestTieBreaker := tieBreaker
      rolled := choice.rolled + 1 }
  else { choice with rolled := choice.rolled + 1 }

/-- A turn of the search loop. -/
def consider (choice : Choice) (targetID : UInt32) : Choice :=
  match getCreature scene.world targetID with
  | none => choice
  | some target =>
      if isWild scene targetID target then choice
      else
        let seen := { choice with
          shouldSleep := choice.shouldSleep && !canSeeFloor target.position monster.position.z }
        if isOutOfReach scene monster targetID target then seen
        else seen.compare targetID (strategyParam scene monster strategy targetID target)
          (rolls choice.rolled)

/-- `found` is what the search returns; the first roll is for the strategy. -/
def selectTarget (found : List UInt32) : Choice :=
  found.foldl (consider scene monster (monster.pick (rolls 0)) rolls)
    ⟨0, Int32.minValue, 0, true, 1⟩

def searchOf (monster : Monster) : Search :=
  startSearch 12 12 monster.position.x monster.position.y monster.creatureID 0x05

structure Candidate where
  targetID : UInt32
  param : Int32
  tieBreaker : Int

/-- The strategy value of a creature that may be a target. -/
def eligible (targetID : UInt32) : Option Int32 :=
  (getCreature scene.world targetID).bind fun target =>
    if isWild scene targetID target || isOutOfReach scene monster targetID target then none
    else some (strategyParam scene monster strategy targetID target)

/-- The eligible creatures with their rolls. -/
def candidates : Nat → List UInt32 → List Candidate
  | _, [] => []
  | rolled, targetID :: rest =>
      match eligible scene monster strategy targetID with
      | none => candidates rolled rest
      | some param => ⟨targetID, param, rolls rolled⟩ :: candidates (rolled + 1) rest

/-- A target that is chosen has the largest value and of those the largest roll. -/
def IsBest (among : List Candidate) (target : UInt32) : Prop :=
  target ≠ 0 → ∃ chosen ∈ among, chosen.targetID = target ∧ ∀ other ∈ among,
    other.param ≤ chosen.param ∧
      (other.param = chosen.param → other.tieBreaker ≤ chosen.tieBreaker)

/-- No candidate has a larger value, and none of the later ones has the same. -/
def IsLastBest (before : List Candidate) (chosen : Candidate) (after : List Candidate) : Prop :=
  (∀ other ∈ before, other.param ≤ chosen.param) ∧ ∀ other ∈ after, other.param < chosen.param

/-- The last candidate with the largest value has the largest roll of those. -/
def LastRollsBest (among : List Candidate) : Prop :=
  ∀ before chosen after, among = before ++ chosen :: after → IsLastBest before chosen after →
    ∀ other ∈ before, other.param = chosen.param → other.tieBreaker ≤ chosen.tieBreaker

section Choosing

/-- The candidate that the comparisons so far have left over. -/
def Left (seen : List Candidate) (choice : Choice) : Prop :=
  seen = [] ∧ choice.target = 0 ∧ choice.bestStrategyParam = Int32.minValue ∨
    ∃ before chosen after, seen = before ++ chosen :: after ∧ IsLastBest before chosen after ∧
      choice.target = chosen.targetID ∧ choice.bestStrategyParam = chosen.param

theorem compare_left {seen : List Candidate} {choice : Choice} (left : Left seen choice)
    (candidate : Candidate) : Left (seen ++ [candidate])
      (choice.compare candidate.targetID candidate.param candidate.tieBreaker) := by
  rw [Choice.compare]
  rcases left with ⟨rfl, -, least⟩ | ⟨before, chosen, after, rfl, ⟨above, later⟩, target, best⟩
  · rw [least, if_pos (.inl (Int32.minValue_le candidate.param))]
    exact .inr ⟨[], candidate, [], rfl, ⟨nofun, nofun⟩, rfl, rfl⟩
  by_cases better : chosen.param ≤ candidate.param
  · rw [best, if_pos (.inl better)]
    refine .inr ⟨before ++ chosen :: after, candidate, [], rfl, ⟨fun other member => ?_, nofun⟩,
      rfl, rfl⟩
    rcases mem_append.mp member with inFront | behind
    · exact Int32.le_trans (above other inFront) better
    rcases mem_cons.mp behind with rfl | behind
    · exact better
    · exact Int32.le_trans (Int32.le_of_lt (later other behind)) better
  have smaller : candidate.param < chosen.param := Int32.not_le.mp better
  rw [if_neg]
  · refine .inr ⟨before, chosen, after ++ [candidate], by rw [append_assoc, cons_append],
      ⟨above, fun other member => ?_⟩, target, best⟩
    rcases mem_append.mp member with inside | new
    · exact later other inside
    rw [mem_singleton.mp new]
    exact smaller
  · rw [best]
    rintro (larger | ⟨same, -⟩)
    · exact better larger
    · exact Int32.ne_of_lt smaller same

theorem compare_rolled (choice : Choice) (targetID : UInt32) (param : Int32) (tieBreaker : Int) :
    (choice.compare targetID param tieBreaker).rolled = choice.rolled + 1 := by
  rw [Choice.compare]
  split_ifs <;> rfl

variable {scene monster strategy rolls}

theorem fold_left (found : List UInt32) : ∀ {seen : List Candidate} {choice : Choice},
    Left seen choice → Left (seen ++ candidates scene monster strategy rolls choice.rolled found)
      (found.foldl (consider scene monster strategy rolls) choice) := by
  induction found with
  | nil =>
    intro seen choice left
    rwa [candidates, append_nil]
  | cons targetID rest ih =>
    intro seen choice left
    rw [foldl_cons, candidates, eligible, consider]
    rcases getCreature scene.world targetID with _ | target
    · exact ih left
    have seeing : Left seen { choice with
        shouldSleep := choice.shouldSleep && !canSeeFloor target.position monster.position.z } :=
      left
    rw [Option.bind_some]
    dsimp only
    by_cases wild : isWild scene targetID target = true
    · rw [wild, Bool.true_or, if_pos rfl, if_pos rfl]
      exact ih left
    rw [Bool.eq_false_of_not_eq_true wild, Bool.false_or, if_neg Bool.false_ne_true]
    by_cases away : isOutOfReach scene monster targetID target = true
    · rw [if_pos away, if_pos away]
      exact ih seeing
    have later := ih (compare_left seeing ⟨targetID,
      strategyParam scene monster strategy targetID target, rolls choice.rolled⟩)
    rw [compare_rolled, append_assoc] at later
    rw [if_neg away, if_neg away]
    exact later

theorem candidates_ids (found : List UInt32) : ∀ rolled,
    ((candidates scene monster strategy rolls rolled found).map (·.targetID)).Sublist found := by
  induction found with
  | nil =>
    intro _
    exact .slnil
  | cons targetID rest ih =>
    intro rolled
    rw [candidates]
    cases eligible scene monster strategy targetID with
    | none => exact (ih rolled).cons targetID
    | some param => exact (ih (rolled + 1)).cons_cons targetID

theorem candidate_nonzero {found : List UInt32} : ∀ {rolled} {candidate : Candidate},
    candidate ∈ candidates scene monster strategy rolls rolled found → candidate.targetID ≠ 0 := by
  induction found with
  | nil => nofun
  | cons targetID rest ih =>
    intro rolled candidate member
    rw [candidates] at member
    rcases may : eligible scene monster strategy targetID with _ | param
    · rw [may] at member
      exact ih member
    rw [may] at member
    rcases mem_cons.mp member with rfl | behind
    · rintro rfl
      cases may
    · exact ih behind

theorem last_best_unique {before after first rest : List Candidate} {chosen other : Candidate}
    (same : before ++ chosen :: after = first ++ other :: rest)
    (last : IsLastBest before chosen after) (also : IsLastBest first other rest) :
    chosen = other := by
  rcases append_eq_append_iff.mp same with ⟨between, rfl, split⟩ | ⟨between, rfl, split⟩
  · rcases between with _ | ⟨head, between⟩
    · exact (cons.inj split).1
    obtain ⟨rfl, rfl⟩ := cons.inj split
    have larger := also.1 chosen (mem_append_right _ mem_cons_self)
    exact absurd larger (Int32.not_le.mpr (last.2 other (mem_append_right _ mem_cons_self)))
  rcases between with _ | ⟨head, between⟩
  · exact (cons.inj split).1.symm
  obtain ⟨rfl, rfl⟩ := cons.inj split
  have larger := last.1 other (mem_append_right _ mem_cons_self)
  exact absurd larger (Int32.not_le.mpr (also.2 chosen (mem_append_right _ mem_cons_self)))

theorem best_iff {among : List Candidate} {choice : Choice} (left : Left among choice)
    (distinct : (among.map (·.targetID)).Nodup) (nonzero : ∀ candidate ∈ among, candidate.targetID ≠ 0) :
    IsBest among choice.target ↔ LastRollsBest among := by
  rcases left with ⟨rfl, target, -⟩ | ⟨before, chosen, after, same, last, target, -⟩
  · refine iff_of_true (fun some_target => absurd target some_target) ?_
    intro before chosen after same
    exact absurd same.symm (append_ne_nil_of_right_ne_nil before (cons_ne_nil chosen after))
  have member : chosen ∈ among := by
    rw [same]
    exact mem_append_right before mem_cons_self
  constructor
  · intro isBest first other rest split also earlier inFront equal
    obtain rfl := last_best_unique (same.symm.trans split) last also
    obtain ⟨best, isOne, isTarget, largest⟩ := isBest (target ▸ nonzero chosen member)
    obtain rfl := inj_on_of_nodup_map distinct isOne member (isTarget.trans target)
    refine (largest earlier ?_).2 equal
    rw [split]
    exact mem_append_left _ inFront
  intro rolls _
  refine ⟨chosen, member, target.symm, fun other isOther => ?_⟩
  rw [same] at isOther
  rcases mem_append.mp isOther with inFront | behind
  · exact ⟨last.1 other inFront, rolls before chosen after same last other inFront⟩
  rcases mem_cons.mp behind with rfl | behind
  · exact ⟨Int32.le_refl _, fun _ => le_rfl⟩
  have smaller := last.2 other behind
  exact ⟨Int32.le_of_lt smaller, fun equal => absurd equal (Int32.ne_of_lt smaller)⟩

end Choosing

/-- After any run of allowed calls of the chains: the target is the best one just if the last
candidate with the largest value has the largest roll. -/
theorem target_best_iff (bounds : Bounds) (calls : List Call)
    (fine : allAllowed bounds emptyMap calls = true) : ∃ world, run bounds emptyMap calls = some world ∧
      ∀ (scene : Scene) (monster : Monster) (rolls : Nat → Int), scene.world = world →
        ∃ found, Yields bounds world (searchOf monster) found ∧
          (IsBest (candidates scene monster (monster.pick (rolls 0)) rolls 1 found)
              (selectTarget scene monster rolls found).target ↔
            LastRollsBest (candidates scene monster (monster.pick (rolls 0)) rolls 1 found)) := by
  obtain ⟨world, members, ran, chained⟩ := run_chained calls (empty_chained bounds) fine
  refine ⟨world, ran, ?_⟩
  rintro scene monster rolls rfl
  obtain ⟨found, yields, distinct, -⟩ := search_exact chained 12 12 monster.position.x
    monster.position.y monster.creatureID 0x05
  refine ⟨found, yields, ?_⟩
  have left : Left [] ⟨0, Int32.minValue, 0, true, 1⟩ := .inl ⟨rfl, rfl, rfl⟩
  exact best_iff (fold_left found left) ((candidates_ids found 1).nodup distinct)
    fun _ => candidate_nonzero

def closeIn : List Call :=
  [.appear 1 (playerAt 5 5), .appear 2 (playerAt 6 5), .appear 9 ⟨.monster, ⟨5, 6, 7⟩, 0⟩,
    .insert 1 0 0, .insert 2 0 0, .insert 9 0 0]

theorem close_in_best_iff : allAllowed smallMatrix emptyMap closeIn = true ∧
    ∃ world, run smallMatrix emptyMap closeIn = some world ∧
      ∀ (scene : Scene) (monster : Monster) (rolls : Nat → Int), scene.world = world →
        ∃ found, Yields smallMatrix world (searchOf monster) found ∧
          (IsBest (candidates scene monster (monster.pick (rolls 0)) rolls 1 found)
              (selectTarget scene monster rolls found).target ↔
            LastRollsBest (candidates scene monster (monster.pick (rolls 0)) rolls 1 found)) :=
  ⟨by decide, target_best_iff smallMatrix closeIn (by decide)⟩

/-- A monster that takes any target. -/
def stalker : Monster := ⟨9, ⟨5, 6, 7⟩, ![0, 0, 0, 100], false⟩

def sceneOf (world : World) : Scene :=
  ⟨world, fun _ => ⟨false, false, false, 150, 0⟩, fun _ => false, fun _ => false⟩

def lowerLast : Nat → Int := ([99, 90, 10].getD · 0)

/-- The second player has the lower roll and is chosen. -/
theorem lower_roll_chosen : ∃ world found, run smallMatrix emptyMap closeIn = some world ∧
    Yields smallMatrix world (searchOf stalker) found ∧
      ¬ IsBest (candidates (sceneOf world) stalker (stalker.pick (lowerLast 0)) lowerLast 1 found)
        (selectTarget (sceneOf world) stalker lowerLast found).target := by
  refine ⟨_, [2, 1], rfl, ?_, ?_⟩
  · exact .next 40 rfl (by decide) (.next 40 rfl (by decide) (.done 40 rfl rfl))
  · intro isBest
    obtain ⟨chosen, member, isTarget, largest⟩ := isBest (by decide)
    have higher := largest ⟨2, 0, 90⟩ mem_cons_self
    have either : chosen ∈ [(⟨2, 0, 90⟩ : Candidate), ⟨1, 0, 10⟩] := member
    rcases mem_pair.mp either with rfl | rfl
    · cases isTarget
    · exact absurd (higher.2 rfl) (by decide)

end TibiaGame.MonsterTarget
