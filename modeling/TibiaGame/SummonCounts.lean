import Mathlib.Tactic

/-!
# Masters and summoned monsters

A monster keeps the identifier of its master, and the master a number of summoned creatures.
Identifiers of players are those of their characters and come back with every login.
-/

namespace TibiaGame.SummonCounts

open List

inductive CreatureType where
  | player
  | monster
  | npc
  deriving DecidableEq

/-- `master` is zero for a creature without one. -/
structure Creature where
  id : UInt32
  kind : CreatureType
  master : UInt32
  lifeEndRound : UInt32
  summonedCreatures : Int
  deriving DecidableEq

/-- `creatures` is what `get_creature` searches; a new creature comes first. -/
structure World where
  nextCreatureID : UInt32
  creatures : List Creature
  deriving DecidableEq

def getCreature (creatures : List Creature) (id : UInt32) : Option Creature :=
  if id = 0 then none else creatures.find? fun creature => creature.id = id

/-- The creature that `get_creature` finds is changed. -/
def changeCreature (creatures : List Creature) (id : UInt32) (change : Creature → Creature) :
    List Creature :=
  match creatures with
  | [] => []
  | creature :: rest =>
      if creature.id = id then change creature :: rest
      else creature :: changeCreature rest id change

def Creature.count (amount : Int) (creature : Creature) : Creature :=
  { creature with summonedCreatures := creature.summonedCreatures + amount }

def Creature.serve (master : UInt32) (creature : Creature) : Creature :=
  { creature with master := master }

/-- `SetID` without a character: sixteen attempts, and then a duplicate. The second number is
the next `NextCreatureID`. -/
def nextID (creatures : List Creature) : Nat → UInt32 → UInt32 × UInt32
  | 0, next => (next - 1, next)
  | attempts + 1, next =>
      if (getCreature creatures next).isNone then (next, next + 1)
      else nextID creatures attempts (next + 1)

inductive Mastery where
  | free
  | missing
  | servant (master : Creature)
  | endless

/-- The loop of `TMonster::TMonster`: a summoned monster summons for its own master. -/
def findMaster (creatures : List Creature) : Nat → UInt32 → Mastery
  | 0, id => if id = 0 then .free else .endless
  | fuel + 1, id =>
      if id = 0 then .free
      else match getCreature creatures id with
        | none => .missing
        | some master =>
            if master.kind ≠ .monster ∨ master.master = 0 then .servant master
            else findMaster creatures fuel master.master

def enter (world : World) (kind : CreatureType) (master lifeEndRound : UInt32) : World :=
  let next := nextID world.creatures 16 world.nextCreatureID
  { nextCreatureID := next.2
    creatures := ⟨next.1, kind, master, lifeEndRound, 0⟩ :: world.creatures }

/-- `create_monster` with a race that exists. Without its master the monster does not get into
any list. -/
def createMonster (world : World) (masterID : UInt32) : Option World :=
  match findMaster world.creatures (world.creatures.length + 1) masterID with
  | .free => some (enter world .monster 0 0)
  | .missing => some world
  | .servant master =>
      let creatures := changeCreature world.creatures master.id (Creature.count 1)
      some (enter { world with creatures := creatures } .monster master.id master.lifeEndRound)
  | .endless => none

/-- The answers of the other checks of `summon_creature` and `convince`, in their order. -/
structure Checks where
  createMonsters : Bool
  noSummon : Bool
  room : Bool
  mana : Bool
  defined : Bool
  attack : Bool
  noConvince : Bool

inductive Refusal where
  | notAccessible
  | tooManySlaves
  | noRoom
  | noMana
  | attackNotAllowed
  deriving DecidableEq

def maxSlaves : Int := 2

/-- What stands before the search for a field; `false` is a return without a message. -/
def maySummon (actor : Creature) (checks : Checks) (god : Bool) : Except Refusal Bool :=
  if god then .ok checks.createMonsters
  else if actor.kind = .player then
    if !checks.createMonsters && checks.noSummon then .error .notAccessible
    else if actor.summonedCreatures ≥ maxSlaves then .error .tooManySlaves
    else .ok true
  else .ok true

/-- Inside `Option`, `none` is the loop of the constructor without an end. -/
def summonCreature (world : World) (actor : Creature) (checks : Checks) (god : Bool) :
    Except Refusal (Option World) :=
  match maySummon actor checks god with
  | .error refusal => .error refusal
  | .ok false => .ok (some world)
  | .ok true =>
      if !checks.room then .error .noRoom
      else if !god && !checks.mana then .error .noMana
      else if !checks.defined then .ok (some world)
      else .ok (createMonster world (if god then 0 else actor.id))

def loseServant (creatures : List Creature) (master : UInt32) : List Creature :=
  match getCreature creatures master with
  | none => creatures
  | some old => changeCreature creatures old.id (Creature.count (-1))

/-- `TMonster::Convince`. -/
def convinceMonster (creatures : List Creature) (newMaster target : Creature) : List Creature :=
  let creatures := loseServant creatures target.master
  let creatures := changeCreature creatures target.id (Creature.serve newMaster.id)
  changeCreature creatures newMaster.id (Creature.count 1)

def convince (world : World) (actor target : Creature) (checks : Checks) :
    Except Refusal World :=
  if target.kind ≠ .monster then .error .attackNotAllowed
  else if actor.kind = .player ∧ actor.summonedCreatures ≥ maxSlaves then .error .tooManySlaves
  else if !checks.attack then .error .attackNotAllowed
  else if checks.noConvince then .error .notAccessible
  else if !checks.mana then .error .noMana
  else .ok { world with creatures := convinceMonster world.creatures actor target }

/-- `~TMonster` counts the master down, but not below zero. -/
def releaseServant (creatures : List Creature) (master : UInt32) : List Creature :=
  match getCreature creatures master with
  | none => creatures
  | some old =>
      if old.summonedCreatures > 0 then changeCreature creatures old.id (Creature.count (-1))
      else creatures

def deleteCreature (creatures : List Creature) (creature : Creature) : List Creature :=
  let creatures :=
    if creature.kind = .monster then releaseServant creatures creature.master else creatures
  creatures.eraseP fun other => other.id = creature.id

/-- `createMonster` stands for raids and for the spells without a limit. -/
inductive Call where
  | login (id : UInt32)
  | createNpc
  | createMonster (masterID : UInt32)
  | summonCreature (actorID : UInt32) (checks : Checks) (god : Bool)
  | convince (actorID targetID : UInt32) (checks : Checks)
  | delete (id : UInt32)

/-- A login of a player who is still in the game only takes the connection over. A refused
spell changes nothing. -/
def step (world : World) : Call → Option World
  | .login id =>
      if (getCreature world.creatures id).isSome then some world
      else some { world with creatures := ⟨id, .player, 0, 0, 0⟩ :: world.creatures }
  | .createNpc => some (enter world .npc 0 0)
  | .createMonster masterID => createMonster world masterID
  | .summonCreature actorID checks god =>
      (getCreature world.creatures actorID).bind fun actor =>
        match summonCreature world actor checks god with
        | .error _ => some world
        | .ok after => after
  | .convince actorID targetID checks =>
      (getCreature world.creatures actorID).bind fun actor =>
        (getCreature world.creatures targetID).bind fun target =>
          match convince world actor target checks with
          | .error _ => some world
          | .ok after => some after
  | .delete id =>
      (getCreature world.creatures id).map fun creature =>
        { world with creatures := deleteCreature world.creatures creature }

def run (world : World) : List Call → Option World
  | [] => some world
  | call :: rest => (step world call).bind fun after => run after rest

def summons (creatures : List Creature) (master : UInt32) : Nat :=
  creatures.countP fun creature => creature.kind = .monster && creature.master = master

def Accounted (creatures : List Creature) : Prop :=
  ∀ creature ∈ creatures, creature.summonedCreatures = summons creatures creature.id

instance (creatures : List Creature) : Decidable (Accounted creatures) :=
  inferInstanceAs (Decidable (∀ creature ∈ creatures, _ = _))

/-- Nobody has the identifier, and no monster has it for its master. -/
def Fresh (creatures : List Creature) (id : UInt32) : Prop :=
  id ≠ 0 ∧ ∀ creature ∈ creatures, creature.id ≠ id ∧
    (creature.kind = .monster → creature.master ≠ id)

instance (creatures : List Creature) (id : UInt32) : Decidable (Fresh creatures id) :=
  inferInstanceAs (Decidable (_ ∧ ∀ creature ∈ creatures, _))

/-- A creature that comes into the world gets a fresh identifier. -/
def ComesFresh (world : World) : Call → Prop
  | .login id => getCreature world.creatures id = none → Fresh world.creatures id
  | .createNpc => Fresh world.creatures (nextID world.creatures 16 world.nextCreatureID).1
  | .createMonster _ => Fresh world.creatures (nextID world.creatures 16 world.nextCreatureID).1
  | .summonCreature _ _ _ =>
      Fresh world.creatures (nextID world.creatures 16 world.nextCreatureID).1
  | _ => True

def FreshRun : World → List Call → Prop
  | _, [] => True
  | world, call :: rest =>
      ComesFresh world call ∧ ∀ after, step world call = some after → FreshRun after rest

instance (world : World) : (call : Call) → Decidable (ComesFresh world call)
  | .login _ => inferInstanceAs (Decidable (_ = _ → Fresh _ _))
  | .createNpc => inferInstanceAs (Decidable (Fresh _ _))
  | .createMonster _ => inferInstanceAs (Decidable (Fresh _ _))
  | .summonCreature _ _ _ => inferInstanceAs (Decidable (Fresh _ _))
  | .convince _ _ _ => isTrue trivial
  | .delete _ => isTrue trivial

def decideAfter {Property : World → Prop} (decides : ∀ after, Decidable (Property after)) :
    (outcome : Option World) → Decidable (∀ after, outcome = some after → Property after)
  | none => isTrue fun _ impossible => absurd impossible (Option.some_ne_none _).symm
  | some world =>
      decidable_of_iff (Property world)
        ⟨fun holds _ same => Option.some.inj same ▸ holds, fun all => all world rfl⟩

def decideFreshRun : (calls : List Call) → (world : World) → Decidable (FreshRun world calls)
  | [], _ => isTrue trivial
  | call :: rest, world =>
      have := decideAfter (decideFreshRun rest) (step world call)
      inferInstanceAs (Decidable (ComesFresh world call ∧ _))

instance (world : World) (calls : List Call) : Decidable (FreshRun world calls) :=
  decideFreshRun calls world

section Changes

variable {creatures : List Creature} {creature : Creature} {id : UInt32}
  {change : Creature → Creature}

theorem get_creature_mem (found : getCreature creatures id = some creature) :
    creature ∈ creatures ∧ creature.id = id := by
  unfold getCreature at found
  split_ifs at found
  exact ⟨mem_of_find?_eq_some found, by simpa using List.find?_some found⟩

theorem get_creature_none (missing : getCreature creatures id = none) (nonzero : id ≠ 0) :
    ∀ creature ∈ creatures, creature.id ≠ id := by
  rw [getCreature, if_neg nonzero] at missing
  intro creature member
  simpa using List.find?_eq_none.mp missing creature member

theorem change_ids (keeps : ∀ creature, (change creature).id = creature.id) :
    (changeCreature creatures id change).map Creature.id = creatures.map Creature.id := by
  induction creatures with
  | nil => rfl
  | cons first rest ih =>
    unfold changeCreature
    split_ifs
    · rw [map_cons, map_cons, keeps]
    · rw [map_cons, map_cons, ih]

theorem mem_change (distinct : (creatures.map Creature.id).Nodup)
    (member : creature ∈ changeCreature creatures id change) :
    (∃ old ∈ creatures, old.id = id ∧ creature = change old) ∨
      creature ∈ creatures ∧ creature.id ≠ id := by
  induction creatures with
  | nil => cases member
  | cons first rest ih =>
    rw [map_cons, nodup_cons] at distinct
    unfold changeCreature at member
    split_ifs at member with same
    · cases member with
      | head => exact Or.inl ⟨first, mem_cons_self, same, rfl⟩
      | tail _ later =>
        refine Or.inr ⟨mem_cons_of_mem first later, fun shared => distinct.1 ?_⟩
        rw [same, ← shared]
        exact mem_map_of_mem later
    cases member with
    | head => exact Or.inr ⟨mem_cons_self, same⟩
    | tail _ later =>
      rcases ih distinct.2 later with changed | kept
      · obtain ⟨old, inside, itself, rfl⟩ := changed
        exact Or.inl ⟨old, mem_cons_of_mem first inside, itself, rfl⟩
      · exact Or.inr ⟨mem_cons_of_mem first kept.1, kept.2⟩

theorem summons_count (amount : Int) (master : UInt32) :
    summons (changeCreature creatures id (Creature.count amount)) master =
      summons creatures master := by
  unfold summons
  induction creatures with
  | nil => rfl
  | cons first rest ih =>
    unfold changeCreature
    split_ifs
    · rfl
    · rw [countP_cons, countP_cons, ih]

end Changes

def Owed (creatures : List Creature) (debt : UInt32 → Int) : Prop :=
  ∀ creature ∈ creatures,
    creature.summonedCreatures + debt creature.id = summons creatures creature.id

def due (kind : CreatureType) (master other : UInt32) : Int :=
  if kind = .monster ∧ master = other then 1 else 0

structure Kept (creatures : List Creature) : Prop where
  distinct : (creatures.map Creature.id).Nodup
  nonzero : ∀ creature ∈ creatures, creature.id ≠ 0
  accounted : Accounted creatures

section Debts

variable {creatures : List Creature} {creature : Creature} {id master : UInt32}
  {debt : UInt32 → Int}

theorem owed_of_eq {other : UInt32 → Int} (owed : Owed creatures debt)
    (same : ∀ creature ∈ creatures, other creature.id = debt creature.id) :
    Owed creatures other := by
  intro creature member
  rw [same creature member]
  exact owed creature member

theorem Accounted.owed (accounted : Accounted creatures) : Owed creatures fun _ => 0 := by
  intro creature member
  rw [add_zero]
  exact accounted creature member

theorem Owed.accounted (owed : Owed creatures fun _ => 0) : Accounted creatures := by
  intro creature member
  rw [← owed creature member, add_zero]

theorem owed_count (id : UInt32) (distinct : (creatures.map Creature.id).Nodup) (owed : Owed creatures debt)
    (amount : Int) :
    Owed (changeCreature creatures id (Creature.count amount))
      fun other => debt other - if other = id then amount else 0 := by
  intro creature member
  rw [summons_count]
  rcases mem_change distinct member with changed | kept
  · obtain ⟨old, inside, itself, rfl⟩ := changed
    have before := owed old inside
    change old.summonedCreatures + amount + (debt old.id - if old.id = id then amount else 0) =
      summons creatures old.id
    rw [if_pos itself, ← before]
    ring
  dsimp only
  rw [if_neg kept.2, sub_zero]
  exact owed creature kept.1

theorem summons_cons (first : Creature) :
    (summons (first :: creatures) id : Int) =
      summons creatures id + due first.kind first.master id := by
  unfold summons due
  rw [countP_cons]
  simp only [Bool.and_eq_true, decide_eq_true_eq]
  split_ifs <;> simp

theorem summons_fresh (fresh : Fresh creatures id) : summons creatures id = 0 := by
  apply countP_eq_zero.mpr
  intro creature member serves
  simp only [Bool.and_eq_true, decide_eq_true_eq] at serves
  exact (fresh.2 creature member).2 serves.1 serves.2

/-- A new creature settles the debt that its master was counted up for. -/
theorem owed_cons (first : Creature) (fresh : Fresh creatures first.id)
    (unused : first.summonedCreatures = 0) (other : first.master ≠ first.id)
    (owed : Owed creatures fun id => -due first.kind first.master id) :
    Owed (first :: creatures) fun _ => 0 := by
  intro creature member
  rw [summons_cons, add_zero]
  cases member with
  | head =>
    rw [unused, summons_fresh fresh, due, if_neg fun both => other both.2]
    rfl
  | tail _ later =>
    have before := owed creature later
    dsimp only at before
    omega

theorem summons_erase (id : UInt32) (member : creature ∈ creatures)
    (distinct : (creatures.map Creature.id).Nodup) :
    (summons (creatures.eraseP fun other => other.id = creature.id) id : Int) +
      due creature.kind creature.master id = summons creatures id := by
  induction creatures with
  | nil => cases member
  | cons first rest ih =>
    rw [map_cons, nodup_cons] at distinct
    cases member with
    | head =>
      rw [eraseP_cons_of_pos (by simp), summons_cons]
    | tail _ later =>
      have different : first.id ≠ creature.id := fun same =>
        distinct.1 (by rw [same]; exact mem_map_of_mem later)
      rw [eraseP_cons_of_neg (by simpa using different), summons_cons, summons_cons,
        ← ih later distinct.2]
      ring

theorem owed_erase (member : creature ∈ creatures) (distinct : (creatures.map Creature.id).Nodup)
    (owed : Owed creatures (due creature.kind creature.master)) :
    Owed (creatures.eraseP fun other => other.id = creature.id) fun _ => 0 := by
  intro other remains
  have before := owed other (mem_of_mem_eraseP remains)
  have erased := summons_erase other.id member distinct
  dsimp only
  omega

theorem summons_serve (id master : UInt32) (member : creature ∈ creatures)
    (distinct : (creatures.map Creature.id).Nodup) :
    (summons (changeCreature creatures creature.id (Creature.serve master)) id : Int) +
        due creature.kind creature.master id =
      summons creatures id + due creature.kind master id := by
  induction creatures with
  | nil => cases member
  | cons first rest ih =>
    rw [map_cons, nodup_cons] at distinct
    cases member with
    | head =>
      unfold changeCreature
      rw [if_pos rfl, summons_cons, summons_cons]
      change summons rest id + due creature.kind master id + due creature.kind creature.master id =
        summons rest id + due creature.kind creature.master id + due creature.kind master id
      ring
    | tail _ later =>
      have different : first.id ≠ creature.id := fun same =>
        distinct.1 (by rw [same]; exact mem_map_of_mem later)
      have moved := ih later distinct.2
      unfold changeCreature
      rw [if_neg different, summons_cons, summons_cons]
      omega

end Debts

section Steps

variable {creatures : List Creature} {creature actor target : Creature} {id master : UInt32}

theorem count_ids (amount : Int) :
    (changeCreature creatures id (Creature.count amount)).map Creature.id =
      creatures.map Creature.id :=
  change_ids fun _ => rfl

theorem ids_nonzero {other : List Creature} (same : other.map Creature.id = creatures.map Creature.id)
    (nonzero : ∀ creature ∈ creatures, creature.id ≠ 0) : ∀ creature ∈ other, creature.id ≠ 0 := by
  intro creature member
  have listed := mem_map_of_mem (f := Creature.id) member
  rw [same] at listed
  obtain ⟨old, inside, itself⟩ := mem_map.mp listed
  rw [← itself]
  exact nonzero old inside

theorem master_counts (accounted : Accounted creatures) (member : creature ∈ creatures)
    (monster : creature.kind = .monster) {old : Creature}
    (found : getCreature creatures creature.master = some old) : 0 < old.summonedCreatures := by
  obtain ⟨inside, itself⟩ := get_creature_mem found
  rw [accounted old inside, itself]
  have positive : 0 < summons creatures creature.master :=
    countP_pos_iff.mpr ⟨creature, member, by simp [monster]⟩
  omega

theorem lose_servant_ids :
    (loseServant creatures master).map Creature.id = creatures.map Creature.id := by
  unfold loseServant
  split
  · rfl
  · exact count_ids (-1)

theorem lose_servant_owed (kept : Kept creatures) :
    Owed (loseServant creatures master) (due .monster master) := by
  unfold loseServant
  split
  · next missing =>
      apply owed_of_eq kept.accounted.owed
      intro creature member
      have other : master ≠ creature.id := by
        intro same
        by_cases zero : master = 0
        · exact kept.nonzero creature member (same.symm.trans zero)
        · exact get_creature_none missing zero creature member same.symm
      exact if_neg fun both => other both.2
  next old found =>
    apply owed_of_eq (owed_count old.id kept.distinct kept.accounted.owed (-1))
    intro creature member
    rw [(get_creature_mem found).2, due]
    simp only [true_and, eq_comm]
    split_ifs <;> rfl

theorem release_servant_eq (accounted : Accounted creatures) (member : creature ∈ creatures)
    (monster : creature.kind = .monster) :
    releaseServant creatures creature.master = loseServant creatures creature.master := by
  unfold releaseServant loseServant
  split
  · rfl
  · next old found => exact if_pos (master_counts accounted member monster found)

theorem count_member (member : creature ∈ creatures) (amount : Int) :
    ∃ after ∈ changeCreature creatures id (Creature.count amount), after.id = creature.id ∧
      after.kind = creature.kind ∧ after.master = creature.master := by
  induction creatures with
  | nil => cases member
  | cons first rest ih =>
    unfold changeCreature
    split_ifs with same
    · cases member with
      | head => exact ⟨_, mem_cons_self, rfl, rfl, rfl⟩
      | tail _ later => exact ⟨creature, mem_cons_of_mem _ later, rfl, rfl, rfl⟩
    cases member with
    | head => exact ⟨creature, mem_cons_self, rfl, rfl, rfl⟩
    | tail _ later =>
      obtain ⟨after, inside, same⟩ := ih later
      exact ⟨after, mem_cons_of_mem _ inside, same⟩

theorem lose_servant_member (master : UInt32) (member : creature ∈ creatures) :
    ∃ after ∈ loseServant creatures master, after.id = creature.id ∧
      after.kind = creature.kind ∧ after.master = creature.master := by
  unfold loseServant
  split
  · exact ⟨creature, member, rfl, rfl, rfl⟩
  · exact count_member member (-1)

theorem erase_kept (distinct : (creatures.map Creature.id).Nodup)
    (nonzero : ∀ creature ∈ creatures, creature.id ≠ 0) (member : creature ∈ creatures)
    (owed : Owed creatures (due creature.kind creature.master)) :
    Kept (creatures.eraseP fun other => other.id = creature.id) where
  distinct := (eraseP_sublist.map Creature.id).nodup distinct
  nonzero other remains := nonzero other (mem_of_mem_eraseP remains)
  accounted := (owed_erase member distinct owed).accounted

theorem delete_kept (kept : Kept creatures) (member : creature ∈ creatures) :
    Kept (deleteCreature creatures creature) := by
  unfold deleteCreature
  split_ifs with monster
  · rw [release_servant_eq kept.accounted member monster]
    obtain ⟨after, inside, itself, kind, serves⟩ :=
      lose_servant_member creature.master member
    rw [← itself]
    apply erase_kept _ _ inside
    · rw [kind, serves, monster]
      exact lose_servant_owed kept
    · rw [lose_servant_ids]
      exact kept.distinct
    · exact ids_nonzero lose_servant_ids kept.nonzero
  apply erase_kept kept.distinct kept.nonzero member
  apply owed_of_eq kept.accounted.owed
  intro other inside
  exact if_neg fun both => monster both.1

theorem serve_ids :
    (changeCreature creatures id (Creature.serve master)).map Creature.id =
      creatures.map Creature.id :=
  change_ids fun _ => rfl

theorem owed_serve (distinct : (creatures.map Creature.id).Nodup) (member : target ∈ creatures)
    (monster : target.kind = .monster) (owed : Owed creatures (due .monster target.master)) :
    Owed (changeCreature creatures target.id (Creature.serve master)) (due .monster master) := by
  intro creature inside
  have moved := summons_serve creature.id master member distinct
  rw [monster] at moved
  have before : creature.summonedCreatures + due .monster target.master creature.id =
      summons creatures creature.id := by
    rcases mem_change distinct inside with changed | unchanged
    · obtain ⟨old, there, itself, rfl⟩ := changed
      exact owed old there
    · exact owed creature unchanged.1
  omega

theorem convince_kept (kept : Kept creatures) (member : target ∈ creatures)
    (monster : target.kind = .monster) : Kept (convinceMonster creatures actor target) := by
  obtain ⟨after, inside, itself, kind, serves⟩ := lose_servant_member target.master member
  have distinct : ((loseServant creatures target.master).map Creature.id).Nodup := by
    rw [lose_servant_ids]
    exact kept.distinct
  have ids : (convinceMonster creatures actor target).map Creature.id =
      creatures.map Creature.id := (count_ids 1).trans (serve_ids.trans lose_servant_ids)
  have served : Owed (changeCreature (loseServant creatures target.master) target.id
      (Creature.serve actor.id)) (due .monster actor.id) := by
    rw [← itself]
    apply owed_serve distinct inside (kind.trans monster)
    rw [serves]
    exact lose_servant_owed kept
  have counted := owed_count actor.id (by rw [serve_ids]; exact distinct) served 1
  refine ⟨by rw [ids]; exact kept.distinct, ids_nonzero ids kept.nonzero, Owed.accounted ?_⟩
  apply owed_of_eq counted
  intro creature _
  simp only [due, true_and, eq_comm]
  split_ifs <;> rfl

theorem get_creature_is_none :
    (getCreature creatures id).isNone = decide (id = 0 ∨ id ∉ creatures.map Creature.id) := by
  unfold getCreature
  by_cases zero : id = 0
  · simp [zero]
  rw [if_neg zero, Bool.eq_iff_iff]
  simp [zero]

theorem next_id_congr {other : List Creature}
    (same : other.map Creature.id = creatures.map Creature.id) (attempts : Nat) (next : UInt32) :
    nextID other attempts next = nextID creatures attempts next := by
  induction attempts generalizing next with
  | zero => rfl
  | succ attempts ih =>
    unfold nextID
    rw [get_creature_is_none, get_creature_is_none, same, ih]

theorem fresh_count (fresh : Fresh creatures id) (distinct : (creatures.map Creature.id).Nodup)
    (amount : Int) : Fresh (changeCreature creatures master (Creature.count amount)) id := by
  refine ⟨fresh.1, ?_⟩
  intro creature member
  rcases mem_change distinct member with changed | kept
  · obtain ⟨old, inside, itself, rfl⟩ := changed
    exact fresh.2 old inside
  · exact fresh.2 creature kept.1

theorem cons_kept (first : Creature) (distinct : (creatures.map Creature.id).Nodup)
    (nonzero : ∀ creature ∈ creatures, creature.id ≠ 0) (fresh : Fresh creatures first.id)
    (unused : first.summonedCreatures = 0) (other : first.master ≠ first.id)
    (owed : Owed creatures fun id => -due first.kind first.master id) :
    Kept (first :: creatures) where
  distinct := by
    rw [map_cons, nodup_cons]
    refine ⟨fun shared => ?_, distinct⟩
    obtain ⟨old, inside, itself⟩ := mem_map.mp shared
    exact (fresh.2 old inside).1 itself
  nonzero creature member := by
    cases member with
    | head => exact fresh.1
    | tail _ later => exact nonzero creature later
  accounted := (owed_cons first fresh unused other owed).accounted

theorem find_master_mem {fuel : Nat} (found : findMaster creatures fuel id = .servant actor) :
    actor ∈ creatures := by
  induction fuel generalizing id with
  | zero =>
    unfold findMaster at found
    split_ifs at found
  | succ fuel ih =>
    unfold findMaster at found
    split_ifs at found
    split at found
    · cases found
    next master present =>
      split_ifs at found
      · cases found
        exact (get_creature_mem present).1
      · exact ih found

theorem create_monster_kept {world after : World} (kept : Kept world.creatures)
    (fresh : Fresh world.creatures (nextID world.creatures 16 world.nextCreatureID).1)
    (created : createMonster world master = some after) : Kept after.creatures := by
  unfold createMonster at created
  split at created
  · cases created
    apply cons_kept _ kept.distinct kept.nonzero fresh rfl fresh.1.symm
    apply owed_of_eq kept.accounted.owed
    intro creature member
    have other : ¬ (0 : UInt32) = creature.id := fun zero => kept.nonzero creature member zero.symm
    simp [due, other]
  · cases created
    exact kept
  · next servant found =>
      cases created
      have member := find_master_mem found
      have ids : (changeCreature world.creatures servant.id (Creature.count 1)).map Creature.id =
          world.creatures.map Creature.id := count_ids 1
      have distinct : ((changeCreature world.creatures servant.id (Creature.count 1)).map
          Creature.id).Nodup := by
        rw [ids]
        exact kept.distinct
      have still : Fresh (changeCreature world.creatures servant.id (Creature.count 1))
          (nextID (changeCreature world.creatures servant.id (Creature.count 1)) 16
            world.nextCreatureID).1 := by
        rw [next_id_congr ids]
        exact fresh_count fresh kept.distinct 1
      apply cons_kept _ distinct (ids_nonzero ids kept.nonzero) still rfl
      · change servant.id ≠ (nextID _ 16 world.nextCreatureID).1
        rw [next_id_congr ids]
        exact (fresh.2 servant member).1
      apply owed_of_eq (owed_count servant.id kept.distinct kept.accounted.owed 1)
      intro creature _
      simp only [due, true_and, eq_comm]
      split_ifs <;> rfl
  · cases created

end Steps

section Runs

variable {world after : World} {actor target : Creature} {checks : Checks}

section

variable (kept : Kept world.creatures)
include kept

theorem enter_kept (kind : CreatureType) (lifeEndRound : UInt32)
    (fresh : Fresh world.creatures (nextID world.creatures 16 world.nextCreatureID).1) :
    Kept (enter world kind 0 lifeEndRound).creatures := by
  apply cons_kept _ kept.distinct kept.nonzero fresh rfl fresh.1.symm
  apply owed_of_eq kept.accounted.owed
  intro creature member
  have other : ¬ (0 : UInt32) = creature.id := fun zero => kept.nonzero creature member zero.symm
  simp [due, other]

theorem summon_kept {god : Bool}
    (fresh : Fresh world.creatures (nextID world.creatures 16 world.nextCreatureID).1)
    (summoned : summonCreature world actor checks god = .ok (some after)) :
    Kept after.creatures := by
  unfold summonCreature at summoned
  split at summoned
  · cases summoned
  · cases summoned
    exact kept
  · split_ifs at summoned
    · cases summoned
      exact kept
    all_goals exact create_monster_kept kept fresh (Except.ok.inj summoned)

theorem convince_spell_kept (member : target ∈ world.creatures)
    (convinced : convince world actor target checks = .ok after) : Kept after.creatures := by
  unfold convince at convinced
  split_ifs at convinced with other
  cases convinced
  exact convince_kept kept member (not_not.mp other)

theorem step_kept {call : Call} (fresh : ComesFresh world call)
    (went : step world call = some after) : Kept after.creatures := by
  cases call with
  | login id =>
    unfold step at went
    dsimp only at went
    split_ifs at went with present
    · cases went
      exact kept
    cases went
    have free := fresh (Option.not_isSome_iff_eq_none.mp present)
    apply cons_kept _ kept.distinct kept.nonzero free rfl free.1.symm
    exact owed_of_eq kept.accounted.owed fun creature _ => by simp [due]
  | createNpc =>
    cases went
    exact enter_kept kept .npc 0 fresh
  | createMonster masterID => exact create_monster_kept kept fresh went
  | summonCreature actorID checks god =>
    obtain ⟨actor, found, spoken⟩ := Option.bind_eq_some_iff.mp went
    rcases result : summonCreature world actor checks god with refusal | outcome
    · rw [result] at spoken
      cases spoken
      exact kept
    rw [result] at spoken
    exact summon_kept kept fresh (result.trans (congrArg Except.ok spoken))
  | convince actorID targetID checks =>
    obtain ⟨actor, found, spoken⟩ := Option.bind_eq_some_iff.mp went
    obtain ⟨target, aimed, said⟩ := Option.bind_eq_some_iff.mp spoken
    rcases result : convince world actor target checks with refusal | outcome
    · rw [result] at said
      cases said
      exact kept
    rw [result] at said
    cases said
    exact convince_spell_kept kept (get_creature_mem aimed).1 result
  | delete id =>
    obtain ⟨creature, found, rfl⟩ := Option.map_eq_some_iff.mp went
    exact delete_kept kept (get_creature_mem found).1

end

theorem run_kept (calls : List Call) (kept : Kept world.creatures)
    (fresh : FreshRun world calls) (went : run world calls = some after) : Kept after.creatures := by
  induction calls generalizing world with
  | nil =>
    cases went
    exact kept
  | cons call rest ih =>
    obtain ⟨middle, stepped, rested⟩ := Option.bind_eq_some_iff.mp went
    exact ih (step_kept kept fresh.1 stepped) (fresh.2 middle stepped) rested

theorem due_le (kind : CreatureType) (master other : UInt32) : due kind master other ≤ 1 := by
  unfold due
  split_ifs <;> decide

theorem due_nonneg (kind : CreatureType) (master other : UInt32) : 0 ≤ due kind master other := by
  unfold due
  split_ifs <;> decide

theorem enter_summons (kind : CreatureType) (master lifeEndRound id : UInt32) :
    (summons (enter world kind master lifeEndRound).creatures id : Int) ≤
      summons world.creatures id + 1 := by
  unfold enter
  rw [summons_cons]
  exact Int.add_le_add_left (due_le kind master id) _

theorem create_monster_summons {masterID : UInt32} (id : UInt32)
    (created : createMonster world masterID = some after) :
    (summons after.creatures id : Int) ≤ summons world.creatures id + 1 := by
  unfold createMonster at created
  split at created
  · cases created
    exact enter_summons _ _ _ _
  · cases created
    omega
  · cases created
    apply (enter_summons _ _ _ _).trans
    rw [summons_count]
  · cases created

theorem lose_servant_summons (creatures : List Creature) (master id : UInt32) :
    summons (loseServant creatures master) id = summons creatures id := by
  unfold loseServant
  split
  · rfl
  · exact summons_count _ _

theorem convince_summons (actor : Creature) (kept : Kept world.creatures)
    (member : target ∈ world.creatures) (id : UInt32) :
    (summons (convinceMonster world.creatures actor target) id : Int) ≤
      summons world.creatures id + 1 := by
  obtain ⟨after, inside, itself, -⟩ := lose_servant_member target.master member
  have distinct : ((loseServant world.creatures target.master).map Creature.id).Nodup := by
    rw [lose_servant_ids]
    exact kept.distinct
  have moved := summons_serve id actor.id inside distinct
  rw [itself, lose_servant_summons] at moved
  have most := due_le after.kind actor.id id
  have least := due_nonneg after.kind after.master id
  unfold convinceMonster
  rw [summons_count]
  omega

theorem player_may_summon {may : Bool} (player : actor.kind = .player)
    (passed : maySummon actor checks false = .ok may) : actor.summonedCreatures < 2 := by
  unfold maySummon at passed
  rw [if_neg Bool.false_ne_true, if_pos player] at passed
  split_ifs at passed with full slaves
  exact not_le.mp slaves

section

variable (kept : Kept world.creatures) (member : actor ∈ world.creatures)
    (player : actor.kind = .player)
include kept member player

theorem summon_limit (summoned : summonCreature world actor checks false = .ok (some after)) :
    summons after.creatures actor.id ≤ 2 := by
  have counted := kept.accounted actor member
  unfold summonCreature at summoned
  split at summoned
  · cases summoned
  · next passed =>
      cases summoned
      have few := player_may_summon player passed
      omega
  · next passed =>
      have few := player_may_summon player passed
      rw [if_neg Bool.false_ne_true] at summoned
      split_ifs at summoned
      · cases summoned
        omega
      · have more := create_monster_summons actor.id (Except.ok.inj summoned)
        omega

theorem convince_limit (aimed : target ∈ world.creatures)
    (convinced : convince world actor target checks = .ok after) :
    summons after.creatures actor.id ≤ 2 := by
  have counted := kept.accounted actor member
  unfold convince at convinced
  split_ifs at convinced with other full
  cases convinced
  have more := convince_summons actor kept aimed actor.id
  have few : actor.summonedCreatures < 2 := not_le.mp fun slaves => full ⟨player, slaves⟩
  dsimp only
  omega

end

def emptyWorld : World := ⟨0x40000000, []⟩

theorem empty_kept : Kept emptyWorld.creatures :=
  ⟨nodup_nil, fun _ member => absurd member not_mem_nil,
    fun _ member => absurd member not_mem_nil⟩

/-- As long as nobody comes into the world under the identifier of a master, the masters count
their monsters, and a summoning or conviction by a player leaves the player two at most. -/
theorem summons_are_counted {calls : List Call} (fresh : FreshRun emptyWorld calls)
    (went : run emptyWorld calls = some world) :
    Accounted world.creatures ∧
      (∀ creature ∈ world.creatures, 0 ≤ creature.summonedCreatures) ∧
      ∀ actor ∈ world.creatures, actor.kind = .player → ∀ checks after,
        (summonCreature world actor checks false = .ok (some after) →
          summons after.creatures actor.id ≤ 2) ∧
        ∀ target ∈ world.creatures, convince world actor target checks = .ok after →
          summons after.creatures actor.id ≤ 2 := by
  have kept := run_kept calls empty_kept fresh went
  refine ⟨kept.accounted, ?_, ?_⟩
  · intro creature member
    rw [kept.accounted creature member]
    exact Int.natCast_nonneg _
  · intro actor member player checks after
    exact ⟨summon_limit kept member player,
      fun target aimed => convince_limit kept member player aimed⟩

def willing : Checks := ⟨false, false, true, true, true, true, false⟩

/-- A player summons twice and another player convinces one of the two. -/
theorem convinced_summon_is_counted :
    run emptyWorld [.login 1, .login 2, .summonCreature 1 willing false,
        .summonCreature 1 willing false, .convince 2 0x40000000 willing] =
      some ⟨0x40000002, [⟨0x40000001, .monster, 1, 0, 0⟩, ⟨0x40000000, .monster, 2, 0, 0⟩,
        ⟨2, .player, 0, 0, 1⟩, ⟨1, .player, 0, 0, 1⟩]⟩ ∧
      Accounted [⟨0x40000001, .monster, 1, 0, 0⟩, ⟨0x40000000, .monster, 2, 0, 0⟩,
        ⟨2, .player, 0, 0, 1⟩, ⟨1, .player, 0, 0, 1⟩] := by
  have went : run emptyWorld [.login 1, .login 2, .summonCreature 1 willing false,
      .summonCreature 1 willing false, .convince 2 0x40000000 willing] =
    some ⟨0x40000002, [⟨0x40000001, .monster, 1, 0, 0⟩, ⟨0x40000000, .monster, 2, 0, 0⟩,
      ⟨2, .player, 0, 0, 1⟩, ⟨1, .player, 0, 0, 1⟩]⟩ := by
    decide +kernel
  exact ⟨went, (summons_are_counted (by decide +kernel) went).1⟩

/-- A player logs out and in again while a summoned monster is left: it is not counted, a third
monster can be summoned, and a conviction of the old one makes the number negative. -/
theorem new_login_loses_count :
    run emptyWorld [.login 1, .login 2, .summonCreature 1 willing false, .delete 1, .login 1,
        .summonCreature 1 willing false, .summonCreature 1 willing false] =
      some ⟨0x40000003, [⟨0x40000002, .monster, 1, 0, 0⟩, ⟨0x40000001, .monster, 1, 0, 0⟩,
        ⟨1, .player, 0, 0, 2⟩, ⟨0x40000000, .monster, 1, 0, 0⟩, ⟨2, .player, 0, 0, 0⟩]⟩ ∧
    ¬ Accounted [⟨0x40000002, .monster, 1, 0, 0⟩, ⟨0x40000001, .monster, 1, 0, 0⟩,
        ⟨1, .player, 0, 0, 2⟩, ⟨0x40000000, .monster, 1, 0, 0⟩, ⟨2, .player, 0, 0, 0⟩] ∧
    run emptyWorld [.login 1, .login 2, .summonCreature 1 willing false, .delete 1, .login 1,
        .convince 2 0x40000000 willing] =
      some ⟨0x40000001, [⟨1, .player, 0, 0, -1⟩, ⟨0x40000000, .monster, 2, 0, 0⟩,
        ⟨2, .player, 0, 0, 1⟩]⟩ := by
  decide +kernel

end Runs

end TibiaGame.SummonCounts
