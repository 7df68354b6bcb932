import TibiaGame.ToDoScheduler

/-!
# Wake-ups of creatures

A creature that has something to do is in the queue under the time it waits for. Entries of
lists that have been cleared stay behind, and are passed over without taking the place of the
live ones.
-/

namespace TibiaGame.ToDoWakeups

open PriorityQueue ToDoScheduler Function

variable {σ : Type} {world after middle : World σ} {id : UInt32} {creature : Creature}

abbrev Item := PriorityQueue.Entry Nat UInt32

/-- Creatures with something to do are in the queue, apart from some that are due now. -/
def Covered (spared : UInt32 → Prop) (world : World σ) : Prop :=
  ∀ id creature, world.creatures id = some creature → creature.isDead = false →
    creature.lockToDo = true →
      spared id ∧ ¬ world.serverMilliseconds < creature.nextWakeup ∨
        (⟨creature.nextWakeup.toNat, id⟩ : Item) ∈ world.toDoQueue.items

def Awake (world : World σ) : Prop :=
  ∀ id creature, world.creatures id = some creature → creature.isDead = false →
    creature.lockToDo = true →
      (⟨creature.nextWakeup.toNat, id⟩ : Item) ∈ world.toDoQueue.items

/-- What a creature is doing at the moment, if it goes on with it now. -/
def Doing (id : UInt32) (list : List ToDoEntry) (place : Nat) (world : World σ) : Prop :=
  ∀ creature, world.creatures id = some creature → creature.isDead = false →
    creature.lockToDo = true → ¬ world.serverMilliseconds < creature.nextWakeup →
      creature.toDoList = list ∧ creature.actToDo = place

def Inserts (world after : World σ) : Prop :=
  ∃ news : Multiset Item, after.toDoQueue.items = world.toDoQueue.items + news ∧
    ∀ item ∈ news, world.serverMilliseconds.toNat < item.key

/-- All that the `ToDo` functions can do to the queue and to what creatures wait for. -/
structure Tame (world after : World σ) : Prop where
  time : after.serverMilliseconds = world.serverMilliseconds
  ordered : Ordered world.toDoQueue → Ordered after.toDoQueue
  inserts : Ordered world.toDoQueue → Inserts world after
  covered : ∀ spared, Ordered world.toDoQueue → Covered spared world → Covered spared after
  doing : ∀ id list place, Doing id list place world → Doing id list place after

theorem covered_awake (awake : Awake world) (spared : UInt32 → Prop) : Covered spared world :=
  fun id creature known alive locked => Or.inr (awake id creature known alive locked)

theorem awake_covered (covered : Covered (fun _ => False) world) : Awake world := by
  intro id creature known alive locked
  rcases covered id creature known alive locked with spared | queued
  · exact absurd spared.1 not_false
  · exact queued

theorem tame_refl (world : World σ) : Tame world world :=
  ⟨rfl, fun ordered => ordered, fun _ => ⟨0, (add_zero _).symm, fun _ member => by cases member⟩,
    fun _ _ covered => covered, fun _ _ _ doing => doing⟩

theorem inserts_trans (time : middle.serverMilliseconds = world.serverMilliseconds)
    (first : Inserts world middle) (second : Inserts middle after) : Inserts world after := by
  rcases first with ⟨news, items, fresh⟩
  rcases second with ⟨more, moreItems, moreFresh⟩
  refine ⟨news + more, ?_, ?_⟩
  · rw [moreItems, items, add_assoc]
  intro item member
  rcases Multiset.mem_add.mp member with isNew | isMore
  · exact fresh item isNew
  rw [← time]
  exact moreFresh item isMore

theorem tame_trans (first : Tame world middle) (second : Tame middle after) : Tame world after := by
  constructor
  · exact second.time.trans first.time
  · intro ordered
    exact second.ordered (first.ordered ordered)
  · intro ordered
    exact inserts_trans first.time (first.inserts ordered)
      (second.inserts (first.ordered ordered))
  · intro spared ordered covered
    exact second.covered spared (first.ordered ordered) (first.covered spared ordered covered)
  · intro id list place doing
    exact second.doing id list place (first.doing id list place doing)

/-- A creature that has something to do afterwards had it before. -/
def Milder (old new : Option Creature) : Prop :=
  ∀ creature, new = some creature → creature.isDead = false → creature.lockToDo = true →
    ∃ earlier, old = some earlier ∧ earlier.isDead = false ∧ earlier.lockToDo = true ∧
      creature.nextWakeup = earlier.nextWakeup ∧ creature.toDoList = earlier.toDoList ∧
      creature.actToDo = earlier.actToDo

/-- A step that leaves the queue alone and gives nobody anything to do. -/
theorem milder_tame (time : after.serverMilliseconds = world.serverMilliseconds)
    (queue : after.toDoQueue = world.toDoQueue)
    (milder : ∀ id, Milder (world.creatures id) (after.creatures id)) : Tame world after := by
  constructor
  · exact time
  · intro ordered
    rw [queue]
    exact ordered
  · intro _
    refine ⟨0, ?_, ?_⟩
    · rw [queue, add_zero]
    · nofun
  · intro spared _ covered id creature known alive locked
    rcases milder id creature known alive locked with ⟨earlier, was, wasAlive, wasLocked, same, _⟩
    rw [time, queue, same]
    exact covered id earlier was wasAlive wasLocked
  · intro id list place doing creature known alive locked goesOn
    rcases milder id creature known alive locked with
      ⟨earlier, was, wasAlive, wasLocked, same, sameList, samePlace⟩
    rw [time, same] at goesOn
    rw [sameList, samePlace]
    exact doing earlier was wasAlive wasLocked goesOn

theorem milder_refl (old : Option Creature) : Milder old old :=
  fun creature known alive locked => ⟨creature, known, alive, locked, rfl, rfl, rfl⟩

theorem set_milder {new : Option Creature} (milder : Milder (world.creatures id) new)
    (other : UInt32) : Milder (world.creatures other) ((world.set id new).creatures other) := by
  rw [World.set]
  by_cases same : other = id
  · rw [same]
    intro creature known
    exact milder creature ((update_self id new world.creatures).symm.trans known)
  intro creature known
  exact milder_refl _ creature
    ((update_of_ne same new world.creatures).symm.trans known)

theorem set_tame {new : Option Creature} (milder : Milder (world.creatures id) new) :
    Tame world (world.set id new) := milder_tame rfl rfl (set_milder milder)

theorem emit_tame (world : World σ) (effects : List Effect) : Tame world (world.emit effects) :=
  milder_tame rfl rfl fun _ => milder_refl _

theorem snapback_tame (world : World σ) (id : UInt32) : Tame world (sendSnapback world id) := by
  rw [sendSnapback]
  rcases world.creatures id with _ | creature
  · exact tame_refl world
  simp only
  split_ifs
  · exact emit_tame world _
  · exact tame_refl world

theorem cleared_milder (old : Option Creature) (creature : Creature) :
    Milder old (some (cleared creature)) := by
  intro new same _ locked
  cases same
  cases locked

theorem clear_tame (world : World σ) (id : UInt32) : Tame world (toDoClear world id).2 := by
  rw [toDoClear]
  rcases known : world.creatures id with _ | creature
  · exact tame_refl world
  apply tame_trans (emit_tame world _)
  exact set_tame (cleared_milder _ creature)

theorem snapback_creatures (world : World σ) (id : UInt32) :
    (sendSnapback world id).creatures = world.creatures := by
  rw [sendSnapback]
  rcases world.creatures id with _ | creature
  · rfl
  simp only
  split_ifs
  · rfl
  · rfl

theorem clear_unlocked (world : World σ) (id : UInt32) :
    isLocked (toDoClear world id).2 id = false := by
  rw [toDoClear]
  rcases known : world.creatures id with _ | creature
  · rw [isLocked, known]
  simp only [isLocked, World.set, update_self, cleared]

theorem append_tame (entry : ToDoEntry) (unlocked : isLocked world id = false) :
    Tame world (append world id entry) := by
  apply set_tame
  intro creature same _ locked
  rw [isLocked] at unlocked
  rcases known : world.creatures id with _ | earlier
  · rw [known] at same
    cases same
  rw [known] at same unlocked
  cases same
  simp only at unlocked locked
  rw [unlocked] at locked
  cases locked

theorem add_tame (world : World σ) (id : UInt32) (entry : ToDoEntry) :
    Tame world (toDoAdd world id entry) := by
  rw [toDoAdd]
  by_cases locked : isLocked world id = true
  · have unlocked := clear_unlocked world id
    simp only
    split_ifs
    · have told : isLocked (sendSnapback (toDoClear world id).2 id) id = false := by
        rw [isLocked, snapback_creatures]
        exact unlocked
      exact tame_trans (tame_trans (clear_tame world id) (snapback_tame _ id))
        (append_tame entry told)
    · exact tame_trans (clear_tame world id) (append_tame entry unlocked)
  rw [if_neg locked]
  exact append_tame entry (Bool.not_eq_true _ ▸ locked)

theorem map_milder {old : Option Creature} {change : Creature → Creature}
    (dead : ∀ creature, (change creature).isDead = false → creature.isDead = false)
    (locked : ∀ creature, (change creature).lockToDo = creature.lockToDo)
    (wakeup : ∀ creature, (change creature).nextWakeup = creature.nextWakeup)
    (list : ∀ creature, (change creature).toDoList = creature.toDoList)
    (place : ∀ creature, (change creature).actToDo = creature.actToDo) :
    Milder old (old.map change) := by
  intro creature same alive isLocked
  rcases old with _ | earlier
  · cases same
  cases same
  refine ⟨earlier, rfl, dead earlier alive, ?_, wakeup earlier, list earlier, place earlier⟩
  rw [← locked]
  exact isLocked

theorem stop_tame (world : World σ) (id : UInt32) : Tame world (toDoStop world id) := by
  rw [toDoStop]
  split_ifs
  · apply set_tame
    apply map_milder
    · intro _ alive
      exact alive
    all_goals
      intro _
      rfl
  · exact snapback_tame world id

theorem remaining_later {now time : UInt32} (some_time : remaining now time ≠ 0) :
    now.toNat < (now + remaining now time).toNat := by
  rw [remaining] at some_time ⊢
  split_ifs at some_time ⊢ with early
  · have sum : now + (time - now) = time := by grind
    rw [sum]
    exact UInt32.lt_iff_toNat_lt.mp early
  · exact absurd rfl some_time

theorem delay_later {now : UInt32} (some_delay : calculateDelay now creature ≠ 0) :
    now.toNat < (now + calculateDelay now creature).toNat := by
  rw [calculateDelay] at some_delay ⊢
  rcases known : creature.toDoList[creature.actToDo]? with _ | entry
  · rw [known] at some_delay
    exact absurd rfl some_delay
  rw [known] at some_delay
  cases entry with
  | wait time => exact remaining_later some_delay
  | go x y z => exact remaining_later some_delay
  | use obj1 obj2 dummy =>
    simp only at some_delay ⊢
    split_ifs at some_delay ⊢
    · exact remaining_later some_delay
    · exact absurd rfl some_delay
  | attack => exact remaining_later some_delay
  | _ => exact absurd rfl some_delay

theorem least_later {now delay : UInt32} (bound : now.toNat + 1 < 2 ^ 32)
    (fine : delay ≠ 0 → now.toNat < (now + delay).toNat) :
    now.toNat < (now + (if delay < 1 then 1 else delay)).toNat := by
  split_ifs with none_left
  · rw [UInt32.toNat_add]
    have one : (1 : UInt32).toNat = 1 := rfl
    rw [one, Nat.mod_eq_of_lt bound]
    exact Nat.lt_succ_self _
  apply fine
  intro zero
  rw [zero] at none_left
  exact none_left (by decide)

theorem schedule_tame {time : UInt32} {new : Creature} (wakes : new.nextWakeup = time)
    (future : world.serverMilliseconds.toNat < time.toNat) :
    Tame world ((world.schedule time id).set id (some new)) := by
  have spec := fun ordered : Ordered world.toDoQueue => insert_spec ordered time.toNat id
  constructor
  · rfl
  · intro ordered
    exact (spec ordered).1
  · intro ordered
    refine ⟨{⟨time.toNat, id⟩}, ?_, ?_⟩
    · rw [add_comm, Multiset.singleton_add]
      exact (spec ordered).2
    · intro item member
      rw [Multiset.mem_singleton.mp member]
      exact future
  · intro spared ordered covered other creature known alive locked
    have items : ((world.schedule time id).set id (some new)).toDoQueue.items =
        ⟨time.toNat, id⟩ ::ₘ world.toDoQueue.items := (spec ordered).2
    rw [items]
    rw [World.set, World.schedule] at known
    by_cases same : other = id
    · rw [same] at known ⊢
      have isNew := (update_self id (some new) world.creatures).symm.trans known
      cases isNew
      rw [wakes]
      exact Or.inr (Multiset.mem_cons_self _ _)
    have was := (update_of_ne same (some new) world.creatures).symm.trans known
    rcases covered other creature was alive locked with spares | queued
    · exact Or.inl spares
    · exact Or.inr (Multiset.mem_cons_of_mem queued)
  · intro other list place doing creature known alive locked goesOn
    rw [World.set, World.schedule] at known
    by_cases same : other = id
    · rw [same] at known
      have isNew := (update_self id (some new) world.creatures).symm.trans known
      cases isNew
      have early : ¬ world.serverMilliseconds < new.nextWakeup := goesOn
      rw [wakes, UInt32.lt_iff_toNat_lt] at early
      exact absurd future early
    have was := (update_of_ne same (some new) world.creatures).symm.trans known
    exact doing creature was alive locked goesOn

theorem start_tame (bound : world.serverMilliseconds.toNat + 1 < 2 ^ 32) (id : UInt32) :
    Tame world (toDoStart world id) := by
  rw [toDoStart]
  rcases known : world.creatures id with _ | creature
  · exact tame_refl world
  simp only
  by_cases empty : creature.toDoList = []
  · rw [if_pos empty]
    exact tame_refl world
  rw [if_neg empty]
  apply schedule_tame
  · rfl
  · apply least_later bound
    intro some_delay
    exact delay_later some_delay

theorem wait_tame (world : World σ) (id delay : UInt32) : Tame world (toDoWait world id delay) :=
  add_tame world id _

section

variable (bound : world.serverMilliseconds.toNat + 1 < 2 ^ 32)
include bound

theorem wait_start_tame (id delay : UInt32) :
    Tame world (toDoStart (toDoWait world id delay) id) := by
  have waits := wait_tame world id delay
  apply tame_trans waits
  apply start_tame
  rw [waits.time]
  exact bound

theorem yield_tame (id : UInt32) : Tame world (toDoYield world id) := by
  rw [toDoYield]
  split_ifs
  · exact tame_refl world
  · exact wait_start_tame bound id 0

theorem apply_tame (event : Event) : Tame world (apply world event) := by
  cases event with
  | toDoAdd id entry => exact add_tame world id entry
  | toDoStart id => exact start_tame bound id
  | toDoYield id => exact yield_tame bound id
  | toDoClear id => exact clear_tame world id
  | toDoStop id => exact stop_tame world id
  | died id =>
    apply set_tame
    apply map_milder
    · nofun
    all_goals
      intro _
      rfl
  | created id type =>
    apply set_tame
    intro creature same _ locked
    cases same
    cases locked
  | removed id =>
    apply set_tame
    nofun
  | delayed id walk multiuse spell attack =>
    apply set_tame
    apply map_milder
    · intro _ alive
      exact alive
    all_goals
      intro _
      rfl

theorem events_tame (events : List Event) : Tame world (events.foldl apply world) := by
  induction events generalizing world with
  | nil => exact tame_refl world
  | cons event events ih =>
    have first := apply_tame bound event
    apply tame_trans first
    apply ih
    rw [first.time]
    exact bound

end

theorem rest_tame (world : World σ) (rest : σ) : Tame world { world with rest := rest } :=
  milder_tame rfl rfl fun _ => milder_refl _

theorem act_tame (game : Game σ) (bound : world.serverMilliseconds.toNat + 1 < 2 ^ 32)
    (id : UInt32) (creature : Creature) (entry : ToDoEntry) :
    Tame world (act game world id creature entry).1 := by
  have acts : ∀ events rest, Tame world { List.foldl apply world events with rest := rest } :=
    fun events rest => tame_trans (events_tame bound events) (rest_tame _ rest)
  cases entry with
  | wait time => exact tame_refl world
  | changeState newState =>
    rw [act]
    split_ifs
    · have still : (world.emit [.changeState id newState]).serverMilliseconds.toNat + 1 <
          2 ^ 32 := bound
      have yields := yield_tame still id
      exact tame_trans (emit_tame world _) yields
    · exact tame_refl world
  | _ => exact acts _ _

theorem idle_tame (game : Game σ) (bound : world.serverMilliseconds.toNat + 1 < 2 ^ 32)
    (id : UInt32) : Tame world (idle game world id) :=
  tame_trans (events_tame bound _) (rest_tame _ _)

/-- The handler of exceptions goes on from a list that has been cleared. -/
theorem recover_tame (bound : world.serverMilliseconds.toNat + 1 < 2 ^ 32) (id : UInt32)
    (thrown : Thrown) : Tame (toDoClear world id).2 (recover world id thrown) := by
  have time := (clear_tame world id).time
  have cleared_bound : (toDoClear world id).2.serverMilliseconds.toNat + 1 < 2 ^ 32 := by
    rw [time]
    exact bound
  rw [recover]
  generalize restarted : (if thrown = .result .exhausted then
    toDoStart (toDoWait (toDoClear world id).2 id 1000) id
    else toDoYield (toDoClear world id).2 id) = again
  have restarts : Tame (toDoClear world id).2 again := by
    rw [← restarted]
    split_ifs
    · exact wait_start_tame cleared_bound id 1000
    · exact yield_tame cleared_bound id
  rcases again.creatures id with _ | creature
  · exact restarts
  simp only
  split_ifs
  · exact tame_trans restarts (tame_trans (emit_tame _ _) (emit_tame _ _))
  · exact tame_trans restarts (emit_tame _ _)
  · exact restarts

/-- What the queue and the creatures are like once a creature is done for now. -/
structure Settles (world after : World σ) : Prop where
  time : after.serverMilliseconds = world.serverMilliseconds
  ordered : Ordered after.toDoQueue
  inserts : Inserts world after
  awake : Awake after

section

variable (ordered : Ordered world.toDoQueue)
include ordered

theorem tame_settles (awake : Awake world) (tame : Tame world after) : Settles world after :=
  ⟨tame.time, tame.ordered ordered, tame.inserts ordered,
    awake_covered (tame.covered _ ordered (covered_awake awake _))⟩

theorem settles_after (tame : Tame world middle) (settles : Settles middle after) :
    Settles world after :=
  ⟨settles.time.trans tame.time, settles.ordered,
    inserts_trans tame.time (tame.inserts ordered) settles.inserts, settles.awake⟩

theorem clear_awake (covered : Covered (fun other => other = id) world) :
    Awake (toDoClear world id).2 := by
  have still := (clear_tame world id).covered _ ordered covered
  intro other creature known alive locked
  rcases still other creature known alive locked with ⟨same, _⟩ | queued
  · have unlocked := clear_unlocked world id
    rw [same] at known
    rw [isLocked, known] at unlocked
    simp only at unlocked
    rw [unlocked] at locked
    cases locked
  · exact queued

theorem clear_settles (covered : Covered (fun other => other = id) world)
    (tame : Tame (toDoClear world id).2 after) : Settles world after := by
  have clears := clear_tame world id
  have settles := tame_settles (clears.ordered ordered) (clear_awake ordered covered) tame
  exact settles_after ordered clears settles

end

theorem advance_covered (known : world.creatures id = some creature)
    (covered : Covered (fun other => other = id) world) :
    Covered (fun other => other = id)
      (world.set id (some { creature with actToDo := creature.actToDo + 1 })) := by
  intro other now isKnown alive locked
  by_cases same : other = id
  · rw [same] at isKnown ⊢
    have isNow := (update_self id _ world.creatures).symm.trans isKnown
    cases isNow
    exact covered id creature known alive locked
  have was := (update_of_ne same _ world.creatures).symm.trans isKnown
  exact covered other now was alive locked

theorem advance_doing (id : UInt32) (creature : Creature) (world : World σ) :
    Doing id creature.toDoList (creature.actToDo + 1)
      (world.set id (some { creature with actToDo := creature.actToDo + 1 })) := by
  intro now isKnown _ _ _
  have isNow := (update_self id _ world.creatures).symm.trans isKnown
  cases isNow
  exact ⟨rfl, rfl⟩

/-- The creature gets on with its list and comes to the next entry. -/
structure Continues (id : UInt32) (list : List ToDoEntry) (place : Nat) (world after : World σ) :
    Prop where
  further : place < list.length
  time : after.serverMilliseconds = world.serverMilliseconds
  ordered : Ordered after.toDoQueue
  inserts : Inserts world after
  covered : Covered (fun other => other = id) after
  doing : Doing id list (place + 1) after

theorem continues_settles {list : List ToDoEntry} {place : Nat}
    (continues : Continues id list place world middle) (settles : Settles middle after) :
    Settles world after :=
  ⟨settles.time.trans continues.time, settles.ordered,
    inserts_trans continues.time continues.inserts settles.inserts, settles.awake⟩

theorem act_continues (game : Game σ) {entry : ToDoEntry} (ordered : Ordered world.toDoQueue)
    (bound : world.serverMilliseconds.toNat + 1 < 2 ^ 32) (known : world.creatures id = some creature)
    (covered : Covered (fun other => other = id) world)
    (next : creature.toDoList[creature.actToDo]? = some entry) :
    Continues id creature.toDoList creature.actToDo world
      (act game (world.set id (some { creature with actToDo := creature.actToDo + 1 })) id
        { creature with actToDo := creature.actToDo + 1 } entry).1 := by
  have advances := advance_covered known covered
  have does := advance_doing id creature world
  generalize advanced : world.set id (some { creature with actToDo := creature.actToDo + 1 }) =
    begun at advances does ⊢
  have sameQueue : begun.toDoQueue = world.toDoQueue := by rw [← advanced, World.set]
  have sameTime : begun.serverMilliseconds = world.serverMilliseconds := by
    rw [← advanced, World.set]
  have still : Ordered begun.toDoQueue := by
    rw [sameQueue]
    exact ordered
  have still_bound : begun.serverMilliseconds.toNat + 1 < 2 ^ 32 := by
    rw [sameTime]
    exact bound
  have acts := act_tame game still_bound id { creature with actToDo := creature.actToDo + 1 } entry
  constructor
  · exact (List.getElem?_eq_some_iff.mp next).1
  · exact acts.time.trans sameTime
  · exact acts.ordered still
  · rcases acts.inserts still with ⟨news, items, fresh⟩
    rw [sameQueue] at items
    rw [sameTime] at fresh
    exact ⟨news, items, fresh⟩
  · exact acts.covered _ still advances
  · exact acts.doing _ _ _ does

theorem schedule_settles {time : UInt32} {new : Creature} (ordered : Ordered world.toDoQueue)
    (covered : Covered (fun other => other = id) world) (wakes : new.nextWakeup = time)
    (future : world.serverMilliseconds.toNat < time.toNat) :
    Settles world ((world.schedule time id).set id (some new)) := by
  have schedules : Tame world ((world.schedule time id).set id (some new)) :=
    schedule_tame wakes future
  have still := schedules.covered _ ordered covered
  refine ⟨schedules.time, schedules.ordered ordered, schedules.inserts ordered, ?_⟩
  intro other creature known alive locked
  rcases still other creature known alive locked with ⟨same, isDue⟩ | queued
  · rw [same] at known
    rw [World.set, World.schedule] at known
    have isNew := (update_self id (some new) world.creatures).symm.trans known
    cases isNew
    have early : ¬ world.serverMilliseconds < new.nextWakeup := isDue
    rw [wakes, UInt32.lt_iff_toNat_lt] at early
    exact absurd future early
  · exact queued

/-- The loop of `Execute` once: either the creature is done for now, or it gets on. -/
theorem execute_once (game : Game σ) {list : List ToDoEntry} {place : Nat}
    (ordered : Ordered world.toDoQueue) (bound : world.serverMilliseconds.toNat + 1 < 2 ^ 32)
    (covered : Covered (fun other => other = id) world) (doing : Doing id list place world) :
    (∃ after, (∀ fuel, execute game (fuel + 1) world id = some after) ∧ Settles world after) ∨
      ∃ middle, (∀ fuel, execute game (fuel + 1) world id = execute game fuel middle id) ∧
        Continues id list place world middle := by
  rcases known : world.creatures id with _ | creature
  · have awake : Awake world := by
      intro other creature isKnown alive locked
      rcases covered other creature isKnown alive locked with ⟨same, _⟩ | queued
      · rw [same, known] at isKnown
        cases isKnown
      · exact queued
    refine Or.inl ⟨world, ?_, tame_settles ordered awake (tame_refl world)⟩
    intro fuel
    rw [execute, known]
  by_cases sleeps : (!creature.lockToDo || creature.isDead ||
      decide (world.serverMilliseconds < creature.nextWakeup)) = true
  · have awake : Awake world := by
      intro other now isKnown alive locked
      rcases covered other now isKnown alive locked with ⟨same, isDue⟩ | queued
      · rw [same, known] at isKnown
        cases isKnown
        rw [alive, locked, decide_eq_false isDue] at sleeps
        cases sleeps
      · exact queued
    refine Or.inl ⟨world, ?_, tame_settles ordered awake (tame_refl world)⟩
    intro fuel
    simp only [execute, known, sleeps, if_true]
  have sleeping := sleeps
  simp only [Bool.or_eq_true, Bool.not_eq_true', decide_eq_true_eq, not_or,
    Bool.not_eq_false, Bool.not_eq_true] at sleeping
  have here := doing creature known sleeping.1.2 sleeping.1.1 sleeping.2
  rcases next : creature.toDoList[creature.actToDo]? with _ | entry
  · refine Or.inl ⟨idle game (toDoClear world id).2 id, ?_, ?_⟩
    · intro fuel
      simp only [execute, known, sleeps, next]
      rfl
    apply clear_settles ordered covered
    apply idle_tame
    rw [(clear_tame world id).time]
    exact bound
  by_cases waits : 0 < calculateDelay world.serverMilliseconds creature
  · by_cases stops : creature.stop = true
    · refine Or.inl ⟨stopNow world id, ?_, ?_⟩
      · intro fuel
        simp only [execute, known, sleeps, next, waits, stops, if_true]
        rfl
      · exact clear_settles ordered covered (snapback_tame _ id)
    obtain ⟨time, timeIs⟩ : ∃ time, world.serverMilliseconds +
        calculateDelay world.serverMilliseconds creature = time := ⟨_, rfl⟩
    refine Or.inl ⟨(world.schedule time id).set id
      (some { creature with nextWakeup := time }), ?_, ?_⟩
    · intro fuel
      simp only [execute, known, sleeps, next, waits, stops, if_true, timeIs]
      rfl
    apply schedule_settles ordered covered
    · rfl
    rw [← timeIs]
    apply delay_later
    intro none_left
    rw [none_left] at waits
    exact absurd waits (by decide)
  have continues := act_continues game ordered bound known covered next
  generalize does : act game (world.set id (some { creature with
    actToDo := creature.actToDo + 1 })) id { creature with
    actToDo := creature.actToDo + 1 } entry = done at continues
  rw [here.1, here.2] at continues
  cases thrown : done.2 with
  | some exception =>
    refine Or.inl ⟨recover done.1 id exception, ?_, ?_⟩
    · intro fuel
      simp only [execute, known, sleeps, next, waits, does, thrown]
      rfl
    apply continues_settles continues
    apply clear_settles continues.ordered continues.covered
    apply recover_tame
    rw [continues.time]
    exact bound
  | none =>
    by_cases stops : stopped done.1 id = true
    · refine Or.inl ⟨stopNow done.1 id, ?_, ?_⟩
      · intro fuel
        simp only [execute, known, sleeps, next, waits, does, thrown, stops]
        rfl
      · apply continues_settles continues
        exact clear_settles continues.ordered continues.covered (snapback_tame _ id)
    refine Or.inr ⟨done.1, ?_, continues⟩
    intro fuel
    simp only [execute, known, sleeps, next, waits, does, thrown, stops]
    rfl

end TibiaGame.ToDoWakeups
