import TibiaGame.ToDoWakeups

/-!
# Beats

`move_creatures` takes entries out of the queue until the first one is for later. Creatures that
go on with their lists meanwhile insert entries for later times only, so there are fewer entries
for the present after every pass.
-/

namespace TibiaGame.ToDoBeats

open PriorityQueue ToDoScheduler ToDoWakeups

variable {σ : Type} {world after middle : World σ} {id : UInt32} {game : Game σ}

def Returns (run : Nat → Option (World σ)) (after : World σ) : Prop :=
  ∃ least, ∀ fuel, least ≤ fuel → run fuel = some after

theorem returns_once {run : Nat → Option (World σ)}
    (returns : ∀ fuel, run (fuel + 1) = some after) : Returns run after := by
  refine ⟨1, ?_⟩
  intro fuel enough
  have more := returns (fuel - 1)
  rw [Nat.sub_add_cancel enough] at more
  exact more

theorem execute_settles (game : Game σ) {list : List ToDoEntry} {place : Nat} (steps : Nat)
    (short : list.length ≤ place + steps) (ordered : Ordered world.toDoQueue)
    (bound : world.serverMilliseconds.toNat + 1 < 2 ^ 32)
    (covered : Covered (fun other => other = id) world) (doing : Doing id list place world) :
    ∃ after, Returns (fun fuel => execute game fuel world id) after ∧ Settles world after := by
  induction steps generalizing world place with
  | zero =>
    rcases execute_once game ordered bound covered doing with ⟨after, returns, settles⟩ |
      ⟨middle, _, continues⟩
    · exact ⟨after, returns_once returns, settles⟩
    have further := continues.further
    omega
  | succ steps ih =>
    rcases execute_once game ordered bound covered doing with ⟨after, returns, settles⟩ |
      ⟨middle, goesOn, continues⟩
    · exact ⟨after, returns_once returns, settles⟩
    have still_bound : middle.serverMilliseconds.toNat + 1 < 2 ^ 32 := by
      rw [continues.time]
      exact bound
    rcases ih (by omega) continues.ordered still_bound continues.covered continues.doing with
      ⟨after, ⟨least, returns⟩, settles⟩
    refine ⟨after, ⟨least + 1, ?_⟩, continues_settles continues settles⟩
    intro fuel enough
    have once := goesOn (fuel - 1)
    rw [Nat.sub_add_cancel (by omega)] at once
    exact once.trans (returns (fuel - 1) (by omega))

/-- `Execute` returns, with the creature in the queue again if it has still something to do. -/
theorem execute_returns (game : Game σ) (ordered : Ordered world.toDoQueue)
    (bound : world.serverMilliseconds.toNat + 1 < 2 ^ 32)
    (covered : Covered (fun other => other = id) world) :
    ∃ after, Returns (fun fuel => execute game fuel world id) after ∧ Settles world after := by
  rcases known : world.creatures id with _ | creature
  · have doing : Doing id [] 0 world := by
      intro creature isKnown
      rw [known] at isKnown
      cases isKnown
    exact execute_settles game 0 le_rfl ordered bound covered doing
  have doing : Doing id creature.toDoList creature.actToDo world := by
    intro same isKnown _ _ _
    rw [known] at isKnown
    cases isKnown
    exact ⟨rfl, rfl⟩
  exact execute_settles game creature.toDoList.length (Nat.le_add_left _ _) ordered bound
    covered doing

theorem due_first (isDue : due world = true) :
    1 ≤ world.toDoQueue.entries ∧
      (world.toDoQueue.entry 1).key ≤ world.serverMilliseconds.toNat := by
  rw [due, Bool.and_eq_true, decide_eq_true_eq, decide_eq_true_eq] at isDue
  exact isDue

theorem popped_covered (ordered : Ordered world.toDoQueue) (awake : Awake world)
    (isDue : due world = true) :
    Covered (fun other => other = (world.toDoQueue.entry 1).data) (popped world) := by
  have first := due_first isDue
  have items := (delete_min_spec ordered first.1).2
  intro other creature known alive locked
  have queued := awake other creature known alive locked
  rw [items] at queued
  rcases Multiset.mem_cons.mp queued with isFirst | remains
  · refine Or.inl ⟨congrArg PriorityQueue.Entry.data isFirst, ?_⟩
    have key : creature.nextWakeup.toNat = (world.toDoQueue.entry 1).key :=
      congrArg PriorityQueue.Entry.key isFirst
    intro early
    have later := UInt32.lt_iff_toNat_lt.mp early
    rw [key] at later
    exact absurd first.2 (not_le.mpr later)
  · exact Or.inr remains

theorem pass_returns (game : Game σ) (ordered : Ordered world.toDoQueue)
    (bound : world.serverMilliseconds.toNat + 1 < 2 ^ 32) (awake : Awake world)
    (isDue : due world = true) :
    ∃ after, Returns (fun fuel => pass game fuel world) after ∧ Settles (popped world) after := by
  have covered := popped_covered ordered awake isDue
  have still : Ordered (popped world).toDoQueue :=
    (delete_min_spec ordered (due_first isDue).1).1
  have still_bound : (popped world).serverMilliseconds.toNat + 1 < 2 ^ 32 := bound
  rcases known : world.creatures (world.toDoQueue.entry 1).data with _ | creature
  · have stillAwake : Awake (popped world) := by
      intro other creature isKnown alive locked
      rcases covered other creature isKnown alive locked with ⟨same, _⟩ | queued
      · have gone : world.creatures other = some creature := isKnown
        rw [same, known] at gone
        cases gone
      · exact queued
    refine ⟨popped world, ⟨0, ?_⟩, tame_settles still stillAwake (tame_refl _)⟩
    intro fuel _
    simp only [ToDoScheduler.pass, known]
  rcases execute_returns game still still_bound covered with ⟨after, ⟨least, returns⟩, settles⟩
  refine ⟨after, ⟨least, ?_⟩, settles⟩
  intro fuel enough
  simp only [ToDoScheduler.pass, known]
  exact returns fuel enough

noncomputable def pending (world : World σ) : Nat :=
  world.toDoQueue.items.countP fun item => item.key ≤ world.serverMilliseconds.toNat

theorem pending_decreases (ordered : Ordered world.toDoQueue) (isDue : due world = true)
    (settles : Settles (popped world) after) : pending world = pending after + 1 := by
  have first := due_first isDue
  rcases settles.inserts with ⟨news, items, fresh⟩
  have none_due : news.countP (fun item => item.key ≤ world.serverMilliseconds.toNat) = 0 := by
    rw [Multiset.countP_eq_zero]
    intro item member
    exact not_le.mpr (fresh item member)
  have time : after.serverMilliseconds = world.serverMilliseconds := settles.time
  rw [pending, pending, time, items, Multiset.countP_add, none_due, add_zero,
    (delete_min_spec ordered first.1).2]
  apply Multiset.countP_cons_of_pos
  exact first.2

theorem not_due_later (ordered : Ordered world.toDoQueue) (notDue : due world = false)
    (item : Item) (member : item ∈ world.toDoQueue.items) :
    world.serverMilliseconds.toNat < item.key := by
  have least := first_least ordered member
  rw [due, Bool.and_eq_false_iff, decide_eq_false_iff_not, decide_eq_false_iff_not] at notDue
  rcases notDue with empty | isLater
  · have none_left : Finset.Icc 1 world.toDoQueue.entries = ∅ :=
      Finset.Icc_eq_empty (by omega)
    rw [Queue.items, none_left] at member
    cases member
  · exact (not_le.mp isLater).trans_le least

/-- The passes of one beat: each one returns, inserts only what is for later, and leaves no
creature with something to do out of the queue. -/
inductive Beat (game : Game σ) : World σ → World σ → Prop where
  | done (world : World σ) (notDue : due world = false) : Beat game world world
  | pass (world middle after : World σ) (isDue : due world = true)
      (returns : Returns (fun fuel => ToDoScheduler.pass game fuel world) middle)
      (inserts : Inserts (popped world) middle) (awake : Awake middle)
      (further : Beat game middle after) : Beat game world after

structure BeatDone (game : Game σ) (world after : World σ) : Prop where
  returns : Returns (fun fuel => drain game fuel world) after
  beat : Beat game world after
  time : after.serverMilliseconds = world.serverMilliseconds
  ordered : Ordered after.toDoQueue
  awake : Awake after
  later : ∀ item ∈ after.toDoQueue.items, after.serverMilliseconds.toNat < item.key

theorem rest_done (ordered : Ordered world.toDoQueue) (awake : Awake world)
    (notDue : due world = false) : BeatDone game world world := by
  refine ⟨returns_once ?_, Beat.done world notDue, rfl, ordered, awake,
    not_due_later ordered notDue⟩
  intro fuel
  simp only [drain, notDue]
  rfl

theorem drain_done (game : Game σ) (ordered : Ordered world.toDoQueue)
    (bound : world.serverMilliseconds.toNat + 1 < 2 ^ 32) (awake : Awake world) :
    ∃ after, BeatDone game world after := by
  generalize left : pending world = count
  induction count generalizing world with
  | zero =>
    cases isDue : due world with
    | true =>
      rcases pass_returns game ordered bound awake isDue with ⟨middle, _, settles⟩
      have fewer := pending_decreases ordered isDue settles
      omega
    | false => exact ⟨world, rest_done ordered awake isDue⟩
  | succ count ih =>
    cases isDue : due world with
    | true =>
      rcases pass_returns game ordered bound awake isDue with
        ⟨middle, ⟨least, returns⟩, settles⟩
      have fewer := pending_decreases ordered isDue settles
      have still_bound : middle.serverMilliseconds.toNat + 1 < 2 ^ 32 := by
        rw [settles.time]
        exact bound
      rcases ih settles.ordered still_bound settles.awake (by omega) with ⟨after, done⟩
      rcases done.returns with ⟨more, drains⟩
      refine ⟨after, ⟨least + more + 1, ?_⟩,
        Beat.pass world middle after isDue ⟨least, returns⟩ settles.inserts settles.awake
          done.beat, done.time.trans settles.time, done.ordered, done.awake, done.later⟩
      intro fuel enough
      rcases fuel with _ | fuel
      · cases enough
      simp only [drain, isDue, if_true]
      have first : ToDoScheduler.pass game fuel world = some middle :=
        returns fuel (by omega)
      rw [first, Option.bind_some]
      exact drains fuel (by omega)
    | false => exact ⟨world, rest_done ordered awake isDue⟩

def elapsed : List Op → Nat
  | [] => 0
  | .moveCreatures delay :: ops => delay.toNat + elapsed ops
  | _ :: ops => elapsed ops

/-- What is inserted: during a beat pass by pass, else by the operation itself. -/
def InsertsLater (game : Game σ) (world after : World σ) : Op → Prop
  | .moveCreatures delay => Beat game (later world delay) after ∧
      ∀ item ∈ after.toDoQueue.items, after.serverMilliseconds.toNat < item.key
  | _ => Inserts world after

def Lasts (game : Game σ) (world : World σ) : List Op → Prop
  | [] => True
  | op :: ops => ∃ after, Returns (fun fuel => perform game fuel world op) after ∧
      InsertsLater game world after op ∧ Awake after ∧ Lasts game after ops

theorem event_settles (ordered : Ordered world.toDoQueue) (awake : Awake world)
    (bound : world.serverMilliseconds.toNat + 1 < 2 ^ 32) (event : Event) :
    Settles world (apply world event) := tame_settles ordered awake (apply_tame bound event)

theorem later_time {delay : UInt32}
    (bound : world.serverMilliseconds.toNat + delay.toNat < 2 ^ 32) :
    (later world delay).serverMilliseconds.toNat =
      world.serverMilliseconds.toNat + delay.toNat := by
  exact Nat.mod_eq_of_lt bound

theorem run_lasts (game : Game σ) (ops : List Op) (ordered : Ordered world.toDoQueue)
    (awake : Awake world)
    (bound : world.serverMilliseconds.toNat + elapsed ops + 1 < 2 ^ 32) : Lasts game world ops := by
  induction ops generalizing world with
  | nil => trivial
  | cons op ops ih =>
    cases op with
    | event event =>
      rw [elapsed] at bound
      · have settles := event_settles ordered awake (by omega) event
        refine ⟨apply world event, ⟨0, fun _ _ => rfl⟩, settles.inserts, settles.awake, ?_⟩
        apply ih settles.ordered settles.awake
        rw [settles.time]
        exact bound
      · nofun
    | execute id =>
      rw [elapsed] at bound
      · rcases execute_returns game ordered (by omega) (covered_awake awake _) with
          ⟨after, returns, settles⟩
        refine ⟨after, returns, settles.inserts, settles.awake, ?_⟩
        apply ih settles.ordered settles.awake
        rw [settles.time]
        exact bound
      · nofun
    | moveCreatures delay =>
      rw [elapsed] at bound
      have time : (later world delay).serverMilliseconds.toNat =
          world.serverMilliseconds.toNat + delay.toNat := later_time (by omega)
      have still : Ordered (later world delay).toDoQueue := ordered
      have stillAwake : Awake (later world delay) := awake
      rcases drain_done game still (by omega) stillAwake with ⟨after, done⟩
      refine ⟨after, done.returns, ⟨done.beat, done.later⟩, done.awake, ?_⟩
      apply ih done.ordered done.awake
      rw [done.time, time]
      omega

/-- Wherever the creatures' lists are changed, and whatever actions and idle handlers do to
them: every beat comes to its end, entries that are inserted meanwhile are for later times, and
living creatures with something to do are in the queue under the time they wait for. The time
wraps neither itself nor with the tick that a list is put off at least. -/
theorem no_wake_up_is_lost (game : Game σ) (rest : σ) (ops : List Op)
    (bound : elapsed ops + 1 < 2 ^ 32) : Lasts game (start rest) ops := by
  apply run_lasts game ops
  · constructor
    · exact le_rfl
    · intro p lower upper
      have none_left : p ≤ 0 := upper
      omega
  · nofun
  · rw [start]
    have zero : (0 : UInt32).toNat = 0 := rfl
    rw [zero, Nat.zero_add]
    exact bound

/-- Attacks are exhausted at once, and an idle creature attacks again. -/
def restless : Game Unit where
  action := fun _ _ _ => ([], some (.result .exhausted), ())
  idleStimulus := fun _ id => ([.toDoAdd id .attack, .toDoStart id], ())

theorem restless_beats :
    elapsed [.event (.created 1 .monster), .event (.toDoAdd 1 .attack), .event (.toDoStart 1),
        .event (.toDoClear 1), .event (.toDoYield 1), .moveCreatures 200, .moveCreatures 1000,
        .execute 1] + 1 < 2 ^ 32 ∧
      Lasts restless (start ()) [.event (.created 1 .monster), .event (.toDoAdd 1 .attack),
        .event (.toDoStart 1), .event (.toDoClear 1), .event (.toDoYield 1), .moveCreatures 200,
        .moveCreatures 1000, .execute 1] :=
  ⟨by decide, no_wake_up_is_lost restless () _ (by decide)⟩

end TibiaGame.ToDoBeats
