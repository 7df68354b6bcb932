import Mathlib.Tactic

/-!
# The pool of query connections

`QueryConnectionPool` between any threads. A thread takes a ticket from the semaphore, and then
looks for a free connection inside the mutex; a connection is given back outside of it. Each
operation of a semaphore is a step, and so is each access to a flag.
-/

namespace TibiaGame.QueryPool

open Function

/-- Where a thread is in `getConnection`, up to `found`, or in `releaseConnection`. -/
inductive Place where
  | outside
  | ticket
  | scanning (index : Nat)
  | taking (index : Nat)
  | found (connectionIndex : Option Nat)
  | clearing (index : Nat)
  | raising
  deriving DecidableEq

/-- `results` is what its calls of `getConnection` have returned. -/
structure Worker where
  place : Place
  held : List Nat
  results : List (Option Nat)

structure World (Thread : Type) where
  queryManagerConnectionFree : Nat → Bool
  freeQueryManagerConnections : Nat
  queryManagerConnectionMutex : Nat
  threads : Thread → Worker

inductive Call where
  | getConnection
  | releaseConnection (connection : Nat)
  | next

variable {Thread : Type} [DecidableEq Thread]

def numberOfConnections (connections : Int) : Nat := (max connections 1).toNat

/-- The pool as `init` leaves it. -/
def start (Thread : Type) (size : Nat) : World Thread :=
  ⟨fun _ => true, size, 1, fun _ => ⟨.outside, [], []⟩⟩

def World.goOn (world : World Thread) (thread : Thread) (now : Worker) : World Thread :=
  { world with threads := Function.update world.threads thread now }

def World.setFree (world : World Thread) (index : Nat) (free : Bool) : World Thread :=
  { world with
    queryManagerConnectionFree := Function.update world.queryManagerConnectionFree index free }

/-- The next step of a thread in the middle of a function; none while it waits. -/
def next (size : Nat) (world : World Thread) (thread : Thread) : Option (World Thread) :=
  let now := world.threads thread
  match now.place with
  | .outside => none
  | .ticket =>
      if 0 < world.queryManagerConnectionMutex then
        some ({ world with
          queryManagerConnectionMutex := world.queryManagerConnectionMutex - 1 }.goOn thread
            { now with place := .scanning 0 })
      else none
  | .scanning index =>
      if index < size then
        if world.queryManagerConnectionFree index then
          some (world.goOn thread { now with place := .taking index })
        else some (world.goOn thread { now with place := .scanning (index + 1) })
      else some (world.goOn thread { now with place := .found none })
  | .taking index =>
      some ((world.setFree index false).goOn thread { now with place := .found (some index) })
  | .found connectionIndex =>
      some ({ world with
        queryManagerConnectionMutex := world.queryManagerConnectionMutex + 1 }.goOn thread
          { now with
            place := .outside
            held := now.held ++ connectionIndex.toList
            results := now.results ++ [connectionIndex] })
  | .clearing index => some ((world.setFree index true).goOn thread { now with place := .raising })
  | .raising =>
      some ({ world with
        freeQueryManagerConnections := world.freeQueryManagerConnections + 1 }.goOn thread
          { now with place := .outside })

def step (size : Nat) (world : World Thread) (thread : Thread) :
    Call → Option (World Thread)
  | .getConnection =>
      if (world.threads thread).place = .outside ∧ 0 < world.freeQueryManagerConnections then
        some ({ world with
          freeQueryManagerConnections := world.freeQueryManagerConnections - 1 }.goOn thread
            { world.threads thread with place := .ticket })
      else none
  | .releaseConnection connection =>
      if (world.threads thread).place = .outside ∧ connection ∈ (world.threads thread).held then
        match (List.range size).find? fun index => index == connection with
        | none => some world
        | some index =>
            some (world.goOn thread { world.threads thread with
              place := .clearing index
              held := (world.threads thread).held.erase connection })
      else none
  | .next => next size world thread

def run (size : Nat) (world : World Thread) : List (Thread × Call) → Option (World Thread)
  | [] => some world
  | (thread, call) :: steps => (step size world thread call).bind fun after => run size after steps

section Counts

/-- Whether the thread is between the operations of the mutex. -/
def inside : Place → Nat
  | .scanning _ => 1
  | .taking _ => 1
  | .found _ => 1
  | _ => 0

/-- The units of the semaphore that the thread has, for a connection that is marked free. -/
def tickets : Place → Nat
  | .ticket => 1
  | .scanning _ => 1
  | .taking _ => 1
  | .found none => 1
  | .raising => 1
  | _ => 0

/-- Whether the thread has taken the connection just now, or is about to mark it free. -/
def marked (index : Nat) : Place → Nat
  | .found (some taken) => if taken = index then 1 else 0
  | .clearing cleared => if cleared = index then 1 else 0
  | _ => 0

def holds (index : Nat) (worker : Worker) : Nat := worker.held.count index + marked index worker.place

def isFree (world : World Thread) (index : Nat) : Nat :=
  if world.queryManagerConnectionFree index then 1 else 0

variable [Fintype Thread]

/-- Every connection is either free or held once, and there are as many tickets as free
connections. The thread that looks for one will still find it. -/
structure Guarded (size : Nat) (world : World Thread) : Prop where
  mutex : world.queryManagerConnectionMutex + ∑ thread, inside (world.threads thread).place = 1
  owned : ∀ index, index < size →
    (∑ thread, holds index (world.threads thread)) + isFree world index = 1
  valid : ∀ thread index, holds index (world.threads thread) ≠ 0 → index < size
  balance : world.freeQueryManagerConnections + ∑ thread, tickets (world.threads thread).place =
    ∑ index ∈ Finset.range size, isFree world index
  scans : ∀ thread index, (world.threads thread).place = .scanning index →
    ∃ later, index ≤ later ∧ later < size ∧ world.queryManagerConnectionFree later = true
  takes : ∀ thread index, (world.threads thread).place = .taking index →
    index < size ∧ world.queryManagerConnectionFree index = true
  finds : ∀ thread, (world.threads thread).place ≠ .found none
  results : ∀ thread, none ∉ (world.threads thread).results

variable {size : Nat} {world after : World Thread} {thread : Thread} {now : Worker}

theorem sum_change (count : Worker → Nat) (threads : Thread → Worker) (thread : Thread)
    (now : Worker) :
    (∑ other, count (update threads thread now other)) + count (threads thread) =
      (∑ other, count (threads other)) + count now := by
  rw [← Finset.add_sum_erase _ _ (Finset.mem_univ thread),
    ← Finset.add_sum_erase Finset.univ (fun other => count (threads other)) (Finset.mem_univ thread),
    update_self]
  have others : ∑ other ∈ Finset.univ.erase thread, count (update threads thread now other) =
      ∑ other ∈ Finset.univ.erase thread, count (threads other) := by
    apply Finset.sum_congr rfl
    intro other member
    rw [update_of_ne (Finset.ne_of_mem_erase member)]
  rw [others]
  omega

theorem alone (guarded : Guarded size world) {other : Thread}
    (here : inside (world.threads thread).place = 1) (different : other ≠ thread) :
    inside (world.threads other).place = 0 := by
  have bound : inside (world.threads thread).place + inside (world.threads other).place ≤
      ∑ each, inside (world.threads each).place := by
    have pair := Finset.sum_pair (f := fun each => inside (world.threads each).place)
      different.symm
    rw [← pair]
    exact Finset.sum_le_sum_of_subset (Finset.subset_univ _)
  have mutex := guarded.mutex
  omega

/-- A step of one thread, with what it does to the flags and the semaphores. -/
structure Moves (size : Nat) (world after : World Thread) (thread : Thread) (now : Worker) : Prop where
  threads : after.threads = Function.update world.threads thread now
  mutex : after.queryManagerConnectionMutex + inside now.place =
    world.queryManagerConnectionMutex + inside (world.threads thread).place
  owned : ∀ index, index < size → holds index now + isFree after index =
    holds index (world.threads thread) + isFree world index
  valid : ∀ index, holds index now ≠ 0 → index < size
  balance : after.freeQueryManagerConnections + tickets now.place +
      ∑ index ∈ Finset.range size, isFree world index =
    world.freeQueryManagerConnections + tickets (world.threads thread).place +
      ∑ index ∈ Finset.range size, isFree after index
  keeps : inside (world.threads thread).place = 1 ∨ ∀ index,
    world.queryManagerConnectionFree index = true → after.queryManagerConnectionFree index = true
  scans : ∀ index, now.place = .scanning index →
    ∃ later, index ≤ later ∧ later < size ∧ after.queryManagerConnectionFree later = true
  takes : ∀ index, now.place = .taking index →
    index < size ∧ after.queryManagerConnectionFree index = true
  finds : now.place ≠ .found none
  results : none ∉ now.results

theorem moves_guarded (guarded : Guarded size world) (moves : Moves size world after thread now) :
    Guarded size after := by
  have same : after.threads thread = now := by rw [moves.threads, update_self]
  have others : ∀ other, other ≠ thread → after.threads other = world.threads other := by
    intro other different
    rw [moves.threads, update_of_ne different]
  have flags : ∀ other, other ≠ thread → inside (world.threads other).place = 1 → ∀ index,
      world.queryManagerConnectionFree index = true →
        after.queryManagerConnectionFree index = true := by
    intro other different isInside
    rcases moves.keeps with here | keeps
    · rw [alone guarded here different] at isInside
      cases isInside
    · exact keeps
  constructor
  · have change := sum_change (fun worker => inside worker.place) world.threads thread now
    have before := guarded.mutex
    have moved := moves.mutex
    rw [moves.threads]
    omega
  · intro index valid
    have change := sum_change (holds index) world.threads thread now
    have before := guarded.owned index valid
    have moved := moves.owned index valid
    rw [moves.threads]
    omega
  · intro other index isHeld
    by_cases here : other = thread
    · rw [here, same] at isHeld
      exact moves.valid index isHeld
    rw [others other here] at isHeld
    exact guarded.valid other index isHeld
  · have change := sum_change (fun worker => tickets worker.place) world.threads thread now
    have before := guarded.balance
    have moved := moves.balance
    rw [moves.threads]
    omega
  · intro other index isScan
    by_cases here : other = thread
    · rw [here, same] at isScan
      exact moves.scans index isScan
    rw [others other here] at isScan
    rcases guarded.scans other index isScan with ⟨later, further, valid, free⟩
    have isInside : inside (world.threads other).place = 1 := by
      rw [isScan]
      rfl
    exact ⟨later, further, valid, flags other here isInside later free⟩
  · intro other index isTake
    by_cases here : other = thread
    · rw [here, same] at isTake
      exact moves.takes index isTake
    rw [others other here] at isTake
    have isInside : inside (world.threads other).place = 1 := by
      rw [isTake]
      rfl
    have taken := guarded.takes other index isTake
    exact ⟨taken.1, flags other here isInside index taken.2⟩
  · intro other
    by_cases here : other = thread
    · rw [here, same]
      exact moves.finds
    rw [others other here]
    exact guarded.finds other
  · intro other
    by_cases here : other = thread
    · rw [here, same]
      exact moves.results
    rw [others other here]
    exact guarded.results other

theorem quiet_moves (guarded : Guarded size world)
    (isInside : inside now.place = inside (world.threads thread).place)
    (counts : ∀ index, holds index now = holds index (world.threads thread))
    (sameTickets : tickets now.place = tickets (world.threads thread).place)
    (scans : ∀ index, now.place = .scanning index →
      ∃ later, index ≤ later ∧ later < size ∧ world.queryManagerConnectionFree later = true)
    (takes : ∀ index, now.place = .taking index →
      index < size ∧ world.queryManagerConnectionFree index = true)
    (finds : now.place ≠ .found none) (results : now.results = (world.threads thread).results) :
    Moves size world (world.goOn thread now) thread now := by
  constructor
  · rfl
  · rw [isInside]
    rfl
  · intro index _
    rw [counts]
    rfl
  · intro index isHeld
    rw [counts] at isHeld
    exact guarded.valid thread index isHeld
  · rw [sameTickets]
    rfl
  · right
    intro index free
    exact free
  · exact scans
  · exact takes
  · exact finds
  · rw [results]
    exact guarded.results thread

theorem semaphore_moves (guarded : Guarded size world)
    (threads : after.threads = update world.threads thread now)
    (flags : after.queryManagerConnectionFree = world.queryManagerConnectionFree)
    (mutex : after.queryManagerConnectionMutex + inside now.place =
      world.queryManagerConnectionMutex + inside (world.threads thread).place)
    (counts : ∀ index, holds index now = holds index (world.threads thread))
    (balance : after.freeQueryManagerConnections + tickets now.place =
      world.freeQueryManagerConnections + tickets (world.threads thread).place)
    (scans : ∀ index, now.place = .scanning index →
      ∃ later, index ≤ later ∧ later < size ∧ world.queryManagerConnectionFree later = true)
    (takes : ∀ index, now.place ≠ .taking index) (finds : now.place ≠ .found none)
    (results : none ∉ now.results) : Moves size world after thread now := by
  have sameFree : ∀ index, isFree after index = isFree world index := by
    intro index
    rw [isFree, flags]
    rfl
  constructor
  · exact threads
  · exact mutex
  · intro index _
    rw [counts, sameFree]
  · intro index isHeld
    rw [counts] at isHeld
    exact guarded.valid thread index isHeld
  · rw [balance, Finset.sum_congr rfl fun index _ => sameFree index]
  · right
    intro index free
    rw [flags]
    exact free
  · rw [flags]
    exact scans
  · intro index isTake
    exact absurd isTake (takes index)
  · exact finds
  · exact results

omit [DecidableEq Thread] [Fintype Thread] in
theorem set_free_here (world : World Thread) (index : Nat) (free : Bool) :
    (world.setFree index free).queryManagerConnectionFree index = free := by
  simp only [World.setFree, update_self]

omit [DecidableEq Thread] [Fintype Thread] in
theorem set_free_other (world : World Thread) {index other : Nat} (different : other ≠ index)
    (free : Bool) : (world.setFree index free).queryManagerConnectionFree other =
      world.queryManagerConnectionFree other := by
  simp only [World.setFree, update_of_ne different]

omit [DecidableEq Thread] [Fintype Thread] in
theorem free_change (world : World Thread) (index : Nat) (valid : index < size) (free : Bool) :
    (∑ other ∈ Finset.range size, isFree (world.setFree index free) other) + isFree world index =
      (∑ other ∈ Finset.range size, isFree world other) + free.toNat := by
  have member : index ∈ Finset.range size := Finset.mem_range.mpr valid
  have here : isFree (world.setFree index free) index = free.toNat := by
    rw [isFree, set_free_here]
    cases free <;> rfl
  have others : ∑ other ∈ (Finset.range size).erase index, isFree (world.setFree index free) other =
      ∑ other ∈ (Finset.range size).erase index, isFree world other := by
    apply Finset.sum_congr rfl
    intro other inRest
    rw [isFree, set_free_other world (Finset.ne_of_mem_erase inRest)]
    rfl
  rw [← Finset.add_sum_erase _ _ member, ← Finset.add_sum_erase _ (isFree world) member, here, others]
  omega

section

variable (guarded : Guarded size world)
include guarded

omit [DecidableEq Thread] in
theorem ticket_free (thread : Thread) (some_ticket : tickets (world.threads thread).place = 1) :
    ∃ later, 0 ≤ later ∧ later < size ∧ world.queryManagerConnectionFree later = true := by
  by_contra none_free
  have empty : ∑ index ∈ Finset.range size, isFree world index = 0 := by
    apply Finset.sum_eq_zero
    intro index member
    rw [isFree, if_neg]
    intro free
    exact none_free ⟨index, Nat.zero_le _, Finset.mem_range.mp member, free⟩
  have one : tickets (world.threads thread).place ≤
      ∑ other, tickets (world.threads other).place :=
    Finset.single_le_sum (f := fun other => tickets (world.threads other).place)
      (fun _ _ => Nat.zero_le _) (Finset.mem_univ thread)
  have balance := guarded.balance
  omega

theorem scan_guarded {index : Nat} (isScan : (world.threads thread).place = .scanning index)
    (went : next size world thread = some after) : Guarded size after := by
  rcases guarded.scans thread index isScan with ⟨later, further, valid, free⟩
  have inRange : index < size := lt_of_le_of_lt further valid
  unfold next at went
  simp only [isScan] at went
  rw [if_pos inRange] at went
  by_cases isFree : world.queryManagerConnectionFree index = true
  · rw [if_pos isFree] at went
    cases went
    apply moves_guarded guarded
    apply quiet_moves guarded
    · rw [isScan]
      rfl
    · intro other
      rw [holds, holds, isScan]
      rfl
    · rw [isScan]
      rfl
    · nofun
    · intro other same
      cases same
      exact ⟨inRange, isFree⟩
    · exact Place.noConfusion
    · rfl
  rw [if_neg isFree] at went
  cases went
  have notHere : index ≠ later := by
    intro same
    rw [same] at isFree
    exact isFree free
  apply moves_guarded guarded
  apply quiet_moves guarded
  · rw [isScan]
    rfl
  · intro other
    rw [holds, holds, isScan]
    rfl
  · rw [isScan]
    rfl
  · intro other same
    cases same
    exact ⟨later, by omega, valid, free⟩
  · nofun
  · exact Place.noConfusion
  · rfl

theorem take_guarded {index : Nat} (isTake : (world.threads thread).place = .taking index)
    (went : next size world thread = some after) : Guarded size after := by
  have taken := guarded.takes thread index isTake
  have wasFree : isFree world index = 1 := if_pos taken.2
  unfold next at went
  simp only [isTake] at went
  cases went
  apply moves_guarded guarded
  constructor
  · rfl
  · rw [isTake]
    rfl
  · intro other _
    rw [holds, holds, isTake]
    by_cases here : other = index
    · have now : isFree ((world.setFree index false).goOn thread
          { world.threads thread with place := .found (some index) }) index = 0 := by
        have cleared := set_free_here world index false
        rw [isFree, if_neg]
        intro free
        have same : (world.setFree index false).queryManagerConnectionFree index = true := free
        rw [cleared] at same
        cases same
      rw [here, now, wasFree]
      simp only [marked, if_true]
    have still : isFree ((world.setFree index false).goOn thread
        { world.threads thread with place := .found (some index) }) other =
          isFree world other := by
      have same := set_free_other world here false
      rw [isFree, isFree]
      exact congrArg (fun free : Bool => if free = true then 1 else 0) same
    rw [still]
    simp only [marked, if_neg (Ne.symm here)]
  · intro other isHeld
    by_cases here : other = index
    · rw [here]
      exact taken.1
    apply guarded.valid thread other
    rw [holds, isTake]
    rw [holds] at isHeld
    simp only [marked, if_neg (Ne.symm here)] at isHeld ⊢
    exact isHeld
  · have change := free_change world index taken.1 false
    have same : ∑ other ∈ Finset.range size, isFree ((world.setFree index false).goOn thread
        { world.threads thread with place := .found (some index) }) other =
          ∑ other ∈ Finset.range size, isFree (world.setFree index false) other := rfl
    rw [same, isTake]
    rw [wasFree, Bool.toNat_false, Nat.add_zero] at change
    simp only [tickets, World.goOn, World.setFree]
    simp only [World.setFree] at change
    omega
  · left
    rw [isTake]
    rfl
  · nofun
  · nofun
  · nofun
  · exact guarded.results thread

theorem found_guarded {connectionIndex : Option Nat}
    (isFound : (world.threads thread).place = .found connectionIndex)
    (went : next size world thread = some after) : Guarded size after := by
  rcases connectionIndex with _ | index
  · exact absurd isFound (guarded.finds thread)
  unfold next at went
  simp only [isFound] at went
  cases went
  apply moves_guarded guarded
  apply semaphore_moves guarded
  · rfl
  · rfl
  · rw [isFound]
    simp only [inside, World.goOn]
  · intro other
    rw [holds, holds, isFound]
    simp only [marked, Option.toList_some, List.count_append, List.count_singleton, beq_iff_eq,
      Nat.add_zero]
  · rw [isFound]
    rfl
  · nofun
  · nofun
  · nofun
  · rw [List.mem_append, List.mem_singleton]
    intro isNone
    rcases isNone with earlier | now
    · exact guarded.results thread earlier
    · cases now

theorem clear_guarded {index : Nat} (isClear : (world.threads thread).place = .clearing index)
    (went : next size world thread = some after) : Guarded size after := by
  have mine : 1 ≤ holds index (world.threads thread) := by
    rw [holds, isClear]
    simp only [marked, if_true]
    exact Nat.le_add_left _ _
  have valid : index < size := guarded.valid thread index (by omega)
  have owned := guarded.owned index valid
  have atMost : holds index (world.threads thread) ≤ ∑ other, holds index (world.threads other) :=
    Finset.single_le_sum (f := fun other => holds index (world.threads other))
      (fun _ _ => Nat.zero_le _) (Finset.mem_univ thread)
  have notFree : isFree world index = 0 := by omega
  unfold next at went
  simp only [isClear] at went
  cases went
  apply moves_guarded guarded
  constructor
  · rfl
  · rw [isClear]
    rfl
  · intro other _
    rw [holds, holds, isClear]
    by_cases here : other = index
    · have now : isFree ((world.setFree index true).goOn thread
          { world.threads thread with place := .raising }) index = 1 :=
        if_pos (set_free_here world index true)
      rw [here, now, notFree]
      simp only [marked, if_true]
    have still : isFree ((world.setFree index true).goOn thread
        { world.threads thread with place := .raising }) other = isFree world other := by
      have same := set_free_other world here true
      exact congrArg (fun free : Bool => if free = true then 1 else 0) same
    rw [still]
    simp only [marked, if_neg (Ne.symm here)]
  · intro other isHeld
    apply guarded.valid thread other
    rw [holds] at isHeld ⊢
    simp only [marked, Nat.add_zero] at isHeld
    omega
  · have change := free_change world index valid true
    have same : ∑ other ∈ Finset.range size, isFree ((world.setFree index true).goOn thread
        { world.threads thread with place := .raising }) other =
          ∑ other ∈ Finset.range size, isFree (world.setFree index true) other := rfl
    rw [same, isClear]
    rw [notFree, Bool.toNat_true, Nat.add_zero] at change
    rw [change]
    simp only [tickets, World.goOn, World.setFree]
    omega
  · right
    intro other free
    by_cases here : other = index
    · rw [here]
      exact set_free_here world index true
    · exact (set_free_other world here true).trans free
  · nofun
  · nofun
  · nofun
  · exact guarded.results thread

theorem next_guarded (went : next size world thread = some after) : Guarded size after := by
  cases place : (world.threads thread).place with
  | outside =>
    unfold next at went
    simp only [place] at went
    cases went
  | ticket =>
    unfold next at went
    simp only [place] at went
    split_ifs at went with unlocked
    cases went
    have found := ticket_free guarded thread (by
      rw [place]
      rfl)
    apply moves_guarded guarded
    apply semaphore_moves guarded
    · rfl
    · rfl
    · rw [place]
      simp only [inside, World.goOn]
      omega
    · intro other
      rw [holds, holds, place]
      rfl
    · rw [place]
      rfl
    · intro index same
      cases same
      exact found
    · nofun
    · nofun
    · exact guarded.results thread
  | scanning index => exact scan_guarded guarded place went
  | taking index => exact take_guarded guarded place went
  | found connectionIndex => exact found_guarded guarded place went
  | clearing index => exact clear_guarded guarded place went
  | raising =>
    unfold next at went
    simp only [place] at went
    cases went
    apply moves_guarded guarded
    apply semaphore_moves guarded
    · rfl
    · rfl
    · rw [place]
      rfl
    · intro other
      rw [holds, holds, place]
      rfl
    · rw [place]
      simp only [tickets, World.goOn]
    · nofun
    · nofun
    · nofun
    · exact guarded.results thread

theorem step_guarded {call : Call} (went : step size world thread call = some after) :
    Guarded size after := by
  cases call with
  | next => exact next_guarded guarded went
  | getConnection =>
    unfold step at went
    split_ifs at went with ready
    cases went
    apply moves_guarded guarded
    apply semaphore_moves guarded
    · rfl
    · rfl
    · rw [ready.1]
      rfl
    · intro other
      rw [holds, holds, ready.1]
      rfl
    · rw [ready.1]
      simp only [tickets, World.goOn]
      omega
    · nofun
    · nofun
    · nofun
    · exact guarded.results thread
  | releaseConnection connection =>
    simp only [step] at went
    split_ifs at went with ready
    rcases search : (List.range size).find? fun index => index == connection with _ | index
    · rw [search] at went
      cases went
      exact guarded
    rw [search] at went
    cases went
    have isIndex : index = connection := by
      have holdsHere := List.find?_some search
      exact beq_iff_eq.mp holdsHere
    apply moves_guarded guarded
    apply quiet_moves guarded
    · rw [ready.1]
      rfl
    · intro other
      have some_held : 0 < (world.threads thread).held.count connection :=
        List.count_pos_iff.mpr ready.2
      rw [holds, holds, ready.1, isIndex]
      simp only [marked, Nat.add_zero]
      by_cases here : connection = other
      · rw [← here, List.count_erase_self, if_pos rfl]
        omega
      · rw [List.count_erase_of_ne (Ne.symm here), if_neg here, Nat.add_zero]
    · rw [ready.1]
      rfl
    · nofun
    · nofun
    · nofun
    · rfl

end

theorem run_guarded (steps : List (Thread × Call)) (guarded : Guarded size world)
    (ran : run size world steps = some after) : Guarded size after := by
  induction steps generalizing world with
  | nil =>
    cases ran
    exact guarded
  | cons first steps ih =>
    rcases Option.bind_eq_some_iff.mp ran with ⟨middle, went, rest⟩
    exact ih (step_guarded guarded went) rest

omit [DecidableEq Thread] in
theorem start_guarded (size : Nat) : Guarded size (start Thread size) := by
  constructor
  · simp [start, inside]
  · intro index _
    simp [start, holds, marked, isFree]
  · intro thread index isHeld
    simp [start, holds, marked] at isHeld
  · simp [start, tickets, isFree]
  all_goals nofun

end Counts

section Exclusive

variable [Fintype Thread]

/-- Whatever the threads do and in whatever order: no connection is held by two of them, or by
one of them twice, and `getConnection` has never returned the null pointer. -/
theorem connections_are_exclusive (connections : Int) (steps : List (Thread × Call))
    (after : World Thread)
    (ran : run (numberOfConnections connections)
      (start Thread (numberOfConnections connections)) steps = some after) :
    (∀ index first second, holds index (after.threads first) ≠ 0 →
        holds index (after.threads second) ≠ 0 → first = second) ∧
      (∀ index thread, holds index (after.threads thread) ≤ 1) ∧
      ∀ thread, none ∉ (after.threads thread).results := by
  have guarded := run_guarded steps (start_guarded _) ran
  have total : ∀ index thread, holds index (after.threads thread) ≠ 0 →
      ∑ other, holds index (after.threads other) ≤ 1 := by
    intro index thread isHeld
    have owned := guarded.owned index (guarded.valid thread index isHeld)
    omega
  refine ⟨?_, ?_, guarded.results⟩
  · intro index first second isFirst isSecond
    by_contra different
    have pair := Finset.sum_pair (f := fun each => holds index (after.threads each)) different
    have bound : ∑ each ∈ {first, second}, holds index (after.threads each) ≤
        ∑ each, holds index (after.threads each) :=
      Finset.sum_le_sum_of_subset (Finset.subset_univ _)
    have atMost := total index first isFirst
    omega
  · intro index thread
    by_cases isHeld : holds index (after.threads thread) = 0
    · rw [isHeld]
      exact Nat.zero_le 1
    · have single : holds index (after.threads thread) ≤
          ∑ other, holds index (after.threads other) :=
        Finset.single_le_sum (f := fun other => holds index (after.threads other))
          (fun _ _ => Nat.zero_le _) (Finset.mem_univ thread)
      exact single.trans (total index thread isHeld)

/-- Two threads with two connections: one is given back while the other thread scans. -/
def exchange : List (Bool × Call) :=
  [(false, .getConnection), (false, .next), (false, .next), (false, .next), (false, .next),
    (true, .getConnection), (true, .next), (true, .next), (false, .releaseConnection 0),
    (false, .next), (false, .next), (true, .next), (true, .next), (true, .next)]

theorem exchange_runs : (run 2 (start Bool 2) exchange).isSome = true := by
  decide

theorem exchange_is_exclusive : ∃ after : World Bool,
    run (numberOfConnections 2) (start Bool (numberOfConnections 2)) exchange = some after ∧
      ∀ index first second, holds index (after.threads first) ≠ 0 →
        holds index (after.threads second) ≠ 0 → first = second := by
  rcases Option.isSome_iff_exists.mp exchange_runs with ⟨after, ran⟩
  exact ⟨after, ran, (connections_are_exclusive 2 exchange after ran).1⟩

end Exclusive

end TibiaGame.QueryPool
