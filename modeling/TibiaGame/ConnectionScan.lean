import Mathlib.Tactic

/-!
# Passes over the connections

The connection table with its one `ConnectionIterator`, and the two passes of a
round, `receive_data` and `process_connections`. What a command or a logout does to
the game is a parameter; it says how often all connections are gone over meanwhile,
as `broadcast_message`, `create_gamemaster_request` and `delete_gamemaster_request` do.
-/

namespace TibiaGame.ConnectionScan

open List

inductive ConnectionState where
  | free
  | assigned
  | connected
  | login
  | game
  | dead
  | logout
  | disconnected
deriving DecidableEq

def ConnectionState.live (state : ConnectionState) : Bool :=
  state = .login || state = .game || state = .dead || state = .logout

abbrev maxConnections : Nat := 1100

structure Game (n : Nat) (Rest : Type) where
  state : Fin n → ConnectionState
  waitingForACK : Fin n → Bool
  rest : Rest

variable {n : Nat} {Rest : Type}

/-- The loop of `get_next_connection`: what it returns, and `ConnectionIterator`. -/
def getNextConnection (game : Game n Rest) : Nat → Nat → Option (Fin n) × Nat
  | 0, cursor => (none, cursor)
  | fuel + 1, cursor =>
      if inside : cursor < n then
        if game.state ⟨cursor, inside⟩ ≠ .free then (some ⟨cursor, inside⟩, cursor + 1)
        else getNextConnection game fuel (cursor + 1)
      else (none, cursor)

def getFirstConnection (game : Game n Rest) : Option (Fin n) × Nat := getNextConnection game n 0

/-- A loop over all connections that leaves the table as it is. -/
def goOver (game : Game n Rest) : Nat → Option (Fin n) × Nat → Nat
  | fuel + 1, (some _, cursor) => goOver game fuel (getNextConnection game n cursor)
  | _, (_, cursor) => cursor

/-- What a pass does with a connection: which ones it acts on, what the action does, and how
often all connections are gone over in it. An action does not end the wait of another. -/
structure Turn (n : Nat) (Rest : Type) where
  wants : Game n Rest → Fin n → Bool
  act : Fin n → Game n Rest → Game n Rest
  loops : Fin n → Game n Rest → Nat
  notFree : ∀ game conn, wants game conn = true → game.state conn ≠ .free
  others : ∀ conn game other, other ≠ conn → wants game other = true →
    wants (act conn game) other = true

structure Scan (n : Nat) (Rest : Type) where
  game : Game n Rest
  cursor : Nat
  served : List (Fin n)

/-- `ConnectionIterator` behind a number of loops over all connections. -/
def cursorAfter (game : Game n Rest) : Nat → Nat → Nat
  | 0, cursor => cursor
  | loops + 1, _ => cursorAfter game loops (goOver game (n + 1) (getFirstConnection game))

def serve (turn : Turn n Rest) (scan : Scan n Rest) (conn : Fin n) : Scan n Rest :=
  if turn.wants scan.game conn then
    let game := turn.act conn scan.game
    ⟨game, cursorAfter game (turn.loops conn scan.game) scan.cursor, scan.served ++ [conn]⟩
  else scan

def passLoop (turn : Turn n Rest) : Nat → Scan n Rest → Option (Fin n) → Scan n Rest
  | fuel + 1, scan, some conn =>
      let served := serve turn scan conn
      let (next, cursor) := getNextConnection served.game n served.cursor
      passLoop turn fuel { served with cursor := cursor } next
  | _, scan, _ => scan

def pass (turn : Turn n Rest) (game : Game n Rest) : Scan n Rest :=
  let (first, cursor) := getFirstConnection game
  passLoop turn (n + 1) ⟨game, cursor, []⟩ first

/-- The commands of the clients. A handler disconnects no other connection, and only
`receive_data` itself takes back `WaitingForACK`. -/
structure Handler (n : Nat) (Rest : Type) where
  act : Fin n → Game n Rest → Game n Rest
  loops : Fin n → Game n Rest → Nat
  live : ∀ conn game other, other ≠ conn → (game.state other).live = true →
    ((act conn game).state other).live = true
  waiting : ∀ conn game other, other ≠ conn → game.waitingForACK other = true →
    (act conn game).waitingForACK other = true

/-- `TConnection::process`; the table entries of other connections are not given up in it. -/
structure Process (n : Nat) (Rest : Type) where
  act : Fin n → Game n Rest → Game n Rest
  loops : Fin n → Game n Rest → Nat
  kept : ∀ conn game other, other ≠ conn → game.state other ≠ .free →
    (act conn game).state other ≠ .free

def waits (game : Game n Rest) (conn : Fin n) : Bool :=
  (game.state conn).live && game.waitingForACK conn

def inUse (game : Game n Rest) (conn : Fin n) : Bool := decide (game.state conn ≠ .free)

/-- The command is handled, then the connection is acknowledged. -/
def receiveTurn (handler : Handler n Rest) : Turn n Rest where
  wants := waits
  act := fun conn game =>
    let handled := handler.act conn game
    { handled with waitingForACK := Function.update handled.waitingForACK conn false }
  loops := handler.loops
  notFree := by
    intro game conn wanted isFree
    simp [waits, isFree, ConnectionState.live] at wanted
  others := by
    intro conn game other apart wanted
    simp only [waits, Bool.and_eq_true] at wanted ⊢
    constructor
    · exact handler.live conn game other apart wanted.1
    · rw [Function.update_of_ne apart]
      exact handler.waiting conn game other apart wanted.2

def processTurn (process : Process n Rest) : Turn n Rest where
  wants := inUse
  act := process.act
  loops := process.loops
  notFree := by
    intro game conn wanted
    exact of_decide_eq_true wanted
  others := by
    intro conn game other apart wanted
    exact decide_eq_true (process.kept conn game other apart (of_decide_eq_true wanted))

def receiveData (handler : Handler n Rest) (game : Game n Rest) : Scan n Rest :=
  pass (receiveTurn handler) game

def processConnections (process : Process n Rest) (game : Game n Rest) : Scan n Rest :=
  pass (processTurn process) game

/-- Along the table, with every action carried out in its turn: an action in which all
connections are gone over has no connection behind it that was due at the start. -/
def Undisturbed (turn : Turn n Rest) (due : Fin n → Bool) : List (Fin n) → Game n Rest → Prop
  | [], _ => True
  | conn :: rest, game =>
      if turn.wants game conn then
        (turn.loops conn game = 0 ∨ ∀ other ∈ rest, due other = false) ∧
          Undisturbed turn due rest (turn.act conn game)
      else Undisturbed turn due rest game

section Cursor

variable (game : Game n Rest)

theorem next_bound (fuel cursor : Nat) (inside : cursor ≤ n) :
    (getNextConnection game fuel cursor).2 ≤ n := by
  induction fuel generalizing cursor with
  | zero => exact inside
  | succ fuel ih =>
    rw [getNextConnection]
    split_ifs with here
    · exact here
    · exact ih (cursor + 1) here
    · exact inside

theorem next_none (fuel cursor : Nat) (inside : cursor ≤ n) (enough : n ≤ cursor + fuel)
    (ends : (getNextConnection game fuel cursor).1 = none) :
    (getNextConnection game fuel cursor).2 = n := by
  induction fuel generalizing cursor with
  | zero => exact Nat.le_antisymm inside enough
  | succ fuel ih =>
    rw [getNextConnection] at ends ⊢
    split_ifs at ends ⊢ with here isFree
    · exact ih (cursor + 1) here (by omega) ends
    · exact Nat.le_antisymm inside (Nat.not_lt.mp here)

theorem next_some (fuel cursor : Nat) {conn : Fin n}
    (found : (getNextConnection game fuel cursor).1 = some conn) :
    cursor < (getNextConnection game fuel cursor).2 := by
  induction fuel generalizing cursor with
  | zero => cases found
  | succ fuel ih =>
    rw [getNextConnection] at found ⊢
    split_ifs at found ⊢ with here isFree
    · exact Nat.lt_succ_self cursor
    · exact (Nat.lt_succ_self cursor).trans (ih (cursor + 1) found)

/-- Every loop over all connections leaves the iterator at the end of the table. -/
theorem go_over_end (fuel cursor : Nat) (inside : cursor ≤ n) (enough : n < cursor + fuel) :
    goOver game fuel (getNextConnection game n cursor) = n := by
  induction fuel generalizing cursor with
  | zero => omega
  | succ fuel ih =>
    rcases found : (getNextConnection game n cursor).1 with _ | conn
    · have ends := next_none game n cursor inside (Nat.le_add_left n cursor) found
      have whole : getNextConnection game n cursor = (none, n) := Prod.ext found ends
      rw [whole]
      rfl
    have further := next_some game n cursor found
    have bound := next_bound game n cursor inside
    have whole : getNextConnection game n cursor =
        (some conn, (getNextConnection game n cursor).2) := Prod.ext found rfl
    rw [whole, goOver]
    exact ih _ bound (by omega)

theorem cursor_after_loops (loops cursor : Nat) (some_loop : loops ≠ 0) :
    cursorAfter game loops cursor = n := by
  induction loops generalizing cursor with
  | zero => exact absurd rfl some_loop
  | succ loops ih =>
    have ends : goOver game (n + 1) (getFirstConnection game) = n :=
      go_over_end game (n + 1) 0 (Nat.zero_le n) (by omega)
    rw [cursorAfter, ends]
    cases loops with
    | zero => rfl
    | succ loops => exact ih n (Nat.succ_ne_zero loops)

end Cursor

/-- The pass as a walk along the table, which ends with the first action in which all
connections are gone over. -/
def serveAll (turn : Turn n Rest) : List (Fin n) → Game n Rest → List (Fin n) → List (Fin n)
  | [], _, served => served
  | conn :: rest, game, served =>
      if turn.wants game conn then
        if turn.loops conn game = 0 then
          serveAll turn rest (turn.act conn game) (served ++ [conn])
        else served ++ [conn]
      else serveAll turn rest game served

section Walk

variable (turn : Turn n Rest)

theorem next_fuel (game : Game n Rest) (fuel cursor : Nat) (enough : n ≤ cursor + fuel) :
    getNextConnection game (fuel + 1) cursor = getNextConnection game fuel cursor := by
  induction fuel generalizing cursor with
  | zero =>
    have past : ¬ cursor < n := by omega
    simp [getNextConnection, past]
  | succ fuel ih =>
    rw [getNextConnection, ih (cursor + 1) (by omega)]
    exact (getNextConnection.eq_2 game cursor fuel).symm

theorem next_free (game : Game n Rest) (cursor : Nat) (inside : cursor < n)
    (isFree : game.state ⟨cursor, inside⟩ = .free) :
    getNextConnection game n cursor = getNextConnection game n (cursor + 1) := by
  have fewer : getNextConnection game n cursor = getNextConnection game (n - 1) (cursor + 1) := by
    cases n with
    | zero => omega
    | succ size => rw [getNextConnection, dif_pos inside, if_neg (not_not.mpr isFree), Nat.add_sub_cancel]
  have same := next_fuel game (n - 1) (cursor + 1) (by omega)
  rw [Nat.sub_add_cancel (Nat.one_le_of_lt inside)] at same
  rw [fewer, same]

theorem next_here (game : Game n Rest) (cursor : Nat) (inside : cursor < n)
    (taken : game.state ⟨cursor, inside⟩ ≠ .free) :
    getNextConnection game n cursor = (some ⟨cursor, inside⟩, cursor + 1) := by
  cases n with
  | zero => omega
  | succ size => rw [getNextConnection, dif_pos inside, if_pos taken]

theorem next_past (game : Game n Rest) (cursor : Nat) (past : n ≤ cursor) :
    getNextConnection game n cursor = (none, cursor) := by
  cases n with
  | zero => rfl
  | succ size => rw [getNextConnection, dif_neg (Nat.not_lt.mpr past)]

theorem drop_range (cursor : Nat) (inside : cursor < n) :
    (List.finRange n).drop cursor = ⟨cursor, inside⟩ :: (List.finRange n).drop (cursor + 1) := by
  rw [drop_eq_getElem_cons (by simpa using inside)]
  simp

theorem pass_loop_serves (left : Nat) (fuel cursor : Nat) (room : left < fuel)
    (position : cursor + left = n) (game : Game n Rest) (served : List (Fin n)) :
    (passLoop turn fuel ⟨game, (getNextConnection game n cursor).2, served⟩
      (getNextConnection game n cursor).1).served =
      serveAll turn ((List.finRange n).drop cursor) game served := by
  induction left generalizing fuel cursor game served with
  | zero =>
    have past : n ≤ cursor := by omega
    rw [next_past game cursor past, drop_eq_nil_of_le (by simpa using past)]
    cases fuel <;> rfl
  | succ left ih =>
    have inside : cursor < n := by omega
    rw [drop_range cursor inside, serveAll]
    by_cases isFree : game.state ⟨cursor, inside⟩ = .free
    · have unwanted : ¬ turn.wants game ⟨cursor, inside⟩ = true := by
        intro wanted
        exact turn.notFree game _ wanted isFree
      rw [if_neg unwanted, next_free game cursor inside isFree]
      exact ih fuel (cursor + 1) (by omega) (by omega) game served
    rw [next_here game cursor inside isFree]
    rcases fuel with _ | fuel
    · omega
    simp only [passLoop, serve]
    by_cases wanted : turn.wants game ⟨cursor, inside⟩ = true
    · rw [if_pos wanted, if_pos wanted]
      by_cases quiet : turn.loops ⟨cursor, inside⟩ game = 0
      · rw [if_pos quiet, quiet]
        exact ih fuel (cursor + 1) (by omega) (by omega) _ _
      rw [if_neg quiet]
      rw [cursor_after_loops _ _ _ quiet, next_past _ n le_rfl]
      cases fuel <;> rfl
    rw [if_neg wanted, if_neg wanted]
    exact ih fuel (cursor + 1) (by omega) (by omega) game served

theorem pass_serves (game : Game n Rest) :
    (pass turn game).served = serveAll turn (List.finRange n) game [] :=
  pass_loop_serves turn n (n + 1) 0 (Nat.lt_succ_self n) (Nat.zero_add n) game []

end Walk

section Counting

variable {turn : Turn n Rest} {due : Fin n → Bool}

theorem serve_all_outside (indices : List (Fin n)) (game : Game n Rest) (served : List (Fin n))
    {conn : Fin n} (outside : conn ∉ indices) :
    (serveAll turn indices game served).count conn = served.count conn := by
  induction indices generalizing game served with
  | nil => rfl
  | cons first rest ih =>
    rw [mem_cons, not_or] at outside
    have other : [first].count conn = 0 := by
      rw [count_singleton, if_neg]
      simpa using Ne.symm outside.1
    rw [serveAll]
    split_ifs
    · rw [ih _ _ outside.2, count_append, other, Nat.add_zero]
    · rw [count_append, other, Nat.add_zero]
    · exact ih _ _ outside.2

theorem undisturbed_none_due (indices : List (Fin n)) (game : Game n Rest)
    (none' : ∀ conn ∈ indices, due conn = false) : Undisturbed turn due indices game := by
  induction indices generalizing game with
  | nil => trivial
  | cons first rest ih =>
    have later : ∀ conn ∈ rest, due conn = false := by
      intro conn member
      exact none' conn (mem_cons_of_mem first member)
    rw [Undisturbed]
    split_ifs
    · exact ⟨.inr later, ih _ later⟩
    · exact ih _ later

theorem wanted_later {first : Fin n} {rest : List (Fin n)} {game : Game n Rest}
    (fresh : first ∉ rest) (wanted : ∀ conn ∈ rest, due conn = true → turn.wants game conn = true) :
    ∀ conn ∈ rest, due conn = true → turn.wants (turn.act first game) conn = true := by
  intro conn member isDue
  apply turn.others first game conn
  · intro same
    exact fresh (same ▸ member)
  · exact wanted conn member isDue

theorem serve_all_iff (indices : List (Fin n)) (nodup : indices.Nodup) (game : Game n Rest)
    (served : List (Fin n))
    (wanted : ∀ conn ∈ indices, due conn = true → turn.wants game conn = true) :
    (∀ conn ∈ indices, due conn = true →
      (serveAll turn indices game served).count conn = served.count conn + 1) ↔
      Undisturbed turn due indices game := by
  induction indices generalizing game served with
  | nil => simp [Undisturbed]
  | cons first rest ih =>
    rcases nodup_cons.mp nodup with ⟨fresh, restNodup⟩
    have wantedRest : ∀ conn ∈ rest, due conn = true → turn.wants game conn = true := by
      intro conn member
      exact wanted conn (mem_cons_of_mem first member)
    have apart : ∀ conn ∈ rest, (served ++ [first]).count conn = served.count conn := by
      intro conn member
      have other : [first].count conn = 0 := by
        rw [count_singleton, if_neg]
        intro same
        exact fresh (beq_iff_eq.mp same ▸ member)
      rw [count_append, other, Nat.add_zero]
    rw [serveAll, Undisturbed]
    by_cases here : turn.wants game first = true
    · rw [if_pos here, if_pos here]
      have further := ih restNodup (turn.act first game) (served ++ [first])
        (wanted_later fresh wantedRest)
      by_cases quiet : turn.loops first game = 0
      · rw [if_pos quiet]
        have itself : (serveAll turn rest (turn.act first game) (served ++ [first])).count first =
            served.count first + 1 := by
          rw [serve_all_outside rest _ _ fresh]
          simp
        constructor
        · intro once
          constructor
          · exact .inl quiet
          · apply further.mp
            intro conn member isDue
            rw [once conn (mem_cons_of_mem first member) isDue, apart conn member]
        intro undisturbed conn member isDue
        rcases mem_cons.mp member with same | later
        · rw [same]
          exact itself
        · rw [further.mpr undisturbed.2 conn later isDue, apart conn later]
      rw [if_neg quiet]
      constructor
      · intro once
        have none' : ∀ conn ∈ rest, due conn = false := by
          intro conn member
          by_contra isDue
          have counted := once conn (mem_cons_of_mem first member)
            (Bool.eq_true_of_not_eq_false isDue)
          rw [apart conn member] at counted
          omega
        exact ⟨.inr none', undisturbed_none_due rest _ none'⟩
      intro undisturbed conn member isDue
      rcases mem_cons.mp member with same | later
      · rw [same]
        simp
      have none' := undisturbed.1.resolve_left quiet
      rw [none' conn later] at isDue
      cases isDue
    rw [if_neg here, if_neg here]
    have further := ih restNodup game served wantedRest
    constructor
    · intro once
      apply further.mp
      intro conn member
      exact once conn (mem_cons_of_mem first member)
    intro undisturbed conn member isDue
    rcases mem_cons.mp member with same | later
    · rw [same] at isDue
      exact absurd (wanted first mem_cons_self isDue) here
    · exact further.mpr undisturbed conn later isDue

theorem pass_iff (turn : Turn n Rest) (game : Game n Rest) :
    (∀ conn, turn.wants game conn = true → (pass turn game).served.count conn = 1) ↔
      Undisturbed turn (turn.wants game) (List.finRange n) game := by
  have counted := serve_all_iff (List.finRange n) (nodup_finRange n) game []
    (fun conn _ isDue => isDue : ∀ conn ∈ List.finRange n, turn.wants game conn = true →
      turn.wants game conn = true)
  rw [pass_serves, ← counted]
  simp

end Counting

/-- `broadcast_message`, whoever sends it. -/
def broadcast : Handler maxConnections Unit where
  act := fun _ game => game
  loops := fun _ _ => 1
  live := fun _ _ _ _ isLive => isLive
  waiting := fun _ _ _ _ waits => waits

/-- Two players are in the game and wait, and everything else is free. -/
def twoWaiting : Game maxConnections Unit where
  state := fun conn => if conn.val < 2 then .game else .free
  waitingForACK := fun conn => decide (conn.val < 2)
  rest := ()

end TibiaGame.ConnectionScan
