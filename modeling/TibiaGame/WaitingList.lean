import TibiaGame.Library.ArrivalOrder
import Mathlib.Tactic

/-!
# The waiting list of the login

`insert_waitinglist_entry`, `delete_waitinglist_entry` and `get_waitinglist_position` of
`communication.cpp`. Every one of them runs under the mutex of the communication
threads, so their calls come one after the other.
-/

namespace TibiaGame.WaitingList

open Library.ArrivalOrder List

/-- What fits into `PlayerName` and into `Name` of an entry. -/
structure Name where
  chars : List Int8
  terminated : 0 ∉ chars
  fits : chars.length < 30

def toLower (c : Int) : Int :=
  if 65 ≤ c ∧ c ≤ 90 ∨ 0xC0 ≤ c ∧ c ≤ 0xDE ∧ c ≠ 0xD7 then c + 32 else c

/-- One turn of the loop of `stricmp`. -/
def compareChars (c1 c2 rest : Int) : Int :=
  if c2 < c1 then 1 else if c1 < c2 then -1 else if c1 = 0 then 0 else rest

def stricmp : List Int8 → List Int8 → Int
  | [], [] => 0
  | [], c2 :: _ => compareChars (toLower 0) (toLower c2.toInt) 0
  | c1 :: _, [] => compareChars (toLower c1.toInt) (toLower 0) 0
  | c1 :: s1, c2 :: s2 =>
      compareChars (toLower c1.toInt) (toLower c2.toInt) (stricmp s1 s2)

def sameName (name other : Name) : Bool := stricmp name.chars other.chars == 0

structure Entry where
  name : Name
  nextTry : UInt32
  freeAccount : Bool
  newbie : Bool
  sleeping : Bool

def insertWaitinglistEntry (name : Name) (nextTry : UInt32) (freeAccount newbie : Bool) :
    List Entry → List Entry
  | [] => [⟨name, nextTry, freeAccount, newbie, false⟩]
  | entry :: rest =>
      if sameName entry.name name then
        { entry with nextTry := nextTry, freeAccount := freeAccount, newbie := newbie } :: rest
      else entry :: insertWaitinglistEntry name nextTry freeAccount newbie rest

def deleteWaitinglistEntry (name : Name) : List Entry → List Entry
  | [] => []
  | entry :: rest =>
      if sameName entry.name name then rest else entry :: deleteWaitinglistEntry name rest

/-- The arguments of `get_waitinglist_position` with what else it reads. -/
structure Query where
  name : Name
  freeAccount : Bool
  newbie : Bool
  newbiesOnline : Int32
  maxNewbies : Int32
  premiumNewbieBuffer : Int32

structure Counts where
  freeNewbies : Nat
  freeVeterans : Nat
  premiumNewbies : Nat
  premiumVeterans : Nat

def Counts.add (counts : Counts) (entry : Entry) : Counts :=
  if entry.freeAccount then
    if entry.newbie then { counts with freeNewbies := counts.freeNewbies + 1 }
    else { counts with freeVeterans := counts.freeVeterans + 1 }
  else if entry.newbie then { counts with premiumNewbies := counts.premiumNewbies + 1 }
  else { counts with premiumVeterans := counts.premiumVeterans + 1 }

/-- The loop up to the entry of the player; entries that are overdue fall asleep. -/
def countAhead (round : UInt32) (name : Name) (counts : Counts) : List Entry → Counts × List Entry
  | [] => (counts, [])
  | entry :: rest =>
      if sameName entry.name name then (counts, entry :: rest)
      else if entry.sleeping then
        let ended := countAhead round name counts rest
        (ended.1, entry :: ended.2)
      else if entry.nextTry + 5 < round then
        let ended := countAhead round name counts rest
        (ended.1, { entry with sleeping := true } :: ended.2)
      else
        let ended := countAhead round name (counts.add entry) rest
        (ended.1, entry :: ended.2)

/-- `Result` after the loop. -/
def resultOf (query : Query) (counts : Counts) : Nat :=
  if query.freeAccount then
    1 + (counts.premiumVeterans + counts.freeVeterans) +
      if query.newbie then counts.premiumNewbies + counts.freeNewbies
      else if query.newbiesOnline < query.maxNewbies - query.premiumNewbieBuffer then
        counts.freeNewbies
      else 0
  else
    1 + counts.premiumVeterans +
      if query.newbie ∨ query.newbiesOnline < query.maxNewbies then counts.premiumNewbies else 0

def inactive (round : UInt32) (entry : Entry) : Bool := decide (entry.nextTry + 60 < round)

def getWaitinglistPosition (round : UInt32) (query : Query) (list : List Entry) :
    Nat × List Entry :=
  let ended := countAhead round query.name ⟨0, 0, 0, 0⟩ (list.dropWhile (inactive round))
  (resultOf query ended.1, ended.2)

inductive Call where
  | insert (name : Name) (nextTry : UInt32) (freeAccount newbie : Bool)
  | delete (name : Name)
  | position (query : Query)

/-- A call and the `RoundNr` at its time. -/
structure Request where
  round : UInt32
  call : Call

def step (list : List Entry) (request : Request) : List Entry :=
  match request.call with
  | .insert name nextTry freeAccount newbie =>
      insertWaitinglistEntry name nextTry freeAccount newbie list
  | .delete name => deleteWaitinglistEntry name list
  | .position query => (getWaitinglistPosition request.round query list).2

def listAt (requests : Nat → Request) : Nat → List Entry
  | 0 => []
  | now + 1 => step (listAt requests now) (requests now)

/-- The entry belongs to a category that counts for the player. -/
def competes (query : Query) (entry : Entry) : Bool :=
  if query.freeAccount then
    !entry.newbie || query.newbie ||
      entry.freeAccount &&
        decide (query.newbiesOnline < query.maxNewbies - query.premiumNewbieBuffer)
  else !entry.freeAccount &&
    (!entry.newbie || query.newbie || decide (query.newbiesOnline < query.maxNewbies))

def passed (round : UInt32) (entry : Entry) : Bool :=
  decide (entry.nextTry.toNat + 5 < round.toNat)

/-- The entries in front of the player when the inactive ones are gone. -/
def aheadOf (round : UInt32) (query : Query) (list : List Entry) : List Entry :=
  (list.dropWhile (inactive round)).takeWhile fun entry => !sameName entry.name query.name

/-- An entry that sleeps is not given a time that is still to come, and no time is so late
that its sums overflow. -/
def wakesNobody (list : List Entry) (request : Request) : Bool :=
  match request.call with
  | .insert name nextTry _ _ =>
      decide (nextTry.toNat + 60 < 2 ^ 32) &&
        list.all fun entry => !(sameName entry.name name && entry.sleeping) ||
          decide (nextTry.toNat + 5 < request.round.toNat)
  | _ => true

section Names

variable {name other third : Name}

def key (name : Name) : List Int := name.chars.map fun c => toLower c.toInt

theorem to_lower_ne_zero {c : Int8} (char : c ≠ 0) : toLower c.toInt ≠ 0 := by
  have nonzero : c.toInt ≠ 0 := by
    intro zero
    exact char (Int8.toInt_inj.mp zero)
  unfold toLower
  split_ifs with upper
  · omega
  · exact nonzero

theorem compare_chars_zero {c1 c2 rest : Int} :
    compareChars c1 c2 rest = 0 ↔ c1 = c2 ∧ (c1 = 0 ∨ rest = 0) := by
  unfold compareChars
  split_ifs with greater less zero
  · apply iff_of_false
    · decide
    · intro both
      omega
  · apply iff_of_false
    · decide
    · intro both
      omega
  · omega
  · omega

theorem stricmp_zero {s1 s2 : List Int8} (first : 0 ∉ s1) (second : 0 ∉ s2) :
    stricmp s1 s2 = 0 ↔ (s1.map fun c => toLower c.toInt) = s2.map fun c => toLower c.toInt := by
  have zero : toLower 0 = 0 := rfl
  induction s1 generalizing s2 with
  | nil =>
    rcases s2 with _ | ⟨c2, s2⟩
    · exact iff_of_true rfl rfl
    have char := to_lower_ne_zero (ne_of_not_mem_cons second).symm
    rw [stricmp, compare_chars_zero, zero]
    apply iff_of_false
    · intro both
      exact char both.1.symm
    · nofun
  | cons c1 s1 ih =>
    have char := to_lower_ne_zero (ne_of_not_mem_cons first).symm
    rcases s2 with _ | ⟨c2, s2⟩
    · rw [stricmp, compare_chars_zero, zero]
      apply iff_of_false
      · intro both
        exact char both.1
      · nofun
    have rest := ih (not_mem_of_not_mem_cons first) (not_mem_of_not_mem_cons second)
    rw [stricmp, compare_chars_zero, map_cons, map_cons, List.cons.injEq]
    constructor
    · intro both
      rcases both.2 with nothing | zero
      · exact absurd nothing char
      · exact ⟨both.1, rest.mp zero⟩
    · intro both
      exact ⟨both.1, .inr (rest.mpr both.2)⟩

theorem same_name_iff : sameName name other = true ↔ key name = key other := by
  rw [sameName, beq_iff_eq]
  exact stricmp_zero name.terminated other.terminated

end Names

section Effects

variable {name : Name} {nextTry round : UInt32} {freeAccount newbie : Bool} {list : List Entry}
  {query : Query} {counts : Counts}

def keys (list : List Entry) : List (List Int) := list.map fun entry => key entry.name

@[simp] theorem keys_cons (entry : Entry) (rest : List Entry) :
    keys (entry :: rest) = key entry.name :: keys rest := rfl

theorem insert_keys (name : Name) (nextTry : UInt32) (freeAccount newbie : Bool) (list : List Entry) :
    keys (insertWaitinglistEntry name nextTry freeAccount newbie list) =
      if key name ∈ keys list then keys list else keys list ++ [key name] := by
  induction list with
  | nil => rfl
  | cons entry rest ih =>
    unfold insertWaitinglistEntry
    by_cases here : sameName entry.name name = true
    · have same := same_name_iff.mp here
      rw [if_pos here, keys_cons, keys_cons, same, if_pos mem_cons_self]
    have different : key name ≠ key entry.name :=
      fun same => here (same_name_iff.mpr same.symm)
    rw [if_neg here, keys_cons, keys_cons, ih]
    by_cases later : key name ∈ keys rest
    · rw [if_pos later, if_pos (mem_cons_of_mem _ later)]
    have nowhere : key name ∉ key entry.name :: keys rest := by
      rw [mem_cons, not_or]
      exact ⟨different, later⟩
    rw [if_neg later, if_neg nowhere]
    rfl

theorem delete_keys (name : Name) (list : List Entry) :
    (keys (deleteWaitinglistEntry name list)).Sublist (keys list) := by
  induction list with
  | nil => exact List.Sublist.refl _
  | cons entry rest ih =>
    unfold deleteWaitinglistEntry
    split_ifs
    · exact sublist_cons_self _ _
    · exact ih.cons_cons _

theorem count_ahead_keys (round : UInt32) (name : Name) (counts : Counts) (list : List Entry) :
    keys (countAhead round name counts list).2 = keys list := by
  induction list generalizing counts with
  | nil => rfl
  | cons entry rest ih =>
    unfold countAhead
    split_ifs
    · rfl
    · exact congrArg (key entry.name :: ·) (ih counts)
    · exact congrArg (key entry.name :: ·) (ih counts)
    · exact congrArg (key entry.name :: ·) (ih (counts.add entry))

theorem position_keys (round : UInt32) (query : Query) (list : List Entry) :
    (keys (getWaitinglistPosition round query list).2).Sublist (keys list) := by
  unfold getWaitinglistPosition
  rw [count_ahead_keys]
  exact (dropWhile_sublist _).map _

theorem step_keys (list : List Entry) (request : Request) :
    (keys (step list request)).Sublist (keys list) ∨
      ∃ element, element ∉ keys list ∧ keys (step list request) = keys list ++ [element] := by
  rcases request with ⟨round, call⟩
  cases call with
  | insert name nextTry freeAccount newbie =>
    have effect := insert_keys name nextTry freeAccount newbie list
    by_cases there : key name ∈ keys list
    · rw [if_pos there] at effect
      left
      rw [step, effect]
    rw [if_neg there] at effect
    exact .inr ⟨key name, there, effect⟩
  | delete name => exact .inl (delete_keys name list)
  | position query => exact .inl (position_keys round query list)

theorem names_queue (requests : Nat → Request) :
    Queueing fun now => keys (listAt requests now) where
  start := rfl
  step := fun now => step_keys (listAt requests now) (requests now)

end Effects

section Awake

variable {name : Name} {nextTry round : UInt32} {freeAccount newbie : Bool} {list : List Entry}
  {query : Query} {counts : Counts} {entry : Entry}

/-- Whoever sleeps is overdue, and no sum of the rounds overflows. -/
structure Awake (round : UInt32) (list : List Entry) : Prop where
  small : ∀ entry ∈ list, entry.nextTry.toNat + 60 < 2 ^ 32
  overdue : ∀ entry ∈ list, entry.sleeping = true → passed round entry = true

theorem Awake.later {later : UInt32} (awake : Awake round list) (order : round ≤ later) :
    Awake later list where
  small := awake.small
  overdue := by
    intro entry member sleeps
    have before := awake.overdue entry member sleeps
    have rounds := UInt32.le_iff_toNat_le.mp order
    simp only [passed, decide_eq_true_eq] at before ⊢
    omega

theorem Awake.rest {rest : List Entry} (awake : Awake round (entry :: rest)) : Awake round rest where
  small := fun other member => awake.small other (mem_cons_of_mem entry member)
  overdue := fun other member => awake.overdue other (mem_cons_of_mem entry member)

theorem Awake.cons {rest : List Entry} (small : entry.nextTry.toNat + 60 < 2 ^ 32)
    (overdue : entry.sleeping = true → passed round entry = true) (awake : Awake round rest) :
    Awake round (entry :: rest) where
  small := by
    intro other member
    rcases mem_cons.mp member with same | later
    · rwa [same]
    · exact awake.small other later
  overdue := by
    intro other member
    rcases mem_cons.mp member with same | later
    · rwa [same]
    · exact awake.overdue other later

theorem Awake.head {rest : List Entry} (awake : Awake round (entry :: rest)) :
    entry.nextTry.toNat + 60 < 2 ^ 32 ∧ (entry.sleeping = true → passed round entry = true) :=
  ⟨awake.small entry mem_cons_self, awake.overdue entry mem_cons_self⟩

theorem Awake.sublist {fewer : List Entry} (awake : Awake round list) (sub : fewer.Sublist list) :
    Awake round fewer where
  small := fun entry member => awake.small entry (sub.subset member)
  overdue := fun entry member => awake.overdue entry (sub.subset member)

theorem passed_iff (small : entry.nextTry.toNat + 60 < 2 ^ 32) :
    entry.nextTry + 5 < round ↔ passed round entry = true := by
  rw [UInt32.lt_iff_toNat_lt, UInt32.toNat_add, passed, decide_eq_true_eq]
  have five : (5 : UInt32).toNat = 5 := rfl
  rw [five, Nat.mod_eq_of_lt (by omega)]

theorem insert_awake (awake : Awake round list) (small : nextTry.toNat + 60 < 2 ^ 32)
    (wakes : ∀ entry ∈ list, sameName entry.name name = true → entry.sleeping = true →
      nextTry.toNat + 5 < round.toNat) :
    Awake round (insertWaitinglistEntry name nextTry freeAccount newbie list) := by
  induction list with
  | nil =>
    apply Awake.cons small _ awake
    nofun
  | cons entry rest ih =>
    unfold insertWaitinglistEntry
    split_ifs with here
    · apply Awake.cons small _ awake.rest
      intro sleeps
      apply decide_eq_true
      exact wakes entry mem_cons_self here sleeps
    apply Awake.cons awake.head.1 awake.head.2
    apply ih awake.rest
    intro other member
    exact wakes other (mem_cons_of_mem entry member)

theorem delete_sublist (name : Name) (list : List Entry) :
    (deleteWaitinglistEntry name list).Sublist list := by
  induction list with
  | nil => exact List.Sublist.refl _
  | cons entry rest ih =>
    unfold deleteWaitinglistEntry
    split_ifs
    · exact sublist_cons_self _ _
    · exact ih.cons_cons _

theorem count_ahead_awake (awake : Awake round list) (name : Name) (counts : Counts) :
    Awake round (countAhead round name counts list).2 := by
  induction list generalizing counts with
  | nil => exact awake
  | cons entry rest ih =>
    unfold countAhead
    split_ifs with here sleeps late
    · exact awake
    · exact Awake.cons awake.head.1 awake.head.2 (ih awake.rest counts)
    · have overdue : passed round { entry with sleeping := true } = true :=
        (passed_iff awake.head.1).mp late
      exact Awake.cons awake.head.1 (fun _ => overdue) (ih awake.rest counts)
    · exact Awake.cons awake.head.1 awake.head.2 (ih awake.rest (counts.add entry))

theorem step_awake {request : Request} (awake : Awake request.round list)
    (wakes : wakesNobody list request = true) : Awake request.round (step list request) := by
  rcases request with ⟨round, call⟩
  cases call with
  | insert name nextTry freeAccount newbie =>
    simp only [wakesNobody, Bool.and_eq_true, decide_eq_true_eq, all_eq_true] at wakes
    apply insert_awake awake wakes.1
    intro entry member same sleeps
    have late := wakes.2 entry member
    rw [same, sleeps] at late
    exact of_decide_eq_true late
  | delete name => exact awake.sublist (delete_sublist name list)
  | position query =>
    exact count_ahead_awake (awake.sublist (dropWhile_sublist _)) query.name ⟨0, 0, 0, 0⟩

theorem add_result (query : Query) (counts : Counts) (entry : Entry) :
    resultOf query (counts.add entry) =
      resultOf query counts + if competes query entry then 1 else 0 := by
  unfold resultOf Counts.add competes
  cases query.freeAccount <;> cases query.newbie <;> cases entry.freeAccount <;>
    cases entry.newbie <;> simp <;> try split_ifs
  all_goals omega

/-- The counts are those of the entries in front that compete and are not overdue. -/
theorem count_ahead_result (awake : Awake round list) (name : Name) (counts : Counts) :
    resultOf query (countAhead round name counts list).1 = resultOf query counts +
      (list.takeWhile fun entry => !sameName entry.name name).countP
        fun entry => competes query entry && !passed round entry := by
  induction list generalizing counts with
  | nil => rfl
  | cons entry rest ih =>
    have overdue : entry.nextTry + 5 < round ↔ passed round entry = true := passed_iff awake.head.1
    unfold countAhead
    cases here : sameName entry.name name with
    | true =>
      rw [if_pos rfl, takeWhile_cons_of_neg (by simp [here])]
      rfl
    | false =>
      have next : (entry :: rest).takeWhile (fun entry => !sameName entry.name name) =
          entry :: rest.takeWhile fun entry => !sameName entry.name name :=
        takeWhile_cons_of_pos (by simp [here])
      rw [if_neg Bool.false_ne_true, next, countP_cons]
      by_cases sleeps : entry.sleeping = true
      · rw [if_pos sleeps, awake.head.2 sleeps, Bool.not_true, Bool.and_false]
        exact ih awake.rest counts
      rw [if_neg sleeps]
      by_cases late : entry.nextTry + 5 < round
      · rw [if_pos late, overdue.mp late, Bool.not_true, Bool.and_false]
        exact ih awake.rest counts
      have waits : passed round entry = false := by
        rw [← Bool.not_eq_true]
        exact fun tooLate => late (overdue.mpr tooLate)
      have counted := ih awake.rest (counts.add entry)
      rw [add_result] at counted
      rw [if_neg late, waits, Bool.not_false, Bool.and_true]
      rw [counted]
      omega

theorem position_counts (awake : Awake round list) (query : Query) :
    (getWaitinglistPosition round query list).1 =
      1 + (aheadOf round query list).countP fun entry => competes query entry && !passed round entry := by
  have front := awake.sublist (dropWhile_sublist (inactive round))
  have counted : resultOf query _ = _ := count_ahead_result front query.name ⟨0, 0, 0, 0⟩
  have nobody : resultOf query ⟨0, 0, 0, 0⟩ = 1 := by
    unfold resultOf
    split_ifs <;> rfl
  rw [nobody] at counted
  exact counted

end Awake


section Runs

variable {requests : Nat → Request}

/-- The rounds of the calls before `now` do not go back. -/
def RoundsAdvance (requests : Nat → Request) (now : Nat) : Prop :=
  ∀ earlier later, earlier ≤ later → later < now →
    (requests earlier).round ≤ (requests later).round

theorem run_awake {now : Nat} (advance : RoundsAdvance requests now)
    (wakes : ∀ before, before < now → wakesNobody (listAt requests before) (requests before) = true)
    {round : UInt32} (current : ∀ before, before < now → (requests before).round ≤ round) :
    Awake round (listAt requests now) := by
  induction now generalizing round with
  | zero =>
    constructor
    · nofun
    · nofun
  | succ now ih =>
    have last := Nat.lt_succ_self now
    have before : Awake (requests now).round (listAt requests now) := by
      apply ih
      · intro earlier later order inside
        exact advance earlier later order (Nat.lt_succ_of_lt inside)
      · intro before inside
        exact wakes before (Nat.lt_succ_of_lt inside)
      · intro before inside
        exact advance before now (Nat.le_of_lt inside) last
    exact (step_awake before (wakes now last)).later (current now last)

/-- The player of the entry came onto the list with the call `came` and has stayed there. -/
def WaitsSince (requests : Nat → Request) (now came : Nat) (name : Name) : Prop :=
  Since (fun now => keys (listAt requests now)) now came (key name)

/-- While no sleeping entry is given a later time, the names on the list are different and
stand in the order in which they came, and a position counts all the entries in front that
compete and are not overdue. -/
theorem waiting_list_is_fair (requests : Nat → Request) (now : Nat)
    (advance : RoundsAdvance requests now)
    (wakes : ∀ before, before < now → wakesNobody (listAt requests before) (requests before) = true) :
    ((listAt requests now).Pairwise fun front back => sameName front.name back.name = false ∧
        ∀ frontCame backCame, WaitsSince requests now frontCame front.name →
          WaitsSince requests now backCame back.name → frontCame < backCame) ∧
      (∀ entry ∈ listAt requests now, ∃ came, WaitsSince requests now came entry.name) ∧
      ∀ query round, (∀ before, before < now → (requests before).round ≤ round) →
        (getWaitinglistPosition round query (listAt requests now)).1 =
          1 + (aheadOf round query (listAt requests now)).countP fun entry =>
            competes query entry && !passed round entry := by
  have queueing := names_queue requests
  refine ⟨?_, ?_, ?_⟩
  · have nodup := pairwise_map.mp (queueing.nodup now)
    have order := pairwise_map.mp (queueing.order now)
    apply (nodup.and order).imp
    intro front back both
    constructor
    · rw [← Bool.not_eq_true, same_name_iff]
      exact both.1
    · exact both.2
  · intro entry member
    exact queueing.arrived (mem_map_of_mem member)
  · intro query round current
    exact position_counts (run_awake advance wakes current) query

def nameA : Name := ⟨[65], by decide, by decide⟩

def nameB : Name := ⟨[66], by decide, by decide⟩

def freeQuery (name : Name) : Query := ⟨name, true, false, 0, 0, 0⟩

/-- A and B wait; while B asks, A falls asleep, and then A comes back in time. -/
def comesBack : List Request :=
  [⟨1, .insert nameA 10 true false⟩, ⟨2, .insert nameB 12 true false⟩,
    ⟨20, .position (freeQuery nameB)⟩, ⟨20, .insert nameB 24 true false⟩,
    ⟨21, .insert nameA 28 true false⟩]

def comesBackAt (now : Nat) : Request := comesBack.getD now ⟨21, .delete nameA⟩

/-- Before A falls asleep, B is in the second place. -/
theorem both_count : (getWaitinglistPosition 3 (freeQuery nameB) (listAt comesBackAt 2)).1 =
    1 + (aheadOf 3 (freeQuery nameB) (listAt comesBackAt 2)).countP fun entry =>
      competes (freeQuery nameB) entry && !passed 3 entry := by
  have rounds : ∀ later < 2, ∀ earlier ≤ later,
      (comesBackAt earlier).round ≤ (comesBackAt later).round := by decide
  have current : ∀ before < 2, (comesBackAt before).round ≤ 3 := by decide
  have wakes : ∀ before < 2, wakesNobody (listAt comesBackAt before) (comesBackAt before) = true := by
    decide +kernel
  have fair := waiting_list_is_fair comesBackAt 2
    (fun earlier later order inside => rounds later inside earlier order) wakes
  exact fair.2.2 (freeQuery nameB) 3 current

/-- A has come back in time and stands in front of B, but is not counted. -/
theorem sleeper_is_passed_by : ∃ (requests : Nat → Request) (now : Nat) (query : Query)
    (round : UInt32), RoundsAdvance requests now ∧
      (∀ before, before < now → (requests before).round ≤ round) ∧
      (getWaitinglistPosition round query (listAt requests now)).1 ≠
        1 + (aheadOf round query (listAt requests now)).countP fun entry =>
          competes query entry && !passed round entry := by
  have rounds : ∀ later < 5, ∀ earlier ≤ later,
      (comesBackAt earlier).round ≤ (comesBackAt later).round := by decide
  have current : ∀ before < 5, (comesBackAt before).round ≤ 25 := by decide
  refine ⟨comesBackAt, 5, freeQuery nameB, 25, ?_, current, ?_⟩
  · intro earlier later order inside
    exact rounds later inside earlier order
  · decide +kernel

end Runs

end TibiaGame.WaitingList
