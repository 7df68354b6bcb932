import Mathlib.Tactic

/-!
# Programs that throw

A program reads and writes a state, returns or throws, or stops the whole run. A
throw keeps the state in which it was made, so what a program did before it threw
can be seen.
-/

namespace TibiaGame.Library.ThrowingState

variable {Halt Thrown State Result Final : Type}

abbrev Program (Halt Thrown State Result : Type) : Type :=
  ExceptT Thrown (StateT State (Except Halt)) Result

/-- How a program ends from a state. -/
def finish (program : Program Halt Thrown State Result) (start : State) :
    Except Halt (Except Thrown Result × State) := program.run.run start

/-- A computation beside the state, which may stop the run. -/
def attempt (ended : Except Halt Result) : Program Halt Thrown State Result :=
  ExceptT.mk fun state => ended.map fun result => (.ok result, state)

/-- A step that changes the state, or stops the run. -/
def perform (step : State → Except Halt (Result × State)) : Program Halt Thrown State Result :=
  ExceptT.mk fun state => (step state).map fun result => (.ok result.1, result.2)

def refuse (refused : Bool) (thrown : Thrown) : Program Halt Thrown State Unit :=
  if refused then throw thrown else pure ()

def whenever (needed : Bool) (program : Program Halt Thrown State Unit) :
    Program Halt Thrown State Unit :=
  if needed then program else pure ()

/-- `returns`, `throws` and `halts` hold of the three ways in which the program may end. -/
def Meets (program : Program Halt Thrown State Result) (start : State)
    (returns : Result → State → Prop) (throws : Thrown → State → Prop) (halts : Halt → Prop) :
    Prop :=
  match finish program start with
  | .error halt => halts halt
  | .ok (.error thrown, after) => throws thrown after
  | .ok (.ok result, after) => returns result after

/-- The program comes back without a change of the state. -/
def Reads (program : Program Halt Thrown State Result) (start : State)
    (returns : Result → Prop) : Prop :=
  Meets program start (fun result after => after = start ∧ returns result)
    (fun _ after => after = start) fun _ => False

/-- The program returns, and its last state passes a test. -/
def returnsSuch (program : Program Halt Thrown State Unit) (start : State)
    (test : State → Bool) : Bool :=
  match finish program start with
  | .ok (.ok _, after) => test after
  | _ => false

theorem returns_such {program : Program Halt Thrown State Unit} {start : State}
    {test : State → Bool} (passes : returnsSuch program start test = true) :
    ∃ after, finish program start = .ok (.ok (), after) ∧ test after = true := by
  unfold returnsSuch at passes
  split at passes
  · exact ⟨_, by assumption, passes⟩
  · cases passes

/-- The program throws, and its last state passes a test. -/
def throwsSuch (program : Program Halt Thrown State Unit) (start : State)
    (test : State → Bool) : Bool :=
  match finish program start with
  | .ok (.error _, after) => test after
  | _ => false

theorem throws_such {program : Program Halt Thrown State Unit} {start : State}
    {test : State → Bool} (passes : throwsSuch program start test = true) :
    ∃ thrown after, finish program start = .ok (.error thrown, after) ∧ test after = true := by
  unfold throwsSuch at passes
  split at passes
  · exact ⟨_, _, by assumption, passes⟩
  · cases passes

variable {program : Program Halt Thrown State Result} {start : State}
  {next : Result → Program Halt Thrown State Final}
  {returns : Result → State → Prop} {throws : Thrown → State → Prop} {halts : Halt → Prop}
  {lastly : Final → State → Prop} {guard : Result → Prop}

theorem meets_pure {result : Result} (holds : returns result start) :
    Meets (pure result) start returns throws halts := holds

theorem meets_throw {thrown : Thrown} (holds : throws thrown start) :
    Meets (throw thrown) start returns throws halts := holds

section

variable (meets : Meets program start returns throws halts)
include meets

theorem Meets.imp {weaker : Result → State → Prop} {weakerThrows : Thrown → State → Prop}
    {weakerHalts : Halt → Prop}
    (result : ∀ result after, returns result after → weaker result after)
    (thrown : ∀ thrown after, throws thrown after → weakerThrows thrown after)
    (halt : ∀ reason, halts reason → weakerHalts reason) :
    Meets program start weaker weakerThrows weakerHalts := by
  unfold Meets at meets ⊢
  split at meets
  · exact halt _ meets
  · exact thrown _ _ meets
  · exact result _ _ meets

theorem Meets.imp_returns {weaker : Result → State → Prop}
    (result : ∀ result after, returns result after → weaker result after) :
    Meets program start weaker throws halts :=
  meets.imp result (fun _ _ held => held) fun _ held => held

theorem Meets.imp_throws {weaker : Thrown → State → Prop}
    (thrown : ∀ thrown after, throws thrown after → weaker thrown after) :
    Meets program start returns weaker halts :=
  meets.imp (fun _ _ held => held) thrown fun _ held => held

end

theorem finish_bind (program : Program Halt Thrown State Result)
    (next : Result → Program Halt Thrown State Final) (start : State) :
    finish (program >>= next) start = match finish program start with
      | .error halt => .error halt
      | .ok (.error thrown, after) => .ok (.error thrown, after)
      | .ok (.ok result, after) => finish (next result) after := by
  simp only [finish, ExceptT.run_bind, StateT.run_bind]
  rcases program.run.run start with halt | ended
  · rfl
  rcases ended with ⟨result, after⟩
  cases result with
  | error thrown => rfl
  | ok result => rfl

theorem meets_bind {middle : Result → State → Prop}
    (first : Meets program start middle throws halts)
    (rest : ∀ result after, middle result after → Meets (next result) after lastly throws halts) :
    Meets (program >>= next) start lastly throws halts := by
  unfold Meets at first ⊢
  rw [finish_bind]
  rcases ended : finish program start with halt | pair
  · rw [ended] at first
    exact first
  rcases pair with ⟨result, after⟩
  rw [ended] at first
  cases result with
  | error thrown => exact first
  | ok result => exact rest result after first

/-- After a program that only reads, the rest begins in the same state. -/
theorem Reads.bind (reads : Reads program start guard) (thrown : ∀ thrown, throws thrown start)
    (rest : ∀ result, guard result → Meets (next result) start lastly throws halts) :
    Meets (program >>= next) start lastly throws halts := by
  apply meets_bind (reads.imp (fun _ _ held => held) ?_ fun _ stopped => stopped.elim)
  · intro result after held
    rw [held.1]
    exact rest result held.2
  · intro reason after same
    rw [same]
    exact thrown reason

theorem Reads.imp {weaker : Result → Prop} (reads : Reads program start guard)
    (result : ∀ result, guard result → weaker result) : Reads program start weaker :=
  Meets.imp reads (fun value _ held => ⟨held.1, result value held.2⟩) (fun _ _ same => same)
    fun _ stopped => stopped

theorem Reads.silent (reads : Reads program start guard) :
    Meets program start (fun result after => after = start ∧ guard result)
      (fun _ after => after = start) halts :=
  Meets.imp reads (fun _ _ held => held) (fun _ _ same => same) fun _ stopped => stopped.elim

/-- A program whose reading cannot throw meets any condition on throws. -/
theorem meets_attempt {ended : Except Halt Result} {result : Result}
    (returned : ended = .ok result) (holds : returns result start) :
    Meets (attempt ended) start returns throws halts := by
  unfold Meets finish attempt
  simp only [ExceptT.run_mk, StateT.run, returned, Except.map]
  exact holds

theorem reads_pure {result : Result} (holds : guard result) :
    Reads (pure result : Program Halt Thrown State Result) start guard := meets_pure ⟨rfl, holds⟩

theorem reads_throw {thrown : Thrown} :
    Reads (throw thrown : Program Halt Thrown State Result) start guard := meets_throw rfl

theorem meets_get {rest : State → Program Halt Thrown State Final}
    (meets : Meets (rest start) start lastly throws halts) :
    Meets (get >>= rest) start lastly throws halts := meets

theorem Reads.then {laterGuard : Final → Prop} (reads : Reads program start guard)
    (rest : ∀ result, guard result → Reads (next result) start laterGuard) :
    Reads (program >>= next) start laterGuard :=
  reads.bind (fun _ => rfl) rest

theorem reads_attempt {ended : Except Halt Result} {result : Result}
    (returned : ended = .ok result) (holds : guard result) :
    Reads (attempt ended : Program Halt Thrown State Result) start guard := by
  unfold Reads Meets finish attempt
  simp only [ExceptT.run_mk, StateT.run, returned, Except.map]
  exact ⟨trivial, holds⟩

theorem reads_get {seen : State → Prop} (holds : seen start) :
    Reads (get : Program Halt Thrown State State) start seen := by
  exact ⟨rfl, holds⟩

theorem reads_refuse {refused : Bool} {thrown : Thrown} {held : Unit → Prop}
    (holds : refused = false → held ()) :
    Reads (refuse refused thrown : Program Halt Thrown State Unit) start held := by
  cases refused with
  | true => exact reads_throw
  | false => exact reads_pure (holds rfl)

theorem meets_perform {step : State → Except Halt (Result × State)}
    (stopped : ∀ halt, step start = .error halt → halts halt)
    (stepped : ∀ result after, step start = .ok (result, after) → returns result after) :
    Meets (perform step) start returns throws halts := by
  unfold Meets finish perform
  simp only [ExceptT.run_mk, StateT.run]
  cases ended : step start with
  | error halt => exact stopped halt ended
  | ok pair => exact stepped pair.1 pair.2 ended

theorem meets_set {after : State} {held : Unit → State → Prop} (holds : held () after) :
    Meets (set after : Program Halt Thrown State Unit) start held throws halts := holds

theorem finish_catch (program : Program Halt Thrown State Result)
    (handler : Thrown → Program Halt Thrown State Result) (start : State) :
    finish (tryCatch program handler) start = match finish program start with
      | .error halt => .error halt
      | .ok (.error thrown, after) => finish (handler thrown) after
      | .ok (.ok result, after) => .ok (.ok result, after) := by
  simp only [finish, tryCatch, tryCatchThe, MonadExceptOf.tryCatch, ExceptT.tryCatch,
    ExceptT.run, ExceptT.mk, StateT.run_bind]
  rcases StateT.run program start with halt | ended
  · rfl
  rcases ended with ⟨result, after⟩
  cases result with
  | error thrown => rfl
  | ok result => rfl

theorem meets_catch {handler : Thrown → Program Halt Thrown State Result}
    {caught : Thrown → State → Prop} (tried : Meets program start returns caught halts)
    (handled : ∀ thrown after, caught thrown after →
      Meets (handler thrown) after returns throws halts) :
    Meets (tryCatch program handler) start returns throws halts := by
  unfold Meets at tried ⊢
  rw [finish_catch]
  rcases ended : finish program start with halt | pair
  · rw [ended] at tried
    exact tried
  rcases pair with ⟨result, after⟩
  rw [ended] at tried
  cases result with
  | error thrown => exact handled thrown after tried
  | ok result => exact tried

section

variable (meets : Meets program start returns throws halts)
include meets

/-- How the program has ended may be kept beside what it has done. -/
theorem Meets.traced :
    Meets program start
      (fun result after => finish program start = .ok (.ok result, after) ∧ returns result after)
      throws halts := by
  unfold Meets at meets ⊢
  rcases ended : finish program start with halt | pair
  · rw [ended] at meets
    exact meets
  rcases pair with ⟨result, after⟩
  rw [ended] at meets
  cases result with
  | error thrown => exact meets
  | ok result => exact ⟨rfl, meets⟩

/-- A program that can end in one way only ends in this way. -/
theorem Meets.returned (unthrown : ∀ thrown after, ¬ throws thrown after)
    (unstopped : ∀ halt, ¬ halts halt) :
    ∃ result after, finish program start = .ok (.ok result, after) ∧ returns result after := by
  unfold Meets at meets
  rcases ended : finish program start with halt | pair
  · rw [ended] at meets
    exact (unstopped halt meets).elim
  rcases pair with ⟨result, after⟩
  rw [ended] at meets
  cases result with
  | error thrown => exact (unthrown thrown after meets).elim
  | ok result => exact ⟨result, after, rfl, meets⟩

theorem Meets.thrown (unreturned : ∀ result after, ¬ returns result after)
    (unstopped : ∀ halt, ¬ halts halt) :
    ∃ thrown after, finish program start = .ok (.error thrown, after) ∧ throws thrown after := by
  unfold Meets at meets
  rcases ended : finish program start with halt | pair
  · rw [ended] at meets
    exact (unstopped halt meets).elim
  rcases pair with ⟨result, after⟩
  rw [ended] at meets
  cases result with
  | error thrown => exact ⟨thrown, after, rfl, meets⟩
  | ok result => exact (unreturned result after meets).elim

end

/-- Whether it returns or throws, the program leaves the state as it was. -/
def Keeps (program : Program Halt Thrown State Result) (start : State) : Prop :=
  Meets program start (fun _ after => after = start) (fun _ after => after = start) fun _ => True

theorem keeps_pure {result : Result} :
    Keeps (pure result : Program Halt Thrown State Result) start := meets_pure rfl

theorem keeps_throw {thrown : Thrown} :
    Keeps (throw thrown : Program Halt Thrown State Result) start := meets_throw rfl

theorem keeps_refuse {refused : Bool} {thrown : Thrown} :
    Keeps (refuse refused thrown : Program Halt Thrown State Unit) start := by
  cases refused with
  | true => exact keeps_throw
  | false => exact keeps_pure

theorem keeps_attempt {ended : Except Halt Result} :
    Keeps (attempt ended : Program Halt Thrown State Result) start := by
  cases ended with
  | error halt => exact trivial
  | ok result => exact rfl

theorem keeps_whenever {needed : Bool} {program : Program Halt Thrown State Unit}
    (keeps : Keeps program start) : Keeps (whenever needed program) start := by
  cases needed with
  | true => exact keeps
  | false => exact keeps_pure

theorem keeps_get {rest : State → Program Halt Thrown State Final}
    (keeps : Keeps (rest start) start) : Keeps (get >>= rest) start := keeps

theorem keeps_catch {handler : Thrown → Program Halt Thrown State Result}
    (keeps : Keeps program start) (handled : ∀ thrown, Keeps (handler thrown) start) :
    Keeps (tryCatch program handler) start := by
  apply meets_catch keeps
  intro thrown after same
  rw [same]
  exact handled thrown

/-- After a program that keeps the state, the rest begins in the same state. -/
theorem Keeps.then (keeps : Keeps program start) (rest : ∀ result, Meets (next result) start lastly
      (fun _ after => after = start) fun _ => True) :
    Meets (program >>= next) start lastly (fun _ after => after = start) fun _ => True := by
  apply meets_bind keeps
  intro result after same
  rw [same]
  exact rest result

theorem Keeps.bind (keeps : Keeps program start) (rest : ∀ result, Keeps (next result) start) :
    Keeps (program >>= next) start := keeps.then rest

theorem attempt_then {ended : Except Halt Result}
    (rest : ∀ result, ended = .ok result → Meets (next result) start lastly
      (fun _ after => after = start) fun _ => True) :
    Meets (attempt ended >>= next) start lastly (fun _ after => after = start) fun _ => True := by
  cases ended with
  | error halt => exact trivial
  | ok result => exact rest result rfl

section Throws

variable {allowed : Thrown → Prop}

/-- What the program throws is allowed. -/
def ThrowsOnly (allowed : Thrown → Prop) (program : Program Halt Thrown State Result)
    (start : State) : Prop :=
  Meets program start (fun _ _ => True) (fun thrown _ => allowed thrown) fun _ => True

theorem throws_only_pure {result : Result} :
    ThrowsOnly allowed (pure result : Program Halt Thrown State Result) start := trivial

theorem throws_only_bind_iff : ThrowsOnly allowed (program >>= next) start ↔
    Meets program start (fun result after => ThrowsOnly allowed (next result) after)
      (fun thrown _ => allowed thrown) fun _ => True := by
  unfold ThrowsOnly Meets
  rw [finish_bind]
  rcases finish program start with halt | pair
  · rfl
  rcases pair with ⟨result, after⟩
  cases result with
  | error thrown => rfl
  | ok result => rfl

theorem ThrowsOnly.bind (first : ThrowsOnly allowed program start)
    (rest : ∀ result after, ThrowsOnly allowed (next result) after) :
    ThrowsOnly allowed (program >>= next) start :=
  meets_bind first fun result after _ => rest result after

theorem ThrowsOnly.whenever {needed : Bool} {program : Program Halt Thrown State Unit}
    (throwsOnly : ThrowsOnly allowed program start) :
    ThrowsOnly allowed (whenever needed program) start := by
  cases needed with
  | true => exact throwsOnly
  | false => exact throws_only_pure

/-- The program comes to its end. -/
def Returns (program : Program Halt Thrown State Result) (start : State) : Prop :=
  ∃ result after, finish program start = .ok (.ok result, after)

theorem returns_pure {result : Result} :
    Returns (pure result : Program Halt Thrown State Result) start := ⟨result, start, rfl⟩

theorem not_returns_throw {thrown : Thrown} :
    ¬ Returns (throw thrown : Program Halt Thrown State Result) start := by
  rintro ⟨result, after, ended⟩
  cases ended

theorem returns_bind_iff : Returns (program >>= next) start ↔
    ∃ result after, finish program start = .ok (.ok result, after) ∧ Returns (next result) after := by
  unfold Returns
  rw [finish_bind]
  rcases finish program start with halt | pair
  · simp
  rcases pair with ⟨result, after⟩
  cases result with
  | error thrown => simp
  | ok result => simp

theorem returns_get_iff {rest : State → Program Halt Thrown State Final} :
    Returns (get >>= rest) start ↔ Returns (rest start) start := Iff.rfl

theorem returns_modify_iff {change : State → State} {rest : Program Halt Thrown State Final} :
    Returns (modify change >>= fun _ => rest) start ↔ Returns rest (change start) := Iff.rfl

theorem returns_catch {program : Program Halt Thrown State Result}
    {handler : Thrown → Program Halt Thrown State Result}
    (running : ∀ halt, finish program start ≠ .error halt)
    (handled : ∀ thrown after, Returns (handler thrown) after) :
    Returns (tryCatch program handler) start := by
  unfold Returns
  rw [finish_catch]
  rcases done : finish program start with halt | pair
  · exact absurd done (running halt)
  rcases pair with ⟨result, after⟩
  cases result with
  | error thrown => exact handled thrown after
  | ok result => exact ⟨result, after, rfl⟩

theorem returns_refuse_iff {refused : Bool} {thrown : Thrown}
    {rest : Program Halt Thrown State Final} :
    Returns (refuse refused thrown >>= fun _ => rest) start ↔ refused = false ∧ Returns rest start := by
  cases refused with
  | true =>
    constructor
    · rintro ⟨result, after, ended⟩
      cases ended
    · rintro ⟨impossible, _⟩
      cases impossible
  | false => exact ⟨fun returned => ⟨rfl, returned⟩, fun both => both.2⟩

section Unstopped

variable {program : Program Empty Thrown State Result}
  {next : Result → Program Empty Thrown State Final}

/-- How a program ends that can stop the run in no way. -/
def ended (program : Program Empty Thrown State Result) (start : State) :
    Except Thrown Result × State :=
  match finish program start with
  | .error halt => nomatch halt
  | .ok pair => pair

theorem finish_ended (program : Program Empty Thrown State Result) (start : State) :
    finish program start = .ok (ended program start) := by
  unfold ended
  cases finish program start with
  | error halt => exact halt.elim
  | ok pair => rfl

theorem returns_iff : Returns program start ↔ ∃ result, (ended program start).1 = .ok result := by
  unfold Returns
  rw [finish_ended]
  constructor
  · rintro ⟨result, after, same⟩
    exact ⟨result, congrArg Prod.fst (Except.ok.inj same)⟩
  · rintro ⟨result, same⟩
    exact ⟨result, (ended program start).2, congrArg Except.ok (Prod.ext same rfl)⟩

theorem returns_bind : Returns (program >>= next) start ↔
    ∃ result, (ended program start).1 = .ok result ∧ Returns (next result) (ended program start).2 := by
  rw [returns_bind_iff]
  constructor
  · rintro ⟨result, after, same, rest⟩
    rw [finish_ended] at same
    have both := Except.ok.inj same
    rw [both]
    exact ⟨result, rfl, rest⟩
  · rintro ⟨result, same, rest⟩
    refine ⟨result, (ended program start).2, ?_, rest⟩
    rw [finish_ended, ← same]

theorem returns_then {program : Program Empty Thrown State Unit}
    {rest : Program Empty Thrown State Final} :
    Returns (program >>= fun _ => rest) start ↔
      Returns program start ∧ Returns rest (ended program start).2 := by
  rw [returns_bind]
  constructor
  · rintro ⟨result, same, returned⟩
    exact ⟨returns_iff.mpr ⟨result, same⟩, returned⟩
  · rintro ⟨first, returned⟩
    cases returns_iff.mp first with
    | intro result same => exact ⟨result, same, returned⟩

end Unstopped

end Throws

section Agreement

variable {other : Program Halt Thrown State Result} {otherNext : Result → Program Halt Thrown State Final}

/-- Both programs end in the same way. -/
def Alike (program other : Program Halt Thrown State Result) (start : State) : Prop :=
  finish program start = finish other start

theorem Alike.bind (alike : Alike program other start)
    (seen : Meets program start returns (fun _ _ => True) fun _ => True)
    (rest : ∀ result after, returns result after → Alike (next result) (otherNext result) after) :
    Alike (program >>= next) (other >>= otherNext) start := by
  unfold Alike at alike ⊢
  unfold Meets at seen
  rw [finish_bind, finish_bind, ← alike]
  rcases ended : finish program start with halt | pair
  · rfl
  rcases pair with ⟨result, after⟩
  rw [ended] at seen
  cases result with
  | error thrown => rfl
  | ok result => exact rest result after seen

theorem alike_get {rest otherRest : State → Program Halt Thrown State Final}
    (alike : Alike (rest start) (otherRest start) start) :
    Alike (get >>= rest) (get >>= otherRest) start := alike

/-- Only what is behind a program that keeps the state has to be compared. -/
theorem alike_after (keeps : Keeps program start)
    (rest : ∀ result, Alike (next result) (otherNext result) start) :
    Alike (program >>= next) (program >>= otherNext) start := by
  apply Alike.bind rfl (keeps.imp (fun _ _ same => same) (fun _ _ _ => trivial) fun _ held => held)
  intro result after same
  rw [same]
  exact rest result

theorem alike_refuse {refused : Bool} {thrown : Thrown}
    {rest otherRest : Program Halt Thrown State Final}
    (alike : refused = false → Alike rest otherRest start) :
    Alike (refuse refused thrown >>= fun _ => rest) (refuse refused thrown >>= fun _ => otherRest)
      start := by
  cases refused with
  | true => rfl
  | false => exact alike rfl

theorem Alike.catch {handler : Thrown → Program Halt Thrown State Result}
    (alike : Alike program other start) :
    Alike (tryCatch program handler) (tryCatch other handler) start := by
  unfold Alike at alike ⊢
  rw [finish_catch, finish_catch, alike]

end Agreement

section Shown

variable {fact : Prop}

/-- If the program returns, the fact holds; it is about something else than the last state. -/
def Shows (fact : Prop) (program : Program Halt Thrown State Result) (start : State) : Prop :=
  Meets program start (fun _ _ => fact) (fun _ _ => True) fun _ => True

theorem shows_of (holds : fact) : Shows fact program start := by
  unfold Shows Meets
  rcases finish program start with halt | pair
  · exact trivial
  rcases pair with ⟨result, after⟩
  cases result with
  | error thrown => exact trivial
  | ok result => exact holds

theorem shows_throw {thrown : Thrown} :
    Shows fact (throw thrown : Program Halt Thrown State Result) start := trivial

theorem Shows.bind (shows : Shows fact program start) : Shows fact (program >>= next) start :=
  meets_bind shows fun _ _ holds => shows_of holds

theorem Shows.imp {other : Prop} (shows : Shows fact program start) (implies : fact → other) :
    Shows other program start :=
  Meets.imp shows (fun _ _ holds => implies holds) (fun _ _ held => held) fun _ held => held

theorem Reads.keeps (reads : Reads program start guard) : Keeps program start :=
  Meets.imp reads (fun _ _ held => held.1) (fun _ _ same => same) fun _ _ => trivial

theorem shows_get {rest : State → Program Halt Thrown State Final}
    (shows : Shows fact (rest start) start) : Shows fact (get >>= rest) start := shows

/-- What is shown behind a program that keeps the state. -/
theorem Keeps.shows (keeps : Keeps program start) (rest : ∀ result, Shows fact (next result) start) :
    Shows fact (program >>= next) start := by
  apply meets_bind (keeps.imp (fun _ _ same => same) (fun _ _ _ => trivial) fun _ held => held)
  intro result after same
  rw [same]
  exact rest result

theorem shows_refused {refused : Bool} {thrown : Thrown} {rest : Program Halt Thrown State Final}
    (shows : refused = false → Shows fact rest start) :
    Shows fact (refuse refused thrown >>= fun _ => rest) start := by
  cases refused with
  | true => exact trivial
  | false => exact shows rfl

theorem shows_refuse {refused : Bool} {thrown : Thrown} (holds : refused = false → fact) :
    Shows fact (refuse refused thrown : Program Halt Thrown State Unit) start := by
  cases refused with
  | true => exact shows_throw
  | false => exact shows_of (holds rfl)

theorem shows_attempt {ended : Except Halt Result}
    (rest : ∀ result, ended = .ok result → Shows fact (next result) start) :
    Shows fact (attempt ended >>= next) start := by
  cases ended with
  | error halt => exact trivial
  | ok result => exact rest result rfl

theorem Meets.also (meets : Meets program start returns throws halts)
    (shows : Shows fact program start) :
    Meets program start (fun result after => returns result after ∧ fact) throws halts := by
  unfold Shows at shows
  unfold Meets at meets shows ⊢
  rcases ended : finish program start with halt | pair
  · rw [ended] at meets
    exact meets
  rcases pair with ⟨result, after⟩
  rw [ended] at meets shows
  cases result with
  | error thrown => exact meets
  | ok result => exact ⟨meets, shows⟩

/-- Two things that are known of a program that ends. -/
theorem Meets.both {otherReturns : Result → State → Prop} {otherThrows : Thrown → State → Prop}
    (meets : Meets program start returns throws halts)
    (others : Meets program start otherReturns otherThrows fun _ => True) :
    Meets program start (fun result after => returns result after ∧ otherReturns result after)
      (fun thrown after => throws thrown after ∧ otherThrows thrown after) halts := by
  unfold Meets at meets others ⊢
  rcases ended : finish program start with halt | pair
  · rw [ended] at meets
    exact meets
  rcases pair with ⟨result, after⟩
  rw [ended] at meets others
  cases result with
  | error thrown => exact ⟨meets, others⟩
  | ok result => exact ⟨meets, others⟩

end Shown

section Runs

variable {Call : Type}

/-- The states that a sequence of calls leads to; a call that throws ends too. -/
inductive Runs (call : Call → Program Halt Thrown State Unit) (allowed : State → Call → Prop)
    (start : State) : State → Prop
  | start : Runs call allowed start start
  | step {middle after : State} {next : Call} {result : Except Thrown Unit}
      (run : Runs call allowed start middle) (permitted : allowed middle next)
      (ended : finish (call next) middle = .ok (result, after)) : Runs call allowed start after

theorem Meets.after {result : Except Thrown Result} {after : State} {held : State → Prop}
    (meets : Meets program start (fun _ => held) (fun _ => held) halts)
    (ended : finish program start = .ok (result, after)) : held after := by
  unfold Meets at meets
  rw [ended] at meets
  cases result with
  | error thrown => exact meets
  | ok result => exact meets

/-- What every allowed call keeps, whether it returns or throws, holds in every state of a run. -/
theorem Runs.keeps {call : Call → Program Halt Thrown State Unit} {allowed : State → Call → Prop}
    {last : State} {invariant : State → Prop} (run : Runs call allowed start last)
    (first : invariant start)
    (keeps : ∀ state next, invariant state → allowed state next →
      Meets (call next) state (fun _ => invariant) (fun _ => invariant) fun _ => True) :
    invariant last := by
  induction run with
  | start => exact first
  | step run permitted ended ih => exact (keeps _ _ ih permitted).after ended

end Runs

end TibiaGame.Library.ThrowingState
