import TibiaGame.ObjectKinds

/-!
# Numbers handed out by `create_object`

`create_object` leaves `NextObjectID` at the number it returns. Whether the next
call moves on therefore depends on one thing only: that the object created last
still occupies its entry.
-/

namespace TibiaGame.ObjectIdentifiers

open GameTypes CronRuns ObjectStore ObjectOperations ObjectKinds Library.Outcome List

variable {cfg : GameConfig}

/-- A call of `create_object` that has returned, and whether the object created
before it still existed. -/
structure Creation where
  obj : Object
  previousExists : Bool
  deriving DecidableEq, Repr

/-- A run so far: its creations, the latest first, and how often `NextObjectID`
has been advanced. -/
structure StoreRun (cfg : GameConfig) where
  world : World cfg
  created : List Creation
  advances : Nat

inductive StoreCall (cfg : GameConfig) where
  | createObject
  | deleteObject (obj : Object)
  | placeObject (obj con : Object) (append : Bool)
  | moveObject (obj con : Object)
  | changeObject (obj : Object) (newType : ObjectType cfg)
  | changeAttribute (obj : Object) (attr : InstanceAttribute) (value : UInt32)
  | nextRound (roundNr : UInt32)

/-- How often the loop of `create_object` advances `NextObjectID`. -/
def probeSteps (world : World cfg) : Nat → UInt32 → Nat
  | 0, _ => 0
  | fuel + 1, objectID =>
      match world.hashTable (entryIndex cfg objectID) with
      | .free => 0
      | _ => probeSteps world fuel (objectID + 1) + 1

def latestExists (run : StoreRun cfg) : Bool :=
  match run.created with
  | [] => true
  | latest :: _ => objectExists run.world latest.obj

def callStore (run : StoreRun cfg) : StoreCall cfg → Except Halt (StoreRun cfg)
  | .createObject => do
      let (obj, world) ← createObject run.world
      .ok {
        world := world
        created := ⟨obj, latestExists run⟩ :: run.created
        advances := run.advances +
          probeSteps run.world cfg.hashTableSize run.world.nextObjectID }
  | .deleteObject obj => do .ok { run with world := ← deleteObject run.world obj }
  | .placeObject obj con append => do
      .ok { run with world := ← placeObject run.world obj con append }
  | .moveObject obj con => do .ok { run with world := ← moveObject run.world obj con }
  | .changeObject obj newType => do .ok { run with world := ← changeObject run.world obj newType }
  | .changeAttribute obj attr value =>
      .ok { run with world := changeAttribute run.world obj attr value }
  | .nextRound roundNr => .ok { run with world := { run.world with roundNr := roundNr } }

def runStore (run : StoreRun cfg) : List (StoreCall cfg) → Except Halt (StoreRun cfg)
  | [] => .ok run
  | call :: rest => do runStore (← callStore run call) rest

def startRun (cfg : GameConfig) : StoreRun cfg where
  world := initialWorld cfg
  created := []
  advances := 0

theorem probe_eq_steps (world : World cfg) (fuel : Nat) (objectID : UInt32) :
    probe world fuel objectID = objectID + UInt32.ofNat (probeSteps world fuel objectID) := by
  induction fuel generalizing objectID with
  | zero => simp [probe, probeSteps]
  | succ fuel ih =>
    rw [probe, probeSteps]
    cases world.hashTable (entryIndex cfg objectID) with
    | free => simp
    | permanent =>
      simp only [ih, UInt32.ofNat_add]
      rw [UInt32.add_assoc, UInt32.add_comm 1]
      rfl
    | loaded record =>
      simp only [ih, UInt32.ofNat_add]
      rw [UInt32.add_assoc, UInt32.add_comm 1]
      rfl

theorem probe_steps_free {world : World cfg} {fuel : Nat} {objectID : UInt32}
    (isFree : kinds world (entryIndex cfg objectID) = .free) :
    probeSteps world fuel objectID = 0 := by
  rcases fuel with _ | fuel
  · rfl
  rw [probeSteps]
  cases cell : world.hashTable (entryIndex cfg objectID) with
  | free => rfl
  | permanent =>
    rw [kinds, cell] at isFree
    cases isFree
  | loaded record =>
    rw [kinds, cell] at isFree
    cases isFree

theorem probe_steps_taken {world : World cfg} {fuel : Nat} {objectID : UInt32}
    (room : 0 < fuel) (taken : kinds world (entryIndex cfg objectID) ≠ .free) :
    0 < probeSteps world fuel objectID := by
  rcases fuel with _ | fuel
  · exact (Nat.lt_irrefl 0 room).elim
  rw [probeSteps]
  cases cell : world.hashTable (entryIndex cfg objectID) with
  | free =>
    rw [kinds, cell] at taken
    exact (taken rfl).elim
  | permanent => exact Nat.succ_pos _
  | loaded record => exact Nat.succ_pos _

def numberAt : CellKind cfg → Option (Option UInt32)
  | .free => none
  | .permanent => some none
  | .loaded objectID _ => some (some objectID)

structure NumbersKept (before after : World cfg) : Prop where
  numbers : ∀ index, numberAt (kinds after index) = none ∨
    numberAt (kinds after index) = numberAt (kinds before index)
  permanent : kinds before 0 = .permanent → kinds after 0 = .permanent
  nextObjectID : after.nextObjectID = before.nextObjectID

theorem quiet_numbers {before after : World cfg} (quiet : Quiet before after) :
    NumbersKept before after where
  numbers := fun index => .inr (by rw [quiet.table])
  permanent := fun permanent => by rw [quiet.table, permanent]
  nextObjectID := quiet.nextObjectID

theorem leave_type_frame {world after : World cfg} {obj : Object} {oldType newType : ObjectType cfg}
    {carried : Carried} (left : leaveType world obj oldType newType = .ok (carried, after)) :
    kinds after = kinds world ∧ after.nextObjectID = world.nextObjectID := by
  unfold leaveType at left
  split at left
  · cases left
    exact ⟨rfl, rfl⟩
  rcases bind_ok.mp left with ⟨⟨saved, stopped⟩, timer, ended⟩
  have stoppedFrame : kinds stopped = kinds world ∧
      stopped.nextObjectID = world.nextObjectID := by
    split at timer
    · rcases cron_stop_frame timer with ⟨cron, rfl⟩
      exact ⟨rfl, rfl⟩
    · cases timer
      exact ⟨rfl, rfl⟩
  cases ended
  have dropped : ∀ flag : Bool,
      Quiet stopped (if flag = true then dropStrings stopped obj else stopped) := by
    intro flag
    cases flag with
    | false => exact .refl stopped
    | true => exact drop_strings_quiet stopped obj
  have quiet := dropped (oldType.getFlag .text && !newType.getFlag .text)
  split
  · have responsible := quiet.trans (set_attribute_quiet _ obj .responsible 0)
    exact ⟨responsible.table.trans stoppedFrame.1,
      responsible.nextObjectID.trans stoppedFrame.2⟩
  · exact ⟨quiet.table.trans stoppedFrame.1, quiet.nextObjectID.trans stoppedFrame.2⟩

theorem change_object_numbers {world after : World cfg} {obj : Object} {newType : ObjectType cfg}
    (changed : changeObject world obj newType = .ok after) : NumbersKept world after := by
  by_cases isLive : objectExists world obj = true
  · simp only [changeObject, isLive, Bool.not_true, Bool.false_eq_true, if_false] at changed
    rcases bind_ok.mp changed with ⟨⟨carried, left⟩, wasLeft, ended⟩
    cases ended
    rcases leave_type_frame wasLeft with ⟨leftKinds, leftCounter⟩
    have leftLive : objectExists left obj = true := by
      rw [exists_iff_type, leftKinds, ← exists_iff_type]
      exact isLive
    rcases enter_type_kinds leftLive newType carried with ⟨table, _, counter, _⟩
    have expireFrame : ∀ delay, kinds (cronExpire (enterType left obj newType carried) obj delay) =
        kinds (enterType left obj newType carried) ∧
        (cronExpire (enterType left obj newType carried) obj delay).nextObjectID =
          (enterType left obj newType carried).nextObjectID := by
      intro delay
      rw [cron_expire_eq]
      split_ifs <;> exact ⟨rfl, rfl⟩
    rcases expireFrame carried.delay with ⟨expireKinds, expireCounter⟩
    have loaded := (type_of_kind.mp (type_of_exists isLive)).2
    constructor
    · intro index
      right
      rw [expireKinds, table, leftKinds, Function.update_apply]
      split_ifs with here
      · rw [here, loaded]
        rfl
      · rfl
    · intro permanent
      rw [expireKinds, table, leftKinds, Function.update_of_ne]
      · exact permanent
      · intro same
        rw [← same, permanent] at loaded
        cases loaded
    · exact expireCounter.trans (counter.trans leftCounter)
  simp only [changeObject, isLive, Bool.not_false, if_true] at changed
  cases changed
  exact quiet_numbers (Quiet.refl world)

theorem shrunk_numbers {before after : World cfg} (shrunk : Shrunk before after) :
    NumbersKept before after where
  numbers := by
    intro index
    rcases shrunk.table index with ⟨gone, _⟩ | kept
    · exact .inl (by rw [gone]; rfl)
    · exact .inr (by rw [kept])
  permanent := by
    intro permanent
    rcases shrunk.table 0 with ⟨_, stays⟩ | kept
    · exact (stays permanent).elim
    · rw [kept, permanent]
  nextObjectID := shrunk.nextObjectID

theorem exists_iff_number (world : World cfg) {obj : Object} (notNone : obj ≠ NONE) :
    objectExists world obj = true ↔
      numberAt (kinds world (entryIndex cfg obj.objectID)) = some (some obj.objectID) := by
  rw [exists_iff_type, typeOf, if_neg notNone]
  cases kinds world (entryIndex cfg obj.objectID) with
  | free => simp [numberAt]
  | permanent => simp [numberAt]
  | loaded objectID type =>
    by_cases same : objectID = obj.objectID
    all_goals simp [numberAt, same]

theorem NumbersKept.dead {before after : World cfg} (kept : NumbersKept before after)
    {obj : Object} (dead : objectExists before obj = false) : objectExists after obj = false := by
  by_cases missing : obj = NONE
  · rw [missing]
    rfl
  rw [Bool.eq_false_iff, ne_eq, exists_iff_number _ missing]
  rw [Bool.eq_false_iff, ne_eq, exists_iff_number _ missing] at dead
  intro alive
  rcases kept.numbers (entryIndex cfg obj.objectID) with gone | same
  · rw [gone] at alive
    cases alive
  · exact dead (same ▸ alive)

/-- What holds of the numbers after every call: the counter is where the
advances have brought it, and the entry of the latest creation is its own. -/
structure Counted (run : StoreRun cfg) : Prop where
  permanent : kinds run.world 0 = .permanent
  room : run.advances + 1 < 2 ^ 32
  counter : run.world.nextObjectID.toNat = run.advances + 1
  below : ∀ creation ∈ run.created, creation.obj.objectID.toNat ≤ run.advances + 1 ∧
    creation.obj ≠ NONE
  latest : ∀ creation, run.created.head? = some creation →
    creation.obj.objectID = run.world.nextObjectID ∧
      (numberAt (kinds run.world (entryIndex cfg creation.obj.objectID)) = none ∨
        numberAt (kinds run.world (entryIndex cfg creation.obj.objectID)) =
          some (some creation.obj.objectID))

theorem start_counted (cfg : GameConfig) : Counted (startRun cfg) where
  permanent := by simp [kinds, startRun, initialWorld, permanentTable, cellKind]
  room := by simp [startRun]
  counter := rfl
  below := by simp [startRun]
  latest := by simp [startRun]

theorem Counted.kept {run : StoreRun cfg} {world : World cfg} (counted : Counted run)
    (kept : NumbersKept run.world world) : Counted { run with world := world } where
  permanent := kept.permanent counted.permanent
  room := counted.room
  counter := by
    rw [← counted.counter]
    exact congrArg UInt32.toNat kept.nextObjectID
  below := counted.below
  latest := by
    intro creation isHead
    rcases counted.latest creation isHead with ⟨number, entry⟩
    constructor
    · exact number.trans kept.nextObjectID.symm
    rcases kept.numbers (entryIndex cfg creation.obj.objectID) with gone | same
    · exact .inl gone
    rw [same]
    exact entry

/-- A call of `create_object` that stays below 2^32 advances. It moves on exactly
when the latest creation still exists, and otherwise returns its number again. -/
theorem create_counted {run : StoreRun cfg} {obj : Object} {world : World cfg}
    (counted : Counted run) (created : createObject run.world = .ok (obj, world))
    (few : run.advances + probeSteps run.world cfg.hashTableSize run.world.nextObjectID < 2 ^ 32) :
    Counted {
        world := world
        created := ⟨obj, latestExists run⟩ :: run.created
        advances := run.advances +
          probeSteps run.world cfg.hashTableSize run.world.nextObjectID } ∧
      obj.objectID.toNat = run.advances +
        probeSteps run.world cfg.hashTableSize run.world.nextObjectID + 1 ∧
      (run.created ≠ [] → (latestExists run = true ↔
        0 < probeSteps run.world cfg.hashTableSize run.world.nextObjectID)) := by
  set steps := probeSteps run.world cfg.hashTableSize run.world.nextObjectID with stepsIs
  rcases create_kinds created with ⟨isFree, table, _, counter, number, _⟩
  have position : obj.objectID.toNat = (run.advances + 1 + steps) % 2 ^ 32 := by
    rw [number, probe_eq_steps, ← stepsIs, UInt32.toNat_add, counted.counter, UInt32.toNat_ofNat']
    omega
  have elsewhere : entryIndex cfg obj.objectID ≠ 0 := by
    intro zero
    rw [zero, counted.permanent] at isFree
    cases isFree
  have notZero : obj.objectID.toNat ≠ 0 := by
    intro zero
    apply elsewhere
    rw [entryIndex, zero, Nat.zero_mod]
  have exact : obj.objectID.toNat = run.advances + steps + 1 := by
    by_cases wrapped : run.advances + 1 + steps = 2 ^ 32
    · rw [wrapped, Nat.mod_self] at position
      exact (notZero position).elim
    rw [position, Nat.mod_eq_of_lt (by omega)]
    omega
  have bounded := obj.objectID.toNat_lt
  constructor
  · constructor
    · rw [table, Function.update_of_ne elsewhere.symm]
      exact counted.permanent
    · dsimp only
      omega
    · rw [counter]
      exact exact
    · intro creation member
      rcases mem_cons.mp member with rfl | earlier
      · constructor
        · exact exact.le
        · rintro rfl
          exact notZero rfl
      rcases counted.below creation earlier with ⟨low, notNone⟩
      exact ⟨by dsimp only; omega, notNone⟩
    · intro creation isHead
      cases isHead
      constructor
      · exact counter.symm
      · rw [table, Function.update_self]
        exact .inr rfl
  constructor
  · exact exact
  intro some_created
  rcases history : run.created with _ | ⟨latest, earlier⟩
  · exact (some_created history).elim
  rcases counted.latest latest (by rw [history]; rfl) with ⟨sameNumber, entry⟩
  have notNone := (counted.below latest (by rw [history]; simp)).2
  have alive : latestExists run = objectExists run.world latest.obj := by
    rw [latestExists, history]
  rw [alive, exists_iff_number _ notNone]
  constructor
  · intro occupied
    apply probe_steps_taken (hash_table_size_pos cfg)
    rw [← sameNumber]
    intro free
    rw [free] at occupied
    cases occupied
  intro moved
  rcases entry with gone | occupied
  · have free : kinds run.world (entryIndex cfg run.world.nextObjectID) = .free := by
      rw [← sameNumber]
      cases kind : kinds run.world (entryIndex cfg latest.obj.objectID) with
      | free => rfl
      | permanent =>
        rw [kind] at gone
        cases gone
      | loaded objectID type =>
        rw [kind] at gone
        cases gone
    rw [stepsIs, probe_steps_free free] at moved
    exact (Nat.lt_irrefl 0 moved).elim
  · exact occupied

/-- The run after a call of `create_object` that returned `obj` and left `world`. -/
def afterCreate (run : StoreRun cfg) (obj : Object) (world : World cfg) : StoreRun cfg where
  world := world
  created := ⟨obj, latestExists run⟩ :: run.created
  advances := run.advances + probeSteps run.world cfg.hashTableSize run.world.nextObjectID

theorem call_store_cases {run next : StoreRun cfg} {call : StoreCall cfg}
    (called : callStore run call = .ok next) :
    (∃ obj world, createObject run.world = .ok (obj, world) ∧ next = afterCreate run obj world) ∨
      ∃ world, NumbersKept run.world world ∧ next = { run with world := world } := by
  cases call with
  | createObject =>
    rcases bind_ok.mp called with ⟨⟨obj, world⟩, created, ended⟩
    cases ended
    exact .inl ⟨obj, world, created, rfl⟩
  | deleteObject obj =>
    rcases bind_ok.mp called with ⟨world, deleted, ended⟩
    cases ended
    exact .inr ⟨world, shrunk_numbers ((deletion_shrinks _).2.2 _ _ _ deleted), rfl⟩
  | placeObject obj con append =>
    rcases bind_ok.mp called with ⟨world, placed, ended⟩
    cases ended
    exact .inr ⟨world, quiet_numbers (place_quiet placed), rfl⟩
  | moveObject obj con =>
    rcases bind_ok.mp called with ⟨world, moved, ended⟩
    cases ended
    refine .inr ⟨world, quiet_numbers ?_, rfl⟩
    unfold moveObject at moved
    split_ifs at moved
    · cases moved
      exact .refl _
    · cases moved
      exact .refl _
    · rcases bind_ok.mp moved with ⟨cut, wasCut, placed⟩
      exact (cut_quiet wasCut).trans (place_quiet placed)
  | changeObject obj newType =>
    rcases bind_ok.mp called with ⟨world, changed, ended⟩
    cases ended
    exact .inr ⟨world, change_object_numbers changed, rfl⟩
  | changeAttribute obj attr value =>
    cases called
    refine .inr ⟨_, quiet_numbers ?_, rfl⟩
    unfold changeAttribute
    split_ifs
    · exact .refl _
    · exact set_attribute_quiet _ _ _ _
  | nextRound roundNr =>
    cases called
    exact .inr ⟨{ run.world with roundNr := roundNr }, ⟨fun _ => .inr rfl, id, rfl⟩, rfl⟩

def Distinct (run : StoreRun cfg) : Prop := (run.created.map Creation.obj).Nodup

/-- Every creation but the first happened while the one before it still existed. -/
def PreviousAlive (run : StoreRun cfg) : Prop :=
  ∀ creation ∈ run.created, creation.previousExists = true

theorem run_store_advances {run final : StoreRun cfg} {calls : List (StoreCall cfg)}
    (reached : runStore run calls = .ok final) :
    run.advances ≤ final.advances ∧ ∃ later, final.created = later ++ run.created := by
  induction calls generalizing run with
  | nil =>
    cases reached
    exact ⟨le_rfl, [], rfl⟩
  | cons call rest ih =>
    rcases bind_ok.mp reached with ⟨next, stepped, onward⟩
    rcases ih onward with ⟨more, later, history⟩
    rcases call_store_cases stepped with ⟨obj, world, _, rfl⟩ | ⟨world, _, rfl⟩
    · constructor
      · exact (Nat.le_add_right _ _).trans more
      · refine ⟨later ++ [⟨obj, latestExists run⟩], ?_⟩
        rw [history, append_assoc]
        rfl
    · exact ⟨more, later, history⟩

/-- The step of the run: the counter stays right, and creations are distinct as
long as none was made after the latest one was gone. -/
theorem call_store_counted {run next : StoreRun cfg} {call : StoreCall cfg}
    (called : callStore run call = .ok next) (few : next.advances < 2 ^ 32)
    (counted : Counted run) (distinct : Distinct run ↔ PreviousAlive run) :
    Counted next ∧ (Distinct next ↔ PreviousAlive next) := by
  rcases call_store_cases called with ⟨obj, world, created, rfl⟩ | ⟨world, kept, rfl⟩
  · rcases create_counted counted created few with ⟨nextCounted, position, moves⟩
    constructor
    · exact nextCounted
    have splitDistinct : Distinct (afterCreate run obj world) ↔
        obj ∉ run.created.map Creation.obj ∧ Distinct run := nodup_cons
    have splitAlive : PreviousAlive (afterCreate run obj world) ↔
        latestExists run = true ∧ PreviousAlive run := forall_mem_cons
    rw [splitDistinct, splitAlive, distinct]
    apply and_congr_left
    intro _
    rcases history : run.created with _ | ⟨latest, earlier⟩
    · simp [latestExists, history]
    rw [moves (by rw [history]; simp), ← history]
    constructor
    · intro fresh
      by_contra stuck
      have sameNumber := (counted.latest latest (by rw [history]; rfl)).1
      have isLatest : obj = latest.obj := by
        have equal : obj.objectID = latest.obj.objectID := by
          rw [sameNumber]
          apply UInt32.toNat_inj.mp
          rw [position, counted.counter]
          omega
        exact congrArg Object.mk equal
      apply fresh
      rw [history, isLatest]
      simp
    intro moved member
    rcases mem_map.mp member with ⟨creation, earlier, rfl⟩
    have := (counted.below creation earlier).1
    omega
  · exact ⟨counted.kept kept, distinct⟩

theorem run_store_counted {run final : StoreRun cfg} {calls : List (StoreCall cfg)}
    (reached : runStore run calls = .ok final) (few : final.advances < 2 ^ 32)
    (counted : Counted run) (distinct : Distinct run ↔ PreviousAlive run) :
    Counted final ∧ (Distinct final ↔ PreviousAlive final) := by
  induction calls generalizing run with
  | nil =>
    cases reached
    exact ⟨counted, distinct⟩
  | cons call rest ih =>
    rcases bind_ok.mp reached with ⟨next, stepped, onward⟩
    have fewer : next.advances < 2 ^ 32 := (run_store_advances onward).1.trans_lt few
    rcases call_store_counted stepped fewer counted distinct with ⟨nextCounted, nextDistinct⟩
    exact ih onward nextCounted nextDistinct

/-- A dead handle comes to life only when its number is created again. -/
theorem run_store_dead {run final : StoreRun cfg} {calls : List (StoreCall cfg)} {obj : Object}
    (reached : runStore run calls = .ok final) (dead : objectExists run.world obj = false) :
    objectExists final.world obj = false ∨
      ∃ later, final.created = later ++ run.created ∧ obj ∈ later.map Creation.obj := by
  induction calls generalizing run with
  | nil =>
    cases reached
    exact .inl dead
  | cons call rest ih =>
    rcases bind_ok.mp reached with ⟨next, stepped, onward⟩
    rcases call_store_cases stepped with ⟨other, world, created, rfl⟩ | ⟨world, kept, rfl⟩
    · rcases (run_store_advances onward).2 with ⟨later, history⟩
      have grown : final.created = (later ++ [⟨other, latestExists run⟩]) ++ run.created := by
        rw [history, append_assoc]
        rfl
      by_cases same : obj = other
      · exact .inr ⟨_, grown, by simp [same]⟩
      have stillDead : objectExists world obj = false := by
        rcases create_kinds created with ⟨isFree, table, _⟩
        rw [Bool.eq_false_iff, ne_eq, exists_iff_type, table,
          type_of_update_other (own_entry_of_free isFree) default same,
          ← exists_iff_type, dead]
        exact Bool.false_ne_true
      rcases ih onward stillDead with gone | ⟨newer, extended, member⟩
      · exact .inl gone
      right
      refine ⟨newer ++ [⟨other, latestExists run⟩], ?_, ?_⟩
      · rw [extended, append_assoc]
        rfl
      · rw [map_append]
        exact mem_append_left _ member
    have later := ih onward (kept.dead dead)
    exact later

/-- `create_object` never returns a number twice, and handles of deleted objects
stay dead, exactly in the runs that create every further object while the latest
creation still exists. -/
theorem identifiers_never_reused_iff (cfg : GameConfig) (calls : List (StoreCall cfg))
    (final : StoreRun cfg) (reached : runStore (startRun cfg) calls = .ok final)
    (few : final.advances < 2 ^ 32) :
    ((final.created.map Creation.obj).Nodup ∧
        ∀ earlier later middle, calls = earlier ++ later →
          runStore (startRun cfg) earlier = .ok middle → runStore middle later = .ok final →
          ∀ creation ∈ middle.created, objectExists middle.world creation.obj = false →
            objectExists final.world creation.obj = false) ↔
      ∀ creation ∈ final.created, creation.previousExists = true := by
  have counted := run_store_counted reached few (start_counted cfg)
    (by simp [Distinct, PreviousAlive, startRun])
  constructor
  · intro property
    exact counted.2.mp property.1
  · intro alive
    have distinct : Distinct final := counted.2.mpr alive
    constructor
    · exact distinct
    · intro earlier later middle _ _ onward creation member dead
      rcases run_store_dead onward dead with gone | ⟨newer, history, again⟩
      · exact gone
      · have twice := distinct
        rw [Distinct, history, map_append] at twice
        exact (disjoint_of_nodup_append twice again (mem_map_of_mem member)).elim

def smallConfig : GameConfig where
  maxTypeID := 1
  typeFlags := fun typeID flag => typeID == 0 && flag == .container
  typeAttributes := fun _ _ => 0
  hashTableLog := 4
  maxTypeID_lt := by decide
  mapContainer_holds := by decide
  mapContainer_lasts := by decide
  creature_single := by decide
  hashTableLog_lt := Nat.lt_succ_of_le (by decide)

def twoCreations : List (StoreCall smallConfig) := [.createObject, .createObject]

/-- The second object is put into the first, deleted, and a third one created. -/
def deleteLatest : List (StoreCall smallConfig) :=
  twoCreations ++ [.placeObject ⟨2⟩ ⟨1⟩ true, .deleteObject ⟨2⟩, .createObject]

def resultOf (calls : List (StoreCall smallConfig)) : StoreRun smallConfig :=
  (runStore (startRun smallConfig) calls).toOption.getD (startRun smallConfig)

theorem two_creations_distinct :
    ((resultOf twoCreations).created.map Creation.obj).Nodup ∧
      (resultOf twoCreations).created.length = 2 :=
  ⟨((identifiers_never_reused_iff smallConfig twoCreations (resultOf twoCreations) rfl
    (by decide)).mpr (by decide)).1, rfl⟩

/-- The third call returns the number of the object just deleted, so the stale
handle of that object is alive again. -/
theorem deleted_number_returned_again :
    ∃ middle final, runStore (startRun smallConfig) (deleteLatest.take 4) = .ok middle ∧
      runStore (startRun smallConfig) deleteLatest = .ok final ∧ final.advances < 2 ^ 32 ∧
      ¬ (final.created.map Creation.obj).Nodup ∧
      objectExists middle.world ⟨2⟩ = false ∧ objectExists final.world ⟨2⟩ = true :=
  ⟨resultOf (deleteLatest.take 4), resultOf deleteLatest, rfl, rfl, by decide, by decide,
    by decide, by decide⟩

end TibiaGame.ObjectIdentifiers
