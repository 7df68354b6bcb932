import TibiaGame.Library.CountedArray

/-!
# Who has attacked whom

Every player keeps the players that were attacked first. `RecordAttack` adds a victim, the end
of a fight or of a session clears the marks of a player everywhere.
-/

namespace TibiaGame.AttackerMarks

open Library.CountedArray Function

inductive WorldType where
  | normal
  | nonPvp
  | pvpEnforced
  deriving DecidableEq

/-- `playerkillerEnd` is missing without `PlayerData`. -/
structure Player where
  attackedPlayers : Counted UInt32
  aggressor : Bool
  formerAttackedPlayers : Counted UInt32
  formerAggressor : Bool
  formerLogoutRound : UInt32
  playerkillerEnd : Option Int32

/-- `players` is what `get_player` finds, and `playerList` is `PlayerList`, up to
`FirstFreePlayer`. -/
structure World where
  worldType : WorldType
  roundNr : UInt32
  players : UInt32 → Option Player
  playerList : Counted UInt32

def newPlayer (playerkillerEnd : Option Int32) : Player where
  attackedPlayers := ⟨fun _ => 0, 0⟩
  aggressor := false
  formerAttackedPlayers := ⟨fun _ => 0, 0⟩
  formerAggressor := false
  formerLogoutRound := 0
  playerkillerEnd := playerkillerEnd

def setPlayer (world : World) (id : UInt32) (player : Player) : World :=
  { world with players := Function.update world.players id (some player) }

def Player.isFormer (player : Player) (roundNr : UInt32) : Bool :=
  decide (roundNr ≤ player.formerLogoutRound + 5)

def Player.isAttacker (player : Player) (roundNr victimID : UInt32) (checkFormer : Bool) : Bool :=
  player.attackedPlayers.contains victimID ||
    checkFormer && player.isFormer roundNr && player.formerAttackedPlayers.contains victimID

def Player.isAggressor (player : Player) (roundNr : UInt32) (checkFormer : Bool) : Bool :=
  player.aggressor || checkFormer && player.formerAggressor && player.isFormer roundNr

/-- `IsAttackJustified` against a player who exists; `inParty` is the answer of `InPartyWith`. -/
def isAttackJustified (world : World) (id : UInt32) (victim : Player) (inParty : Bool) : Bool :=
  if world.worldType ≠ .pvpEnforced ∧ victim.playerkillerEnd = some 0 then
    victim.isAggressor world.roundNr true || inParty || victim.isAttacker world.roundNr id true
  else true

/-- The victim goes into the list, unless one of the two has attacked the other before. -/
def markVictim (world : World) (id victimID : UInt32) (player victim : Player) (inParty : Bool) :
    Player :=
  if !inParty && !victim.isAttacker world.roundNr id true &&
      !player.isAttacker world.roundNr victimID false then
    { player with attackedPlayers := player.attackedPlayers.add victimID }
  else player

def recordAttack (world : World) (id victimID : UInt32) (player : Player) (inParty : Bool) : World :=
  if world.worldType ≠ .normal ∨ victimID = id then world
  else match world.players victimID with
    | none => world
    | some victim =>
        let player := markVictim world id victimID player victim inParty
        setPlayer world id { player with
          aggressor := player.aggressor || !isAttackJustified world id victim inParty }

def clearAttacker (victimID : UInt32) (world : World) (id : UInt32) : World :=
  match world.players id with
  | none => world
  | some player =>
      setPlayer world id { player with attackedPlayers := player.attackedPlayers.remove victimID }

def Player.retire (player : Player) (roundNr : UInt32) : Player :=
  let attacked := player.attackedPlayers
  { player with
    formerAttackedPlayers :=
      ⟨fun index => if index < attacked.count then attacked.entry index
        else player.formerAttackedPlayers.entry index, attacked.count⟩
    attackedPlayers := { attacked with count := 0 }
    formerAggressor := player.aggressor
    formerLogoutRound := roundNr
    aggressor := false }

/-- The players in `PlayerList`, in order. -/
def listed (world : World) : List UInt32 :=
  (List.range world.playerList.count).map world.playerList.entry

def clearPlayerkillingMarks (world : World) (id : UInt32) (player : Player) : World :=
  let world := setPlayer world id (player.retire world.roundNr)
  (listed world).foldl (clearAttacker id) world

inductive Call where
  | recordAttack (id victimID : UInt32) (inParty : Bool)
  | clearAttacker (id victimID : UInt32)
  | clearPlayerkillingMarks (id : UInt32)
  | login (id : UInt32) (playerkillerEnd : Option Int32)
  | logout (id : UInt32)
  | nextRound (roundNr : UInt32)

/-- The calls go to players who are there; `JoinGame` makes only those who are not. -/
def step (world : World) : Call → Option World
  | .recordAttack id victimID inParty =>
      (world.players id).map fun player => recordAttack world id victimID player inParty
  | .clearAttacker id victimID => some (clearAttacker victimID world id)
  | .clearPlayerkillingMarks id =>
      (world.players id).map fun player => clearPlayerkillingMarks world id player
  | .login id playerkillerEnd =>
      if id = 0 ∨ (world.players id).isSome then none
      else
        let world := setPlayer world id (newPlayer playerkillerEnd)
        some { world with playerList := world.playerList.add id }
  | .logout id =>
      (world.players id).map fun player =>
        let world := clearPlayerkillingMarks world id player
        { world with
          playerList := world.playerList.remove id
          players := Function.update world.players id none }
  | .nextRound roundNr => some { world with roundNr := roundNr }

def run (world : World) : List Call → Option World
  | [] => some world
  | call :: rest => (step world call).bind fun after => run after rest

def emptyWorld (worldType : WorldType) : World where
  worldType := worldType
  roundNr := 0
  players := fun _ => none
  playerList := ⟨fun _ => 0, 0⟩

section Marks

variable {world after : World} {id victimID : UInt32} {player : Player}

/-- `victimID` is in the list of `id`. -/
def Attacks (world : World) (id victimID : UInt32) : Prop :=
  ∃ player, world.players id = some player ∧ player.attackedPlayers.Has victimID

/-- No list has anyone twice, and it names players who are in the game and have not attacked
the player first. -/
structure Marked (world : World) : Prop where
  exist : ∀ id, world.playerList.Has id ↔ (world.players id).isSome = true
  once : world.playerList.Distinct
  distinct : ∀ id player, world.players id = some player → player.attackedPlayers.Distinct
  irreflexive : ∀ id, ¬ Attacks world id id
  asymmetric : ∀ id victimID, Attacks world id victimID → ¬ Attacks world victimID id
  present : ∀ id victimID, Attacks world id victimID → world.playerList.Has victimID

theorem set_player_here : (setPlayer world id player).players id = some player := by
  simp only [setPlayer, update_self]

theorem set_player_other {other : UInt32} (different : other ≠ id) :
    (setPlayer world id player).players other = world.players other := by
  simp only [setPlayer, update_of_ne different]

structure Fewer (world after : World) : Prop where
  list : after.playerList = world.playerList
  exist : ∀ id, (after.players id).isSome = (world.players id).isSome
  fewer : ∀ id victimID, Attacks after id victimID → Attacks world id victimID
  distinct : ∀ id player, after.players id = some player → ∃ before,
    world.players id = some before ∧
      (before.attackedPlayers.Distinct → player.attackedPlayers.Distinct)

theorem fewer_refl (world : World) : Fewer world world where
  list := rfl
  exist := fun _ => rfl
  fewer := fun _ _ attacks => attacks
  distinct := fun _ player found => ⟨player, found, id⟩

theorem Fewer.trans {middle : World} (first : Fewer world middle) (second : Fewer middle after) :
    Fewer world after where
  list := second.list.trans first.list
  exist := fun id => (second.exist id).trans (first.exist id)
  fewer := fun id victimID attacks => first.fewer id victimID (second.fewer id victimID attacks)
  distinct := by
    intro id player found
    rcases second.distinct id player found with ⟨between, isBetween, later⟩
    rcases first.distinct id between isBetween with ⟨before, isBefore, earlier⟩
    exact ⟨before, isBefore, fun distinct => later (earlier distinct)⟩

theorem Fewer.marked (fewer : Fewer world after) (marked : Marked world) : Marked after where
  exist := by
    intro id
    rw [fewer.list, fewer.exist]
    exact marked.exist id
  once := by
    rw [fewer.list]
    exact marked.once
  distinct := by
    intro id player found
    rcases fewer.distinct id player found with ⟨before, isBefore, keeps⟩
    exact keeps (marked.distinct id before isBefore)
  irreflexive := fun id attacks => marked.irreflexive id (fewer.fewer id id attacks)
  asymmetric := fun id victimID attacks back =>
    marked.asymmetric id victimID (fewer.fewer _ _ attacks) (fewer.fewer _ _ back)
  present := by
    intro id victimID attacks
    rw [fewer.list]
    exact marked.present id victimID (fewer.fewer id victimID attacks)

theorem set_player_fewer {before : Player} (found : world.players id = some before)
    (fewer : ∀ victimID, player.attackedPlayers.Has victimID → before.attackedPlayers.Has victimID)
    (keeps : before.attackedPlayers.Distinct → player.attackedPlayers.Distinct) :
    Fewer world (setPlayer world id player) where
  list := rfl
  exist := by
    intro other
    by_cases here : other = id
    · rw [here, set_player_here, found]
      rfl
    · rw [set_player_other here]
  fewer := by
    intro other victimID attacks
    rcases attacks with ⟨now, isNow, has⟩
    by_cases here : other = id
    · rw [here, set_player_here] at isNow
      cases isNow
      rw [here]
      exact ⟨before, found, fewer victimID has⟩
    rw [set_player_other here] at isNow
    exact ⟨now, isNow, has⟩
  distinct := by
    intro other now isNow
    by_cases here : other = id
    · rw [here, set_player_here] at isNow
      cases isNow
      rw [here]
      exact ⟨before, found, keeps⟩
    rw [set_player_other here] at isNow
    exact ⟨now, isNow, fun distinct => distinct⟩

theorem clear_attacker_fewer (marked : Marked world) (victimID id : UInt32) :
    Fewer world (clearAttacker victimID world id) := by
  unfold clearAttacker
  rcases found : world.players id with _ | player
  · exact fewer_refl world
  have distinct := marked.distinct id player found
  apply set_player_fewer found
  · intro other has
    exact ((has_remove distinct).mp has).1
  · exact distinct_remove

theorem cleared_attacker (marked : Marked world) (victimID id : UInt32) :
    ¬ Attacks (clearAttacker victimID world id) id victimID := by
  intro attacks
  rcases attacks with ⟨now, isNow, has⟩
  unfold clearAttacker at isNow
  rcases found : world.players id with _ | player
  · simp only [found] at isNow
    cases isNow
  simp only [found] at isNow
  rw [set_player_here] at isNow
  cases isNow
  exact ((has_remove (marked.distinct id player found)).mp has).2 rfl

theorem clear_loop (victimID : UInt32) (ids : List UInt32) (marked : Marked world) :
    Fewer world (ids.foldl (clearAttacker victimID) world) ∧
      ∀ id ∈ ids, ¬ Attacks (ids.foldl (clearAttacker victimID) world) id victimID := by
  induction ids generalizing world with
  | nil =>
    constructor
    · exact fewer_refl world
    · nofun
  | cons first rest ih =>
    have fewer := clear_attacker_fewer marked victimID first
    have later := ih (fewer.marked marked)
    constructor
    · exact fewer.trans later.1
    intro id member attacks
    rcases List.mem_cons.mp member with same | inRest
    · rw [same] at attacks
      exact cleared_attacker marked victimID first (later.1.fewer _ _ attacks)
    · exact later.2 id inRest attacks

theorem mem_listed : id ∈ listed world ↔ world.playerList.Has id := by
  rw [listed, List.mem_map]
  constructor
  · rintro ⟨index, within, same⟩
    exact ⟨index, List.mem_range.mp within, same⟩
  · rintro ⟨index, within, same⟩
    exact ⟨index, List.mem_range.mpr within, same⟩

theorem retire_fewer (found : world.players id = some player) :
    Fewer world (setPlayer world id (player.retire world.roundNr)) := by
  apply set_player_fewer found
  · intro victimID has
    exact absurd has (has_nothing rfl)
  · intro _
    exact distinct_nothing rfl

theorem clear_marks_spec (marked : Marked world) (found : world.players id = some player) :
    Fewer world (clearPlayerkillingMarks world id player) ∧
      ∀ other, ¬ Attacks (clearPlayerkillingMarks world id player) other id := by
  have retired := retire_fewer found
  have stillMarked := retired.marked marked
  have loop := clear_loop id (listed (setPlayer world id (player.retire world.roundNr))) stillMarked
  constructor
  · exact retired.trans loop.1
  intro other attacks
  have before := loop.1.fewer other id attacks
  rcases before with ⟨now, isNow, _⟩
  have inList := (stillMarked.exist other).mpr (by rw [isNow]; rfl)
  exact loop.2 other (mem_listed.mpr inList) attacks

theorem mark_victim_cases (world : World) (id victimID : UInt32) (player victim : Player)
    (inParty : Bool) :
    markVictim world id victimID player victim inParty = player ∨
      ¬ victim.attackedPlayers.Has id ∧ ¬ player.attackedPlayers.Has victimID ∧
        markVictim world id victimID player victim inParty =
          { player with attackedPlayers := player.attackedPlayers.add victimID } := by
  unfold markVictim
  split_ifs with fresh
  · right
    simp only [Bool.and_eq_true, Bool.not_eq_true', Player.isAttacker, Bool.or_eq_false_iff] at fresh
    refine ⟨?_, ?_, rfl⟩
    · intro has
      rw [contains_iff.mpr has] at fresh
      exact Bool.noConfusion fresh.1.2.1
    · intro has
      rw [contains_iff.mpr has] at fresh
      exact Bool.noConfusion fresh.2.1
  · exact .inl rfl

section

variable (marked : Marked world)
include marked

/-- A victim who is there, and has not attacked the player, is added. -/
theorem marked_add {before victim : Player} (found : world.players id = some before)
    (isVictim : world.players victimID = some victim) (different : victimID ≠ id)
    (innocent : ¬ victim.attackedPlayers.Has id) (fresh : ¬ before.attackedPlayers.Has victimID)
    (added : player.attackedPlayers = before.attackedPlayers.add victimID) :
    Marked (setPlayer world id player) := by
  have attacks : ∀ other third, Attacks (setPlayer world id player) other third →
      Attacks world other third ∨ other = id ∧ third = victimID := by
    intro other third attacks
    rcases attacks with ⟨now, isNow, has⟩
    by_cases here : other = id
    · rw [here, set_player_here] at isNow
      cases isNow
      rw [added, has_add] at has
      rcases has with old | new
      · rw [here]
        exact .inl ⟨before, found, old⟩
      · exact .inr ⟨here, new⟩
    rw [set_player_other here] at isNow
    exact .inl ⟨now, isNow, has⟩
  have notBack : ¬ Attacks world victimID id := by
    intro back
    rcases back with ⟨now, isNow, has⟩
    rw [isVictim] at isNow
    cases isNow
    exact innocent has
  constructor
  · intro other
    change world.playerList.Has other ↔ _
    rw [marked.exist other]
    by_cases here : other = id
    · rw [here, set_player_here, found]
      rfl
    · rw [set_player_other here]
  · exact marked.once
  · intro other now isNow
    by_cases here : other = id
    · rw [here, set_player_here] at isNow
      cases isNow
      rw [added]
      exact distinct_add (marked.distinct id before found) fresh
    rw [set_player_other here] at isNow
    exact marked.distinct other now isNow
  · intro other itself
    rcases attacks other other itself with old | new
    · exact marked.irreflexive other old
    · exact different (new.2.symm.trans new.1)
  · intro other third forth back
    rcases attacks other third forth with oldForth | newForth
    · rcases attacks third other back with oldBack | newBack
      · exact marked.asymmetric other third oldForth oldBack
      rw [newBack.1, newBack.2] at oldForth
      exact notBack oldForth
    rcases attacks third other back with oldBack | newBack
    · rw [newForth.1, newForth.2] at oldBack
      exact notBack oldBack
    · exact different (newForth.2.symm.trans newBack.1)
  · intro other third forth
    change world.playerList.Has third
    rcases attacks other third forth with old | new
    · exact marked.present other third old
    rw [new.2, marked.exist, isVictim]
    rfl

theorem record_attack_marked (found : world.players id = some player) (victimID : UInt32)
    (inParty : Bool) : Marked (recordAttack world id victimID player inParty) := by
  unfold recordAttack
  split_ifs with idle
  · exact marked
  rw [not_or] at idle
  rcases isVictim : world.players victimID with _ | victim
  · exact marked
  simp only
  rcases mark_victim_cases world id victimID player victim inParty with same | added
  · rw [same]
    apply Fewer.marked _ marked
    apply set_player_fewer found
    · intro other has
      exact has
    · intro distinct
      exact distinct
  rw [added.2.2]
  exact marked_add marked found isVictim idle.2 added.1 added.2.1 rfl

theorem login_marked (absent : world.players id = none) (playerkillerEnd : Option Int32) :
    Marked { setPlayer world id (newPlayer playerkillerEnd) with
      playerList := world.playerList.add id } := by
  have attacks : ∀ other victimID, Attacks { setPlayer world id (newPlayer playerkillerEnd) with
      playerList := world.playerList.add id } other victimID → Attacks world other victimID := by
    intro other victimID attacks
    rcases attacks with ⟨now, isNow, has⟩
    by_cases here : other = id
    · rw [here] at isNow
      cases set_player_here.symm.trans isNow
      exact absurd has (has_nothing rfl)
    · exact ⟨now, (set_player_other here).symm.trans isNow, has⟩
  constructor
  · intro other
    rw [has_add, marked.exist]
    by_cases here : other = id
    · rw [here]
      exact iff_of_true (.inr rfl) (by rw [set_player_here]; rfl)
    rw [set_player_other here]
    exact or_iff_left here
  · apply distinct_add marked.once
    intro has
    rw [marked.exist, absent] at has
    cases has
  · intro other now isNow
    by_cases here : other = id
    · rw [here] at isNow
      cases set_player_here.symm.trans isNow
      exact distinct_nothing rfl
    · exact marked.distinct other now ((set_player_other here).symm.trans isNow)
  · intro other itself
    exact marked.irreflexive other (attacks other other itself)
  · intro other victimID forth back
    exact marked.asymmetric other victimID (attacks _ _ forth) (attacks _ _ back)
  · intro other victimID forth
    exact has_add.mpr (.inl (marked.present other victimID (attacks _ _ forth)))

theorem logout_marked (cleared : ∀ other, ¬ Attacks world other id) :
    Marked { world with
      playerList := world.playerList.remove id
      players := update world.players id none } := by
  have here : update world.players id none id = none := update_self _ _ _
  have elsewhere : ∀ other, other ≠ id →
      update world.players id none other = world.players other :=
    fun other different => update_of_ne different _ _
  have attacks : ∀ other victimID, Attacks { world with
      playerList := world.playerList.remove id
      players := update world.players id none } other victimID →
        Attacks world other victimID := by
    intro other victimID attacks
    rcases attacks with ⟨now, isNow, has⟩
    by_cases gone : other = id
    · rw [gone] at isNow
      cases here.symm.trans isNow
    · exact ⟨now, (elsewhere other gone).symm.trans isNow, has⟩
  constructor
  · intro other
    rw [has_remove marked.once, marked.exist]
    change _ ↔ (update world.players id none other).isSome = true
    by_cases gone : other = id
    · rw [gone, here]
      exact iff_of_false (fun both => both.2 rfl) Bool.false_ne_true
    rw [elsewhere other gone]
    exact and_iff_left gone
  · exact distinct_remove marked.once
  · intro other now isNow
    by_cases gone : other = id
    · rw [gone] at isNow
      cases here.symm.trans isNow
    · exact marked.distinct other now ((elsewhere other gone).symm.trans isNow)
  · intro other itself
    exact marked.irreflexive other (attacks other other itself)
  · intro other victimID forth back
    exact marked.asymmetric other victimID (attacks _ _ forth) (attacks _ _ back)
  · intro other victimID forth
    apply (has_remove marked.once).mpr
    have before := attacks other victimID forth
    refine ⟨marked.present other victimID before, ?_⟩
    intro same
    rw [same] at before
    exact cleared other before

theorem step_marked {call : Call} (went : step world call = some after) : Marked after := by
  cases call with
  | recordAttack id victimID inParty =>
    rcases Option.map_eq_some_iff.mp went with ⟨player, found, rfl⟩
    exact record_attack_marked marked found victimID inParty
  | clearAttacker id victimID =>
    cases went
    exact (clear_attacker_fewer marked victimID id).marked marked
  | clearPlayerkillingMarks id =>
    rcases Option.map_eq_some_iff.mp went with ⟨player, found, rfl⟩
    exact (clear_marks_spec marked found).1.marked marked
  | login id playerkillerEnd =>
    simp only [step] at went
    split_ifs at went with refused
    cases went
    rw [not_or, Bool.not_eq_true, Option.isSome_eq_false_iff, Option.isNone_iff_eq_none] at refused
    exact login_marked marked refused.2 playerkillerEnd
  | logout id =>
    rcases Option.map_eq_some_iff.mp went with ⟨player, found, rfl⟩
    have cleared := clear_marks_spec marked found
    exact logout_marked (cleared.1.marked marked) cleared.2
  | nextRound roundNr =>
    cases went
    exact ⟨marked.exist, marked.once, marked.distinct, marked.irreflexive, marked.asymmetric,
      marked.present⟩

end

theorem run_marked (calls : List Call) (marked : Marked world)
    (ran : run world calls = some after) : Marked after := by
  induction calls generalizing world with
  | nil =>
    cases ran
    exact marked
  | cons call rest ih =>
    rcases Option.bind_eq_some_iff.mp ran with ⟨middle, went, goesOn⟩
    exact ih (step_marked marked went) goesOn

theorem empty_marked (worldType : WorldType) : Marked (emptyWorld worldType) := by
  have noAttacks : ∀ id victimID, ¬ Attacks (emptyWorld worldType) id victimID := by
    intro id victimID attacks
    rcases attacks with ⟨player, found, _⟩
    cases found
  constructor
  · intro id
    exact iff_of_false (has_nothing rfl) Bool.false_ne_true
  · exact distinct_nothing rfl
  · nofun
  · exact fun id => noAttacks id id
  all_goals
    intro id victimID forth
    exact absurd forth (noAttacks id victimID)

/-- In every run the marks are those of first attacks, among players who are in the list. -/
theorem marks_are_first_attacks (worldType : WorldType) (calls : List Call)
    (ran : run (emptyWorld worldType) calls = some after) :
    (∀ id, ¬ Attacks after id id) ∧
      (∀ id victimID, Attacks after id victimID → ¬ Attacks after victimID id) ∧
      (∀ id player, after.players id = some player → player.attackedPlayers.Distinct) ∧
      ∀ id victimID, Attacks after id victimID → after.playerList.Has victimID := by
  have marked := run_marked calls (empty_marked worldType) ran
  exact ⟨marked.irreflexive, marked.asymmetric, marked.distinct, marked.present⟩

/-- Two players fight, and a third one who has attacked both leaves. -/
def brawl : List Call :=
  [.login 1 (some 0), .login 2 (some 0), .login 3 none, .recordAttack 1 2 false,
    .recordAttack 2 1 false, .recordAttack 3 1 false, .recordAttack 3 2 false, .logout 3]

theorem brawl_is_marked : ∃ after, run (emptyWorld .normal) brawl = some after ∧
    (∀ id victimID, Attacks after id victimID → ¬ Attacks after victimID id) ∧
      ∀ id victimID, Attacks after id victimID → after.playerList.Has victimID := by
  have returns : (run (emptyWorld .normal) brawl).isSome = true := by decide
  rcases Option.isSome_iff_exists.mp returns with ⟨after, ran⟩
  have marks := marks_are_first_attacks .normal brawl ran
  exact ⟨after, ran, marks.2.1, marks.2.2.2⟩

end Marks

end TibiaGame.AttackerMarks
